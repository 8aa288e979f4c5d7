import Polychrome.Library.Bytes

/-!
# The PHP runtime in the zygote

This module embeds {lit}`poly_initialize` and {lit}`poly_shutdown` with the
variables of the shim they set.  PHP's own start-up is a parameter: it succeeds,
fails or bails out.

Main results:

- Definitions {lit}`polyInitialize` and {lit}`polyShutdown`.
- Definition {lit}`Runtime.Sane` and theorems {lit}`sane_polyInitialize` and
  {lit}`sane_shutdown`: PHP's hooks are taken over exactly as long as the runtime is
  up, and the shim never calls itself through them.

Current gaps:

- {lit}`fcgi_init` and the hooks' installation are assumed not to bail out.
-/

namespace Polychrome

namespace Zygote

/-- What a hook of PHP points to. -/
inductive Hook
  /-- PHP's own function -/
  | php
  /-- {lit}`import_environment` or {lit}`load_environment` -/
  | polychrome
deriving DecidableEq, Repr

/-- What {lit}`poly_initialize` is called with. -/
structure Arguments where
  root : Bytes
  ini : Option Bytes
  defines : List Bytes
  preload : Option Bytes
deriving DecidableEq, Repr

/-- The static variables of the shim and PHP's hooks. -/
structure Runtime where
  applicationRoot : Option Bytes
  preloadPath : Option Bytes
  preloadUser : Option Bytes
  /-- {lit}`POLYCHROME_ROOT` in the environment -/
  environmentRoot : Option Bytes
  iniEntries : List Bytes
  iniPathOverride : Option Bytes
  sigpipeIgnored : Bool
  runtimeInitialized : Bool
  importHook : Hook
  loadHook : Hook
  originalImport : Option Hook
  originalLoad : Option Hook
deriving DecidableEq, Repr

/-- A process that has just been started. -/
def Runtime.fresh : Runtime where
  applicationRoot := none
  preloadPath := none
  preloadUser := none
  environmentRoot := none
  iniEntries := []
  iniPathOverride := none
  sigpipeIgnored := false
  runtimeInitialized := false
  importHook := .php
  loadHook := .php
  originalImport := none
  originalLoad := none

/-- How PHP's start-up ends. -/
inductive StartUp
  | succeeded
  | failed
  | bailedOut
deriving DecidableEq, Repr

/-- {lit}`poly_initialize`, with the status it returns; {lit}`user` is the name that
{lit}`getpwuid` finds. -/
def polyInitialize (args : Arguments) (user : Option Bytes) (startUp : StartUp) (r : Runtime) :
    Runtime × Nat :=
  let named := { r with applicationRoot := some args.root, preloadPath := args.preload }
  match user with
  | none => (named, 1)
  | some name =>
      let prepared := { named with
        preloadUser := some name
        environmentRoot := some args.root
        iniEntries := args.defines
        iniPathOverride := args.ini
        sigpipeIgnored := true }
      match startUp with
      | .succeeded =>
          ({ prepared with
            runtimeInitialized := true
            originalImport := some prepared.importHook
            originalLoad := some prepared.loadHook
            importHook := .polychrome
            loadHook := .polychrome }, 0)
      | .failed | .bailedOut => (prepared, 1)

/-- {lit}`poly_shutdown`.  A bailout of PHP's shutdown comes after the hooks. -/
def polyShutdown (r : Runtime) : Runtime :=
  if r.runtimeInitialized then
    { r with
      importHook := r.originalImport.getD r.importHook
      loadHook := r.originalLoad.getD r.loadHook
      iniEntries := []
      preloadUser := none
      runtimeInitialized := false }
  else r

/-- The hooks are taken over exactly while the runtime is up, and what has been saved of
them is PHP's own. -/
structure Runtime.Sane (r : Runtime) : Prop where
  importHook : r.importHook = if r.runtimeInitialized then .polychrome else .php
  loadHook : r.loadHook = if r.runtimeInitialized then .polychrome else .php
  saved : r.runtimeInitialized = true →
    r.originalImport = some .php ∧ r.originalLoad = some .php

/-- A fresh runtime is sane. -/
theorem sane_fresh : Runtime.fresh.Sane := ⟨rfl, rfl, by simp [Runtime.fresh]⟩

/-- A second call would save the shim's own functions. -/
theorem sane_polyInitialize {r : Runtime} (h : r.Sane) (hdown : r.runtimeInitialized = false)
    (args : Arguments) (user : Option Bytes) (startUp : StartUp) :
    (polyInitialize args user startUp r).1.Sane := by
  rcases h with ⟨himport, hload, -⟩
  rw [hdown, if_neg Bool.false_ne_true] at himport hload
  cases user with
  | none => exact ⟨by simp [polyInitialize, hdown, himport], by simp [polyInitialize, hdown, hload],
      by simp [polyInitialize, hdown]⟩
  | some name =>
      cases startUp with
      | succeeded => exact ⟨rfl, rfl, fun _ => ⟨congrArg some himport, congrArg some hload⟩⟩
      | failed => exact ⟨by simp [polyInitialize, hdown, himport],
          by simp [polyInitialize, hdown, hload], by simp [polyInitialize, hdown]⟩
      | bailedOut => exact ⟨by simp [polyInitialize, hdown, himport],
          by simp [polyInitialize, hdown, hload], by simp [polyInitialize, hdown]⟩

/-- Shutting down keeps it sane. -/
theorem sane_shutdown {r : Runtime} (h : r.Sane) : (polyShutdown r).Sane := by
  unfold polyShutdown
  split
  case isTrue hup =>
    rcases h.saved hup with ⟨himport, hload⟩
    exact ⟨by simp [himport], by simp [hload], by simp⟩
  case isFalse => exact h

/-- A runtime that was shut down is down. -/
theorem shutdown_down (r : Runtime) : (polyShutdown r).runtimeInitialized = false := by
  unfold polyShutdown
  split
  · rfl
  case isFalse hdown => simpa using hdown

/-- The runtime is up exactly if it could be initialised. -/
theorem polyInitialize_up {r : Runtime} (hdown : r.runtimeInitialized = false) (args : Arguments)
    (user : Option Bytes) (startUp : StartUp) :
    (polyInitialize args user startUp r).1.runtimeInitialized =
      ((polyInitialize args user startUp r).2 == 0) := by
  cases user with
  | none => simpa [polyInitialize] using hdown
  | some name => cases startUp <;> simp [polyInitialize, hdown]

end Zygote

end Polychrome

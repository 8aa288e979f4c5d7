import Polychrome.CommandLine.Reading

/-!
# Writing the command line

What can be served is known without a command line, and every such configuration can
be written as one.  Its paths are canonical and its numbers decimal, so that the line
is read in one way from every working directory and in every order of its options.

Main results:

- Definition {lit}`Servable`: the configurations that can be served.
- Definition {lit}`Spells` and theorem {lit}`spells_settingsOf`: the settings that write
  a configuration down.
- Theorem {lit}`parse_spelled_iff`: they are read as this configuration whenever it can
  be served at all.
-/

namespace Polychrome

namespace CommandLine

open Posix Rust

/-- What can be served from the files, with the number of workers that is taken without
the option. -/
structure Servable (files : FileSystem) (defaultWorkers : Nat) (c : Config) : Prop where
  root : ∃ p, c.root = text p ∧ files.isDirectory p = true
  listen : Accepts .listen c.listen
  workers : 1 ≤ c.workers ∧ (c.workers ≤ 4096 ∨ c.workers = defaultWorkers)
  timeout : 1 ≤ c.timeout ∧ c.timeout ≤ 86400
  ini : ∀ path, c.ini = some path → ∃ p, path = text p ∧ files.Solid p
  defines : ∀ define ∈ c.defines, Accepts .d define

/-! ## Settings for a configuration -/

/-- The values that an option is given.  A number of workers that the option does not
accept is left to the default. -/
def valuesIn (c : Config) : ValueOption → List Bytes
  | .root => [c.root]
  | .listen => [c.listen]
  | .workers => if c.workers ≤ 4096 then [bytes c.workers.repr] else []
  | .requestTimeout => [bytes c.timeout.repr]
  | .c => c.ini.toList
  | .d => c.defines

/-- The settings give every option its values, in whatever order the options come. -/
structure Spells (c : Config) (settings : List Setting) : Prop where
  values : ∀ option, valuesOf option settings = valuesIn c option
  noPreload : .noPreload ∈ settings ↔ c.preload = false

/-- One option after the other. -/
def settingsOf (c : Config) : List Setting :=
  (if c.preload then [] else [.noPreload]) ++
    [.root, .listen, .workers, .requestTimeout, .c, .d].flatMap fun option =>
      (valuesIn c option).map (Setting.value option)

/-- The values of two lists of settings. -/
@[simp]
theorem valuesOf_append (option : ValueOption) (settings settings' : List Setting) :
    valuesOf option (settings ++ settings') =
      valuesOf option settings ++ valuesOf option settings' :=
  List.filterMap_append

/-- Settings of one option have values for this option only. -/
@[simp]
theorem valuesOf_map (option option' : ValueOption) (values : List Bytes) :
    valuesOf option (values.map (Setting.value option')) =
      if option' = option then values else [] := by
  rw [valuesOf, List.filterMap_map]
  split
  case isTrue heq =>
    subst heq
    have hvalue : Setting.valueOf option' ∘ Setting.value option' = some := by
      funext text
      exact if_pos rfl
    rw [hvalue, List.filterMap_some]
  case isFalse hne =>
    rw [List.filterMap_eq_nil_iff]
    intro text _
    exact if_neg hne

/-- One option after the other spells the configuration. -/
theorem spells_settingsOf (c : Config) : Spells c (settingsOf c) where
  values option := by
    have hflag : valuesOf option (if c.preload then [] else [.noPreload]) = [] := by
      split <;> rfl
    rw [settingsOf, valuesOf_append, hflag]
    cases option <;> simp
  noPreload := by
    rw [settingsOf, List.mem_append]
    cases c.preload <;> simp

/-! ## Reading what has been written -/

section Spelled

variable {host : Host} {c : Config} {settings : List Setting}

/-- What a servable configuration needs, its options accept. -/
theorem Servable.accepts {files : FileSystem} {defaultWorkers : Nat}
    (h : Servable files defaultWorkers c) {option : ValueOption} {value : Bytes}
    (hvalue : value ∈ valuesIn c option) : Accepts option value := by
  cases option with
  | root => exact trivial
  | c => exact trivial
  | listen =>
      rw [List.mem_singleton.mp hvalue]
      exact h.listen
  | workers =>
      rw [valuesIn] at hvalue
      split at hvalue
      case isTrue hmost =>
        rw [List.mem_singleton.mp hvalue]
        exact ⟨isUtf8_repr _, c.workers, numeral_repr _, h.workers.1, hmost⟩
      case isFalse => cases hvalue
  | requestTimeout =>
      rw [List.mem_singleton.mp hvalue]
      exact ⟨isUtf8_repr _, c.timeout, numeral_repr _, h.timeout⟩
  | d => exact h.defines value hvalue

/-- The settings that spell an acceptable configuration are valid. -/
theorem Spells.valid (h : Spells c settings)
    (haccepts : ∀ option, ∀ value ∈ valuesIn c option, Accepts option value) :
    ∀ setting ∈ settings, setting.Valid := by
  intro setting hmem
  cases setting with
  | noPreload => exact trivial
  | value option value =>
      apply haccepts option value
      rw [← h.values option]
      exact List.mem_filterMap.mpr ⟨_, hmem, if_pos rfl⟩

/-- The last value of an option is the configuration's own. -/
theorem Spells.last (h : Spells c settings) (option : ValueOption) :
    last option settings = (valuesIn c option).getLast? := by
  rw [CommandLine.last, h.values option]

/-- A number is read from the value of the last occurrence. -/
theorem counts_of_last {option : ValueOption} {otherwise n : Nat} {value : Bytes}
    (hlast : CommandLine.last option settings = some value) (hn : Numeral value n) :
    Counts option settings otherwise n := by
  constructor
  · intro hnone
    rw [hnone] at hlast
    cases hlast
  · intro value' hvalue'
    rw [Option.some.inj (hvalue'.symm.trans hlast)]
    exact hn

/-- Without a value the default counts. -/
theorem counts_of_none {option : ValueOption} {otherwise : Nat}
    (hlast : CommandLine.last option settings = none) :
    Counts option settings otherwise otherwise := by
  refine ⟨fun _ => rfl, ?_⟩
  intro value hvalue
  rw [hlast] at hvalue
  cases hvalue

/-- The settings of a servable configuration lead to it. -/
theorem Spells.serves (h : Spells c settings)
    (hc : Servable host.files host.defaultWorkers c) : Serves host settings c where
  root := by
    rcases hc.root with ⟨p, hroot, hdir⟩
    refine ⟨p, ?_, hdir, hroot⟩
    rw [h.last .root]
    change host.files.realpath host.cwd c.root = some p
    rw [hroot]
    exact FileSystem.realpath_text (FileSystem.solid_of_isDirectory hdir)
  listen := by
    rw [h.last .listen]
    rfl
  workers := by
    have hlast := h.last .workers
    by_cases hmost : c.workers ≤ 4096
    · rw [valuesIn, if_pos hmost] at hlast
      exact counts_of_last hlast (numeral_repr c.workers)
    · rw [valuesIn, if_neg hmost] at hlast
      rw [hc.workers.2.resolve_left hmost]
      exact counts_of_none hlast
  timeout := counts_of_last (h.last .requestTimeout) (numeral_repr c.timeout)
  preload := by
    rw [h.noPreload, Bool.not_eq_false]
  ini := by
    rw [h.last .c, valuesIn]
    cases hini : c.ini with
    | none => exact Or.inl ⟨rfl, rfl⟩
    | some path =>
        rcases hc.ini path hini with ⟨p, rfl, hsolid⟩
        exact Or.inr ⟨text p, p, rfl, FileSystem.realpath_text hsolid, rfl⟩
  defines := (h.values .d).symm

/-- A servable configuration is read from every line that spells it. -/
theorem parse_spelled (h : Spells c settings)
    (hc : Servable host.files host.defaultWorkers c) :
    parse host (written settings) = .ok (.serve c) :=
  parse_serve_iff.mpr ⟨settings, h.valid fun _ _ => hc.accepts, rfl, h.serves hc⟩

/-- A configuration that is served could be. -/
theorem Serves.servable (h : Serves host settings c)
    (hvalid : ∀ setting ∈ settings, setting.Valid) :
    Servable host.files host.defaultWorkers c := by
  have hsound := h.sound hvalid
  constructor
  · exact hsound.root
  · refine ⟨?_, hsound.listen⟩
    rw [h.listen]
    cases hlast : CommandLine.last .listen settings with
    | none =>
        have hascii : ("127.0.0.1:9000".toList.all fun c => c.toNat ≤ 127) = true := by
          decide +kernel
        exact isUtf8_bytes fun c hc => of_decide_eq_true (List.all_eq_true.mp hascii c hc)
    | some value => exact (accepts_of_last hvalid hlast).1
  · exact hsound.workers.imp_right fun hmost => hmost.imp_right And.right
  · exact hsound.timeout
  · intro path hpath
    rcases h.ini with ⟨-, hnone⟩ | ⟨before, p, -, hreal, hini⟩
    · rw [hnone] at hpath
      cases hpath
    · rw [hini] at hpath
      cases hpath
      exact ⟨p, rfl, FileSystem.realpath_solid hreal⟩
  · intro define hmem
    rw [h.defines] at hmem
    exact accepts_of_mem hvalid hmem

end Spelled

/-- A configuration can be served exactly if it can be written down, and however it is
written, it is read back. -/
theorem parse_spelled_iff (host : Host) (c : Config) :
    ((∃ args, parse host args = .ok (.serve c)) ↔
      Servable host.files host.defaultWorkers c) ∧
    ∀ settings, Spells c settings →
      (parse host (written settings) = .ok (.serve c) ↔
        Servable host.files host.defaultWorkers c) := by
  have hservable : ∀ args, parse host args = .ok (.serve c) →
      Servable host.files host.defaultWorkers c := by
    intro args hargs
    rcases parse_serve_iff.mp hargs with ⟨settings', hvalid, -, hserves⟩
    exact hserves.servable hvalid
  refine ⟨⟨?_, fun hc => ⟨_, parse_spelled (spells_settingsOf c) hc⟩⟩,
    fun settings h => ⟨hservable _, parse_spelled h⟩⟩
  rintro ⟨args, hargs⟩
  exact hservable args hargs

/-- As many workers as {lit}`wideHost` takes by itself, and two settings of PHP. -/
def wideConfig : Config where
  root := bytes "/"
  listen := bytes "unix:/run/php.sock"
  workers := 8192
  timeout := 5
  preload := false
  ini := none
  defines := [bytes "date.timezone=UTC", bytes "opcache.enable=1"]

/-- Its settings out of order. -/
def wideSettings : List Setting :=
  [.value .d (bytes "date.timezone=UTC"), .value .requestTimeout (bytes "5"), .noPreload,
    .value .listen (bytes "unix:/run/php.sock"), .value .d (bytes "opcache.enable=1"),
    .value .root (bytes "/")]

/-- What one line is read as can be served, and so it is read from the other lines, too. -/
theorem parse_spelled_iff_sample :
    Servable wideHost.files wideHost.defaultWorkers wideConfig ∧
      parse wideHost (written wideSettings) = .ok (.serve wideConfig) := by
  have hspells : Spells wideConfig wideSettings := by
    refine ⟨fun option => ?_, by decide +kernel⟩
    cases option <;> decide +kernel
  have hparse : parse wideHost (written (settingsOf wideConfig)) = .ok (.serve wideConfig) := by
    decide +kernel
  obtain ⟨hserved, hspelled⟩ := parse_spelled_iff wideHost wideConfig
  have hservable := hserved.mp ⟨_, hparse⟩
  exact ⟨hservable, (hspelled wideSettings hspells).mpr hservable⟩

end CommandLine

end Polychrome

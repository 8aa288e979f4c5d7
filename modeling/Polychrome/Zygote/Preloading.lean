import Polychrome.Preload.Containment
import Polychrome.Zygote.Run

/-!
# The preload script

This module embeds {lit}`preload.php`, which PHP runs in the zygote as it starts.  How
{lit}`opcache_compile_file` ends is a parameter; it may depend on what has been compiled
before.

Main results:

- Definition {lit}`preload`: the files that are compiled, and how the script ends.
- Theorem {lit}`preload_compiles`: what the zygote preloads.

Current gaps:

- The time that the log tells is a parameter.
-/

namespace Polychrome

namespace Zygote

open CommandLine Php Posix Preload

/-- How {lit}`opcache_compile_file` ends. -/
inductive Compilation
  | compiled
  | refused
  /-- a fatal error, which PHP's start-up does not survive -/
  | fatal
deriving DecidableEq, Repr

/-- How the script ends. -/
inductive Ending
  | finished (log : Bytes)
  | thrown (e : Thrown)
  | fatal
deriving DecidableEq, Repr

/-- The files that were handed to {lit}`opcache_compile_file`, and the end. -/
structure Script where
  asked : List Path
  ending : Ending
deriving DecidableEq, Repr

/-- {lit}`!$root` for what {lit}`getenv` returns. -/
def isFalsy : Option Bytes → Bool
  | none => true
  | some root => root == [] || root == bytes "0"

/-- The texts of the exceptions that the script throws itself. -/
def rootRequired : Thrown :=
  .runtimeException (bytes "POLYCHROME_ROOT is required for automatic preloading")

def notPreloaded (file : Path) : Thrown :=
  .runtimeException (bytes "Could not preload " ++ text file)

/-- The line that is logged in the end. -/
def logLine (found : Found) (elapsed root : Bytes) : Bytes :=
  bytes "polychrome: preload compiled=" ++ bytes (toString found.files.length) ++
    bytes " excluded=" ++ bytes (toString found.skipped) ++ bytes " elapsed_ms=" ++ elapsed ++
    bytes " root=" ++ root ++ bytes "; PHP reports unresolved classes during linking"

/-- The loop over the files, with those that have been compiled before. -/
def compileFiles (compile : List Path → Path → Compilation) (before : List Path) :
    List Path → List Path × Option Ending
  | [] => (before, none)
  | file :: files =>
      match compile before file with
      | .compiled => compileFiles compile (before ++ [file]) files
      | .refused => (before ++ [file], some (.thrown (notPreloaded file)))
      | .fatal => (before ++ [file], some .fatal)

/-- {lit}`preload.php`; {lit}`root` is what {lit}`getenv('POLYCHROME_ROOT')` returns. -/
def preload (host : Preload.Host) (compile : List Path → Path → Compilation) (elapsed : Bytes)
    (root : Option Bytes) : Script :=
  if isFalsy root then { asked := [], ending := .thrown rootRequired }
  else
    match discover host (root.getD []) with
    | .error e => { asked := [], ending := .thrown e }
    | .ok found =>
        let (asked, ending) := compileFiles compile [] found.files
        { asked := asked
          ending := ending.getD (.finished (logLine found elapsed (root.getD []))) }

/-! ## The loop -/

section Loop

variable {compile : List Path → Path → Compilation}

/-- All files are compiled, one behind the other. -/
def AllCompile (compile : List Path → Path → Compilation) : List Path → List Path → Prop
  | _, [] => True
  | before, file :: files =>
      compile before file = .compiled ∧ AllCompile compile (before ++ [file]) files

/-- The loop stops at the first file that is not compiled, and there only. -/
theorem compileFiles_spec (before files : List Path) :
    (compileFiles compile before files = (before ++ files, none) ∧
        AllCompile compile before files) ∨
      ∃ done file rest ending, files = done ++ file :: rest ∧
        AllCompile compile before done ∧ ¬ AllCompile compile before files ∧
        compileFiles compile before files = (before ++ done ++ [file], some ending) ∧
        (ending = .thrown (notPreloaded file) ∨ ending = .fatal) := by
  induction files generalizing before with
  | nil => exact Or.inl ⟨by rw [compileFiles, List.append_nil], trivial⟩
  | cons file files ih =>
      rw [compileFiles]
      cases hcompile : compile before file with
      | compiled =>
          rcases ih (before ++ [file]) with ⟨hall, hcompiled⟩ |
            ⟨done, stopped, rest, ending, hfiles, hdone, hnot, hstop, hending⟩
          · refine Or.inl ⟨?_, hcompile, hcompiled⟩
            rw [hall, List.append_assoc]
            rfl
          · refine Or.inr ⟨file :: done, stopped, rest, ending, ?_, ⟨hcompile, hdone⟩, ?_, ?_,
              hending⟩
            · rw [hfiles]
              rfl
            · exact fun hall => hnot hall.2
            · rw [hstop, List.append_assoc before]
              rfl
      | refused =>
          refine Or.inr ⟨[], file, files, .thrown (notPreloaded file), rfl, trivial, ?_, ?_,
            Or.inl rfl⟩
          · intro hall
            cases hcompile.symm.trans hall.1
          · rw [List.append_nil]
      | fatal =>
          refine Or.inr ⟨[], file, files, .fatal, rfl, trivial, ?_, ?_, Or.inr rfl⟩
          · intro hall
            cases hcompile.symm.trans hall.1
          · rw [List.append_nil]

end Loop

/-! ## What the zygote preloads -/

/-- What a run of the script for an application comes to. -/
structure Preloads (host : Preload.Host) (compile : List Path → Path → Compilation)
    (elapsed : Bytes) (root : Path) (script : Script) : Prop where
  ascending : script.asked.Pairwise fun file file' => text file < text file'
  preloadable : ∀ file ∈ script.asked, IsPreloadable host root file ∧ isKeptOut root file = false
  found : ∀ found, discover host (text root) = .ok found →
    script.asked <+: found.files ∧
      (AllCompile compile [] found.files → script.asked = found.files)
  finished : ∀ log, script.ending = .finished log ↔
    ∃ found, discover host (text root) = .ok found ∧ AllCompile compile [] found.files ∧
      log = logLine found elapsed (text root)
  thrown : ∀ e, script.ending = .thrown e →
    discover host (text root) = .error e ∨
      ∃ file, script.asked.getLast? = some file ∧ e = notPreloaded file

section Runs

variable {host : Preload.Host} {compile : List Path → Path → Compilation} {elapsed : Bytes}
  {root : Path}

/-- A root is never falsy. -/
theorem isFalsy_text (root : Path) : isFalsy (some (text root)) = false := by
  cases root with
  | nil => rfl
  | cons c root =>
      rw [text_of_ne_nil (List.cons_ne_nil _ _), below_cons]
      rfl

/-- Preloading a root discovers it. -/
theorem preload_text :
    preload host compile elapsed (some (text root)) =
      match discover host (text root) with
      | .error e => { asked := [], ending := .thrown e }
      | .ok found =>
          { asked := (compileFiles compile [] found.files).1
            ending := (compileFiles compile [] found.files).2.getD
              (.finished (logLine found elapsed (text root))) } := by
  rw [preload, isFalsy_text, if_neg Bool.false_ne_true]
  rfl

/-- The files of a discovery may all be preloaded. -/
theorem preloadable_of_discover {found : Found} (hroot : host.files.isDirectory root = true)
    (h : discover host (text root) = .ok found) {file : Path} (hfile : file ∈ found.files) :
    IsPreloadable host root file ∧ isKeptOut root file = false := by
  obtain ⟨root', list, hroot', -, hfiles⟩ := mem_discover_iff h
  have hsame : root' = root := by
    have hreal : host.phpRealpath (text root) = .ok (some root) := by
      rw [Preload.Host.phpRealpath, if_neg (zero_notMem_text root), if_neg]
      · rw [View.realpath_text (FileSystem.solid_of_isDirectory hroot)]
      · cases root with
        | nil => exact List.cons_ne_nil _ _
        | cons c root =>
            rw [text_of_ne_nil (List.cons_ne_nil _ _), below_cons]
            exact List.cons_ne_nil _ _
    cases hroot'.symm.trans hreal
    rfl
  obtain ⟨⟨package, -, hleads⟩, hfree⟩ := (hfiles file).mp hfile
  exact ⟨hsame ▸ isPreloadable_of_leads hleads, hsame ▸ hfree⟩

/-- A discovery that fails leaves nothing preloaded. -/
theorem preloads_of_error {e : Thrown} (hdiscover : discover host (text root) = .error e) :
    Preloads host compile elapsed root { asked := [], ending := .thrown e } where
  ascending := List.Pairwise.nil
  preloadable := by simp
  found found hfound := by
    rw [hdiscover] at hfound
    cases hfound
  finished log := by simp [hdiscover]
  thrown e' he := by
    cases he
    exact Or.inl hdiscover

/-- A loop that goes to its end. -/
theorem preloads_of_all {found : Found} (hroot : host.files.isDirectory root = true)
    (hdiscover : discover host (text root) = .ok found)
    (hcompile : AllCompile compile [] found.files) :
    Preloads host compile elapsed root
      { asked := found.files, ending := .finished (logLine found elapsed (text root)) } where
  ascending := ascending_of_discover hdiscover
  preloadable file := preloadable_of_discover hroot hdiscover
  found found' hfound := by
    cases hdiscover.symm.trans hfound
    exact ⟨List.prefix_rfl, fun _ => rfl⟩
  finished log := by
    rw [Ending.finished.injEq]
    constructor
    · rintro rfl
      exact ⟨found, hdiscover, hcompile, rfl⟩
    · rintro ⟨found', hfound, -, rfl⟩
      cases hdiscover.symm.trans hfound
      rfl
  thrown e he := by cases he

/-- A loop that stops at a file. -/
theorem preloads_of_stopped {found : Found} {done rest : List Path} {file : Path}
    {ending : Ending} (hroot : host.files.isDirectory root = true)
    (hdiscover : discover host (text root) = .ok found)
    (hfiles : found.files = done ++ file :: rest) (hnot : ¬ AllCompile compile [] found.files)
    (hending : ending = .thrown (notPreloaded file) ∨ ending = .fatal) :
    Preloads host compile elapsed root { asked := done ++ [file], ending := ending } := by
  have hasked : done ++ [file] <+: found.files := ⟨rest, by rw [hfiles, List.append_assoc]; rfl⟩
  refine ⟨(ascending_of_discover hdiscover).sublist hasked.sublist, ?_, ?_, ?_, ?_⟩
  · exact fun file' hmem => preloadable_of_discover hroot hdiscover (hasked.subset hmem)
  · intro found' hfound
    cases hdiscover.symm.trans hfound
    exact ⟨hasked, fun hcompile => absurd hcompile hnot⟩
  · intro log
    constructor
    · rintro rfl
      rcases hending with h | h <;> cases h
    · rintro ⟨found', hfound, hcompile, -⟩
      cases hdiscover.symm.trans hfound
      exact absurd hcompile hnot
  · rintro e rfl
    rcases hending with h | h
    · cases h
      exact Or.inr ⟨file, List.getLast?_concat, rfl⟩
    · cases h

/-- Preloading keeps its laws at every root. -/
theorem preload_preloads (hroot : host.files.isDirectory root = true) :
    Preloads host compile elapsed root (preload host compile elapsed (some (text root))) := by
  rw [preload_text]
  cases hdiscover : discover host (text root) with
  | error e => exact preloads_of_error hdiscover
  | ok found =>
      dsimp only
      rcases compileFiles_spec [] found.files with ⟨hall, hcompile⟩ |
        ⟨done, file, rest, ending, hfiles, -, hnot, hstop, hending⟩
      · rw [hall]
        exact preloads_of_all hroot hdiscover hcompile
      · rw [hstop]
        exact preloads_of_stopped hroot hdiscover hfiles hnot hending

end Runs

/-- The engine is told the root. -/
theorem polyInitialize_environmentRoot (args : Arguments) (user : Bytes) (startUp : StartUp)
    (r : Runtime) :
    (polyInitialize args (some user) startUp r).1.environmentRoot = some args.root := by
  cases startUp <;> rfl

/-- Whatever command line is accepted, the script finds the application root that the zygote
was given, and as long as that directory is there: it has files compiled in strictly ascending
order and at most once, all of them PHP files inside the root that no name keeps out; it ends
well exactly if the discovery does and every file is compiled, with their numbers in its log;
and otherwise it ends at the discovery or at the first file that is not compiled. -/
theorem preload_compiles (commandHost : CommandLine.Host) (args : List Bytes) (c : Config)
    (hparse : parse commandHost args = .ok (.serve c)) (helper : Option Bytes) (user : Bytes)
    (startUp : StartUp) (r : Runtime) (host : Preload.Host)
    (hroot : ∀ root, c.root = text root → host.files.isDirectory root = true)
    (compile : List Path → Path → Compilation) (elapsed : Bytes) :
    ∃ root, c.root = text root ∧
      Preloads host compile elapsed root
        (preload host compile elapsed
          (polyInitialize (arguments c helper) (some user) startUp r).1.environmentRoot) := by
  obtain ⟨settings, hvalid, -, hserves⟩ := parse_serve_iff.mp hparse
  obtain ⟨root, htext, -⟩ := (hserves.sound hvalid).root
  refine ⟨root, htext, ?_⟩
  rw [polyInitialize_environmentRoot, arguments, htext]
  exact preload_preloads (hroot root htext)

/-- The machine of the sample application. -/
def linkCommandHost : CommandLine.Host := { wideHost with files := linkHost.files }

/-- A command line for it. -/
def linkConfig : Config := { defaults linkCommandHost with root := bytes "/app" }

/-- Both files are asked for, in order. -/
theorem preload_compiles_sample :
    (preload linkHost (fun _ _ => .compiled) (bytes "1.0")
        (polyInitialize (arguments linkConfig none) (some (bytes "www")) .succeeded
          .fresh).1.environmentRoot).asked =
      [[named "app", named "src", named "A.php"], [named "app", named "src", named "B.php"]] := by
  have hparse : parse linkCommandHost [bytes "--root", bytes "/app"] = .ok (.serve linkConfig) := by
    decide +kernel
  have hthere : ∀ root, linkConfig.root = text root → linkHost.files.isDirectory root = true := by
    intro root htext
    have happ : linkConfig.root = text [named "app"] := rfl
    rw [← text_inj.mp (happ.symm.trans htext)]
    rfl
  obtain ⟨root, htext, hpreloads⟩ := preload_compiles linkCommandHost _ linkConfig hparse none
    (bytes "www") .succeeded .fresh linkHost hthere (fun _ _ => .compiled) (bytes "1.0")
  have hfound := discover_linkHost
  have hroot : bytes "/app" = text root := htext
  rw [hroot] at hfound
  exact (hpreloads.found _ hfound).2 ⟨rfl, rfl, trivial⟩

end Zygote

end Polychrome

import Polychrome.Library.Logged
import Polychrome.Preload.Recursion

/-!
# The directories that the discovery opens

The loops of {lit}`discover` are written once more with a log of every directory that
the recursive iterator opens, also of one that cannot be opened.  The depth of the
recursion is bounded by a number of its own.  Without the log, and with any bound from
the depth of the table on, they are the loops of {lit}`discover`.

Main results:

- Definition {lit}`discoverLogged` and theorem {lit}`result_discoverLogged`: the log
  changes nothing.
- Theorem {lit}`discoverLogged_stable`: the bound is not what ends the recursion.
- Theorem {lit}`mem_log_discoverLogged`: from where a directory is opened.
-/

namespace Polychrome

namespace Preload

open Posix Php Pcre

/-- A computation of the discovery, with the directories it opens. -/
abbrev Opening (α : Type) := Logged Thrown Path α

section Loops

variable (host : Host) (bound : Nat) (root : Path)

/-- The recursive iterator, as far as it gets. -/
def visitAll (files : FileSystem) : List Visit → Opening (List Path)
  | [] => pure []
  | .leaf file :: visits => do return file :: (← visitAll files visits)
  | .opened directory :: visits => do
      Logged.note directory
      if isClosed files (.opened directory) then Logged.fail .unexpectedValueException
      else visitAll files visits

/-- {lit}`$entries` -/
def candidateEntriesLogged (real : Path) : Opening (List Path) :=
  if host.isDir (text real) then visitAll host.files (iterate host.files bound real)
  else pure [real]

/-- One candidate of {lit}`glob`. -/
def takeCandidateLogged (patterns : List Bytes) (found : Found) (candidate : Bytes) :
    Opening Found := do
  match ← host.phpRealpath candidate with
  | none => return found.skip
  | some real =>
      if !within (text real) (text root) then return found.skip
      else
        let entries ← candidateEntriesLogged host bound real
        return entries.foldl (takeEntry host root patterns) found

/-- One declared path. -/
def takePathLogged (package : Package) (patterns : List Bytes) (found : Found)
    (relative : Value) : Opening Found := do
  let path := anchored package.base (← relative.asString)
  if 0 ∈ path then Logged.fail .valueError
  else (host.glob path).foldlM (takeCandidateLogged host bound root patterns) found

/-- One package. -/
def takePackageLogged (found : Found) (package : Package) : Opening Found := do
  let paths ← declaredPaths package
  let patterns ← exclusions package
  paths.foldlM (takePathLogged host bound root package patterns) found

/-- {lit}`discover($root)` -/
def discoverLogged (argument : Bytes) : Opening Found := do
  match ← host.phpRealpath argument with
  | none => Logged.fail (.runtimeException (bytes "Application root does not exist"))
  | some root =>
      let list ← packages host root
      let found ← list.foldlM (takePackageLogged host bound root) { files := [], skipped := 0 }
      return { found with files := found.files.insertionSort fun p q => stringLe (text p) (text q) }

end Loops

/-! ## Without the log -/

/-- Going through the visits stops at the first directory that cannot be opened. -/
theorem result_visitAll (files : FileSystem) (visits : List Visit) :
    (visitAll files visits).result =
      if visits.any (isClosed files) then .error .unexpectedValueException
      else .ok (visits.filterMap leafOf) := by
  induction visits with
  | nil => rfl
  | cons visit visits ih =>
      cases visit with
      | leaf file =>
          rw [visitAll, Logged.result_bind, ih]
          simp only [List.any_cons, isClosed, Bool.false_or]
          split <;> rfl
      | opened directory =>
          rw [visitAll, Logged.result_bind, Logged.result_note, List.any_cons]
          by_cases hclosed : isClosed files (.opened directory) = true
          · rw [hclosed]
            rfl
          · rw [Bool.not_eq_true] at hclosed
            rw [hclosed]
            exact ih

section Erasure

variable {host : Host} {bound : Nat} (hbound : depth host.files ≤ bound) {root : Path}

include hbound

/-- A bound no smaller than the depth of the tree makes no difference. -/
theorem iterate_bound (real : Path) :
    iterate host.files bound real = iterate host.files (depth host.files) real := by
  have hpos : 0 < depth host.files := Nat.succ_pos _
  exact iterate_stable (hpos.trans_le hbound) hpos (by omega) (by omega)

/-- The entries of a candidate, without the log. -/
theorem result_candidateEntriesLogged (real : Path) :
    (candidateEntriesLogged host bound real).result = candidateEntries host real := by
  rw [candidateEntriesLogged, candidateEntries]
  split
  · rw [result_visitAll, iterate_bound hbound, entriesBelow_eq]
  · rfl

/-- One candidate, without the log. -/
theorem result_takeCandidateLogged (patterns : List Bytes) (found : Found) (candidate : Bytes) :
    (takeCandidateLogged host bound root patterns found candidate).result =
      takeCandidate host root patterns found candidate := by
  rw [takeCandidateLogged, takeCandidate, Logged.result_bind, Logged.result_lift]
  refine bind_congr ?_
  intro real
  cases real with
  | none => rfl
  | some real =>
      dsimp only
      split
      · rfl
      · rw [Logged.result_bind, result_candidateEntriesLogged hbound]
        rfl

/-- One declared path, without the log. -/
theorem result_takePathLogged (package : Package) (patterns : List Bytes) (found : Found)
    (relative : Value) :
    (takePathLogged host bound root package patterns found relative).result =
      takePath host root package patterns found relative := by
  rw [takePathLogged, takePath, Logged.result_bind, Logged.result_lift]
  refine bind_congr ?_
  intro path
  dsimp only
  split
  · rfl
  · rw [Logged.result_foldlM, funext₂ (result_takeCandidateLogged hbound patterns)]

/-- One package, without the log. -/
theorem result_takePackageLogged (found : Found) (package : Package) :
    (takePackageLogged host bound root found package).result =
      takePackage host root found package := by
  rw [takePackageLogged, takePackage, Logged.result_bind, Logged.result_lift]
  refine bind_congr fun paths => ?_
  rw [Logged.result_bind, Logged.result_lift]
  refine bind_congr fun patterns => ?_
  rw [Logged.result_foldlM, funext₂ (result_takePathLogged hbound package patterns)]

/-- The log changes nothing, and neither does the bound. -/
theorem result_discoverLogged (argument : Bytes) :
    (discoverLogged host bound argument).result = discover host argument := by
  rw [discoverLogged, discover, Logged.result_bind, Logged.result_lift]
  refine bind_congr fun root => ?_
  cases root with
  | none => rfl
  | some root =>
      dsimp only
      rw [Logged.result_bind, Logged.result_lift]
      refine bind_congr fun list => ?_
      rw [Logged.result_bind, Logged.result_foldlM, funext₂ (result_takePackageLogged hbound)]
      rfl

/-- The bound does not change what is opened either. -/
theorem discoverLogged_stable (argument : Bytes) :
    discoverLogged host bound argument = discoverLogged host (depth host.files) argument := by
  have hentries : candidateEntriesLogged host bound =
      candidateEntriesLogged host (depth host.files) := by
    funext real
    rw [candidateEntriesLogged, candidateEntriesLogged, iterate_bound hbound]
  have hcandidate :
      takeCandidateLogged host bound = takeCandidateLogged host (depth host.files) := by
    unfold takeCandidateLogged
    rw [hentries]
  have hpath : takePathLogged host bound = takePathLogged host (depth host.files) := by
    unfold takePathLogged
    rw [hcandidate]
  have hpackage : takePackageLogged host bound = takePackageLogged host (depth host.files) := by
    unfold takePackageLogged
    rw [hpath]
  unfold discoverLogged
  rw [hpackage]

end Erasure

/-! ## What is in the log -/

/-- Only directories of the traversal are opened. -/
theorem mem_log_visitAll {files : FileSystem} {visits : List Visit} {p : Path}
    (h : p ∈ (visitAll files visits).log) : Visit.opened p ∈ visits := by
  induction visits with
  | nil => cases h
  | cons visit visits ih =>
      cases visit with
      | leaf file =>
          rw [visitAll, Logged.mem_log_bind] at h
          rcases h with hrest | ⟨_, -, hnone⟩
          · exact List.mem_cons_of_mem _ (ih hrest)
          · cases hnone
      | opened directory =>
          rw [visitAll, Logged.mem_log_bind, Logged.log_note, List.mem_singleton] at h
          rcases h with rfl | ⟨_, -, hrest⟩
          · exact List.mem_cons_self
          · split at hrest
            · cases hrest
            · exact List.mem_cons_of_mem _ (ih hrest)

section Log

variable {host : Host} {bound : Nat} {root : Path} {p : Path}

/-- The recursion from the candidate comes to the directory. -/
def LeadsDown (host : Host) (bound : Nat) (root : Path) (candidate : Bytes) (p : Path) : Prop :=
  ∃ real, host.phpRealpath candidate = .ok (some real) ∧ root <+: real ∧
    host.files.isDirectory real = true ∧ Visit.opened p ∈ iterate host.files bound real

/-- A directory is opened below a candidate inside the root only. -/
theorem mem_log_takeCandidateLogged {patterns : List Bytes} {found : Found} {candidate : Bytes}
    (h : p ∈ (takeCandidateLogged host bound root patterns found candidate).log) :
    LeadsDown host bound root candidate p := by
  rw [takeCandidateLogged, Logged.mem_log_bind] at h
  rcases h with hnone | ⟨real?, hreal, h⟩
  · cases hnone
  · cases real? with
    | none => cases h
    | some real =>
        dsimp only at h
        split at h
        case isTrue => cases h
        case isFalse hinside =>
          rw [Logged.mem_log_bind] at h
          rcases h with hentries | ⟨_, -, hnone⟩
          · rw [candidateEntriesLogged] at hentries
            split at hentries
            case isTrue hdir =>
              rw [isDir_text (solid_of_phpRealpath hreal)] at hdir
              refine ⟨real, hreal, ?_, hdir, mem_log_visitAll hentries⟩
              rw [← within_iff]
              simpa using hinside
            case isFalse => cases hentries
          · cases hnone

/-- A declared path opens what its candidates open. -/
theorem mem_log_takePathLogged {package : Package} {patterns : List Bytes} {found : Found}
    {relative : Value}
    (h : p ∈ (takePathLogged host bound root package patterns found relative).log) :
    ∃ path, relative.asString = .ok path ∧
      ∃ candidate ∈ host.glob (anchored package.base path),
        LeadsDown host bound root candidate p := by
  rw [takePathLogged, Logged.mem_log_bind] at h
  rcases h with hnone | ⟨path, hpath, h⟩
  · cases hnone
  · dsimp only at h
    split at h
    case isTrue => cases h
    case isFalse =>
      rcases Logged.mem_log_foldlM h with ⟨found', candidate, hcandidate, hlog⟩
      exact ⟨path, hpath, candidate, hcandidate, mem_log_takeCandidateLogged hlog⟩

/-- A package opens directories below the places where its search starts. -/
theorem mem_log_takePackageLogged {package : Package} {found : Found}
    (h : p ∈ (takePackageLogged host bound root found package).log) :
    ∃ real, Starts host root package real ∧ host.files.isDirectory real = true ∧
      Visit.opened p ∈ iterate host.files bound real := by
  rw [takePackageLogged, Logged.mem_log_bind] at h
  rcases h with hnone | ⟨paths, hpaths, h⟩
  · cases hnone
  · rw [Logged.mem_log_bind] at h
    rcases h with hnone | ⟨patterns, -, h⟩
    · cases hnone
    · rcases Logged.mem_log_foldlM h with ⟨found', relative, hrelative, hlog⟩
      rcases mem_log_takePathLogged hlog with ⟨path, hpath, candidate, hcandidate, real, hreal,
        hinside, hdir, hopened⟩
      exact ⟨real, ⟨paths, relative, path, candidate, hpaths, hrelative, hpath, hcandidate, hreal,
        hinside⟩, hdir, hopened⟩

/-- A directory that is opened lies on the way down from a declared path. -/
theorem mem_log_discoverLogged {argument : Bytes}
    (h : p ∈ (discoverLogged host bound argument).log) :
    ∃ root list package real, host.phpRealpath argument = .ok (some root) ∧
      packages host root = .ok list ∧ package ∈ list ∧ Starts host root package real ∧
      host.files.isDirectory real = true ∧ Visit.opened p ∈ iterate host.files bound real := by
  rw [discoverLogged, Logged.mem_log_bind] at h
  rcases h with hnone | ⟨root?, hroot, h⟩
  · cases hnone
  · cases root? with
    | none => cases h
    | some root =>
        dsimp only at h
        rw [Logged.mem_log_bind] at h
        rcases h with hnone | ⟨list, hlist, h⟩
        · cases hnone
        · rw [Logged.mem_log_bind] at h
          rcases h with hloop | ⟨_, -, hnone⟩
          · rcases Logged.mem_log_foldlM hloop with ⟨found', package, hpackage, hlog⟩
            rcases mem_log_takePackageLogged hlog with ⟨real, hstarts, hdir, hopened⟩
            exact ⟨root, list, package, real, hroot, hlist, hpackage, hstarts, hdir, hopened⟩
          · cases hnone

end Log

end Preload

end Polychrome

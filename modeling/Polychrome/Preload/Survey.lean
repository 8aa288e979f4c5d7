import Polychrome.Preload.Completeness
import Polychrome.Preload.Exclusions
import Polychrome.Preload.Order

/-!
# What the discovery accounts for

A survey judges every entry that the declared paths lead to and remembers nothing.
The five loops of {lit}`discover` come to what the survey reports: the files that are
admitted, sorted and without repetition, and the number of times that something is
turned away.  Nothing is skipped exactly if everything declared is preloaded.

Main results:

- Definition {lit}`survey`: the verdicts on all entries, in order.
- Theorem {lit}`discover_eq`: the discovery reports the survey.
- Definition {lit}`Clean` and theorem {lit}`survey_clean`: when nothing is turned away.
- Theorem {lit}`discover_accounts`: what is found, what is skipped and what it means
  that nothing is.
-/

namespace Polychrome

namespace Preload

open Posix Php Pcre

/-! ## Verdicts -/

/-- What becomes of a candidate or an entry.  Only what is turned away is counted. -/
inductive Verdict
  | passedOver
  | turnedAway
  | admitted (file : Path)
deriving DecidableEq, Repr

/-- The file that is admitted. -/
def Verdict.file : Verdict → Option Path
  | .admitted file => some file
  | _ => none

/-- The files admitted, in the order of the list that is returned, and how often
something was turned away. -/
def report (verdicts : List Verdict) : Found where
  files := (verdicts.filterMap Verdict.file).dedup.insertionSort Before
  skipped := verdicts.count .turnedAway

section Survey

variable (host : Host) (root : Path)

/-- The verdict on an entry. -/
def judge (patterns : List Bytes) (entry : Path) : Verdict :=
  match host.realpath (text entry) with
  | none => .passedOver
  | some file =>
      if !host.isFile (text entry) || !strEndsWith (text file) (bytes ".php") ||
          !within (text file) (text root) then .passedOver
      else if isKeptOut root file || patterns.any fun pattern => pregMatch pattern (text file) then
        .turnedAway
      else .admitted file

/-- The verdicts on a candidate: it leads out of the root, or to its entries. -/
def surveyCandidate (patterns : List Bytes) (candidate : Bytes) :
    Except Thrown (List Verdict) := do
  match ← host.phpRealpath candidate with
  | none => return [.turnedAway]
  | some real =>
      if !within (text real) (text root) then return [.turnedAway]
      return (← candidateEntries host real).map (judge host root patterns)

/-- The verdicts on what matches a declared path. -/
def surveyPath (package : Package) (patterns : List Bytes) (relative : Value) :
    Except Thrown (List Verdict) := do
  let path := anchored package.base (← relative.asString)
  if 0 ∈ path then throw .valueError
  return (← (host.glob path).mapM (surveyCandidate host root patterns)).flatten

/-- The verdicts on what a package declares. -/
def surveyPackage (package : Package) : Except Thrown (List Verdict) := do
  let paths ← declaredPaths package
  let patterns ← exclusions package
  return (← paths.mapM (surveyPath host root package patterns)).flatten

/-- The verdicts on what all packages declare. -/
def survey : Except Thrown (List Verdict) := do
  return (← (← packages host root).mapM (surveyPackage host root)).flatten

end Survey

/-! ## The loops report the survey -/

/-- What a verdict does to what has been found. -/
def Found.enter (found : Found) : Verdict → Found
  | .passedOver => found
  | .turnedAway => found.skip
  | .admitted file => found.add file

/-- Every verdict that turns away is counted. -/
theorem Found.skipped_foldl_enter (verdicts : List Verdict) (found : Found) :
    (verdicts.foldl Found.enter found).skipped = found.skipped + verdicts.count .turnedAway := by
  induction verdicts generalizing found with
  | nil => rfl
  | cons verdict verdicts ih =>
      rw [List.foldl_cons, ih, List.count_cons]
      cases verdict with
      | passedOver => rfl
      | turnedAway =>
          simp only [Found.enter, Found.skip, BEq.rfl, if_true]
          omega
      | admitted file =>
          have hskipped : (found.add file).skipped = found.skipped := by
            unfold Found.add
            split <;> rfl
          simp [Found.enter, hskipped]

/-- A verdict keeps the list without repetition. -/
theorem Found.enter_nodup (found : Found) (verdict : Verdict) (h : found.files.Nodup) :
    (found.enter verdict).files.Nodup := by
  cases verdict with
  | passedOver => exact h
  | turnedAway => exact h
  | admitted file => exact Found.add_nodup file h

/-- A verdict adds its file and no other. -/
theorem Found.mem_enter (found : Found) (verdict : Verdict) (file : Path) :
    file ∈ (found.enter verdict).files ↔ file ∈ found.files ∨ verdict.file = some file := by
  cases verdict with
  | passedOver => simp [Found.enter, Verdict.file]
  | turnedAway => simp [Found.enter, Verdict.file, Found.skip_files]
  | admitted file' => simp [Found.enter, Verdict.file, Found.mem_add, eq_comm]

/-- What the verdicts leave is sorted as it is reported. -/
theorem report_eq (verdicts : List Verdict) :
    { verdicts.foldl Found.enter .start with
      files := (verdicts.foldl Found.enter .start).files.insertionSort Before } =
      report verdicts := by
  have hnodup : (verdicts.foldl Found.enter .start).files.Nodup :=
    Collecting.foldl_keeps (fun (found : Found) => found.files.Nodup) Found.enter_nodup verdicts
      List.nodup_nil
  have hfiles : (verdicts.foldl Found.enter .start).files.toFinset =
      (verdicts.filterMap Verdict.file).dedup.toFinset := by
    ext file
    rw [List.mem_toFinset, List.mem_toFinset, List.mem_dedup, List.mem_filterMap,
      Collecting.foldl_collects (fun (found : Found) file => file ∈ found.files)
        (fun verdict file => Verdict.file verdict = some file) Found.mem_enter]
    exact or_iff_right List.not_mem_nil
  rw [report, insertionSort_eq hnodup (List.nodup_dedup _) hfiles, Found.mk.injEq]
  refine ⟨rfl, ?_⟩
  rw [Found.skipped_foldl_enter]
  exact Nat.zero_add _

section Loops

variable {host : Host} {root : Path}

/-- One entry enters its verdict. -/
theorem takeEntry_eq (patterns : List Bytes) (found : Found) (entry : Path) :
    takeEntry host root patterns found entry = found.enter (judge host root patterns entry) := by
  unfold takeEntry judge
  cases host.realpath (text entry) with
  | none => rfl
  | some file =>
      dsimp only
      split
      case isTrue => rfl
      case isFalse =>
        cases isKeptOut root file with
        | true => rfl
        | false =>
            rw [Bool.false_or, if_neg Bool.false_ne_true]
            split <;> rfl

/-- One candidate enters the verdicts on its entries. -/
theorem takeCandidate_eq (patterns : List Bytes) (found : Found) (candidate : Bytes) :
    takeCandidate host root patterns found candidate = do
      return (← surveyCandidate host root patterns candidate).foldl Found.enter found := by
  unfold takeCandidate surveyCandidate
  simp only [bind_assoc]
  refine bind_congr ?_
  intro real
  cases real with
  | none => rfl
  | some real =>
      dsimp only
      split
      case isTrue => rfl
      case isFalse =>
        simp only [bind_assoc, pure_bind, List.foldl_map]
        refine bind_congr ?_
        intro entries
        rw [funext₂ (takeEntry_eq patterns)]

/-- One declared path enters the verdicts on its candidates. -/
theorem takePath_eq (package : Package) (patterns : List Bytes) (found : Found)
    (relative : Value) :
    takePath host root package patterns found relative = do
      return (← surveyPath host root package patterns relative).foldl Found.enter found := by
  unfold takePath surveyPath
  simp only [bind_assoc]
  refine bind_congr ?_
  intro path
  split
  case isTrue => rfl
  case isFalse =>
    rw [Collecting.foldlM_flatten (takeCandidate_eq patterns)]
    simp only [bind_assoc, pure_bind]

/-- One package enters the verdicts on its paths. -/
theorem takePackage_eq (found : Found) (package : Package) :
    takePackage host root found package = do
      return (← surveyPackage host root package).foldl Found.enter found := by
  unfold takePackage surveyPackage
  simp only [bind_assoc, pure_bind]
  refine bind_congr fun paths => bind_congr fun patterns => ?_
  exact Collecting.foldlM_flatten (takePath_eq package patterns) paths found

/-- The discovery fails as its survey does, and reports it otherwise. -/
theorem discover_eq (argument : Bytes) :
    discover host argument = do
      match ← host.phpRealpath argument with
      | none => throw (.runtimeException (bytes "Application root does not exist"))
      | some root => return report (← survey host root) := by
  unfold discover survey
  refine bind_congr ?_
  intro root
  cases root with
  | none => rfl
  | some root =>
      simp only [bind_assoc, pure_bind]
      refine bind_congr fun list => ?_
      change (list.foldlM (takePackage host root) .start >>= _) = _
      rw [Collecting.foldlM_flatten takePackage_eq]
      simp only [bind_assoc, pure_bind]
      refine bind_congr fun verdicts => ?_
      exact congrArg pure (report_eq verdicts.flatten)

end Loops

/-! ## Nothing is turned away -/

/-- A regular file with a name that ends in {lit}`.php`. -/
def IsPhpFile (files : FileSystem) (file : Path) : Prop :=
  (∃ readable content, files.lookup file = some (.regular readable content)) ∧
    strEndsWith (text file) (bytes ".php") = true

/-- The candidate leads into the root, and no PHP file there has a name that is kept out
or matches an exclusion of the package. -/
def Clean (host : Host) (root : Path) (package : Package) (candidate : Bytes) : Prop :=
  ∃ real, host.phpRealpath candidate = .ok (some real) ∧ root <+: real ∧
    ∀ file, Yields host.files real file → IsPhpFile host.files file →
      isKeptOut root file = false ∧ ¬ Excludes package file

section Clean

variable {host : Host} {root : Path}

/-- A PHP file stands for itself. -/
theorem IsPhpFile.solid {file : Path} (h : IsPhpFile host.files file) : host.files.Solid file := by
  rcases h.1 with ⟨readable, content, hlookup⟩
  exact ⟨_, hlookup, by simp⟩

/-- What a place inside the root yields is inside the root. -/
theorem Yields.inside {files : FileSystem} {real file : Path} (h : Yields files real file)
    (hreal : root <+: real) : root <+: file := by
  rcases h with ⟨-, rfl⟩ | ⟨-, q, c, rfl, -⟩
  · exact hreal
  · rw [List.append_assoc]
    exact hreal.trans (List.prefix_append _ _)

/-- Every entry of a candidate stands for itself. -/
theorem solid_of_mem_candidateEntries {real entry : Path} {entries : List Path}
    (hreal : host.files.Solid real) (h : candidateEntries host real = .ok entries)
    (hentry : entry ∈ entries) : host.files.Solid entry := by
  rcases (mem_candidateEntries hreal h).mp hentry with ⟨-, rfl⟩ | ⟨-, q, -, c, node, -, hlookup, -,
    hnolink, -⟩
  · exact hreal
  · exact ⟨node, hlookup, hnolink⟩

/-- The PHP files among the entries are the ones that the place yields. -/
theorem mem_candidateEntries_iff {real file : Path} {entries : List Path}
    (hreal : host.files.Solid real) (h : candidateEntries host real = .ok entries)
    (hphp : IsPhpFile host.files file) : file ∈ entries ↔ Yields host.files real file := by
  rw [mem_candidateEntries hreal h, Yields]
  apply or_congr_right
  apply and_congr_right
  intro hdir
  constructor
  · rintro ⟨q, hpasses, c, node, hfile, -⟩
    exact ⟨q, c, hfile, hpasses⟩
  · rintro ⟨q, c, rfl, hpasses⟩
    rcases hphp with ⟨⟨readable, content, hlookup⟩, hname⟩
    refine ⟨q, hpasses, c, .regular readable content, rfl, hlookup, ?_, by simp,
      not_entryFilter_of_php hname⟩
    rw [← Bool.not_eq_true, FileSystem.isDirectory_iff]
    rintro ⟨readable', hlookup'⟩
    cases hlookup.symm.trans hlookup'

/-- Only a PHP file inside the root is turned away, by its name or by an exclusion. -/
theorem judge_eq_turnedAway_iff {patterns : List Bytes} {entry : Path}
    (h : host.files.Solid entry) :
    judge host root patterns entry = .turnedAway ↔ IsPhpFile host.files entry ∧ root <+: entry ∧
      (isKeptOut root entry = true ∨
        ∃ pattern ∈ patterns, pregMatch pattern (text entry) = true) := by
  have htests : (!host.isFile (text entry) || !strEndsWith (text entry) (bytes ".php") ||
      !within (text entry) (text root)) = false ↔
        IsPhpFile host.files entry ∧ root <+: entry := by
    simp [IsPhpFile, ← isFile_text h, ← within_iff]
  rw [judge, View.realpath_text h]
  dsimp only
  split
  case isTrue hpassed =>
    simp only [reduceCtorEq, false_iff]
    rintro ⟨hphp, hinside, -⟩
    rw [htests.mpr ⟨hphp, hinside⟩] at hpassed
    cases hpassed
  case isFalse htested =>
    rcases htests.mp (Bool.not_eq_true _ ▸ htested) with ⟨hphp, hinside⟩
    cases isKeptOut root entry <;> simp [hphp, hinside]

/-- A package excludes what one of its expressions matches. -/
theorem excludes_iff_exists {package : Package} {patterns : List Bytes}
    (hpatterns : exclusions package = .ok patterns) (file : Path) :
    Excludes package file ↔ ∃ pattern ∈ patterns, pregMatch pattern (text file) = true := by
  simp [Excludes, hpatterns]

/-! Each loop turns nothing away exactly if all candidates below it are clean. -/

/-- No entry is turned away exactly if the place is clean. -/
theorem entries_clean {package : Package} {patterns : List Bytes} {real : Path}
    {entries : List Path} (hpatterns : exclusions package = .ok patterns)
    (hreal : host.files.Solid real) (hroot : root <+: real)
    (hentries : candidateEntries host real = .ok entries) :
    (∀ entry ∈ entries, judge host root patterns entry ≠ .turnedAway) ↔
      ∀ file, Yields host.files real file → IsPhpFile host.files file →
        isKeptOut root file = false ∧ ¬ Excludes package file := by
  constructor
  · intro hnone file hyields hphp
    have hjudged := hnone file ((mem_candidateEntries_iff hreal hentries hphp).mpr hyields)
    rw [Ne, judge_eq_turnedAway_iff hphp.solid, ← excludes_iff_exists hpatterns] at hjudged
    have hbelow : root <+: file := hyields.inside hroot
    rw [← Bool.not_eq_true]
    exact ⟨fun hkept => hjudged ⟨hphp, hbelow, Or.inl hkept⟩,
      fun hexcluded => hjudged ⟨hphp, hbelow, Or.inr hexcluded⟩⟩
  · intro hclean entry hentry hturned
    have hthere := solid_of_mem_candidateEntries hreal hentries hentry
    rw [judge_eq_turnedAway_iff hthere, ← excludes_iff_exists hpatterns] at hturned
    rcases hturned with ⟨hphp, -, hkept⟩
    have hyields := (mem_candidateEntries_iff hreal hentries hphp).mp hentry
    rcases hclean entry hyields hphp with ⟨hfree, hallowed⟩
    rcases hkept with hkept | hexcluded
    · rw [hfree] at hkept
      cases hkept
    · exact hallowed hexcluded

/-- No verdict on a candidate turns away exactly if it is clean. -/
theorem surveyCandidate_clean {package : Package} {patterns : List Bytes}
    (hpatterns : exclusions package = .ok patterns) (candidate : Bytes) (verdicts : List Verdict)
    (h : surveyCandidate host root patterns candidate = .ok verdicts) :
    (∀ verdict ∈ verdicts, verdict ≠ .turnedAway) ↔ Clean host root package candidate := by
  rw [surveyCandidate, Except.bind_eq_ok] at h
  rcases h with ⟨real?, hreal, h⟩
  cases real? with
  | none =>
      rw [Except.pure_eq_ok] at h
      rw [← h]
      simp [Clean, hreal]
  | some real =>
      dsimp only at h
      by_cases hroot : root <+: real
      · rw [if_neg (by simp [within_iff.mpr hroot]), Except.bind_eq_ok] at h
        rcases h with ⟨entries, hentries, h⟩
        rw [Except.pure_eq_ok] at h
        rw [← h, List.forall_mem_map,
          entries_clean hpatterns (solid_of_phpRealpath hreal) hroot hentries]
        simp [Clean, hreal, hroot]
      · have houtside : within (text real) (text root) = false := by
          rwa [← Bool.not_eq_true, within_iff]
        rw [if_pos (by simp [houtside]), Except.pure_eq_ok] at h
        rw [← h]
        simp [Clean, hreal, hroot]

/-- No verdict on a declared path turns away exactly if all its candidates are clean. -/
theorem surveyPath_clean {package : Package} {patterns : List Bytes}
    (hpatterns : exclusions package = .ok patterns) (relative : Value) (verdicts : List Verdict)
    (h : surveyPath host root package patterns relative = .ok verdicts) :
    (∀ verdict ∈ verdicts, verdict ≠ .turnedAway) ↔ ∀ path, relative.asString = .ok path →
      ∀ candidate ∈ host.glob (anchored package.base path), Clean host root package candidate := by
  rw [surveyPath, Except.bind_eq_ok] at h
  rcases h with ⟨path, hpath, h⟩
  dsimp only at h
  split at h
  case isTrue => cases h
  case isFalse =>
    rw [Collecting.forall_mem_flatten_mapM (fun verdict => verdict ≠ .turnedAway)
      (surveyCandidate_clean hpatterns) h]
    constructor
    · intro hclean path' hpath'
      cases hpath.symm.trans hpath'
      exact hclean
    · exact fun hclean => hclean path hpath

/-- No verdict on a package turns away exactly if all its paths are clean. -/
theorem surveyPackage_clean (package : Package) (verdicts : List Verdict)
    (h : surveyPackage host root package = .ok verdicts) :
    (∀ verdict ∈ verdicts, verdict ≠ .turnedAway) ↔ ∀ path, Declared package path →
      ∀ candidate ∈ host.glob (anchored package.base path), Clean host root package candidate := by
  rw [surveyPackage, Except.bind_eq_ok] at h
  rcases h with ⟨paths, hpaths, h⟩
  rw [Except.bind_eq_ok] at h
  rcases h with ⟨patterns, hpatterns, h⟩
  rw [Collecting.forall_mem_flatten_mapM (fun verdict => verdict ≠ .turnedAway)
    (surveyPath_clean hpatterns) h]
  constructor
  · rintro hclean path ⟨paths', relative, hpaths', hrelative, hpath⟩
    cases hpaths.symm.trans hpaths'
    exact hclean relative hrelative path hpath
  · intro hclean relative hrelative path hpath
    exact hclean path ⟨paths, relative, hpaths, hrelative, hpath⟩

/-- Nothing is turned away exactly if all packages are clean. -/
theorem survey_clean {verdicts : List Verdict} (h : survey host root = .ok verdicts) :
    (∀ verdict ∈ verdicts, verdict ≠ .turnedAway) ↔ ∀ package, Declares host root package →
      ∀ path, Declared package path → ∀ candidate ∈ host.glob (anchored package.base path),
        Clean host root package candidate := by
  rw [survey, Except.bind_eq_ok] at h
  rcases h with ⟨list, hlist, h⟩
  rw [Collecting.forall_mem_flatten_mapM (fun verdict => verdict ≠ .turnedAway)
    surveyPackage_clean h]
  simp only [mem_packages_iff hlist]

/-- A PHP file that a declared path leads to is offered, unless it is excluded. -/
theorem offers_of_allowed {package : Package} {patterns : List Bytes} {real file : Path}
    (hpatterns : exclusions package = .ok patterns) (hstarts : Starts host root package real)
    (hyields : Yields host.files real file) (hphp : IsPhpFile host.files file)
    (hallowed : ¬ Excludes package file) : Offers host root package file := by
  refine ⟨patterns, real, hpatterns, hstarts, hyields, hphp.1, hphp.2, ?_⟩
  intro pattern hpattern
  rw [← Bool.not_eq_true]
  exact fun hmatch => hallowed ⟨patterns, hpatterns, pattern, hpattern, hmatch⟩

end Clean

/-- What is found is the report of the survey.  Nothing is skipped exactly if every
declared path leads into the root and to nothing that is kept out or excluded, and then
every PHP file that a declared path leads to is found. -/
theorem discover_accounts (host : Host) (argument : Bytes) (found : Found)
    (h : discover host argument = .ok found) :
    ∃ root verdicts, host.phpRealpath argument = .ok (some root) ∧
      survey host root = .ok verdicts ∧ found = report verdicts ∧
      (found.skipped = 0 ↔ ∀ package, Declares host root package →
        ∀ path, Declared package path → ∀ candidate ∈ host.glob (anchored package.base path),
          Clean host root package candidate) ∧
      (found.skipped = 0 → ∀ package real file, Declares host root package →
        Starts host root package real → Yields host.files real file →
          IsPhpFile host.files file → file ∈ found.files) := by
  have hreport := h
  rw [discover_eq, Except.bind_eq_ok] at hreport
  rcases hreport with ⟨root?, hroot, hreport⟩
  cases root? with
  | none => cases hreport
  | some root =>
      rw [Except.bind_eq_ok] at hreport
      rcases hreport with ⟨verdicts, hsurvey, hreport⟩
      rw [Except.pure_eq_ok] at hreport
      have hskipped : found.skipped = 0 ↔ ∀ package, Declares host root package →
          ∀ path, Declared package path → ∀ candidate ∈ host.glob (anchored package.base path),
            Clean host root package candidate := by
        rw [← survey_clean hsurvey, ← hreport, report, List.count_eq_zero]
        constructor
        · rintro hnone verdict hverdict rfl
          exact hnone hverdict
        · exact fun hnone hverdict => hnone _ hverdict rfl
      refine ⟨root, verdicts, hroot, hsurvey, hreport.symm, hskipped, ?_⟩
      intro hzero package real file hpackage hstarts hyields hphp
      rcases hstarts with ⟨paths, relative, path, candidate, hpaths, hrelative, hpath, hcandidate,
        hreal, hinside⟩
      rcases hskipped.mp hzero package hpackage path ⟨paths, relative, hpaths, hrelative, hpath⟩
        candidate hcandidate with ⟨real', hreal', -, hclean⟩
      cases hreal.symm.trans hreal'
      rcases hclean file hyields hphp with ⟨hfree, hallowed⟩
      rcases (entries_of_discover h hroot hpackage).1 with ⟨patterns, hpatterns⟩
      exact (mem_found_iff h hroot).mpr ⟨⟨package, hpackage, offers_of_allowed hpatterns
        ⟨paths, relative, path, candidate, hpaths, hrelative, hpath, hcandidate, hreal, hinside⟩
        hyields hphp hallowed⟩, hfree⟩

/-- The links below {lit}`linkHost` are not counted. -/
theorem discover_accounts_sample :
    ∃ found root verdicts, discover linkHost (bytes "/app") = .ok found ∧
      linkHost.phpRealpath (bytes "/app") = .ok (some root) ∧
      survey linkHost root = .ok verdicts ∧ found = report verdicts ∧
      ∀ package, Declares linkHost root package → ∀ path, Declared package path →
        ∀ candidate ∈ linkHost.glob (anchored package.base path),
          Clean linkHost root package candidate := by
  rcases discover_accounts linkHost (bytes "/app") _ discover_linkHost with
    ⟨root, verdicts, hroot, hsurvey, hreport, hskipped, -⟩
  exact ⟨_, root, verdicts, discover_linkHost, hroot, hsurvey, hreport, hskipped.mp rfl⟩

end Preload

end Polychrome

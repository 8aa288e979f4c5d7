import Polychrome.Library.Collecting
import Polychrome.Preload.Discovery

/-!
# What the discovery collects

The loops of {lit}`discover` over packages, declared paths, candidates and entries
come to a relation between a package and the files it leads to.

Main results:

- Theorem {lit}`within_iff`: {lit}`within` is containment of component lists.
- Definition {lit}`Leads`: a declared path of a package leads to a file.
- Theorem {lit}`mem_discover_iff`: the files that {lit}`discover` returns.
-/

namespace Polychrome

namespace Preload

open Posix Php Pcre

/-! ## Containment -/

/-- The text of a path that is not the root directory ends in a name. -/
theorem rtrim_text (r : Path) : rtrim (text r) slash = below r := by
  rcases List.eq_nil_or_concat r with rfl | ⟨r, c, rfl⟩
  · rfl
  · rw [List.concat_eq_append, text_of_ne_nil (by simp), rtrim,
      List.rdropWhile_eq_self_iff]
    intro hne
    have hc : slash ∉ c.val := c.property.2.2.2.1
    have hlast : (below (r ++ [c])).getLast hne = c.val.getLast c.property.1 := by
      simp only [below_append, below_cons, below_nil, List.append_nil]
      rw [List.getLast_append_of_ne_nil _ (by simp), List.getLast_cons c.property.1]
    rw [hlast, beq_iff_eq]
    intro hslash
    exact hc (hslash ▸ List.getLast_mem c.property.1)

/-- {lit}`within` is containment. -/
theorem within_iff {root p : Path} :
    within (text p) (text root) = true ↔ root <+: p := by
  rw [within, rtrim_text, Bool.or_eq_true, beq_iff_eq, text_inj, strStartsWith,
    List.isPrefixOf_iff_prefix]
  change p = root ∨ below root ++ [slash] <+: text p ↔ _
  cases p with
  | nil =>
      have hroot : below root ++ [slash] <+: text [] ↔ root = [] := by
        cases root with
        | nil => simp
        | cons c root => simp
      rw [hroot, List.prefix_nil, eq_comm, or_self]
  | cons c p =>
      rw [text_of_ne_nil (by simp), below_slash_prefix]
      constructor
      · rintro (rfl | ⟨hinit, -⟩)
        · exact List.prefix_refl _
        · exact hinit
      · intro hinit
        by_cases heq : root = c :: p
        · exact Or.inl heq.symm
        · exact Or.inr ⟨hinit, heq⟩

/-! ## Where a declared path leads -/

section Leads

variable (host : Host) (root : Path)

/-- The entry is a PHP file inside the root that no exclusion matches. -/
def Arrives (patterns : List Bytes) (entry file : Path) : Prop :=
  host.realpath (text entry) = some file ∧ host.isFile (text entry) = true ∧
    strEndsWith (text file) (bytes ".php") = true ∧ within (text file) (text root) = true ∧
      ∀ pattern ∈ patterns, pregMatch pattern (text file) = false

/-- The candidate stands for the entry, or for a directory above it. -/
def Reaches (candidate : Bytes) (entry : Path) : Prop :=
  ∃ real entries, host.phpRealpath candidate = .ok (some real) ∧
    within (text real) (text root) = true ∧
    candidateEntries host real = .ok entries ∧ entry ∈ entries

/-- A declared path of the package leads to the file. -/
def Leads (package : Package) (file : Path) : Prop :=
  ∃ paths patterns relative path candidate entry, declaredPaths package = .ok paths ∧
    exclusions package = .ok patterns ∧ relative ∈ paths ∧ Value.asString relative = .ok path ∧
    candidate ∈ host.glob (anchored package.base path) ∧ Reaches host root candidate entry ∧
    Arrives host root patterns entry file

variable {host root} {package : Package} {file : Path}

/-- A declaration leads to files with the extension only. -/
theorem Leads.php (h : Leads host root package file) :
    strEndsWith (text file) (bytes ".php") = true := by
  rcases h with ⟨paths, patterns, relative, path, candidate, entry, -, -, -, -, -, -, harrives⟩
  exact harrives.2.2.1

/-- A declaration leads to files inside the root only. -/
theorem Leads.inside (h : Leads host root package file) : root <+: file := by
  rcases h with ⟨paths, patterns, relative, path, candidate, entry, -, -, -, -, -, -, harrives⟩
  exact within_iff.mp harrives.2.2.2.1

end Leads

/-! ## The loops -/

/-- Skipping adds no file. -/
@[simp]
theorem Found.skip_files (found : Found) : found.skip.files = found.files :=
  rfl

/-- A file is added once. -/
@[simp]
theorem Found.mem_add {found : Found} {file p : Path} :
    p ∈ (found.add file).files ↔ p ∈ found.files ∨ file = p := by
  unfold Found.add
  split
  case isTrue hmem =>
    constructor
    · exact Or.inl
    · rintro (h | rfl)
      · exact h
      · exact hmem
  case isFalse => simp [eq_comm]

section Loops

variable {host : Host} {root : Path}

/-- One entry adds the file it arrives at, unless its name is kept out. -/
theorem mem_takeEntry {patterns : List Bytes} (found : Found) (entry file : Path) :
    file ∈ (takeEntry host root patterns found entry).files ↔ file ∈ found.files ∨
      Arrives host root patterns entry file ∧ isKeptOut root file = false := by
  -- Where nothing is added, the file fails the test of its branch.
  have hkeeps : ¬ (Arrives host root patterns entry file ∧ isKeptOut root file = false) →
      (file ∈ found.files ↔ file ∈ found.files ∨
        Arrives host root patterns entry file ∧ isKeptOut root file = false) := by
    intro hnot
    rw [or_iff_left hnot]
  unfold takeEntry
  split
  case h_1 hmissing =>
    apply hkeeps
    rintro ⟨⟨hreal, -⟩, -⟩
    rw [hmissing] at hreal
    cases hreal
  case h_2 real hreal =>
    split_ifs with htests hkept hexcluded
    · apply hkeeps
      rintro ⟨⟨hfile, hregular, hphp, hwithin, -⟩, -⟩
      cases hreal.symm.trans hfile
      simp [hregular, hphp, hwithin] at htests
    · apply hkeeps
      rintro ⟨⟨hfile, -⟩, hfree⟩
      cases hreal.symm.trans hfile
      rw [hkept] at hfree
      cases hfree
    · apply hkeeps
      rintro ⟨⟨hfile, -, -, -, hpatterns⟩, -⟩
      cases hreal.symm.trans hfile
      rcases List.any_eq_true.mp hexcluded with ⟨pattern, hmem, hmatch⟩
      rw [hpatterns pattern hmem] at hmatch
      cases hmatch
    · rw [Found.mem_add]
      apply or_congr_right
      constructor
      · rintro rfl
        simp only [Bool.or_eq_true, Bool.not_eq_true', not_or, Bool.not_eq_false] at htests
        refine ⟨⟨hreal, htests.1.1, htests.1.2, htests.2, ?_⟩, Bool.not_eq_true _ ▸ hkept⟩
        simpa using hexcluded
      · rintro ⟨⟨hfile, -⟩, -⟩
        exact Option.some.inj (hreal.symm.trans hfile)

/-- One candidate adds what its entries arrive at. -/
theorem mem_takeCandidate {patterns : List Bytes} {found found' : Found} {candidate : Bytes}
    (h : takeCandidate host root patterns found candidate = .ok found') (file : Path) :
    file ∈ found'.files ↔ file ∈ found.files ∨
      (∃ entry, Reaches host root candidate entry ∧ Arrives host root patterns entry file) ∧
        isKeptOut root file = false := by
  rw [takeCandidate, Except.bind_eq_ok] at h
  rcases h with ⟨found?, hreal, h⟩
  split at h
  case h_1 =>
    rw [Except.pure_eq_ok] at h
    rw [← h, Found.skip_files, or_iff_left]
    rintro ⟨⟨entry, ⟨real, entries, hsome, -⟩, -⟩, -⟩
    cases hreal.symm.trans hsome
  case h_2 real =>
    split at h
    case isTrue houtside =>
      rw [Except.pure_eq_ok] at h
      rw [← h, Found.skip_files, or_iff_left]
      rintro ⟨⟨entry, ⟨real', entries, hsome, hwithin, -⟩, -⟩, -⟩
      cases hreal.symm.trans hsome
      simp [hwithin] at houtside
    case isFalse hinside =>
      rw [Except.bind_eq_ok] at h
      rcases h with ⟨entries, hentries, h⟩
      rw [Except.pure_eq_ok] at h
      rw [← h, Collecting.foldl_collects (fun (found : Found) file => file ∈ found.files)
        (fun entry file => Arrives host root patterns entry file ∧ isKeptOut root file = false)
        mem_takeEntry]
      apply or_congr_right
      constructor
      · rintro ⟨entry, hentry, harrives, hfree⟩
        exact ⟨⟨entry, ⟨real, entries, hreal, by simpa using hinside, hentries, hentry⟩, harrives⟩,
          hfree⟩
      · rintro ⟨⟨entry, ⟨real', entries', hreal', -, hentries', hentry⟩, harrives⟩, hfree⟩
        cases hreal.symm.trans hreal'
        cases hentries.symm.trans hentries'
        exact ⟨entry, hentry, harrives, hfree⟩

/-- One declared path adds what its candidates arrive at. -/
theorem mem_takePath {package : Package} {patterns : List Bytes} {found found' : Found}
    {relative : Value} (h : takePath host root package patterns found relative = .ok found')
    (file : Path) :
    file ∈ found'.files ↔ file ∈ found.files ∨
      (∃ path candidate entry, relative.asString = .ok path ∧
        candidate ∈ host.glob (anchored package.base path) ∧ Reaches host root candidate entry ∧
        Arrives host root patterns entry file) ∧ isKeptOut root file = false := by
  rw [takePath, Except.bind_eq_ok] at h
  rcases h with ⟨path, hpath, h⟩
  dsimp only at h
  split at h
  case isTrue => cases h
  case isFalse =>
    rw [Collecting.foldlM_collects (fun (found : Found) file => file ∈ found.files)
      (fun candidate file => (∃ entry, Reaches host root candidate entry ∧
        Arrives host root patterns entry file) ∧ isKeptOut root file = false)
      (fun s a s' => mem_takeCandidate) h]
    apply or_congr_right
    constructor
    · rintro ⟨candidate, hcandidate, ⟨entry, hreaches, harrives⟩, hfree⟩
      exact ⟨⟨path, candidate, entry, hpath, hcandidate, hreaches, harrives⟩, hfree⟩
    · rintro ⟨⟨path', candidate, entry, hpath', hcandidate, hreaches, harrives⟩, hfree⟩
      cases hpath.symm.trans hpath'
      exact ⟨candidate, hcandidate, ⟨entry, hreaches, harrives⟩, hfree⟩

/-- One package adds what its paths lead to. -/
theorem mem_takePackage {package : Package} {found found' : Found}
    (h : takePackage host root found package = .ok found') (file : Path) :
    file ∈ found'.files ↔ file ∈ found.files ∨
      Leads host root package file ∧ isKeptOut root file = false := by
  rw [takePackage, Except.bind_eq_ok] at h
  rcases h with ⟨paths, hpaths, h⟩
  rw [Except.bind_eq_ok] at h
  rcases h with ⟨patterns, hpatterns, h⟩
  rw [Collecting.foldlM_collects (fun (found : Found) file => file ∈ found.files)
    (fun relative file => (∃ path candidate entry, Value.asString relative = .ok path ∧
      candidate ∈ host.glob (anchored package.base path) ∧ Reaches host root candidate entry ∧
      Arrives host root patterns entry file) ∧ isKeptOut root file = false)
    (fun s a s' => mem_takePath) h]
  apply or_congr_right
  constructor
  · rintro ⟨relative, hrelative, ⟨path, candidate, entry, hrest⟩, hfree⟩
    exact ⟨⟨paths, patterns, relative, path, candidate, entry, hpaths, hpatterns, hrelative,
      hrest⟩, hfree⟩
  · rintro ⟨⟨paths', patterns', relative, path, candidate, entry, hpaths', hpatterns', hrelative,
      hrest⟩, hfree⟩
    cases hpaths.symm.trans hpaths'
    cases hpatterns.symm.trans hpatterns'
    exact ⟨relative, hrelative, ⟨path, candidate, entry, hrest⟩, hfree⟩

end Loops

/-- A discovery that succeeds returns the files some package leads to, without
those that are kept out by their names. -/
theorem mem_discover_iff {host : Host} {argument : Bytes} {found : Found}
    (h : discover host argument = .ok found) :
    ∃ root list, host.phpRealpath argument = .ok (some root) ∧ packages host root = .ok list ∧
      ∀ file, file ∈ found.files ↔
        (∃ package ∈ list, Leads host root package file) ∧ isKeptOut root file = false := by
  rw [discover, Except.bind_eq_ok] at h
  rcases h with ⟨root?, hroot, h⟩
  split at h
  case h_1 => cases h
  case h_2 root =>
    rw [Except.bind_eq_ok] at h
    rcases h with ⟨list, hlist, h⟩
    rw [Except.bind_eq_ok] at h
    rcases h with ⟨collected, hcollected, h⟩
    rw [Except.pure_eq_ok] at h
    refine ⟨root, list, hroot, hlist, ?_⟩
    intro file
    rw [← h, List.mem_insertionSort, Collecting.foldlM_collects
      (fun (found : Found) file => file ∈ found.files)
      (fun package file => Leads host root package file ∧ isKeptOut root file = false)
      (fun s a s' => mem_takePackage) hcollected]
    simp only [List.not_mem_nil, false_or]
    constructor
    · rintro ⟨package, hpackage, hleads, hfree⟩
      exact ⟨⟨package, hpackage, hleads⟩, hfree⟩
    · rintro ⟨⟨package, hpackage, hleads⟩, hfree⟩
      exact ⟨package, hpackage, hleads, hfree⟩

end Preload

end Polychrome

import Polychrome.Preload.Declarations

/-!
# What the discovery loses

A declared path without special bytes should lead to every PHP file below it that no
filter is meant for.  The base directory of the package becomes part of the pattern
that {lit}`glob` reads, the filter for names also matches before a newline at the end,
and below the root directory the first name is cut short.

Main results:

- Theorem {lit}`starts_of_owes`: a declared path leads to its place unless the base
  directory is read as a pattern.
- Theorem {lit}`isKeptOut_of_keptClear`: what is kept out although its path is clear.
- Theorem {lit}`discover_complete_iff`: when nothing is lost.
-/

namespace Polychrome

namespace Preload

open Posix Php Pcre

/-! ## What is owed -/

/-- The bytes with a meaning in a pattern of {lit}`glob`. -/
def globBytes : Bytes := bytes "*?[]\x7b\x7d\\"

/-- A text that {lit}`glob` takes as it stands. -/
def IsPlain (p : Bytes) : Prop := ∀ b ∈ p, b ∉ globBytes

instance : DecidablePred IsPlain := fun p => inferInstanceAs (Decidable (∀ b ∈ p, b ∉ globBytes))

/-- {lit}`glob` finds what a plain text names, if it is there. -/
def GlobsPlain (host : Host) : Prop :=
  ∀ p real, p ≠ [] → IsPlain p → host.phpRealpath p = .ok (some real) → p ∈ host.glob p

/-- One of the paths that the package declares. -/
def Declared (package : Package) (path : Bytes) : Prop :=
  ∃ paths relative, declaredPaths package = .ok paths ∧ relative ∈ paths ∧
    Value.asString relative = .ok path

/-- The file is the place, or below it without a link in between and without a
directory that is passed over. -/
def Holds (files : FileSystem) (real file : Path) : Prop :=
  files.isDirectory real = false ∧ file = real ∨
    ∃ q c, file = real ++ q ++ [c] ∧
      (∀ q', q' <+: q → files.isDirectory (real ++ q') = true) ∧
      ∀ d ∈ q, ¬ IsPassedOverName d.val

/-- The declared path resolves to a place that holds the file, and no filter is meant
for the file. -/
structure Owes (host : Host) (root : Path) (package : Package) (path : Bytes)
    (real file : Path) : Prop where
  declared : Declared package path
  plain : IsPlain path
  resolves : host.phpRealpath (anchored package.base path) = .ok (some real)
  inside : root <+: real
  holds : Holds host.files real file
  admissible : ∃ patterns, exclusions package = .ok patterns ∧
    Admissible host.files patterns file
  clear : KeptClear root file

/-! ## What gets lost -/

/-- The base directory is read as a pattern, and no match is the place. -/
def Misread (host : Host) (package : Package) (path : Bytes) (real : Path) : Prop :=
  strStartsWith path (bytes "/") = false ∧ ¬ IsPlain package.base ∧
    ∀ candidate ∈ host.glob (anchored package.base path),
      host.phpRealpath candidate ≠ .ok (some real)

/-- A directory on the way has a name that is passed over, and a newline. -/
def Newlined (real file : Path) : Prop :=
  ∃ q c, file = real ++ q ++ [c] ∧
    ∃ d ∈ q, ∃ name, d.val = name ++ [10] ∧ IsPassedOverName name

/-- The root is the root directory, and the first name without its first byte is one
of those that are kept out. -/
def CutShort (root file : Path) : Prop :=
  root = [] ∧ ∃ top rest, file = top :: rest ∧ IsKeptOutName (top.val.drop 1)

section Losses

variable {host : Host} {root : Path}

/-- A plain path stays plain behind its base. -/
theorem isPlain_anchored {base path : Bytes} (hpath : IsPlain path)
    (hbase : strStartsWith path (bytes "/") = true ∨ IsPlain base) :
    IsPlain (anchored base path) := by
  have hslash : ∀ b ∈ bytes "/", b ∉ globBytes := by decide +kernel
  unfold anchored
  split
  case isTrue => exact hpath
  case isFalse hrelative =>
    have hplain : IsPlain base := hbase.resolve_left hrelative
    intro b hb
    rcases List.mem_append.mp hb with hinit | hlast
    · rcases List.mem_append.mp hinit with hmem | hmem
      · exact hplain b hmem
      · exact hslash b hmem
    · exact hpath b hlast

/-- A declared path is never empty behind its base. -/
theorem anchored_ne_nil (base path : Bytes) : anchored base path ≠ [] := by
  unfold anchored
  split
  case isTrue habsolute =>
    rintro rfl
    cases habsolute
  case isFalse => simp [bytes]

/-- A declared path leads to its place unless the base directory is read as a
pattern. -/
theorem starts_of_owes {package : Package} {path : Bytes} {real file : Path}
    (hglob : GlobsPlain host) (h : Owes host root package path real file)
    (hread : ¬ Misread host package path real) : Starts host root package real := by
  rcases h.declared with ⟨paths, relative, hpaths, hrelative, hpath⟩
  by_cases hplain : strStartsWith path (bytes "/") = true ∨ IsPlain package.base
  · have hmatch := hglob _ real (anchored_ne_nil _ _) (isPlain_anchored h.plain hplain) h.resolves
    exact ⟨paths, relative, path, _, hpaths, hrelative, hpath, hmatch, h.resolves, h.inside⟩
  · rw [not_or, Bool.not_eq_true] at hplain
    have hsome : ∃ candidate ∈ host.glob (anchored package.base path),
        host.phpRealpath candidate = .ok (some real) := by
      by_contra hnone
      refine hread ⟨hplain.1, hplain.2, ?_⟩
      intro candidate hcandidate heq
      exact hnone ⟨candidate, hcandidate, heq⟩
    rcases hsome with ⟨candidate, hcandidate, hreal⟩
    exact ⟨paths, relative, path, candidate, hpaths, hrelative, hpath, hcandidate, hreal, h.inside⟩

/-- A way through directories is passed unless a name ends in a newline. -/
theorem passes_of_directories {files : FileSystem} {dir : Path} {q : List Name}
    (hdir : ∀ q', q' <+: q → files.isDirectory (dir ++ q') = true)
    (hnames : ∀ d ∈ q, pregMatch entryFilter d.val = false) : Passes files dir q := by
  induction q generalizing dir with
  | nil => trivial
  | cons c q ih =>
      refine ⟨hdir [c] ⟨q, rfl⟩, hnames c List.mem_cons_self, ih ?_ ?_⟩
      · intro q' hq'
        have hlonger := hdir (c :: q') (List.cons_prefix_cons.mpr ⟨rfl, hq'⟩)
        rwa [List.append_assoc]
      · intro d hd
        exact hnames d (List.mem_cons_of_mem c hd)

/-- Without a newline in its names, a file that a place holds is one it yields. -/
theorem yields_of_holds {files : FileSystem} {real file : Path} (h : Holds files real file)
    (hnames : ¬ Newlined real file) : Yields files real file := by
  rcases h with hself | ⟨q, c, rfl, hdir, hover⟩
  · exact Or.inl hself
  · have hreal : files.isDirectory real = true := by
      have hfirst := hdir [] List.nil_prefix
      rwa [List.append_nil] at hfirst
    refine Or.inr ⟨hreal, q, c, rfl, passes_of_directories hdir ?_⟩
    intro d hd
    rw [← Bool.not_eq_true, entryFilter_iff]
    rintro (hname | ⟨name, hnewline, hname⟩)
    · exact hover d hd hname
    · exact hnames ⟨q, c, rfl, d, hd, name, hnewline, hname⟩

/-- What is kept out although its path is clear of the names. -/
theorem isKeptOut_of_keptClear {file : Path} (hinside : root <+: file)
    (hphp : strEndsWith (text file) (bytes ".php") = true) (hclear : KeptClear root file) :
    isKeptOut root file = true ↔ CutShort root file := by
  rcases hinside with ⟨rest, rfl⟩
  rcases hclear with ⟨hnames, hindex⟩
  rw [List.drop_left] at hnames
  by_cases hroot : root = []
  · subst hroot
    cases rest with
    | nil => cases hphp
    | cons top rest =>
        rw [List.nil_append] at hphp hindex ⊢
        rw [isKeptOut_top_iff hphp]
        constructor
        · rintro ((hcut | ⟨c, hc, hname⟩) | ⟨c, hc, hname⟩)
          · exact ⟨rfl, top, rest, rfl, hcut⟩
          · exact absurd hname (hnames c (List.mem_cons_of_mem top hc))
          · exact absurd hname (hindex c hc)
        · rintro ⟨-, top', rest', heq, hcut⟩
          cases heq
          exact Or.inl (Or.inl hcut)
  · rw [isKeptOut_iff hroot hphp]
    constructor
    · rintro (⟨c, hc, hname⟩ | ⟨c, hc, hname⟩)
      · exact absurd hname (hnames c hc)
      · exact absurd hname (hindex c hc)
    · rintro ⟨htop, -⟩
      exact absurd htop hroot

/-- What a place inside the root holds is inside the root. -/
theorem inside_of_holds {files : FileSystem} {real file : Path} (hinside : root <+: real)
    (h : Holds files real file) : root <+: file := by
  rcases h with ⟨-, rfl⟩ | ⟨q, c, rfl, -⟩
  · exact hinside
  · rw [List.append_assoc]
    exact hinside.trans (List.prefix_append _ _)

end Losses

/-- Nothing is lost exactly if no file that is owed is cut short, and every one whose
base directory is misread or whose way has a newline is offered in another way. -/
theorem discover_complete_iff (host : Host) (argument : Bytes) (found : Found)
    (hglob : GlobsPlain host) (h : discover host argument = .ok found) :
    ∃ root, host.phpRealpath argument = .ok (some root) ∧
      ((∀ package path real file, Declares host root package →
          Owes host root package path real file → file ∈ found.files) ↔
        ∀ package path real file, Declares host root package →
          Owes host root package path real file →
            ¬ CutShort root file ∧
              (Misread host package path real ∨ Newlined real file →
                ∃ package', Declares host root package' ∧ Offers host root package' file)) := by
  rcases mem_discover_iff h with ⟨root, -, hroot, -, -⟩
  refine ⟨root, hroot, forall₄_congr ?_⟩
  intro package path real file
  refine forall₂_congr ?_
  intro hpackage howes
  rcases howes.admissible with ⟨patterns, hpatterns, hadmissible⟩
  have hkept := isKeptOut_of_keptClear (inside_of_holds howes.inside howes.holds) hadmissible.2.1
    howes.clear
  rw [mem_found_iff h hroot, ← Bool.not_eq_true, hkept, and_comm]
  apply and_congr_right'
  constructor
  · exact fun hoffered _ => hoffered
  · intro hlost
    by_cases hhindered : Misread host package path real ∨ Newlined real file
    · exact hlost hhindered
    · rw [not_or] at hhindered
      exact ⟨package, hpackage, patterns, real, hpatterns,
        starts_of_owes hglob howes hhindered.1, yields_of_holds howes.holds hhindered.2,
        hadmissible⟩

/-- Metadata that declares one directory. -/
def bracketMetadata : Bytes := bytes "\x7b\"autoload\":\x7b\"classmap\":[\"src\"]\x7d\x7d"

/-- An application in a directory whose name {lit}`glob` reads as a pattern. -/
def bracketView : View where
  files :=
    { nodes :=
        [([named "a[1]"], .directory true),
          ([named "a[1]", named "composer.json"], .regular true bracketMetadata),
          ([named "a[1]", named "src"], .directory true),
          ([named "a[1]", named "src", named "A.php"], .regular true [])]
      distinct := by decide
      rooted := by decide
      closed := by decide }
  cwd := []
  there := rfl

/-- {lit}`glob` finds no {lit}`/a1/src`, which its pattern stands for. -/
def bracketHost : Host where
  toView := bracketView
  glob p := if IsPlain p ∧ (bracketView.realpath p).isSome then [p] else []
  jsonDecode json :=
    if json = bracketMetadata then
      some (.array
        [(.string (bytes "autoload"), .array
          [(.string (bytes "classmap"), .array [(.int 0, .string (bytes "src"))])])])
    else none

/-- This {lit}`glob` finds every plain text. -/
theorem globsPlain_bracketHost : GlobsPlain bracketHost := by
  intro p real hne hplain hreal
  unfold Host.phpRealpath at hreal
  split_ifs at hreal with hzero
  rw [Except.ok.injEq] at hreal
  have hthere : (bracketView.realpath p).isSome := Option.isSome_of_eq_some hreal
  change p ∈ if IsPlain p ∧ (bracketView.realpath p).isSome then [p] else []
  rw [if_pos ⟨hplain, hthere⟩]
  exact List.mem_singleton_self p

/-- {lit}`A.php` in the directory that is declared. -/
def lostFile : Path :=
  [named "a[1]", named "src", named "A.php"]

/-- A root with a bracket in its name is searched to no effect. -/
theorem discover_bracketHost :
    discover bracketHost (bytes "/a[1]") = .ok { files := [], skipped := 0 } := by
  decide +kernel

/-- The class map of the application declares the directory of the file. -/
theorem owes_lostFile :
    ∃ package, Declares bracketHost [named "a[1]"] package ∧
      Owes bracketHost [named "a[1]"] package (bytes "src") lostFile.dropLast lostFile := by
  refine ⟨_, .own rfl, ?_⟩
  constructor
  · exact ⟨_, _, rfl, List.mem_cons_self, rfl⟩
  · decide +kernel
  · rfl
  · exact ⟨[named "src"], rfl⟩
  · refine Or.inr ⟨[], named "A.php", rfl, ?_, by simp⟩
    intro q' hq'
    rw [List.prefix_nil.mp hq']
    rfl
  · exact ⟨_, rfl, ⟨_, _, rfl⟩, rfl, by simp⟩
  · exact ⟨by decide, by decide⟩

/-- The class map declares the directory, and its file is lost. -/
theorem bracket_file_lost :
    GlobsPlain bracketHost ∧
    ∃ found root package real, discover bracketHost (bytes "/a[1]") = .ok found ∧
      bracketHost.phpRealpath (bytes "/a[1]") = .ok (some root) ∧
      Declares bracketHost root package ∧
      Owes bracketHost root package (bytes "src") real lostFile ∧ lostFile ∉ found.files := by
  rcases owes_lostFile with ⟨package, hdeclares, howes⟩
  exact ⟨globsPlain_bracketHost, _, _, package, _, discover_bracketHost, rfl, hdeclares, howes,
    List.not_mem_nil⟩

/-- A file that is owed must be cut short or be hindered on every way to it. -/
theorem discover_complete_sample :
    ∃ package path real file, Declares bracketHost [named "a[1]"] package ∧
      Owes bracketHost [named "a[1]"] package path real file ∧
      (CutShort [named "a[1]"] file ∨
        (Misread bracketHost package path real ∨ Newlined real file) ∧
          ∀ package', Declares bracketHost [named "a[1]"] package' →
            ¬ Offers bracketHost [named "a[1]"] package' file) := by
  rcases discover_complete_iff bracketHost (bytes "/a[1]") _ globsPlain_bracketHost
    discover_bracketHost with ⟨root, hroot, hiff⟩
  have happ : root = [named "a[1]"] := by
    cases hroot
    rfl
  subst happ
  rcases owes_lostFile with ⟨owing, hdeclares, howes⟩
  by_contra hnone
  refine List.not_mem_nil (hiff.mpr ?_ owing (bytes "src") _ lostFile hdeclares howes)
  intro package path real file hpackage howes'
  refine ⟨fun hcut => hnone ⟨package, path, real, file, hpackage, howes', Or.inl hcut⟩, ?_⟩
  intro hhindered
  by_contra hunoffered
  exact hnone ⟨package, path, real, file, hpackage, howes', Or.inr ⟨hhindered,
    fun package' hpackage' hoffers => hunoffered ⟨package', hpackage', hoffers⟩⟩⟩

end Preload

end Polychrome

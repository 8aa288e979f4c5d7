import Polychrome.Preload.Opening

/-!
# What the discovery stays within

Links may lead anywhere, and so may the paths of the metadata.  The recursion starts
at a canonical directory inside the root and goes down through directory entries, so
it stays below its start.  What it returns is in the byte order of the paths.

Main results:

- Theorem {lit}`stringLe_iff`: {lit}`SORT_STRING` is the order of byte strings.
- Theorem {lit}`ascending_of_discover`: the list that is returned ascends strictly.
- Theorem {lit}`discover_stays_inside`: where the recursion goes, how it ends and what
  is returned.
-/

namespace Polychrome

namespace Preload

open Posix Php Pcre

/-! ## The order of the result -/

/-- The order of {lit}`sort` is the order of the bytes. -/
theorem stringLe_iff {s t : Bytes} : stringLe s t = true ↔ s ≤ t := by
  induction s generalizing t with
  | nil => simp [stringLe]
  | cons a s ih =>
      cases t with
      | nil => simp [stringLe]
      | cons b t => simp [stringLe, List.cons_le_cons_iff, ih]

/-- {lit}`SORT_STRING` on the texts of two paths. -/
def Before (p q : Path) : Prop := stringLe (text p) (text q) = true

instance : DecidableRel Before := fun p q =>
  inferInstanceAs (Decidable (stringLe (text p) (text q) = true))

instance : Std.Total Before where
  total p q := by
    rw [Before, Before, stringLe_iff, stringLe_iff]
    exact List.le_total _ _

instance : IsTrans Path Before where
  trans p q r := by
    rw [Before, Before, Before, stringLe_iff, stringLe_iff, stringLe_iff]
    exact List.le_trans

instance : Std.Antisymm Before where
  antisymm p q := by
    rw [Before, Before, stringLe_iff, stringLe_iff]
    intro hle hge
    exact text_inj.mp (List.le_antisymm hle hge)

/-- Two files in order have texts in order. -/
theorem lt_of_before {p q : Path} (h : Before p q) (hne : p ≠ q) : text p < text q := by
  by_contra hlt
  have hback : Before q p := by
    rw [Before, stringLe_iff]
    exact hlt
  exact hne (Std.Antisymm.antisymm p q h hback)

/-- A file is never listed twice. -/
theorem Found.add_nodup {found : Found} (file : Path) (h : found.files.Nodup) :
    (found.add file).files.Nodup := by
  unfold Found.add
  split
  case isTrue => exact h
  case isFalse hnew =>
    exact List.nodup_append.mpr ⟨h, List.nodup_singleton file, by
      intro p hp q hq
      rw [List.mem_singleton.mp hq]
      exact fun heq => hnew (heq ▸ hp)⟩

section Nodup

variable {host : Host} {root : Path}

/-- One entry keeps the list without repetition. -/
theorem takeEntry_nodup {patterns : List Bytes} (found : Found) (entry : Path)
    (h : found.files.Nodup) : (takeEntry host root patterns found entry).files.Nodup := by
  unfold takeEntry
  split
  case h_1 => exact h
  case h_2 file hfile =>
    split_ifs
    · exact h
    · exact h
    · exact h
    · exact Found.add_nodup file h

/-- One candidate keeps the list without repetition. -/
theorem takeCandidate_nodup {patterns : List Bytes} {found found' : Found} {candidate : Bytes}
    (htake : takeCandidate host root patterns found candidate = .ok found')
    (h : found.files.Nodup) : found'.files.Nodup := by
  rw [takeCandidate, Except.bind_eq_ok] at htake
  rcases htake with ⟨real?, -, htake⟩
  split at htake
  case h_1 =>
    rw [Except.pure_eq_ok] at htake
    rwa [← htake]
  case h_2 real =>
    split at htake
    case isTrue =>
      rw [Except.pure_eq_ok] at htake
      rwa [← htake]
    case isFalse =>
      rw [Except.bind_eq_ok] at htake
      rcases htake with ⟨entries, -, htake⟩
      rw [Except.pure_eq_ok] at htake
      rw [← htake]
      exact Collecting.foldl_keeps (fun (found : Found) => found.files.Nodup) takeEntry_nodup
        entries h

/-- One declared path keeps the list without repetition. -/
theorem takePath_nodup {package : Package} {patterns : List Bytes} {found found' : Found}
    {relative : Value} (htake : takePath host root package patterns found relative = .ok found')
    (h : found.files.Nodup) : found'.files.Nodup := by
  rw [takePath, Except.bind_eq_ok] at htake
  rcases htake with ⟨path, -, htake⟩
  dsimp only at htake
  split at htake
  case isTrue => cases htake
  case isFalse =>
    exact Collecting.foldlM_keeps (fun (found : Found) => found.files.Nodup)
      (fun s a s' => takeCandidate_nodup) htake h

/-- One package keeps the list without repetition. -/
theorem takePackage_nodup {package : Package} {found found' : Found}
    (htake : takePackage host root found package = .ok found') (h : found.files.Nodup) :
    found'.files.Nodup := by
  rw [takePackage, Except.bind_eq_ok] at htake
  rcases htake with ⟨paths, -, htake⟩
  rw [Except.bind_eq_ok] at htake
  rcases htake with ⟨patterns, -, htake⟩
  exact Collecting.foldlM_keeps (fun (found : Found) => found.files.Nodup)
    (fun s a s' => takePath_nodup) htake h

end Nodup

/-- The list that is returned ascends strictly in the order of bytes. -/
theorem ascending_of_discover {host : Host} {argument : Bytes} {found : Found}
    (h : discover host argument = .ok found) :
    found.files.Pairwise fun p q => text p < text q := by
  rw [discover, Except.bind_eq_ok] at h
  rcases h with ⟨root?, -, h⟩
  split at h
  case h_1 => cases h
  case h_2 root =>
    rw [Except.bind_eq_ok] at h
    rcases h with ⟨list, -, h⟩
    rw [Except.bind_eq_ok] at h
    rcases h with ⟨collected, hcollected, h⟩
    rw [Except.pure_eq_ok] at h
    rw [← h]
    have hnodup : collected.files.Nodup :=
      Collecting.foldlM_keeps (fun (found : Found) => found.files.Nodup)
        (fun s a s' => takePackage_nodup) hcollected List.nodup_nil
    have hsorted : (collected.files.insertionSort Before).Pairwise Before :=
      List.pairwise_insertionSort Before collected.files
    have hdistinct : (collected.files.insertionSort Before).Nodup :=
      (List.perm_insertionSort Before collected.files).nodup_iff.mpr hnodup
    exact (hsorted.and hdistinct).imp fun hpair => lt_of_before hpair.1 hpair.2

/-! ## Where the recursion goes -/

/-- What the recursion opens lies below its start, with directories in between. -/
theorem exists_of_opened {files : FileSystem} {bound : Nat} {real p : Path}
    (h : Visit.opened p ∈ iterate files bound real) (hreal : files.isDirectory real = true) :
    ∃ q, p = real ++ q ∧ ∀ q', q' <+: q → files.isDirectory (real ++ q') = true := by
  rcases mem_iterate_iff.mp h with ⟨q, -, hpasses, hsees⟩
  refine ⟨q, hsees, ?_⟩
  rintro q' ⟨rest, rfl⟩
  exact isDirectory_of_passes (passes_append.mp hpasses).1 hreal

/-- A directory that is opened: it lies inside the root on the way down from a place
that a declared path resolves to, and there is no link on this way. -/
structure OpenedInside (host : Host) (argument : Bytes) (p : Path) : Prop where
  start : ∃ root list package real q, host.phpRealpath argument = .ok (some root) ∧
    packages host root = .ok list ∧ package ∈ list ∧ Starts host root package real ∧
    p = real ++ q ∧ root <+: p ∧ ∀ q', q' <+: q → host.files.isDirectory (real ++ q') = true
  canonical : host.realpath (text p) = some p

/-- Every directory that is opened lies in the root. -/
theorem openedInside_of_log {host : Host} {bound : Nat} {argument : Bytes} {p : Path}
    (h : p ∈ (discoverLogged host bound argument).log) : OpenedInside host argument p := by
  rcases mem_log_discoverLogged h with ⟨root, list, package, real, hroot, hlist, hpackage, hstarts,
    hdir, hopened⟩
  rcases exists_of_opened hopened hdir with ⟨q, rfl, hway⟩
  have hinside : root <+: real ++ q := by
    rcases hstarts with ⟨-, -, -, -, -, -, -, -, -, hinside⟩
    exact hinside.trans (List.prefix_append _ _)
  exact
    { start := ⟨root, list, package, real, q, hroot, hlist, hpackage, hstarts, rfl, hinside, hway⟩
      canonical :=
        View.realpath_text (FileSystem.solid_of_isDirectory (hway q (List.prefix_refl q))) }

/-- What is returned is the canonical path of a PHP file inside the root. -/
def IsPreloadable (host : Host) (root file : Path) : Prop :=
  root <+: file ∧ strEndsWith (text file) (bytes ".php") = true ∧
    (∃ readable content, host.files.lookup file = some (.regular readable content)) ∧
    host.realpath (text file) = some file

/-- Where a declaration leads is a PHP file inside the root. -/
theorem isPreloadable_of_leads {host : Host} {root file : Path} {package : Package}
    (h : Leads host root package file) : IsPreloadable host root file := by
  have hinside := h.inside
  rcases leads_iff.mp h with ⟨patterns, real, entries, -, -, -, -, hregular, hphp, -⟩
  refine ⟨hinside, hphp, hregular, ?_⟩
  rcases hregular with ⟨readable, content, hlookup⟩
  exact View.realpath_text ⟨_, hlookup, by simp⟩

/-- The discovery with a log of the directories that it opens is the discovery, and no
bound on its recursion from the depth of the table on changes what it does.  It opens
directories inside the root only and reaches them without a link; what is returned
ascends strictly and is inside the root. -/
theorem discover_stays_inside (host : Host) (argument : Bytes) :
    (∀ bound, depth host.files ≤ bound →
      (discoverLogged host bound argument).result = discover host argument ∧
      (discoverLogged host bound argument).log =
        (discoverLogged host (depth host.files) argument).log ∧
      ∀ p ∈ (discoverLogged host bound argument).log, OpenedInside host argument p) ∧
    ∀ found, discover host argument = .ok found →
      ∃ root, host.phpRealpath argument = .ok (some root) ∧
        found.files.Pairwise (fun p q => text p < text q) ∧ found.files.Nodup ∧
        ∀ file ∈ found.files, IsPreloadable host root file := by
  constructor
  · intro bound hbound
    refine ⟨result_discoverLogged hbound argument, ?_, fun p hp => openedInside_of_log hp⟩
    rw [discoverLogged_stable hbound]
  · intro found h
    have hascending := ascending_of_discover h
    rcases mem_discover_iff h with ⟨root, list, hroot, -, hfiles⟩
    refine ⟨root, hroot, hascending, ?_, ?_⟩
    · refine hascending.imp ?_
      intro p q hlt heq
      rw [heq] at hlt
      exact List.lt_irrefl _ hlt
    · intro file hfile
      rcases ((hfiles file).mp hfile).1 with ⟨package, -, hleads⟩
      exact isPreloadable_of_leads hleads

/-- Metadata with one declared directory. -/
def linkMetadata : Bytes := bytes "\x7b\"autoload\":\x7b\"classmap\":[\"src\"]\x7d\x7d"

/-- An application with a directory that links to itself and to the root directory. -/
def linkHost : Host where
  files :=
    { nodes :=
        [([named "app"], .directory true),
          ([named "app", named "composer.json"], .regular true linkMetadata),
          ([named "app", named "src"], .directory true),
          ([named "app", named "src", named "self"], .link (bytes ".")),
          ([named "app", named "src", named "out"], .link (bytes "/")),
          ([named "app", named "src", named "B.php"], .regular true []),
          ([named "app", named "src", named "A.php"], .regular true [])]
      distinct := by decide
      rooted := by decide
      closed := by decide }
  cwd := []
  there := rfl
  glob p := if p = bytes "/app/src" then [p] else []
  jsonDecode json :=
    if json = linkMetadata then
      some (.array
        [(.string (bytes "autoload"), .array
          [(.string (bytes "classmap"), .array [(.int 0, .string (bytes "src"))])])])
    else none

/-- A declared link to a directory inside the root is followed. -/
theorem discover_linkHost :
    discover linkHost (bytes "/app") =
      .ok
        { files := [[named "app", named "src", named "A.php"],
            [named "app", named "src", named "B.php"]]
          skipped := 0 } := by
  decide +kernel

/-- The directory is opened, and its two links are not followed. -/
theorem discover_stays_inside_sample :
    ∃ found root, linkHost.phpRealpath (bytes "/app") = .ok (some root) ∧
      discover linkHost (bytes "/app") = .ok found ∧
      (discoverLogged linkHost (depth linkHost.files) (bytes "/app")).log =
        [[named "app", named "src"]] ∧
      (∀ p ∈ (discoverLogged linkHost (depth linkHost.files) (bytes "/app")).log,
        OpenedInside linkHost (bytes "/app") p) ∧
      found.files.length = 2 ∧ found.files.Pairwise (fun p q => text p < text q) := by
  have hlaws := discover_stays_inside linkHost (bytes "/app")
  rcases hlaws.1 _ le_rfl with ⟨-, -, hopened⟩
  rcases hlaws.2 _ discover_linkHost with ⟨_, -, hascending, -⟩
  refine ⟨_, _, rfl, discover_linkHost, ?_, hopened, rfl, hascending⟩
  decide +kernel

end Preload

end Polychrome

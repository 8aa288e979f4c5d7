import Polychrome.Library.PcreRow
import Polychrome.Preload.Traversal

/-!
# Names that are not preloaded

{lit}`discover` keeps a file out if a component of its path below the root has one
of six names, without regard to case, or if it is an {lit}`index.php`.  The path is
cut out of the file's path by the length of the root's text.

Main results:

- Theorem {lit}`pathFilter_iff`: the pattern looks for a component with such a name.
- Theorem {lit}`isKeptOut_iff` and theorem {lit}`isKeptOut_top_iff`: what is kept out
  below a root, and below the root directory.
- Theorem {lit}`names_kept_out_iff`: when no file that is returned has such a name.
-/

namespace Polychrome

namespace Preload

open Posix Php Pcre

/-- The names of test, fixture, module and theme directories. -/
def keptOutNames : List Bytes :=
  [bytes "test", bytes "tests", bytes "fixture", bytes "fixtures", bytes "modules", bytes "themes"]

/-- The component has one of these names, without regard to ASCII case. -/
def IsKeptOutName (c : Bytes) : Prop := c.map lower ∈ keptOutNames

instance : DecidablePred IsKeptOutName := fun c =>
  inferInstanceAs (Decidable (c.map lower ∈ keptOutNames))

/-! ## The pattern -/

/-- The alternatives of the pattern. -/
def namesRegex : Regex :=
  match compile (bytes "~(?:tests?|fixtures?|modules|themes)~i") with
  | some (_, r) => r
  | none => .empty

/-- The filter of the paths compiles to its five names between slashes. -/
theorem compile_pathFilter :
    compile pathFilter = some (true, .cat (.alt .start (.byte slash))
      (.cat namesRegex (.alt (.byte slash) .finish))) := by
  rfl

/-- A slash has no other case. -/
theorem same_slash {c : UInt8} : same true slash c = true ↔ c = slash := by
  have hlower : lower c = slash ↔ c = slash := by
    unfold lower
    split
    case isTrue hupper =>
      rw [UInt8.le_iff_toNat_le, UInt8.le_iff_toNat_le] at hupper
      rw [← UInt8.toNat_inj, ← UInt8.toNat_inj, UInt8.toNat_add]
      simp [slash] at hupper ⊢
      omega
    case isFalse => exact Iff.rfl
  rw [same, if_pos rfl, beq_iff_eq, eq_comm, ← hlower]
  rfl

/-- A component of that name holds no slash. -/
theorem slash_notMem_of_isKeptOutName {c : Bytes} (h : IsKeptOutName c) : slash ∉ c := by
  intro hmem
  have hlower : slash ∈ c.map lower := List.mem_map.mpr ⟨slash, hmem, rfl⟩
  have hnone : ∀ name ∈ keptOutNames, slash ∉ name := by decide
  exact hnone _ h hlower

/-- A match of the slash takes one slash. -/
theorem matches_slash_iff {u v : Place} :
    Matches true (.byte slash) u v ↔ u.rest = slash :: v.rest ∧ v.first = false := by
  constructor
  · intro h
    cases h with
    | byte hsame => exact ⟨by rw [same_slash.mp hsame], rfl⟩
  · rintro ⟨hrest, hfirst⟩
    rcases u with ⟨first, subject⟩
    rcases v with ⟨first', rest⟩
    change subject = slash :: rest at hrest
    change first' = false at hfirst
    rw [hrest, hfirst]
    exact .byte (same_slash.mpr rfl)

/-- The pattern begins with the text or behind a slash. -/
theorem opens_iff {x : Bytes} {m : Place} :
    (∃ u ∈ places x, Matches true (.alt .start (.byte slash)) u m) ↔
      ∃ before, x = before ++ m.rest ∧
        (before = [] ∧ m.first = true ∨ (∃ b, before = b ++ [slash]) ∧ m.first = false) := by
  constructor
  · rintro ⟨u, hu, hmatch⟩
    rcases matches_alt_iff.mp hmatch with hstart | hslash
    · cases hstart with
      | start hfirst =>
          rcases mem_places.mp hu with rfl | ⟨hlater, -⟩
          · exact ⟨[], rfl, Or.inl ⟨rfl, rfl⟩⟩
          · rw [hlater] at hfirst
            cases hfirst
    · rcases matches_slash_iff.mp hslash with ⟨hrest, hfirst⟩
      rcases mem_places.mp hu with rfl | ⟨-, before, -, hsplit⟩
      · exact ⟨[slash], hrest, Or.inr ⟨⟨[], rfl⟩, hfirst⟩⟩
      · refine ⟨before ++ [slash], ?_, Or.inr ⟨⟨before, rfl⟩, hfirst⟩⟩
        rw [hsplit, hrest, List.append_assoc]
        rfl
  · rintro ⟨before, rfl, ⟨rfl, hfirst⟩ | ⟨⟨b, rfl⟩, hfirst⟩⟩
    · exact ⟨m, mem_places.mpr (Or.inl (by rw [← hfirst]; rfl)), .left (.start hfirst)⟩
    · refine ⟨{ first := b.isEmpty, rest := slash :: m.rest }, mem_places.mpr ?_,
        .right (matches_slash_iff.mpr ⟨rfl, hfirst⟩)⟩
      cases b with
      | nil => exact Or.inl rfl
      | cons d b => exact Or.inr ⟨rfl, d :: b, by simp, by simp⟩

/-- The pattern ends with the text or before a slash. -/
theorem closes_iff {v : Place} :
    (∃ w, Matches true (.alt (.byte slash) .finish) v w) ↔
      (∃ after, v.rest = slash :: after) ∨ v.rest = [] ∨ v.rest = [10] := by
  constructor
  · rintro ⟨w, hmatch⟩
    rcases matches_alt_iff.mp hmatch with hslash | hfinish
    · exact Or.inl ⟨w.rest, (matches_slash_iff.mp hslash).1⟩
    · cases hfinish with
      | finish hlast => exact Or.inr hlast
  · rintro (⟨after, hrest⟩ | hlast)
    · exact ⟨{ first := false, rest := after }, .left (matches_slash_iff.mpr ⟨hrest, rfl⟩)⟩
    · exact ⟨v, .right (.finish hlast)⟩

/-- In a text that ends in no newline, the pattern looks for a component. -/
theorem pathFilter_iff {x : Bytes} (hx : x.getLast? ≠ some 10) :
    pregMatch pathFilter x = true ↔ ∃ c ∈ x.splitOn slash, IsKeptOutName c := by
  rw [pregMatch, compile_pathFilter]
  change search true _ x = true ↔ _
  rw [search_iff]
  constructor
  · rintro ⟨u, hu, w, hmatch⟩
    rcases matches_cat_iff.mp hmatch with ⟨m, hopens, hrest⟩
    rcases matches_cat_iff.mp hrest with ⟨v, hword, hcloses⟩
    rcases (spells_words rfl m v).mp hword with ⟨c, hname, after, hc, rfl⟩
    rcases opens_iff.mp ⟨u, hu, hopens⟩ with ⟨before, hsplit, hbefore⟩
    rw [hc, ← List.append_assoc] at hsplit
    refine ⟨c, mem_splitOn_iff.mpr ⟨slash_notMem_of_isKeptOutName hname, before, after, hsplit,
      hbefore.imp And.left And.left, ?_⟩, hname⟩
    rcases closes_iff.mp ⟨w, hcloses⟩ with hslash | hnil | hnewline
    · exact Or.inr hslash
    · exact Or.inl hnil
    · -- Only here does the end of the text matter.
      change after = [10] at hnewline
      rw [hsplit, hnewline] at hx
      simp at hx
  · rintro ⟨c, hmem, hname⟩
    rcases mem_splitOn_iff.mp hmem with ⟨-, before, after, hsplit, hbefore, hafter⟩
    rw [List.append_assoc] at hsplit
    have hopens : ∃ m : Place, m.rest = c ++ after ∧
        ∃ u ∈ places x, Matches true (.alt .start (.byte slash)) u m := by
      rcases hbefore with hnil | hslash
      · exact ⟨{ first := true, rest := c ++ after }, rfl,
          opens_iff.mpr ⟨before, hsplit, Or.inl ⟨hnil, rfl⟩⟩⟩
      · exact ⟨{ first := false, rest := c ++ after }, rfl,
          opens_iff.mpr ⟨before, hsplit, Or.inr ⟨hslash, rfl⟩⟩⟩
    rcases hopens with ⟨m, hrest, u, hu, hmatch⟩
    have hword : Matches true namesRegex m (m.behind c after) :=
      (spells_words rfl m _).mpr ⟨c, hname, after, hrest, rfl⟩
    have hcloses : ∃ w, Matches true (.alt (.byte slash) .finish) (m.behind c after) w := by
      rw [closes_iff]
      rcases hafter with hnil | hslash
      · exact Or.inr (Or.inl hnil)
      · exact Or.inl hslash
    rcases hcloses with ⟨w, hw⟩
    exact ⟨u, hu, w, .cat hmatch (.cat hword hw)⟩

/-! ## The path below the root -/

/-- What the file's path ends in is no newline. -/
theorem getLast?_of_php {x t : Bytes} (hphp : strEndsWith t (bytes ".php") = true) (hx : x <:+ t) :
    x.getLast? ≠ some 10 := by
  rw [strEndsWith, List.isSuffixOf_iff_suffix] at hphp
  rcases List.suffix_or_suffix_of_suffix hx hphp with hshort | ⟨rest, rfl⟩
  · have hnone : ∀ y ∈ (bytes ".php").tails, y.getLast? ≠ some 10 := by decide
    exact hnone x ((List.mem_tails x _).mpr hshort)
  · have hlast : (bytes ".php").getLast? = some 112 := rfl
    rw [List.getLast?_append, hlast]
    simp

/-- The base name of a path is its last component. -/
theorem basename_text (dir : Path) (c : Name) : basename (text (dir ++ [c])) = c.val := by
  have htrim : (text (dir ++ [c])).rdropWhile (fun b => b == 47) = below dir ++ slash :: c.val := by
    have h := rtrim_text (dir ++ [c])
    rw [below_append, below_cons, below_nil, List.append_nil] at h
    exact h
  have hname : ∀ b ∈ c.val.reverse, (b != 47) = true := by
    intro b hb
    rw [bne_iff_ne]
    rintro rfl
    exact c.property.2.2.2.1 (List.mem_reverse.mp hb)
  rw [basename, htrim, List.rtakeWhile, List.reverse_append, List.reverse_cons,
    List.append_assoc, List.takeWhile_append_of_pos hname]
  simp [slash]

/-- A path has a base name exactly if its last component is that name. -/
theorem basename_iff {file : Path} (hne : file ≠ []) {name : Bytes} :
    basename (text file) = name ↔ ∃ c ∈ file.getLast?, c.val = name := by
  rcases List.eq_nil_or_concat file with rfl | ⟨dir, c, rfl⟩
  · exact absurd rfl hne
  · rw [List.concat_eq_append, basename_text]
    simp

/-- A file below a root that is not the root directory. -/
theorem isKeptOut_iff {root rest : Path} (hroot : root ≠ [])
    (hphp : strEndsWith (text (root ++ rest)) (bytes ".php") = true) :
    isKeptOut root (root ++ rest) = true ↔ (∃ c ∈ rest, IsKeptOutName c.val) ∨
      ∃ c ∈ (root ++ rest).getLast?, c.val = bytes "index.php" := by
  have hne : root ++ rest ≠ [] := by simp [hroot]
  have hcut : substr (text (root ++ rest)) ((text root).length + 1) = (below rest).drop 1 := by
    rw [substr, text_of_ne_nil hne, text_of_ne_nil hroot, below_append, List.drop_append]
    simp
  have hparts : (∃ c ∈ ((below rest).drop 1).splitOn slash, IsKeptOutName c) ↔
      ∃ c ∈ rest, IsKeptOutName c.val := by
    cases rest with
    | nil =>
        have hempty : ¬ IsKeptOutName [] := by decide
        simp [hempty]
    | cons c rest =>
        rw [below_cons, List.drop_one, List.tail_cons, splitOn_below]
        simp
  have hsuffix : substr (text (root ++ rest)) ((text root).length + 1) <:+ text (root ++ rest) :=
    List.drop_suffix _ _
  rw [isKeptOut, Bool.or_eq_true, beq_iff_eq, basename_iff hne,
    pathFilter_iff (getLast?_of_php hphp hsuffix), hcut, hparts]

/-- Below the root directory the cut takes the first character of the first name. -/
theorem isKeptOut_top_iff {top : Name} {rest : Path}
    (hphp : strEndsWith (text (top :: rest)) (bytes ".php") = true) :
    isKeptOut [] (top :: rest) = true ↔
      (IsKeptOutName (top.val.drop 1) ∨ ∃ c ∈ rest, IsKeptOutName c.val) ∨
        ∃ c ∈ (top :: rest).getLast?, c.val = bytes "index.php" := by
  have hcut : substr (text (top :: rest)) ((text []).length + 1) =
      top.val.drop 1 ++ below rest := by
    rw [substr, text_of_ne_nil (List.cons_ne_nil top rest), below_cons, text_nil,
      List.length_singleton, List.drop_succ_cons]
    cases hname : top.val with
    | nil => exact absurd hname top.property.1
    | cons b name => rfl
  have hslash : slash ∉ top.val.drop 1 := by
    intro hmem
    exact top.property.2.2.2.1 (List.mem_of_mem_drop hmem)
  have hparts : (∃ c ∈ (top.val.drop 1 ++ below rest).splitOn slash, IsKeptOutName c) ↔
      IsKeptOutName (top.val.drop 1) ∨ ∃ c ∈ rest, IsKeptOutName c.val := by
    rw [splitOn_append_below hslash]
    simp
  have hsuffix : substr (text (top :: rest)) ((text []).length + 1) <:+ text (top :: rest) :=
    List.drop_suffix _ _
  rw [isKeptOut, Bool.or_eq_true, beq_iff_eq, basename_iff (List.cons_ne_nil top rest),
    pathFilter_iff (getLast?_of_php hphp hsuffix), hcut, hparts]

/-- None of the names is left when the first character of one is taken. -/
theorem drop_of_isKeptOutName {c : Bytes} (h : IsKeptOutName c) : ¬ IsKeptOutName (c.drop 1) := by
  have hnone : ∀ name ∈ keptOutNames, name.drop 1 ∉ keptOutNames := by decide
  rw [IsKeptOutName, List.map_drop]
  exact hnone _ h

/-! ## What is returned -/

/-- No component below the root has one of the names, and the file is no
{lit}`index.php`. -/
def KeptClear (root file : Path) : Prop :=
  (∀ c ∈ file.drop root.length, ¬ IsKeptOutName c.val) ∧
    ∀ c ∈ file.getLast?, c.val ≠ bytes "index.php"

/-- Below a root that is not the root directory, exactly the clear files get past the
tests on the name. -/
theorem keptClear_iff {root rest : Path} (hroot : root ≠ [])
    (hphp : strEndsWith (text (root ++ rest)) (bytes ".php") = true) :
    isKeptOut root (root ++ rest) = false ↔ KeptClear root (root ++ rest) := by
  rw [← Bool.not_eq_true, isKeptOut_iff hroot hphp, KeptClear, List.drop_left]
  constructor
  · intro hfree
    exact ⟨fun c hc hname => hfree (Or.inl ⟨c, hc, hname⟩),
      fun c hc hname => hfree (Or.inr ⟨c, hc, hname⟩)⟩
  · rintro ⟨hnames, hindex⟩ (⟨c, hc, hname⟩ | ⟨c, hc, hname⟩)
    · exact hnames c hc hname
    · exact hindex c hc hname

/-- Only the first component of the file has one of the names. -/
def OnlyTop (file : Path) : Prop :=
  ∃ top rest, file = top :: rest ∧ IsKeptOutName top.val ∧
    (∀ c ∈ rest, ¬ IsKeptOutName c.val) ∧ ∀ c ∈ file.getLast?, c.val ≠ bytes "index.php"

/-- All files that a discovery returns are clear of the names exactly if the root is
not the root directory, or no declared path leads to a file whose only such name is
its first component. -/
theorem names_kept_out_iff (host : Host) (argument : Bytes) (found : Found)
    (h : discover host argument = .ok found) :
    ∃ root list, host.phpRealpath argument = .ok (some root) ∧ packages host root = .ok list ∧
      ((∀ file ∈ found.files, KeptClear root file) ↔
        (root = [] → ∀ package ∈ list, ∀ file, Leads host root package file → ¬ OnlyTop file)) := by
  rcases mem_discover_iff h with ⟨root, list, hroot, hlist, hfiles⟩
  refine ⟨root, list, hroot, hlist, ?_, ?_⟩
  · rintro hclear rfl package hpackage file hleads ⟨top, rest, rfl, htop, hrest, hindex⟩
    have hphp := hleads.php
    have hfree : isKeptOut [] (top :: rest) = false := by
      rw [← Bool.not_eq_true, isKeptOut_top_iff hphp]
      rintro ((hdrop | ⟨c, hc, hname⟩) | ⟨c, hc, hname⟩)
      · exact drop_of_isKeptOutName htop hdrop
      · exact hrest c hc hname
      · exact hindex c hc hname
    have hreturned := (hfiles _).mpr ⟨⟨package, hpackage, hleads⟩, hfree⟩
    exact (hclear _ hreturned).1 top (by simp) htop
  · intro hcondition file hreturned
    rcases (hfiles file).mp hreturned with ⟨⟨package, hpackage, hleads⟩, hfree⟩
    have hphp := hleads.php
    rcases hleads.inside with ⟨rest, rfl⟩
    by_cases htop : root = []
    · rw [← Bool.not_eq_true] at hfree
      subst htop
      cases rest with
      | nil => cases hphp
      | cons top rest =>
          rw [List.nil_append] at hphp hfree hleads ⊢
          rw [isKeptOut_top_iff hphp] at hfree
          have hrest : ∀ c ∈ rest, ¬ IsKeptOutName c.val := fun c hc hname =>
            hfree (Or.inl (Or.inr ⟨c, hc, hname⟩))
          have hindex : ∀ c ∈ (top :: rest).getLast?, c.val ≠ bytes "index.php" :=
            fun c hc hname => hfree (Or.inr ⟨c, hc, hname⟩)
          refine ⟨?_, hindex⟩
          intro c hc hname
          rw [List.length_nil, List.drop_zero] at hc
          rcases List.mem_cons.mp hc with rfl | hmem
          · exact hcondition rfl package hpackage _ hleads ⟨c, rest, rfl, hname, hrest, hindex⟩
          · exact hrest c hmem hname
    · exact (keptClear_iff htop hphp).mp hfree

/-- Metadata with one declared file. -/
def rootMetadata : Bytes := bytes "\x7b\"autoload\":\x7b\"classmap\":[\"tests/Foo.php\"]\x7d\x7d"

/-- A container whose application root is the root directory. -/
def rootHost : Host where
  files :=
    { nodes :=
        [([⟨bytes "composer.json", by decide⟩], .regular true rootMetadata),
          ([⟨bytes "tests", by decide⟩], .directory true),
          ([⟨bytes "tests", by decide⟩, ⟨bytes "Foo.php", by decide⟩], .regular true [])]
      distinct := by decide
      rooted := by decide
      closed := by decide }
  cwd := []
  there := rfl
  glob p := if p = bytes "//tests/Foo.php" then [p] else []
  jsonDecode json :=
    if json = rootMetadata then
      some (.array
        [(.string (bytes "autoload"), .array
          [(.string (bytes "classmap"), .array [(.int 0, .string (bytes "tests/Foo.php"))])])])
    else none

/-- {lit}`Foo.php` in the directory {lit}`tests`. -/
def topFile : Path := [⟨bytes "tests", by decide⟩, ⟨bytes "Foo.php", by decide⟩]

/-- Below the root directory a kept-out name is let through. -/
theorem discover_rootHost :
    discover rootHost (bytes "/") = .ok { files := [topFile], skipped := 0 } :=
  rfl

/-- The file lies below a name that is kept out. -/
theorem not_keptClear_topFile : ¬ KeptClear [] topFile := by
  intro hclear
  exact hclear.1 ⟨bytes "tests", by decide⟩ List.mem_cons_self (by decide)

/-- The file is returned although its directory is called {lit}`tests`. -/
theorem top_tests_returned :
    ∃ found file, discover rootHost (bytes "/") = .ok found ∧ file ∈ found.files ∧
      text file = bytes "/tests/Foo.php" ∧ ¬ KeptClear [] file :=
  ⟨_, topFile, discover_rootHost, List.mem_cons_self, rfl, not_keptClear_topFile⟩

/-- A path that is declared must lead to a file with the name at the top. -/
theorem names_kept_out_sample :
    ∃ list, packages rootHost [] = .ok list ∧
      ∃ package ∈ list, ∃ file, Leads rootHost [] package file ∧ OnlyTop file := by
  rcases names_kept_out_iff rootHost (bytes "/") _ discover_rootHost with
    ⟨root, list, hroot, hlist, hiff⟩
  have htop : root = [] := by
    cases hroot
    rfl
  subst htop
  refine ⟨list, hlist, ?_⟩
  by_contra hnone
  refine not_keptClear_topFile (hiff.mpr ?_ topFile List.mem_cons_self)
  intro _ package hpackage file hleads honly
  exact hnone ⟨package, hpackage, file, hleads, honly⟩

end Preload

end Polychrome

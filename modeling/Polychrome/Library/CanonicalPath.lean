import Mathlib.Data.List.Infix
import Polychrome.Library.Bytes

/-!
# Canonical paths

A canonical path is the list of the names on the way from the root directory.
Its text puts a slash in front of every name; the root directory alone is written
as one slash.

Main results:

- Theorem {lit}`isCanonical_iff`: the canonical texts are the texts of the paths.
- Theorem {lit}`components_text`: the components of a canonical text are the names.
- Theorem {lit}`below_slash_prefix`: a path is below another one exactly if its
  text begins with the other one's text and a slash.
-/

namespace Posix

/-- The byte {lit}`/`. -/
def slash : UInt8 := 47

/-- What a directory entry can be called. -/
def IsName (c : Bytes) : Prop :=
  c ≠ [] ∧ c ≠ bytes "." ∧ c ≠ bytes ".." ∧ slash ∉ c ∧ 0 ∉ c

instance : DecidablePred IsName := fun c =>
  inferInstanceAs (Decidable (c ≠ [] ∧ c ≠ bytes "." ∧ c ≠ bytes ".." ∧ slash ∉ c ∧ 0 ∉ c))

/-- The name of a directory entry. -/
abbrev Name := {c : Bytes // IsName c}

/-- The name with the text, or {lit}`_` where the text cannot be one. -/
def named (s : String) : Name := if h : IsName (bytes s) then ⟨bytes s, h⟩ else ⟨[0x5f], by decide⟩

/-- The names on the way from the root directory. -/
abbrev Path := List Name

/-- Every name with a slash in front of it. -/
def below (p : Path) : Bytes := p.flatMap fun c => slash :: c.val

/-- The path as the system calls write it. -/
def text : Path → Bytes
  | [] => [slash]
  | c :: p => below (c :: p)

/-- What stands between the slashes of a text. -/
def components (p : Bytes) : List Bytes := (p.splitOn slash).filter fun c => c ≠ []

/-- Absolute, without an empty component, {lit}`.` or {lit}`..`, and without a
slash at the end, the root directory apart. -/
def IsCanonical (p : Bytes) : Prop :=
  p = [slash] ∨ ∃ rest, p = slash :: rest ∧ ∀ c ∈ rest.splitOn slash, IsName c

/-! ## Texts and names -/

/-- Nothing stands below. -/
@[simp]
theorem below_nil : below [] = [] :=
  rfl

/-- Each name follows a slash. -/
@[simp]
theorem below_cons (c : Name) (p : Path) : below (c :: p) = slash :: (c.val ++ below p) := by
  simp [below]

/-- Paths are joined without anything in between. -/
@[simp]
theorem below_append (p q : Path) : below (p ++ q) = below p ++ below q := by
  simp [below]

/-- The root directory is written as a slash. -/
@[simp]
theorem text_nil : text [] = [slash] :=
  rfl

/-- Every other path is written name by name. -/
theorem text_of_ne_nil {p : Path} (h : p ≠ []) : text p = below p := by
  cases p with
  | nil => exact absurd rfl h
  | cons c p => rfl

/-- The names are joined by slashes. -/
theorem append_below_eq_intercalate (b : Bytes) (p : Path) :
    b ++ below p = [slash].intercalate (b :: p.map Subtype.val) := by
  induction p generalizing b with
  | nil => simp
  | cons c p ih =>
      rw [below_cons, ih c.val]
      simp [List.intercalate_cons_cons]

/-- The text splits into the names, and what stands before them. -/
theorem splitOn_append_below {b : Bytes} (hb : slash ∉ b) (p : Path) :
    (b ++ below p).splitOn slash = b :: p.map Subtype.val := by
  rw [append_below_eq_intercalate]
  refine List.splitOn_intercalate slash ?_ (by simp)
  intro name hname
  rcases List.mem_cons.mp hname with rfl | hmem
  · exact hb
  · rcases List.mem_map.mp hmem with ⟨d, -, rfl⟩
    exact d.property.2.2.2.1

/-- The names of a path are cut apart at the slashes again. -/
theorem splitOn_below (c : Name) (p : Path) :
    (c.val ++ below p).splitOn slash = (c :: p).map Subtype.val :=
  splitOn_append_below c.property.2.2.2.1 p

/-- An absolute path has nothing before its first slash. -/
theorem splitOn_text_cons (c : Name) (p : Path) :
    (text (c :: p)).splitOn slash = [] :: (c :: p).map Subtype.val := by
  change (slash :: (c.val ++ below p)).splitOn slash = _
  rw [List.splitOn_cons_eq_if_modifyHead, if_pos (by simp), splitOn_below]

/-- The components of a text are the names it was made of. -/
theorem components_text (p : Path) : components (text p) = p.map Subtype.val := by
  cases p with
  | nil => rfl
  | cons c p =>
      rw [components, splitOn_text_cons, List.filter_cons_of_neg (by simp),
        List.filter_eq_self]
      intro name hname
      rcases List.mem_map.mp hname with ⟨d, -, rfl⟩
      simpa using d.property.1

/-- The canonical texts are the texts of the paths. -/
theorem isCanonical_iff {p : Bytes} : IsCanonical p ↔ ∃ path : Path, text path = p := by
  constructor
  · rintro (rfl | ⟨rest, rfl, hnames⟩)
    · exact ⟨[], rfl⟩
    · let path : Path := (rest.splitOn slash).attach.map fun c => ⟨c.val, hnames c.val c.property⟩
      have hval : path.map Subtype.val = rest.splitOn slash := by
        simp [path, List.map_map, Function.comp_def]
      cases hpath : path with
      | nil =>
          rw [hpath, List.map_nil] at hval
          exact absurd hval.symm (List.splitOn_ne_nil slash rest)
      | cons c names =>
          refine ⟨c :: names, ?_⟩
          change below (c :: names) = _
          rw [below_cons, append_below_eq_intercalate, ← List.map_cons (f := Subtype.val), ← hpath,
            hval, List.intercalate_splitOn]
  · rintro ⟨path, rfl⟩
    cases path with
    | nil => exact Or.inl rfl
    | cons c path =>
        refine Or.inr ⟨c.val ++ below path, rfl, ?_⟩
        rw [splitOn_below]
        intro name hname
        rcases List.mem_map.mp hname with ⟨d, -, rfl⟩
        exact d.property

/-! ## The parts of a text -/

/-- No part between two slashes holds a slash. -/
theorem slash_notMem_of_mem_splitOn {c x : Bytes} (h : c ∈ x.splitOn slash) : slash ∉ c := by
  induction x generalizing c with
  | nil =>
      rw [List.splitOn_nil, List.mem_singleton] at h
      simp [h]
  | cons b x ih =>
      rw [List.splitOn_cons_eq_if_modifyHead] at h
      split at h
      case isTrue =>
        rcases List.mem_cons.mp h with rfl | hmem
        · simp
        · exact ih hmem
      case isFalse hb =>
        cases hparts : x.splitOn slash with
        | nil => exact absurd hparts (List.splitOn_ne_nil slash x)
        | cons d parts =>
            rw [hparts, List.modifyHead_cons, List.mem_cons] at h
            rw [hparts] at ih
            rcases h with rfl | hmem
            · rw [List.mem_cons, not_or]
              exact ⟨fun hslash => hb (by simp [hslash]), ih List.mem_cons_self⟩
            · exact ih (List.mem_cons_of_mem d hmem)

/-- A part stands at an end of the text or next to a slash. -/
theorem mem_splitOn_iff {c x : Bytes} :
    c ∈ x.splitOn slash ↔ slash ∉ c ∧ ∃ before after, x = before ++ c ++ after ∧
      (before = [] ∨ ∃ b, before = b ++ [slash]) ∧ (after = [] ∨ ∃ a, after = slash :: a) := by
  constructor
  · intro h
    refine ⟨slash_notMem_of_mem_splitOn h, ?_⟩
    rcases List.append_of_mem h with ⟨earlier, later, hparts⟩
    have hjoined : [slash].intercalate (x.splitOn slash) = x := List.intercalate_splitOn slash
    rw [← hjoined, hparts]
    clear h hparts hjoined
    induction earlier with
    | nil =>
        cases later with
        | nil => exact ⟨[], [], by simp, Or.inl rfl, Or.inl rfl⟩
        | cons d later =>
            exact ⟨[], slash :: [slash].intercalate (d :: later), by simp, Or.inl rfl,
              Or.inr ⟨_, rfl⟩⟩
    | cons d earlier ih =>
        rcases ih with ⟨before, after, hsplit, hbefore, hafter⟩
        refine ⟨d ++ slash :: before, after, ?_, ?_, hafter⟩
        · rw [List.cons_append, List.intercalate_cons_of_ne_nil (by simp), hsplit]
          simp
        · rcases hbefore with rfl | ⟨b, rfl⟩
          · exact Or.inr ⟨d, rfl⟩
          · exact Or.inr ⟨d ++ slash :: b, by simp⟩
  · rintro ⟨hc, before, after, rfl, hbefore, hafter⟩
    have hlater : c ∈ (c ++ after).splitOn slash := by
      rcases hafter with rfl | ⟨a, rfl⟩
      · rw [List.append_nil, List.splitOn_eq_singleton hc]
        exact List.mem_singleton_self c
      · rw [List.splitOn_append_cons_self_of_not_mem hc]
        exact List.mem_cons_self
    rcases hbefore with rfl | ⟨b, rfl⟩
    · exact hlater
    · have hassoc : b ++ [slash] ++ c ++ after = b ++ slash :: (c ++ after) := by simp
      rw [hassoc, List.splitOn_append_cons_self]
      exact List.mem_append_right _ hlater

/-! ## Prefixes -/

/-- What follows a name in a text is nothing or a slash. -/
def Separated (x : Bytes) : Prop := ∀ b ∈ x.head?, b = slash

/-- No name of a path holds a slash. -/
theorem separated_below (p : Path) : Separated (below p) := by
  cases p with
  | nil => simp [Separated]
  | cons c p => simp [Separated]

/-- Two texts agree up to the first slash only if they begin with one name. -/
theorem name_prefix {c d x y : Bytes} (hc : slash ∉ c) (hd : slash ∉ d) (hy : Separated y)
    (h : c ++ slash :: x <+: d ++ y) : c = d ∧ slash :: x <+: y := by
  induction c generalizing d with
  | nil =>
      cases d with
      | nil => exact ⟨rfl, h⟩
      | cons b d =>
          rw [List.nil_append, List.cons_append, List.cons_prefix_cons] at h
          rw [h.1] at hd
          exact absurd (List.mem_cons_self) hd
  | cons a c ih =>
      cases d with
      | nil =>
          rw [List.nil_append] at h
          rcases h with ⟨rest, rfl⟩
          have ha : a = slash := hy a (by simp)
          rw [ha] at hc
          exact absurd (List.mem_cons_self) hc
      | cons b d =>
          rw [List.cons_append, List.cons_append, List.cons_prefix_cons] at h
          rw [List.mem_cons, not_or] at hc hd
          rcases ih hc.2 hd.2 h.2 with ⟨rfl, hrest⟩
          exact ⟨by rw [h.1], hrest⟩

/-- A path is below another one exactly if its text begins with the other one's
text and a slash. -/
theorem below_slash_prefix (r p : Path) : below r ++ [slash] <+: below p ↔ r <+: p ∧ r ≠ p := by
  induction r generalizing p with
  | nil =>
      cases p with
      | nil => simp
      | cons c p => simp
  | cons c r ih =>
      cases p with
      | nil => simp
      | cons d p =>
          have hstep : below (c :: r) ++ [slash] <+: below (d :: p) ↔
              c = d ∧ below r ++ [slash] <+: below p := by
            rw [below_cons, below_cons, List.cons_append, List.cons_prefix_cons,
              List.append_assoc]
            constructor
            · rintro ⟨-, hinit⟩
              have hsplit : ∃ x, below r ++ [slash] = slash :: x := by
                cases r with
                | nil => exact ⟨[], rfl⟩
                | cons e r => exact ⟨_, by rw [below_cons, List.cons_append]⟩
              rcases hsplit with ⟨x, hx⟩
              rw [hx] at hinit ⊢
              rcases name_prefix c.property.2.2.2.1 d.property.2.2.2.1 (separated_below p)
                hinit with ⟨hname, hrest⟩
              exact ⟨Subtype.ext hname, hrest⟩
            · rintro ⟨rfl, hinit⟩
              exact ⟨rfl, (List.prefix_append_right_inj c.val).mpr hinit⟩
          rw [hstep, ih, List.cons_prefix_cons]
          constructor
          · rintro ⟨rfl, hinit, hne⟩
            exact ⟨⟨rfl, hinit⟩, by simpa using hne⟩
          · rintro ⟨⟨rfl, hinit⟩, hne⟩
            exact ⟨rfl, hinit, by simpa using hne⟩

/-- A text holds no NUL. -/
theorem zero_notMem_text (p : Path) : 0 ∉ text p := by
  cases p with
  | nil => decide
  | cons c p =>
      change 0 ∉ below (c :: p)
      rw [below, List.mem_flatMap]
      rintro ⟨d, -, hzero⟩
      rcases List.mem_cons.mp hzero with hslash | hname
      · cases hslash
      · exact d.property.2.2.2.2 hname

/-- Different paths have different texts. -/
theorem text_inj {p q : Path} : text p = text q ↔ p = q := by
  constructor
  · intro h
    have hnames := congrArg components h
    rw [components_text, components_text] at hnames
    exact List.map_injective_iff.mpr Subtype.val_injective hnames
  · rintro rfl
    rfl

end Posix

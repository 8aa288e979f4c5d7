import Mathlib.Computability.Language
import Mathlib.Logic.Relation
import Polychrome.Library.Pcre
import Polychrome.Library.PhpString

/-!
# Rows of expressions

A pattern without groups is a row of expressions.  This module says what a row
matches, in terms of the languages of its expressions, and how the text of a row is
read.

Main results:

- Definition {lit}`Spells`: an expression or a row matches the words of a language,
  wherever it is tried.
- Theorem {lit}`spells_words`: an expression for finitely many words.
- Theorem {lit}`spells_row`: a row of such expressions spells the product.
- Theorem {lit}`anchored_iff`: between both anchors it spells the subject.
- Definition {lit}`ReadsAs` and theorem {lit}`pregMatch_row`: a pattern whose text is
  read as a row looks for a match of the row.
-/

namespace Pcre

open Computability Php

variable {caseless : Bool}

/-! ## Languages of expressions -/

/-- Wherever it is tried, the relation passes exactly the words of the language. -/
def Spells (R : Place → Place → Prop) (L : Language UInt8) : Prop :=
  ∀ u v, R u v ↔ ∃ x ∈ L, ∃ rest, u.rest = x ++ rest ∧ v = u.behind x rest

/-- The empty expression spells the empty word. -/
theorem spells_eq : Spells Eq 1 := by
  intro u v
  constructor
  · rintro rfl
    exact ⟨[], Language.nil_mem_one, u.rest, rfl, u.behind_nil.symm⟩
  · rintro ⟨x, hx, rest, hrest, rfl⟩
    rw [Language.mem_one] at hx
    rw [hx, List.nil_append] at hrest
    rw [hx, ← hrest, Place.behind_nil]

/-- One after the other spells the product. -/
theorem Spells.comp {R S : Place → Place → Prop} {L M : Language UInt8} (hR : Spells R L)
    (hS : Spells S M) : Spells (Relation.Comp R S) (L * M) := by
  intro u v
  constructor
  · rintro ⟨w, hfirst, hsecond⟩
    rcases (hR u w).mp hfirst with ⟨x, hx, rest, hrest, rfl⟩
    rcases (hS _ v).mp hsecond with ⟨y, hy, rest', hrest', rfl⟩
    have hsplit : rest = y ++ rest' := hrest'
    refine ⟨x ++ y, Language.append_mem_mul hx hy, rest', ?_, ?_⟩
    · rw [hrest, hsplit, List.append_assoc]
    · rw [hsplit, Place.behind_append]
  · rintro ⟨z, hz, rest, hrest, rfl⟩
    rcases Language.mem_mul.mp hz with ⟨x, hx, y, hy, rfl⟩
    rw [List.append_assoc] at hrest
    refine ⟨u.behind x (y ++ rest), (hR u _).mpr ⟨x, hx, _, hrest, rfl⟩, ?_⟩
    rw [← Place.behind_append]
    exact (hS _ _).mpr ⟨y, hy, rest, rfl, rfl⟩

/-- Any number of moves spells the star. -/
theorem Spells.reflTransGen {R : Place → Place → Prop} {L : Language UInt8} (hR : Spells R L) :
    Spells (Relation.ReflTransGen R) L∗ := by
  intro u v
  constructor
  · intro hmoves
    induction hmoves using Relation.ReflTransGen.head_induction_on with
    | refl => exact ⟨[], Language.nil_mem_kstar L, v.rest, rfl, v.behind_nil.symm⟩
    | head hmove _ ih =>
        rcases (hR _ _).mp hmove with ⟨x, hx, rest, hrest, rfl⟩
        rcases ih with ⟨y, hy, rest', hrest', rfl⟩
        have hsplit : rest = y ++ rest' := hrest'
        refine ⟨x ++ y, ?_, rest', by rw [hrest, hsplit, List.append_assoc], ?_⟩
        · rw [← Language.one_add_self_mul_kstar_eq_kstar, Language.mem_add]
          exact Or.inr (Language.append_mem_mul hx hy)
        · rw [hsplit, Place.behind_append]
  · rintro ⟨z, hz, rest, hrest, rfl⟩
    rcases Language.mem_kstar.mp hz with ⟨words, rfl, hwords⟩
    clear hz
    induction words generalizing u with
    | nil =>
        rw [List.flatten_nil, List.nil_append] at hrest
        rw [List.flatten_nil, ← hrest, Place.behind_nil]
    | cons x words ih =>
        rw [List.forall_mem_cons] at hwords
        rw [List.flatten_cons, List.append_assoc] at hrest
        rw [List.flatten_cons, ← Place.behind_append]
        have hmove := (hR u _).mpr ⟨x, hwords.1, _, hrest, rfl⟩
        exact .head hmove (ih _ hwords.2 rfl)

/-- The language of single bytes that pass a test. -/
def singles (p : UInt8 → Prop) : Language UInt8 := {x | ∃ b, x = [b] ∧ p b}

/-- An expression that consumes one byte that passes a test spells these bytes. -/
theorem spells_singles {r : Regex} {test : UInt8 → Bool} {p : UInt8 → Prop}
    (hrun : ∀ u, run caseless r u = consume test u) (htest : ∀ b, test b = true ↔ p b) :
    Spells (Matches caseless r) (singles p) := by
  intro u v
  rw [← mem_run_iff, hrun, mem_consume]
  rcases v with ⟨first, rest⟩
  constructor
  · rintro ⟨b, hrest, hb, hfirst⟩
    refine ⟨[b], ⟨b, rfl, (htest b).mp hb⟩, rest, hrest, ?_⟩
    simpa [Place.behind] using hfirst
  · rintro ⟨_, ⟨b, rfl, hb⟩, rest', hrest, hv⟩
    cases hv
    exact ⟨b, hrest, (htest b).mpr hb, by simp⟩

/-- With regard to case only a byte itself is the same. -/
theorem same_false (b c : UInt8) : same false b c = (b == c) := rfl

/-- A byte spells itself. -/
theorem spells_byte (b : UInt8) : Spells (Matches false (.byte b)) {[b]} := by
  have hsingle : singles (· = b) = {[b]} := by
    ext x
    constructor
    · rintro ⟨c, rfl, rfl⟩
      rfl
    · rintro rfl
      exact ⟨b, rfl, rfl⟩
  rw [← hsingle]
  apply spells_singles (fun u => rfl)
  intro c
  rw [same_false, beq_iff_eq, eq_comm]

/-- A dot spells every byte but a newline. -/
theorem spells_dot : Spells (Matches caseless .dot) (singles (· ≠ 10)) := by
  apply spells_singles (fun u => rfl)
  intro c
  exact bne_iff_ne

/-- A negated class spells the bytes that it does not list. -/
theorem spells_noneOf (bs : Bytes) : Spells (Matches false (.noneOf bs)) (singles (· ∉ bs)) := by
  apply spells_singles (fun u => rfl)
  intro c
  simp only [same_false, Bool.not_eq_true', List.any_eq_false, beq_iff_eq]
  constructor
  · intro h hmem
    exact h c hmem rfl
  · rintro h _ hmem rfl
    exact h hmem

/-- A star makes any number of moves. -/
theorem matches_star_iff {r : Regex} {u v : Place} :
    Matches caseless (.star r) u v ↔ Relation.ReflTransGen (Matches caseless r) u v := by
  constructor
  · intro h
    generalize hstar : Regex.star r = s at h
    induction h with
    | stop => exact .refl
    | more hr _ _ ih =>
        cases hstar
        exact .head hr (ih rfl)
    | _ => cases hstar
  · intro h
    induction h using Relation.ReflTransGen.head_induction_on with
    | refl => exact .stop
    | head hr _ ih => exact .more hr ih

/-- A star spells repetition. -/
theorem Spells.star {r : Regex} {L : Language UInt8} (h : Spells (Matches caseless r) L) :
    Spells (Matches caseless (.star r)) L∗ := by
  intro u v
  rw [matches_star_iff]
  exact h.reflTransGen u v

/-- Any number of bytes that pass a test. -/
theorem kstar_singles (p : UInt8 → Prop) : (singles p)∗ = {x | ∀ b ∈ x, p b} := by
  ext x
  rw [Language.mem_kstar]
  constructor
  · rintro ⟨words, rfl, hwords⟩ b hb
    rcases List.mem_flatten.mp hb with ⟨word, hword, hb⟩
    rcases hwords word hword with ⟨c, rfl, hc⟩
    rwa [List.mem_singleton.mp hb]
  · intro hx
    refine ⟨x.map fun b => [b], ?_, ?_⟩
    · rw [← List.flatMap_def, List.flatMap_singleton']
    · intro word hword
      rcases List.mem_map.mp hword with ⟨b, hb, rfl⟩
      exact ⟨b, rfl, hx b hb⟩

/-- The empty expression matches where it stands. -/
theorem matches_empty_iff {u v : Place} : Matches caseless .empty u v ↔ u = v := by
  constructor
  · intro h
    cases h with
    | empty => rfl
  · rintro rfl
    exact .empty

/-- An option matches, or stays where it stands. -/
theorem matches_opt_iff {r : Regex} {u v : Place} :
    Matches caseless (.opt r) u v ↔ Matches caseless r u v ∨ u = v := by
  constructor
  · intro h
    cases h with
    | absent => exact Or.inr rfl
    | present h => exact Or.inl h
  · rintro (h | rfl)
    · exact .present h
    · exact .absent

/-- One of two spells the sum. -/
theorem Spells.or {R S : Place → Place → Prop} {L M : Language UInt8} (hR : Spells R L)
    (hS : Spells S M) : Spells (fun u v => R u v ∨ S u v) (L + M) := by
  intro u v
  change R u v ∨ S u v ↔ _
  rw [hR u v, hS u v]
  constructor
  · rintro (⟨x, hx, hrest⟩ | ⟨x, hx, hrest⟩)
    · exact ⟨x, Or.inl hx, hrest⟩
    · exact ⟨x, Or.inr hx, hrest⟩
  · rintro ⟨x, hx | hx, hrest⟩
    · exact Or.inl ⟨x, hx, hrest⟩
    · exact Or.inr ⟨x, hx, hrest⟩

/-! ## Expressions for finitely many words -/

/-- The texts that are a word of the expression in lower case. -/
def Regex.spelled (r : Regex) : Language UInt8 := {x | x.map lower ∈ r.words}

/-- The language of the empty expression. -/
theorem spelled_empty : Regex.empty.spelled = 1 := by
  ext x
  change x.map lower ∈ [[]] ↔ x ∈ (1 : Language UInt8)
  rw [List.mem_singleton, List.map_eq_nil_iff, Language.mem_one]

/-- The language of a byte, without regard to case. -/
theorem spelled_byte (b : UInt8) : (Regex.byte b).spelled = singles (lower · = lower b) := by
  ext x
  change x.map lower ∈ [[lower b]] ↔ ∃ c, x = [c] ∧ lower c = lower b
  rw [List.mem_singleton, List.map_eq_singleton_iff]

/-- The language of two expressions in a row. -/
theorem spelled_cat (r s : Regex) : (Regex.cat r s).spelled = r.spelled * s.spelled := by
  ext z
  change z.map lower ∈ (r.words.flatMap fun w => s.words.map fun w' => w ++ w') ↔ _
  rw [List.mem_flatMap, Language.mem_mul]
  constructor
  · rintro ⟨w, hw, hz⟩
    rcases List.mem_map.mp hz with ⟨w', hw', hsplit⟩
    rcases List.map_eq_append_iff.mp hsplit.symm with ⟨x, y, rfl, rfl, rfl⟩
    exact ⟨x, hw, y, hw', rfl⟩
  · rintro ⟨x, hx, y, hy, rfl⟩
    exact ⟨_, hx, List.mem_map.mpr ⟨_, hy, by rw [List.map_append]⟩⟩

/-- The language of an alternative. -/
theorem spelled_alt (r s : Regex) : (Regex.alt r s).spelled = r.spelled + s.spelled := by
  ext x
  exact List.mem_append

/-- The language of an option. -/
theorem spelled_opt (r : Regex) : (Regex.opt r).spelled = r.spelled + 1 := by
  ext x
  change x.map lower ∈ [] :: r.words ↔ x.map lower ∈ r.words ∨ x ∈ (1 : Language UInt8)
  rw [List.mem_cons, List.map_eq_nil_iff, Language.mem_one, or_comm]

/-- Without regard to case, the expression matches its words. -/
theorem spells_words {r : Regex} (hr : r.isWordList = true) :
    Spells (Matches true r) r.spelled := by
  induction r with
  | empty =>
      intro u v
      rw [matches_empty_iff, spelled_empty]
      exact spells_eq u v
  | byte b =>
      rw [spelled_byte]
      apply spells_singles (fun u => rfl)
      intro c
      rw [same, if_pos rfl, beq_iff_eq, eq_comm]
  | cat r s ihr ihs =>
      rw [Regex.isWordList, Bool.and_eq_true] at hr
      intro u v
      rw [matches_cat_iff, spelled_cat]
      exact (ihr hr.1).comp (ihs hr.2) u v
  | alt r s ihr ihs =>
      rw [Regex.isWordList, Bool.and_eq_true] at hr
      intro u v
      rw [matches_alt_iff, spelled_alt]
      exact (ihr hr.1).or (ihs hr.2) u v
  | opt r ih =>
      intro u v
      rw [matches_opt_iff, spelled_opt]
      exact (ih hr).or spells_eq u v
  | dot => cases hr
  | noneOf => cases hr
  | start => cases hr
  | finish => cases hr
  | star => cases hr

/-! ## Rows -/

/-- The expressions match one after the other. -/
def Row (caseless : Bool) : List Regex → Place → Place → Prop
  | [], u, v => u = v
  | r :: rs, u, v => Relation.Comp (Matches caseless r) (Row caseless rs) u v

/-- A row is matched part by part. -/
theorem row_append {rs ss : List Regex} {u v : Place} :
    Row caseless (rs ++ ss) u v ↔ ∃ w, Row caseless rs u w ∧ Row caseless ss w v := by
  induction rs generalizing u with
  | nil => simp [Row]
  | cons r rs ih =>
      simp only [List.cons_append, Row, Relation.Comp, ih]
      constructor
      · rintro ⟨x, hr, w, hrs, hss⟩
        exact ⟨w, ⟨x, hr, hrs⟩, hss⟩
      · rintro ⟨w, ⟨x, hr, hrs⟩, hss⟩
        exact ⟨x, hr, w, hrs, hss⟩

/-- A row of expressions that spell languages spells the product. -/
theorem spells_row {ι : Type*} {regex : ι → Regex} {language : ι → Language UInt8}
    (h : ∀ i, Spells (Matches caseless (regex i)) (language i)) (is : List ι) :
    Spells (Row caseless (is.map regex)) (is.map language).prod := by
  induction is with
  | nil => exact spells_eq
  | cons i is ih =>
      rw [List.map_cons, List.map_cons, List.prod_cons]
      exact (h i).comp ih

/-- A row of one expression spells what the expression does. -/
theorem Spells.row {r : Regex} {L : Language UInt8} (h : Spells (Matches caseless r) L) :
    Spells (Row caseless [r]) L := by
  have hrow : Spells (Row caseless [r]) (L * 1) := h.comp spells_eq
  rwa [mul_one] at hrow

/-- The items of a group, the latest first, are nested to the right. -/
theorem matches_foldl_cat {r : Regex} {items : List Regex} {u v : Place} :
    Matches caseless (items.foldl (fun r s => .cat s r) r) u v ↔
      Row caseless (items.reverse ++ [r]) u v := by
  induction items generalizing r with
  | nil => simp [Row]
  | cons s items ih =>
      rw [List.foldl_cons, ih, List.reverse_cons, List.append_assoc, row_append, row_append]
      apply exists_congr
      intro w
      simp [Row, Relation.Comp, matches_cat_iff]

/-- A group is matched as the row of its items. -/
theorem matches_sequence_iff {g : Group} {u v : Place} :
    Matches caseless g.sequence u v ↔ Row caseless g.items.reverse u v := by
  rcases g with ⟨alternatives, items⟩
  cases items with
  | nil => exact matches_empty_iff
  | cons r items =>
      rw [List.reverse_cons]
      exact matches_foldl_cat

/-- The caret matches at the beginning. -/
theorem matches_start_iff {u v : Place} :
    Matches caseless .start u v ↔ u.first = true ∧ u = v := by
  constructor
  · intro h
    cases h with
    | start hfirst => exact ⟨hfirst, rfl⟩
  · rintro ⟨hfirst, rfl⟩
    exact .start hfirst

/-- The dollar matches at the end, or before a newline there. -/
theorem matches_finish_iff {u v : Place} :
    Matches caseless .finish u v ↔ (u.rest = [] ∨ u.rest = [10]) ∧ u = v := by
  constructor
  · intro h
    cases h with
    | finish hlast => exact ⟨hlast, rfl⟩
  · rintro ⟨hlast, rfl⟩
    exact .finish hlast

/-- A row between both anchors matches the whole subject, up to a newline at its end. -/
theorem anchored_iff {rs : List Regex} {L : Language UInt8} (h : Spells (Row caseless rs) L)
    {subject : Bytes} :
    (∃ u ∈ places subject, ∃ v, Row caseless (.start :: (rs ++ [.finish])) u v) ↔
      ∃ x ∈ L, subject = x ∨ subject = x ++ [10] := by
  constructor
  · rintro ⟨u, hu, v, w, hstart, hrow⟩
    rcases matches_start_iff.mp hstart with ⟨hfirst, rfl⟩
    rcases row_append.mp hrow with ⟨w, hrs, w', hfinish, -⟩
    rcases (h u w).mp hrs with ⟨x, hx, rest, hrest, rfl⟩
    have hsubject : u.rest = subject := by
      rcases mem_places.mp hu with rfl | ⟨hlater, -⟩
      · rfl
      · rw [hlater] at hfirst
        cases hfirst
    refine ⟨x, hx, ?_⟩
    rw [← hsubject, hrest]
    rcases (matches_finish_iff.mp hfinish).1 with hnil | hnewline
    · exact Or.inl (by rw [show rest = [] from hnil, List.append_nil])
    · exact Or.inr (by rw [show rest = [10] from hnewline])
  · rintro ⟨x, hx, hsubject⟩
    have hrest : ∃ rest, subject = x ++ rest ∧ (rest = [] ∨ rest = [10]) := by
      rcases hsubject with rfl | rfl
      · exact ⟨[], (List.append_nil _).symm, Or.inl rfl⟩
      · exact ⟨[10], rfl, Or.inr rfl⟩
    rcases hrest with ⟨rest, hsplit, hlast⟩
    let u : Place := { first := true, rest := subject }
    have hrow : Row caseless rs u (u.behind x rest) := (h u _).mpr ⟨x, hx, rest, hsplit, rfl⟩
    refine ⟨u, mem_places.mpr (Or.inl rfl), u.behind x rest, u,
      matches_start_iff.mpr ⟨rfl, rfl⟩, ?_⟩
    exact row_append.mpr ⟨_, hrow, _, matches_finish_iff.mpr ⟨hlast, rfl⟩, rfl⟩

/-! ## The text of a row -/

/-- Within a pattern, the text is read as the expressions in a row. -/
structure ReadsAs (delimiter : UInt8) (text : Bytes) (rs : List Regex) : Prop where
  /-- The text does not end the pattern. -/
  passed : ∀ s, undelimit delimiter (text ++ s) =
    (undelimit delimiter s).map fun x => (text ++ x.1, x.2)
  /-- Its signs are read, and then those of the rest. -/
  read : ∀ s g outer, ((tokens .outside (text ++ s)).bind fun ts => parse ts g outer) =
    (tokens .outside s).bind fun ts => parse ts (rs.foldl Group.push g) outer

section Reading

variable {delimiter : UInt8}

/-- Nothing is read as nothing. -/
theorem ReadsAs.nil : ReadsAs delimiter [] [] where
  passed s := by simp
  read s g outer := rfl

/-- Two texts are read one behind the other. -/
theorem ReadsAs.append {text text' : Bytes} {rs rs' : List Regex}
    (h : ReadsAs delimiter text rs) (h' : ReadsAs delimiter text' rs') :
    ReadsAs delimiter (text ++ text') (rs ++ rs') where
  passed s := by
    rw [List.append_assoc, h.passed, h'.passed, Option.map_map]
    simp [Function.comp_def]
  read s g outer := by
    rw [List.append_assoc, h.read, h'.read, List.foldl_append]

/-- Pieces that are read as one expression each. -/
theorem ReadsAs.pieces {ι : Type*} {text : ι → Bytes} {regex : ι → Regex} {is : List ι}
    (h : ∀ i ∈ is, ReadsAs delimiter (text i) [regex i]) :
    ReadsAs delimiter (is.flatMap text) (is.map regex) := by
  induction is with
  | nil => exact .nil
  | cons i is ih =>
      rw [List.forall_mem_cons] at h
      exact h.1.append (ih h.2)

/-- Items are pushed on a group one by one. -/
theorem foldl_push (rs : List Regex) (g : Group) :
    rs.foldl Group.push g = { g with items := rs.reverse ++ g.items } := by
  induction rs generalizing g with
  | nil => rfl
  | cons r rs ih => simp [ih, Group.push]

/-- Signs of which each completes what the group has before it. -/
theorem ReadsAs.of_tokens {text : Bytes} (ts : List Token) {rs : List Regex}
    (hpassed : ∀ s, undelimit delimiter (text ++ s) =
      (undelimit delimiter s).map fun x => (text ++ x.1, x.2))
    (htokens : ∀ s, tokens .outside (text ++ s) =
      (tokens .outside s).map fun ts' => ts ++ ts')
    (hparse : ∀ ts' g outer,
      parse (ts ++ ts') g outer = parse ts' (rs.foldl Group.push g) outer) :
    ReadsAs delimiter text rs where
  passed := hpassed
  read s g outer := by
    rw [htokens, Option.bind_map]
    simp only [Function.comp_def, hparse]

/-- A text without the delimiter and without a backslash does not end the pattern. -/
theorem undelimit_append {text : Bytes} (h : ∀ b ∈ text, b ≠ 92 ∧ b ≠ delimiter) (s : Bytes) :
    undelimit delimiter (text ++ s) =
      (undelimit delimiter s).map fun x => (text ++ x.1, x.2) := by
  induction text with
  | nil => simp
  | cons b text ih =>
      rw [List.forall_mem_cons] at h
      have hplain : ∀ c s', b = 92 → text ++ s = c :: s' → False := by
        intro c s' hb
        exact absurd hb h.1.1
      rw [List.cons_append, undelimit, if_neg h.1.2, ih h.2, Option.map_map]
      · rfl
      · exact hplain

/-- An escaped byte ends no pattern. -/
theorem undelimit_escape (b : UInt8) (s : Bytes) :
    undelimit delimiter (92 :: b :: s) =
      (undelimit delimiter s).map fun x => (92 :: b :: x.1, x.2) := by
  rw [undelimit]

/-- A backslash before a sign takes its meaning from it. -/
theorem tokens_escape {b : UInt8} (hb : isAlphanumeric b = false) (s : Bytes) :
    tokens .outside (92 :: b :: s) = (tokens .outside s).map fun ts => .literal b :: ts := by
  have hzero : ∀ s', b = 48 → s = 48 :: 48 :: s' → False := by
    rintro s' rfl
    cases hb
  rw [tokens, if_neg (by simp [hb])]
  exact hzero

/-- A character that needs no quoting stands for itself. -/
theorem tokens_plain {b : UInt8} (hb : b ∉ pregSpecial) (s : Bytes) :
    tokens .outside (b :: s) = (tokens .outside s).map fun ts => .literal b :: ts := by
  have hspecial : ∀ c ∈ [92, 40, 91, 43, 123, 46, 94, 36, 42, 63, 124, 41], c ∈ pregSpecial := by
    decide +kernel
  have hsign : ∀ c ∈ [92, 40, 91, 43, 123, 46, 94, 36, 42, 63, 124, 41], b ≠ c := by
    rintro c hc rfl
    exact hb (hspecial b hc)
  simp only [List.forall_mem_cons] at hsign
  rw [tokens]
  all_goals simp [hsign]

/-- No special character is a letter or a digit. -/
theorem not_isAlphanumeric_of_special : ∀ b ∈ pregSpecial, isAlphanumeric b = false := by
  decide +kernel

/-- A quoted byte does not end the expression. -/
theorem undelimit_quoted (hdelimiter : isAlphanumeric delimiter = false) (b : UInt8) (s : Bytes) :
    undelimit delimiter (pregQuoteByte delimiter b ++ s) =
      (undelimit delimiter s).map fun x => (pregQuoteByte delimiter b ++ x.1, x.2) := by
  by_cases hzero : b = 0
  · have hdigit : isAlphanumeric 48 = true := rfl
    have hzeros : ∀ c ∈ bytes "00", c ≠ 92 ∧ c ≠ delimiter := by
      intro c hc
      have hc' : c = 48 := List.eq_of_mem_replicate (n := 2) hc
      rw [hc']
      refine ⟨by decide, ?_⟩
      rintro rfl
      rw [hdigit] at hdelimiter
      cases hdelimiter
    rw [pregQuoteByte, if_pos hzero]
    change undelimit delimiter (92 :: 48 :: (bytes "00" ++ s)) = _
    rw [undelimit_escape, undelimit_append hzeros, Option.map_map]
    rfl
  · rw [pregQuoteByte, if_neg hzero]
    split
    case isTrue hsign => exact undelimit_escape b s
    case isFalse hplain =>
      rw [not_or] at hplain
      apply undelimit_append
      intro c hc
      rw [List.mem_singleton.mp hc]
      refine ⟨?_, hplain.2⟩
      rintro rfl
      exact hplain.1 (by decide)

/-- A quoted byte is a literal. -/
theorem tokens_quoted (hdelimiter : isAlphanumeric delimiter = false) (b : UInt8) (s : Bytes) :
    tokens .outside (pregQuoteByte delimiter b ++ s) =
      (tokens .outside s).map fun ts => .literal b :: ts := by
  by_cases hzero : b = 0
  · rw [pregQuoteByte, if_pos hzero, hzero]
    rfl
  · rw [pregQuoteByte, if_neg hzero]
    split
    case isTrue hsign =>
      apply tokens_escape
      rcases hsign with hspecial | rfl
      · exact not_isAlphanumeric_of_special b hspecial
      · exact hdelimiter
    case isFalse hplain => exact tokens_plain (fun h => hplain (Or.inl h)) s

/-- What is quoted is read as itself. -/
theorem readsAs_quoted (hdelimiter : isAlphanumeric delimiter = false) (b : UInt8) :
    ReadsAs delimiter (pregQuoteByte delimiter b) [.byte b] :=
  .of_tokens [.literal b] (undelimit_quoted hdelimiter b) (tokens_quoted hdelimiter b)
    fun _ _ _ => rfl

/-- A pattern whose text is read as a row looks for a match of the row. -/
theorem pregMatch_row {text : Bytes} {rs : List Regex} (h : ReadsAs delimiter text rs)
    (subject : Bytes) : pregMatch (delimiter :: text ++ [delimiter]) subject = true ↔
      ∃ u ∈ places subject, ∃ v, Row false rs u v := by
  have hundelimit : undelimit delimiter (text ++ [delimiter]) = some (text, []) := by
    have hend : undelimit delimiter [delimiter] = some ([], []) := by simp [undelimit]
    rw [h.passed, hend, Option.map_some, List.append_nil]
  have hregex : regexOf text =
      some (rs.foldl Group.push { alternatives := [], items := [] }).regex := by
    have hread := h.read [] { alternatives := [], items := [] } []
    rwa [List.append_nil] at hread
  have hcompile : compile (delimiter :: text ++ [delimiter]) =
      some (false, Group.sequence { alternatives := [], items := rs.reverse }) := by
    rw [List.cons_append, compile, hundelimit]
    change (regexOf text).map _ = _
    rw [hregex, foldl_push, List.append_nil]
    rfl
  rw [pregMatch, hcompile]
  change search false _ subject = true ↔ _
  rw [search_iff]
  simp only [matches_sequence_iff, List.reverse_reverse]

end Reading

end Pcre

import Mathlib.Data.List.Infix
import Polychrome.Library.Bytes

/-!
# Regular expressions as PCRE reads them

The fragment with literals, escapes, the dot, negated classes, groups,
alternatives, the quantifiers {lit}`*` and {lit}`?`, the anchors {lit}`^` and
{lit}`$` and the modifier {lit}`i`, on bytes.  The dot matches no newline, and
{lit}`$` also matches before a newline that ends the subject.

Main results:

- Definition {lit}`pregMatch`: the search for a match, with the text of the pattern
  read first.
- Theorem {lit}`mem_run_iff`: the search finds what the expression matches.

Current gaps:

- The limits on backtracking are left out.
-/

namespace Pcre

/-- A regular expression. -/
inductive Regex
  | empty
  | byte (b : UInt8)
  | dot
  /-- {lit}`[^..]` -/
  | noneOf (bs : Bytes)
  /-- {lit}`^` -/
  | start
  /-- {lit}`$` -/
  | finish
  | cat (r s : Regex)
  | alt (r s : Regex)
  | star (r : Regex)
  | opt (r : Regex)
deriving DecidableEq, Repr

/-- A place in the subject: what is left of it, and whether nothing lies before. -/
structure Place where
  first : Bool
  rest : Bytes
deriving DecidableEq, Repr

/-- ASCII lower case. -/
def lower (b : UInt8) : UInt8 := if 65 ≤ b ∧ b ≤ 90 then b + 32 else b

/-- Two bytes match, with the modifier {lit}`i` if {lit}`caseless`. -/
def same (caseless : Bool) (b c : UInt8) : Bool :=
  if caseless then lower b == lower c else b == c

/-- Consume one byte that passes the test. -/
def consume (p : UInt8 → Bool) (u : Place) : List Place :=
  match u.rest with
  | [] => []
  | b :: rest => if p b then [{ first := false, rest := rest }] else []

/-- Repeat a move that leaves less of the subject, at most {lit}`fuel` times. -/
def repeated (move : Place → List Place) : Nat → Place → List Place
  | 0, u => [u]
  | fuel + 1, u =>
      u :: ((move u).filter fun v => v.rest.length < u.rest.length).flatMap (repeated move fuel)

/-- The places behind the matches that begin at a place. -/
def run (caseless : Bool) : Regex → Place → List Place
  | .empty, u => [u]
  | .byte b, u => consume (same caseless b) u
  | .dot, u => consume (fun b => b != 10) u
  | .noneOf bs, u => consume (fun b => !bs.any (same caseless b)) u
  | .start, u => if u.first then [u] else []
  | .finish, u => if u.rest = [] ∨ u.rest = [10] then [u] else []
  | .cat r s, u => (run caseless r u).flatMap (run caseless s)
  | .alt r s, u => run caseless r u ++ run caseless s u
  | .star r, u => repeated (run caseless r) u.rest.length u
  | .opt r, u => run caseless r u ++ [u]

/-- The places of a subject at which a match can begin. -/
def places (subject : Bytes) : List Place :=
  { first := true, rest := subject } ::
    subject.tails.tail.map fun rest => { first := false, rest := rest }

/-- Some part of the subject matches. -/
def search (caseless : Bool) (r : Regex) (subject : Bytes) : Bool :=
  (places subject).any fun u => !(run caseless r u).isEmpty

/-! ## What an expression matches -/

/-- The expression matches what lies between two places. -/
inductive Matches (caseless : Bool) : Regex → Place → Place → Prop
  | empty {u : Place} : Matches caseless .empty u u
  | byte {b c : UInt8} {first : Bool} {rest : Bytes} (h : same caseless b c = true) :
      Matches caseless (.byte b) { first := first, rest := c :: rest }
        { first := false, rest := rest }
  | dot {c : UInt8} {first : Bool} {rest : Bytes} (h : c ≠ 10) :
      Matches caseless .dot { first := first, rest := c :: rest } { first := false, rest := rest }
  | noneOf {bs : Bytes} {c : UInt8} {first : Bool} {rest : Bytes}
      (h : bs.any (same caseless c) = false) :
      Matches caseless (.noneOf bs) { first := first, rest := c :: rest }
        { first := false, rest := rest }
  | start {u : Place} (h : u.first = true) : Matches caseless .start u u
  | finish {u : Place} (h : u.rest = [] ∨ u.rest = [10]) : Matches caseless .finish u u
  | cat {r s : Regex} {u v w : Place} (hr : Matches caseless r u v) (hs : Matches caseless s v w) :
      Matches caseless (.cat r s) u w
  | left {r s : Regex} {u v : Place} (h : Matches caseless r u v) : Matches caseless (.alt r s) u v
  | right {r s : Regex} {u v : Place} (h : Matches caseless s u v) :
      Matches caseless (.alt r s) u v
  | stop {r : Regex} {u : Place} : Matches caseless (.star r) u u
  | more {r : Regex} {u v w : Place} (hr : Matches caseless r u v)
      (hs : Matches caseless (.star r) v w) : Matches caseless (.star r) u w
  | absent {r : Regex} {u : Place} : Matches caseless (.opt r) u u
  | present {r : Regex} {u v : Place} (h : Matches caseless r u v) : Matches caseless (.opt r) u v

variable {caseless : Bool}

/-- Two expressions match one behind the other. -/
theorem matches_cat_iff {r s : Regex} {u w : Place} :
    Matches caseless (.cat r s) u w ↔ ∃ v, Matches caseless r u v ∧ Matches caseless s v w := by
  constructor
  · intro h
    cases h with
    | cat hr hs => exact ⟨_, hr, hs⟩
  · rintro ⟨v, hr, hs⟩
    exact .cat hr hs

/-- One of two expressions matches. -/
theorem matches_alt_iff {r s : Regex} {u v : Place} :
    Matches caseless (.alt r s) u v ↔ Matches caseless r u v ∨ Matches caseless s u v := by
  constructor
  · intro h
    cases h with
    | left h => exact Or.inl h
    | right h => exact Or.inr h
  · rintro (h | h)
    · exact .left h
    · exact .right h

/-- A match that does not leave the place leaves less of the subject. -/
theorem Matches.shrinks {r : Regex} {u v : Place} (h : Matches caseless r u v) :
    v = u ∨ v.rest.length < u.rest.length := by
  induction h with
  | empty | start | finish | stop | absent => exact Or.inl rfl
  | byte | dot | noneOf => exact Or.inr (Nat.lt_succ_self _)
  | cat _ _ ihr ihs | more _ _ ihr ihs =>
      rcases ihr with rfl | hr
      · exact ihs
      · rcases ihs with rfl | hs
        · exact Or.inr hr
        · exact Or.inr (hs.trans hr)
  | left _ ih | right _ ih | present _ ih => exact ih

/-- A byte of a class is taken from the subject. -/
theorem mem_consume {p : UInt8 → Bool} {u v : Place} :
    v ∈ consume p u ↔ ∃ b, u.rest = b :: v.rest ∧ p b = true ∧ v.first = false := by
  rcases u with ⟨first, rest⟩
  rcases v with ⟨first', rest'⟩
  cases rest with
  | nil => simp [consume]
  | cons b rest =>
      simp only [consume]
      split
      case isTrue hp =>
        rw [List.mem_singleton, Place.mk.injEq]
        constructor
        · rintro ⟨rfl, rfl⟩
          exact ⟨b, rfl, hp, rfl⟩
        · rintro ⟨c, hcons, -, hfirst⟩
          exact ⟨hfirst, (List.cons.inj hcons).2.symm⟩
      case isFalse hp =>
        constructor
        · intro h
          cases h
        · rintro ⟨c, hcons, hc, -⟩
          rw [← (List.cons.inj hcons).1] at hc
          exact absurd hc hp

/-- Less fuel finds no more. -/
theorem repeated_mono {move : Place → List Place} {m n : Nat} (h : m ≤ n) {u v : Place}
    (hv : v ∈ repeated move m u) : v ∈ repeated move n u := by
  induction m generalizing n u with
  | zero =>
      rw [repeated, List.mem_singleton] at hv
      cases n with
      | zero => simpa [repeated] using hv
      | succ n => simp [repeated, hv]
  | succ m ih =>
      cases n with
      | zero => omega
      | succ n =>
          rw [repeated, List.mem_cons, List.mem_flatMap] at hv ⊢
          rcases hv with rfl | ⟨w, hw, hv⟩
          · exact Or.inl rfl
          · exact Or.inr ⟨w, hw, ih (by omega) hv⟩

/-- What the matcher finds by repetition is a match of the star. -/
theorem matches_of_mem_repeated {r : Regex}
    (hr : ∀ u v, v ∈ run caseless r u → Matches caseless r u v) {n : Nat} {u v : Place}
    (hv : v ∈ repeated (run caseless r) n u) : Matches caseless (.star r) u v := by
  induction n generalizing u with
  | zero =>
      rw [repeated, List.mem_singleton] at hv
      rw [hv]
      exact .stop
  | succ n ih =>
      rw [repeated, List.mem_cons, List.mem_flatMap] at hv
      rcases hv with rfl | ⟨w, hw, hv⟩
      · exact .stop
      · exact .more (hr u w (List.mem_of_mem_filter hw)) (ih hv)

/-- What the matcher finds is a match. -/
theorem matches_of_mem_run {r : Regex} {u v : Place} (h : v ∈ run caseless r u) :
    Matches caseless r u v := by
  induction r generalizing u v with
  | empty =>
      rw [run, List.mem_singleton] at h
      rw [h]
      exact .empty
  | byte b =>
      rcases u with ⟨first, rest⟩
      rcases mem_consume.mp h with ⟨c, rfl, hc, hfirst⟩
      rcases v with ⟨first', rest'⟩
      cases hfirst
      exact .byte hc
  | dot =>
      rcases u with ⟨first, rest⟩
      rcases mem_consume.mp h with ⟨c, rfl, hc, hfirst⟩
      rcases v with ⟨first', rest'⟩
      cases hfirst
      exact .dot (by simpa using hc)
  | noneOf bs =>
      rcases u with ⟨first, rest⟩
      rcases mem_consume.mp h with ⟨c, rfl, hc, hfirst⟩
      rcases v with ⟨first', rest'⟩
      cases hfirst
      exact .noneOf (by simpa using hc)
  | start =>
      rw [run] at h
      split at h
      case isTrue hfirst =>
        rw [List.mem_singleton] at h
        rw [h]
        exact .start hfirst
      case isFalse => cases h
  | finish =>
      rw [run] at h
      split at h
      case isTrue hrest =>
        rw [List.mem_singleton] at h
        rw [h]
        exact .finish hrest
      case isFalse => cases h
  | cat r s ihr ihs =>
      rcases List.mem_flatMap.mp h with ⟨w, hw, hv⟩
      exact .cat (ihr hw) (ihs hv)
  | alt r s ihr ihs =>
      rcases List.mem_append.mp h with hr | hs
      · exact .left (ihr hr)
      · exact .right (ihs hs)
  | star r ih => exact matches_of_mem_repeated (fun u v => ih) h
  | opt r ih =>
      rcases List.mem_append.mp h with hr | hnone
      · exact .present (ih hr)
      · rw [List.mem_singleton] at hnone
        rw [hnone]
        exact .absent

/-- The matcher finds every match. -/
theorem mem_run_of_matches {r : Regex} {u v : Place} (h : Matches caseless r u v) :
    v ∈ run caseless r u := by
  induction h with
  | empty => simp [run]
  | byte h => exact mem_consume.mpr ⟨_, rfl, h, rfl⟩
  | dot h => exact mem_consume.mpr ⟨_, rfl, by simpa using h, rfl⟩
  | noneOf h => exact mem_consume.mpr ⟨_, rfl, by simpa using h, rfl⟩
  | start h => simp [run, h]
  | finish h => simp [run, h]
  | cat _ _ ihr ihs => exact List.mem_flatMap.mpr ⟨_, ihr, ihs⟩
  | left _ ih => exact List.mem_append.mpr (Or.inl ih)
  | right _ ih => exact List.mem_append.mpr (Or.inr ih)
  | @stop r u =>
      rw [run]
      cases u.rest.length <;> simp [repeated]
  | @more r u v w hr hs ihr ihs =>
      rcases hr.shrinks with rfl | hless
      · exact ihs
      · rw [run] at ihs ⊢
        cases hlength : u.rest.length with
        | zero => omega
        | succ n =>
            rw [repeated, List.mem_cons, List.mem_flatMap]
            refine Or.inr ⟨v, List.mem_filter.mpr ⟨ihr, by simpa using hless⟩, ?_⟩
            exact repeated_mono (by omega) ihs
  | absent => simp [run]
  | present _ ih => exact List.mem_append.mpr (Or.inl ih)

/-- The search tries what the expression matches. -/
theorem mem_run_iff {r : Regex} {u v : Place} : v ∈ run caseless r u ↔ Matches caseless r u v :=
  ⟨matches_of_mem_run, mem_run_of_matches⟩

/-- A search succeeds if the expression matches somewhere. -/
theorem search_iff {r : Regex} {subject : Bytes} :
    search caseless r subject = true ↔ ∃ u ∈ places subject, ∃ v, Matches caseless r u v := by
  simp only [search, List.any_eq_true, Bool.not_eq_true', List.isEmpty_eq_false_iff_exists_mem,
    mem_run_iff]

/-- A match begins at the start of the subject or behind a part of it. -/
theorem mem_places {subject : Bytes} {u : Place} :
    u ∈ places subject ↔ u = { first := true, rest := subject } ∨
      u.first = false ∧ ∃ before, before ≠ [] ∧ subject = before ++ u.rest := by
  have htails : ∀ rest, rest ∈ subject.tails.tail ↔
      ∃ before, before ≠ [] ∧ subject = before ++ rest := by
    intro rest
    cases subject with
    | nil => simp
    | cons b subject =>
        rw [List.tails_cons, List.tail_cons, List.mem_tails]
        constructor
        · rintro ⟨before, rfl⟩
          exact ⟨b :: before, by simp, rfl⟩
        · rintro ⟨before, hne, hsplit⟩
          cases before with
          | nil => exact absurd rfl hne
          | cons c before => exact ⟨before, ((List.cons.inj hsplit).2).symm⟩
  rcases u with ⟨first, rest⟩
  rw [places, List.mem_cons, List.mem_map]
  apply or_congr_right
  constructor
  · rintro ⟨rest', hmem, hu⟩
    cases hu
    exact ⟨rfl, (htails rest).mp hmem⟩
  · rintro ⟨hfirst, hsplit⟩
    cases hfirst
    exact ⟨rest, (htails rest).mpr hsplit, rfl⟩

/-! ## Expressions for finitely many words -/

/-- The expression has neither anchors nor classes nor repetition. -/
def Regex.isWordList : Regex → Bool
  | .empty | .byte _ => true
  | .cat r s | .alt r s => r.isWordList && s.isWordList
  | .opt r => r.isWordList
  | _ => false

/-- The words of such an expression in lower case. -/
def Regex.words : Regex → List Bytes
  | .empty => [[]]
  | .byte b => [[lower b]]
  | .cat r s => r.words.flatMap fun w => s.words.map fun w' => w ++ w'
  | .alt r s => r.words ++ s.words
  | .opt r => [] :: r.words
  | _ => []

/-- A place behind a part of the subject. -/
def Place.behind (u : Place) (x rest : Bytes) : Place :=
  { first := u.first && x.isEmpty, rest := rest }

/-- Nothing taken, nothing changed. -/
theorem Place.behind_nil (u : Place) : u.behind [] u.rest = u := by
  simp [Place.behind]

/-- Two pieces are taken one behind the other. -/
theorem Place.behind_append (u : Place) (x y rest : Bytes) :
    (u.behind x (y ++ rest)).behind y rest = u.behind (x ++ y) rest := by
  cases x <;> simp [Place.behind]

/-! ## The text of a pattern -/

/-- The signs of a pattern. -/
inductive Token
  | literal (b : UInt8)
  | dot
  | noneOf (bs : Bytes)
  | caret
  | dollar
  | star
  | question
  | bar
  /-- {lit}`(?:` -/
  | opening
  | closing
deriving DecidableEq, Repr

/-- The part of a text that is read: outside a class, or inside one. -/
inductive Lexer
  | outside
  | inClass (bs : Bytes)
deriving DecidableEq, Repr

/-- A letter or a digit. -/
def isAlphanumeric (b : UInt8) : Bool :=
  (48 ≤ b && b ≤ 57) || (65 ≤ b && b ≤ 90) || (97 ≤ b && b ≤ 122)

/-- Read the signs of a pattern; {lit}`none` outside the fragment. -/
def tokens : Lexer → Bytes → Option (List Token)
  | .outside, [] => some []
  | .inClass _, [] => none
  | .inClass bs, b :: s =>
      if b = 93 then (tokens .outside s).map fun ts => .noneOf bs :: ts
      else if b = 92 ∨ b = 91 ∨ b = 45 then none
      else tokens (.inClass (bs ++ [b])) s
  | .outside, 92 :: 48 :: 48 :: 48 :: s => (tokens .outside s).map fun ts => .literal 0 :: ts
  | .outside, 92 :: b :: s =>
      if isAlphanumeric b then none else (tokens .outside s).map fun ts => .literal b :: ts
  | .outside, 40 :: 63 :: 58 :: s => (tokens .outside s).map fun ts => .opening :: ts
  | .outside, 91 :: 94 :: s => tokens (.inClass []) s
  | .outside, b :: s =>
      if b = 92 ∨ b = 40 ∨ b = 91 ∨ b = 43 ∨ b = 123 then none
      else
        (tokens .outside s).map fun ts =>
          (if b = 46 then .dot
            else if b = 94 then .caret
            else if b = 36 then .dollar
            else if b = 42 then .star
            else if b = 63 then .question
            else if b = 124 then .bar
            else if b = 41 then .closing
            else .literal b) :: ts

/-- A group under construction: the alternatives that are complete, and the items of
the last one, the latest first. -/
structure Group where
  alternatives : List Regex
  items : List Regex
deriving DecidableEq, Repr

/-- The items of an alternative in a row. -/
def Group.sequence (g : Group) : Regex :=
  match g.items with
  | [] => .empty
  | item :: items => items.foldl (fun r s => .cat s r) item

/-- The whole group. -/
def Group.regex (g : Group) : Regex := g.alternatives.foldl (fun r s => .alt s r) g.sequence

/-- One more item. -/
def Group.push (g : Group) (r : Regex) : Group := { g with items := r :: g.items }

/-- Put a quantifier to the last item, which has none yet. -/
def Group.quantify (g : Group) (f : Regex → Regex) : Option Group :=
  match g.items with
  | [] | .star _ :: _ | .opt _ :: _ => none
  | r :: items => some { g with items := f r :: items }

/-- Read the signs with the innermost group on top of the stack. -/
def parse : List Token → Group → List Group → Option Regex
  | [], g, [] => some g.regex
  | [], _, _ :: _ => none
  | .literal b :: ts, g, outer => parse ts (g.push (.byte b)) outer
  | .dot :: ts, g, outer => parse ts (g.push .dot) outer
  | .noneOf bs :: ts, g, outer => parse ts (g.push (.noneOf bs)) outer
  | .caret :: ts, g, outer => parse ts (g.push .start) outer
  | .dollar :: ts, g, outer => parse ts (g.push .finish) outer
  | .star :: ts, g, outer => (g.quantify .star).bind fun g => parse ts g outer
  | .question :: ts, g, outer => (g.quantify .opt).bind fun g => parse ts g outer
  | .bar :: ts, g, outer =>
      parse ts { alternatives := g.sequence :: g.alternatives, items := [] } outer
  | .opening :: ts, g, outer => parse ts { alternatives := [], items := [] } (g :: outer)
  | .closing :: _, _, [] => none
  | .closing :: ts, g, h :: outer => parse ts (h.push g.regex) outer

/-- The expression of a pattern without its delimiters. -/
def regexOf (pattern : Bytes) : Option Regex :=
  (tokens .outside pattern).bind fun ts => parse ts { alternatives := [], items := [] } []

/-- Split the text behind the first delimiter at the second one, which no backslash
escapes. -/
def undelimit (delimiter : UInt8) : Bytes → Option (Bytes × Bytes)
  | [] => none
  | 92 :: b :: s => (undelimit delimiter s).map fun x => (92 :: b :: x.1, x.2)
  | b :: s =>
      if b = delimiter then some ([], s)
      else (undelimit delimiter s).map fun x => (b :: x.1, x.2)

/-- Read the text of a pattern: its modifier {lit}`i`, and its expression. -/
def compile : Bytes → Option (Bool × Regex)
  | [] => none
  | delimiter :: s =>
      match undelimit delimiter s with
      | some (pattern, []) => (regexOf pattern).map fun r => (false, r)
      | some (pattern, [105]) => (regexOf pattern).map fun r => (true, r)
      | _ => none

/-- {lit}`preg_match($pattern, $subject)` as a truth value: a pattern that cannot be
read matches nothing. -/
def pregMatch (pattern subject : Bytes) : Bool :=
  match compile pattern with
  | some (caseless, r) => search caseless r subject
  | none => false

end Pcre

import Mathlib.Data.List.DropRight
import Polychrome.Library.CString
import Polychrome.Library.RustText

/-!
# Python's methods on byte strings and text

The methods that take a separator, and what {lit}`str` does with text that was bytes.
Text that is not ASCII is left to a parameter.

Main results:

- Theorem {lit}`split_joined`: lines that are joined by CRLF are split again.
- Theorem {lit}`splitFirst_head`: an empty line ends the lines before it.
- Theorem {lit}`decimal_toString`: a decimal numeral is read back.
-/

namespace Python

open Clib Rust

/-! ## Separators -/

/-- What is before and behind the first separator, which is not empty. -/
def splitFirst (separator : Bytes) : Bytes → Option (Bytes × Bytes)
  | [] => none
  | b :: s =>
      if separator.isPrefixOf (b :: s) then some ([], (b :: s).drop separator.length)
      else (splitFirst separator s).map fun r => (b :: r.1, r.2)

/-- {lit}`s.partition(separator)` -/
def partition (separator s : Bytes) : Bytes × Bytes × Bytes :=
  match splitFirst separator s with
  | some (before, behind) => (before, separator, behind)
  | none => (s, [], [])

/-- The rest of {lit}`split`, with a bound on the separators. -/
def splitFrom (separator : Bytes) : Nat → Bytes → List Bytes
  | 0, s => [s]
  | fuel + 1, s =>
      match splitFirst separator s with
      | some (piece, rest) => piece :: splitFrom separator fuel rest
      | none => [s]

/-- {lit}`s.split(separator)` -/
def split (separator s : Bytes) : List Bytes := splitFrom separator s.length s

section Separators

variable {separator : Bytes}

/-- A text that begins with the separator is cut there. -/
theorem splitFirst_hit (hseparator : separator ≠ []) (s : Bytes) :
    splitFirst separator (separator ++ s) = some ([], s) := by
  cases separator with
  | nil => exact absurd rfl hseparator
  | cons c separator =>
      have hprefix : (c :: separator).isPrefixOf (c :: (separator ++ s)) = true := by
        rw [List.isPrefixOf_iff_prefix]
        exact List.prefix_append (c :: separator) s
      rw [List.cons_append, splitFirst, if_pos hprefix, ← List.cons_append, List.drop_left]

/-- A byte that begins no separator is passed. -/
theorem splitFirst_miss {b : UInt8} {s : Bytes} (h : ¬ separator <+: b :: s) :
    splitFirst separator (b :: s) =
      (splitFirst separator s).map fun r => (b :: r.1, r.2) := by
  rw [← List.isPrefixOf_iff_prefix] at h
  rw [splitFirst, if_neg h]

/-- No separator begins in a piece without its first byte. -/
theorem splitFirst_append {c : UInt8} {separator piece : Bytes} (h : c ∉ piece) (s : Bytes) :
    splitFirst (c :: separator) (piece ++ s) =
      (splitFirst (c :: separator) s).map fun r => (piece ++ r.1, r.2) := by
  induction piece with
  | nil => simp
  | cons b piece ih =>
      rw [List.mem_cons, not_or] at h
      have hmiss : ¬ c :: separator <+: b :: (piece ++ s) := by
        rw [List.cons_prefix_cons]
        exact fun hprefix => h.1 hprefix.1
      rw [List.cons_append, splitFirst_miss hmiss, ih h.2, Option.map_map]
      rfl

/-- Without its first byte there is no separator. -/
theorem splitFirst_none {c : UInt8} {separator piece : Bytes} (h : c ∉ piece) :
    splitFirst (c :: separator) piece = none := by
  have happend := @splitFirst_append c separator piece h []
  rwa [List.append_nil] at happend

end Separators

/-! ## Lines -/

/-- The end of a line. -/
def crlf : Bytes := [13, 10]

/-- A line of a header: without an end of a line, and not empty. -/
def IsLine (line : Bytes) : Prop := line ≠ [] ∧ 13 ∉ line

/-- Lines with the ends that are between them. -/
def joined : List Bytes → Bytes
  | [] => []
  | [line] => line
  | line :: lines => line ++ crlf ++ joined lines

/-- Lines that are joined are split again. -/
theorem splitFrom_joined {lines : List Bytes} (hne : lines ≠ []) (h : ∀ line ∈ lines, 13 ∉ line)
    {fuel : Nat} (hfuel : lines.length ≤ fuel + 1) :
    splitFrom crlf fuel (joined lines) = lines := by
  induction lines generalizing fuel with
  | nil => exact absurd rfl hne
  | cons line lines ih =>
      rw [List.forall_mem_cons] at h
      cases lines with
      | nil =>
          cases fuel with
          | zero => rfl
          | succ fuel =>
              rw [joined, splitFrom, crlf, splitFirst_none h.1]
      | cons next lines =>
          obtain ⟨fuel, rfl⟩ : ∃ n, fuel = n + 1 := by
            refine ⟨fuel - 1, ?_⟩
            simp only [List.length_cons] at hfuel
            omega
          have hfirst : splitFirst crlf (joined (line :: next :: lines)) =
              some (line, joined (next :: lines)) := by
            rw [joined, List.append_assoc, crlf, splitFirst_append h.1, ← crlf,
              splitFirst_hit (by decide)]
            · simp
            · simp
          rw [splitFrom, hfirst]
          dsimp only
          rw [ih (List.cons_ne_nil _ _) h.2]
          simp only [List.length_cons] at hfuel ⊢
          omega

/-- There are no more lines than bytes and one. -/
theorem length_le_joined (lines : List Bytes) : lines.length ≤ (joined lines).length + 1 := by
  induction lines with
  | nil => exact Nat.zero_le _
  | cons line lines ih =>
      cases lines with
      | nil => simp
      | cons next lines =>
          rw [joined]
          · simp only [List.length_append, List.length_cons, crlf, List.length_nil] at ih ⊢
            omega
          · simp

/-- Lines that are joined are split again. -/
theorem split_joined {lines : List Bytes} (hne : lines ≠ []) (h : ∀ line ∈ lines, 13 ∉ line) :
    split crlf (joined lines) = lines :=
  splitFrom_joined hne h (length_le_joined lines)

/-- The first empty line is behind the lines. -/
theorem splitFirst_head {lines : List Bytes} (hne : lines ≠ [])
    (h : ∀ line ∈ lines, IsLine line) (body : Bytes) :
    splitFirst (crlf ++ crlf) (lines.flatMap (fun line => line ++ crlf) ++ crlf ++ body) =
      some (joined lines, body) := by
  induction lines with
  | nil => exact absurd rfl hne
  | cons line lines ih =>
      rw [List.forall_mem_cons] at h
      cases lines with
      | nil =>
          have hhit := @splitFirst_hit (crlf ++ crlf) (by decide) body
          rw [List.flatMap_singleton, List.append_assoc, List.append_assoc,
            ← List.append_assoc crlf crlf body]
          change splitFirst (13 :: [10, 13, 10]) _ = _
          rw [splitFirst_append h.1.2]
          change (splitFirst (crlf ++ crlf) _).map _ = _
          rw [hhit]
          simp [joined]
      | cons next lines =>
          have hrest := ih (List.cons_ne_nil _ _) h.2
          -- The next line does not begin with the end of a line.
          generalize htail : (next :: lines).flatMap (fun line => line ++ crlf) ++ crlf ++ body =
            tail at hrest
          have hhead : ¬ crlf <+: tail := by
            rw [← htail]
            rcases h.2 next List.mem_cons_self with ⟨hnext, hcr⟩
            cases next with
            | nil => exact absurd rfl hnext
            | cons b next =>
                rw [crlf, List.flatMap_cons]
                simp only [List.cons_append]
                rw [List.cons_prefix_cons]
                exact fun hmatch => hcr (hmatch.1 ▸ List.mem_cons_self)
          have hmiss : ¬ crlf ++ crlf <+: 13 :: 10 :: tail := by
            rw [crlf]
            simpa [List.cons_prefix_cons, crlf] using hhead
          have hmiss' : ¬ crlf ++ crlf <+: 10 :: tail := by
            simp [crlf, List.cons_prefix_cons]
          rw [List.flatMap_cons, List.append_assoc, List.append_assoc, List.append_assoc,
            ← List.append_assoc _ crlf body, htail]
          change splitFirst (13 :: [10, 13, 10]) _ = _
          rw [splitFirst_append h.1.2]
          change (splitFirst (crlf ++ crlf) (13 :: 10 :: tail)).map _ = _
          rw [splitFirst_miss hmiss, splitFirst_miss hmiss', hrest]
          simp [joined, crlf]

/-! ## Text -/

/-- The methods of {lit}`str` on text that is not ASCII, and {lit}`int` on what is not
a plain numeral. -/
structure Text where
  lower : Bytes → Bytes
  strip : Bytes → Bytes
  /-- {lit}`split()[0]` -/
  word : Bytes → Option Bytes
  int : Bytes → Option Int

def isAscii (s : Bytes) : Bool := s.all fun b => b < 128

/-- The ASCII characters that {lit}`str.isspace` accepts. -/
def isSpace (b : UInt8) : Bool := b == 32 || (9 ≤ b && b ≤ 13) || (28 ≤ b && b ≤ 31)

/-- {lit}`bytes.decode()` does not raise. -/
def decodes (s : Bytes) : Bool := isAscii s || isUtf8 s

/-- {lit}`s.strip()` for ASCII text. -/
def strip (s : Bytes) : Bytes := (s.dropWhile isSpace).rdropWhile isSpace

/-- The value of decimal digits, with a minus sign or without; {lit}`int` reads at most
4300 of them. -/
def decimal (s : Bytes) : Option Int :=
  let digits := if s.head? = some 45 then s.drop 1 else s
  if digits ≠ [] ∧ digits.all isDigit ∧ digits.length ≤ 4300 then
    some (if s.head? = some 45 then -(digitsValue digits : Int) else digitsValue digits)
  else none

section Methods

variable (text : Text) (s : Bytes)

/-- {lit}`s.lower()` -/
def Text.lowerOf : Bytes := if isAscii s then s.map toAsciiLowercase else text.lower s

/-- {lit}`s.strip()` -/
def Text.stripOf : Bytes := if isAscii s then Python.strip s else text.strip s

/-- {lit}`s.split()[0]`, if it is there -/
def Text.wordOf : Option Bytes :=
  if isAscii s then
    let word := (s.dropWhile isSpace).takeWhile fun b => !isSpace b
    if word = [] then none else some word
  else text.word s

/-- {lit}`int(s)` -/
def Text.intOf : Option Int := (decimal s).or (text.int s)

end Methods

/-! ## Numerals -/

/-- The bytes of two strings. -/
theorem bytes_append (s t : String) : bytes (s ++ t) = bytes s ++ bytes t := by
  rw [bytes, String.toList_append, List.map_append]
  rfl

/-- A decimal numeral is read back. -/
theorem decimal_repr {n : Nat} (h : n < 10 ^ 10) : decimal (bytes n.repr) = some (n : Int) := by
  obtain ⟨hall, hvalue, hne, hlength⟩ := digits_repr n
  have hhead : (bytes n.repr).head? ≠ some 45 := by
    intro hhead
    rw [List.all_eq_true] at hall
    exact absurd (hall 45 (List.mem_of_mem_head? hhead)) (by decide)
  have hshort := hlength h
  rw [decimal, if_neg hhead, if_neg hhead, if_pos ⟨hne, hall, by omega⟩, hvalue]

/-- A number of ten digits at most is read back from its decimal numeral. -/
theorem decimal_toString {i : Int} (h : i.natAbs < 10 ^ 10) :
    decimal (bytes (toString i)) = some i := by
  rw [Int.toString_eq_repr, Int.repr_eq_if]
  split
  case isTrue hpos =>
    rw [decimal_repr (by omega)]
    simp [hpos]
  case isFalse hneg =>
    obtain ⟨hall, hvalue, hne, hlength⟩ := digits_repr (-i).toNat
    have hshort := hlength (by omega)
    have hminus : bytes ("-" ++ (-i).toNat.repr) = 45 :: bytes (-i).toNat.repr :=
      bytes_append "-" _
    rw [hminus, decimal]
    simp only [List.head?_cons, List.drop_succ_cons, List.drop_zero, if_true]
    rw [if_pos ⟨hne, hall, by omega⟩, hvalue]
    congr 1
    omega

/-- A numeral is made of digits and a minus sign. -/
theorem mem_numeral {i : Int} {b : UInt8} (h : b ∈ bytes (toString i)) :
    b = 45 ∨ isDigit b = true := by
  have hdigit : ∀ n : Nat, b ∈ bytes n.repr → isDigit b = true := fun n hb =>
    List.all_eq_true.mp (digits_repr n).1 b hb
  rw [Int.toString_eq_repr, Int.repr_eq_if] at h
  split at h
  · exact Or.inr (hdigit _ h)
  · rw [bytes_append] at h
    rcases List.mem_append.mp h with hminus | hb
    · exact Or.inl (List.mem_singleton.mp hminus)
    · exact Or.inr (hdigit _ hb)

/-- A numeral is made of plain characters. -/
theorem numeral_plain {i : Int} {b : UInt8} (h : b ∈ bytes (toString i)) :
    b < 128 ∧ isSpace b = false ∧ b ≠ 13 := by
  rcases mem_numeral h with rfl | hdigit
  · decide
  · rw [isDigit, Bool.and_eq_true, decide_eq_true_eq, decide_eq_true_eq] at hdigit
    obtain ⟨hlow, hhigh⟩ := hdigit
    rw [UInt8.le_iff_toNat_le] at hlow hhigh
    have hlow' : 48 ≤ b.toNat := hlow
    have hhigh' : b.toNat ≤ 57 := hhigh
    refine ⟨?_, ?_, ?_⟩
    · rw [UInt8.lt_iff_toNat_lt]
      exact lt_of_le_of_lt hhigh' (by decide)
    · simp only [isSpace, Bool.or_eq_false_iff, beq_eq_false_iff_ne, ne_eq,
        Bool.and_eq_false_iff, decide_eq_false_iff_not, UInt8.le_iff_toNat_le, ← UInt8.toNat_inj]
      have h32 : (32 : UInt8).toNat = 32 := rfl
      have h13 : (13 : UInt8).toNat = 13 := rfl
      have h31 : (31 : UInt8).toNat = 31 := rfl
      omega
    · intro hcr
      rw [hcr] at hlow'
      exact absurd hlow' (by decide)

/-- A numeral is not empty. -/
theorem numeral_ne_nil (i : Int) : bytes (toString i) ≠ [] := by
  rw [Int.toString_eq_repr, Int.repr_eq_if]
  split
  · exact (digits_repr _).2.2.1
  · rw [bytes_append]
    exact List.cons_ne_nil _ _

/-- A numeral is text of ASCII characters. -/
theorem isAscii_numeral (i : Int) : isAscii (bytes (toString i)) = true := by
  rw [isAscii, List.all_eq_true]
  exact fun b hb => by simpa using (numeral_plain hb).1

/-- Text without spaces at its ends is kept by {lit}`strip`. -/
theorem strip_of_plain {s : Bytes} (h : ∀ b ∈ s, isSpace b = false) : strip (32 :: s) = s := by
  have hdrop : (32 :: s).dropWhile isSpace = s := by
    rw [List.dropWhile_cons_of_pos (by decide)]
    cases s with
    | nil => rfl
    | cons b s => rw [List.dropWhile_cons_of_neg (by simp [h b List.mem_cons_self])]
  rw [strip, hdrop, List.rdropWhile_eq_self_iff]
  intro hne
  simp [h _ (List.getLast_mem hne)]

/-- The first word of a numeral is all of it. -/
theorem wordOf_numeral (text : Text) (i : Int) :
    text.wordOf (bytes (toString i)) = some (bytes (toString i)) := by
  have hplain : ∀ b ∈ bytes (toString i), isSpace b = false := fun b hb => (numeral_plain hb).2.1
  have hdrop : (bytes (toString i)).dropWhile isSpace = bytes (toString i) := by
    rw [List.dropWhile_eq_self_iff]
    intro hpos
    rw [hplain _ (List.getElem_mem hpos)]
    exact Bool.false_ne_true
  have htake : ((bytes (toString i)).takeWhile fun b => !isSpace b) = bytes (toString i) := by
    rw [List.takeWhile_eq_self_iff]
    exact fun b hb => by simp [hplain b hb]
  rw [Text.wordOf, if_pos (isAscii_numeral i), hdrop, htake]
  exact if_neg (numeral_ne_nil i)

end Python

import Mathlib.Data.Int.Order.Basic
import Mathlib.Data.List.TakeWhile
import Polychrome.Library.Bytes

/-!
# C strings and conversions

A buffer holds a C string up to its first NUL.  {lit}`strtol` is given for base 10
and a {lit}`long` of 64 bits; an {lit}`int` has 32 bits and a
{lit}`size_t` 64.

Main results:

- Theorem {lit}`strtol_of_digit`: {lit}`strtol` on a string that begins with a digit.
- Theorem {lit}`cInt_of_le` and theorem {lit}`cSize_of_le`: the conversions to
  {lit}`int` and {lit}`size_t` keep what both can hold.
- Theorem {lit}`digits_repr`: the digits that a number is written with.
-/

namespace Clib

/-- The C string at the beginning of a buffer. -/
def cString (buffer : Bytes) : Bytes := buffer.takeWhile fun b => b != 0

/-- {lit}`isspace` in the C locale. -/
def isSpace (b : UInt8) : Bool := b == 32 || (9 ≤ b && b ≤ 13)

/-- {lit}`isdigit` -/
def isDigit (b : UInt8) : Bool := 48 ≤ b && b ≤ 57

/-- {lit}`LONG_MAX` -/
def longMax : Int := 2 ^ 63 - 1

/-- What {lit}`strtol` leaves behind: its value, the text at the end pointer and
whether {lit}`errno` is {lit}`ERANGE`. -/
structure Converted where
  value : Int
  rest : Bytes
  overflow : Bool
deriving DecidableEq, Repr

/-- The value of decimal digits. -/
def digitsValue (digits : Bytes) : Nat := digits.foldl (fun n b => 10 * n + (b.toNat - 48)) 0

/-- {lit}`strtol(s, &end, 10)` -/
def strtol (s : Bytes) : Converted :=
  let subject := s.dropWhile isSpace
  let negative := subject.head? == some 45
  let unsigned := if negative || subject.head? == some 43 then subject.drop 1 else subject
  let digits := unsigned.takeWhile isDigit
  let rest := unsigned.dropWhile isDigit
  let n : Int := digitsValue digits
  if digits = [] then { value := 0, rest := s, overflow := false }
  else if negative then
    if n ≤ longMax + 1 then { value := -n, rest := rest, overflow := false }
    else { value := -longMax - 1, rest := rest, overflow := true }
  else if n ≤ longMax then { value := n, rest := rest, overflow := false }
  else { value := longMax, rest := rest, overflow := true }

/-- A string without a zero byte is whole. -/
theorem cString_of_notMem {s : Bytes} (h : 0 ∉ s) : cString s = s := by
  rw [cString, List.takeWhile_eq_self_iff]
  intro b hb
  exact bne_iff_ne.mpr fun hzero => h (hzero ▸ hb)

/-- A digit is no blank and no sign, so the digits begin at once. -/
theorem strtol_of_digit {b : UInt8} (hb : isDigit b = true) (s : Bytes) :
    strtol (b :: s) =
      if (digitsValue ((b :: s).takeWhile isDigit) : Int) ≤ longMax then
        { value := digitsValue ((b :: s).takeWhile isDigit)
          rest := (b :: s).dropWhile isDigit
          overflow := false }
      else { value := longMax, rest := (b :: s).dropWhile isDigit, overflow := true } := by
  have hspace : isSpace b = false := by
    rw [isDigit, Bool.and_eq_true, decide_eq_true_eq, decide_eq_true_eq] at hb
    rw [isSpace]
    grind
  have hminus : b ≠ 45 := by
    rintro rfl
    exact absurd hb (by decide)
  have hplus : b ≠ 43 := by
    rintro rfl
    exact absurd hb (by decide)
  have hdigits : (b :: s).takeWhile isDigit ≠ [] := by simp [hb]
  have hsubject : (b :: s).dropWhile isSpace = b :: s := by simp [hspace]
  simp [strtol, hsubject, hminus, hplus, hdigits]

/-- {lit}`strncasecmp(s, word, strlen(word)) == 0`, with the word in lower case. -/
def startsWithCaseless (word s : Bytes) : Bool :=
  (s.take word.length).map (fun b => if 65 ≤ b ∧ b ≤ 90 then b + 32 else b) == word

/-! ## Conversions -/

/-- {lit}`INT_MAX` -/
def intMax : Nat := 2 ^ 31 - 1

/-- {lit}`(int) n` -/
def cInt (n : Nat) : Int := Int.bmod n (2 ^ 32)

/-- A value clamped to a bound. -/
theorem ite_gt_eq_min (n bound : Nat) : (if n > bound then bound else n) = min n bound := by
  split <;> omega

/-- A small number is an {lit}`int` as it is. -/
theorem cInt_of_le {n : Nat} (h : n ≤ intMax) : cInt n = n := by
  have hbound : n < 2147483648 := by
    rw [intMax] at h
    omega
  exact Int.bmod_eq_of_le (by omega) (by omega)

/-- {lit}`(size_t) n` -/
def cSize (n : Int) : Nat := (n % 2 ^ 64).toNat

/-- A small {lit}`int` is a {lit}`size_t` as it is. -/
theorem cSize_of_le {n : Int} (hpos : 0 ≤ n) (h : n ≤ intMax) : cSize n = n.toNat := by
  rw [intMax] at h
  rw [cSize]
  omega

/-! ## Numerals -/

/-- The digits are those of ASCII. -/
theorem digit_of_isDigit {c : Char} (h : c.isDigit = true) :
    isDigit (UInt8.ofNat c.toNat) = true ∧ (UInt8.ofNat c.toNat).toNat = c.toNat := by
  rw [Char.isDigit, Bool.and_eq_true, decide_eq_true_eq, decide_eq_true_eq] at h
  have hlow : 48 ≤ c.toNat := h.1
  have hhigh : c.toNat ≤ 57 := h.2
  have hnat : (UInt8.ofNat c.toNat).toNat = c.toNat := by
    rw [UInt8.toNat_ofNat']
    omega
  refine ⟨?_, hnat⟩
  rw [isDigit, Bool.and_eq_true, decide_eq_true_eq, decide_eq_true_eq, UInt8.le_iff_toNat_le,
    UInt8.le_iff_toNat_le, hnat]
  exact ⟨hlow, hhigh⟩

/-- Digits have the value that Lean gives them. -/
theorem digitsValue_chars {chars : List Char} (h : ∀ c ∈ chars, c.isDigit = true) (n : Nat) :
    (chars.map fun c => UInt8.ofNat c.toNat).foldl (fun n b => 10 * n + (b.toNat - 48)) n =
      Nat.ofDigitChars 10 chars n := by
  induction chars generalizing n with
  | nil => rfl
  | cons c chars ih =>
      rw [List.forall_mem_cons] at h
      rw [List.map_cons, List.foldl_cons, ih h.2, Nat.ofDigitChars_cons, (digit_of_isDigit h.1).2]
      rfl

/-- The digits of a number. -/
theorem digits_repr (n : Nat) :
    (bytes n.repr).all isDigit = true ∧ digitsValue (bytes n.repr) = n ∧ bytes n.repr ≠ [] ∧
      (n < 10 ^ 10 → (bytes n.repr).length ≤ 10) := by
  have hdigits : ∀ c ∈ Nat.toDigits 10 n, c.isDigit = true := fun c hc =>
    Nat.isDigit_of_mem_toDigits (by decide) (by decide) hc
  rw [bytes, Nat.toList_repr]
  refine ⟨?_, ?_, ?_, ?_⟩
  · rw [List.all_eq_true]
    intro b hb
    rcases List.mem_map.mp hb with ⟨c, hc, rfl⟩
    exact (digit_of_isDigit (hdigits c hc)).1
  · rw [digitsValue, digitsValue_chars hdigits, Nat.ofDigitChars_ten_toDigits]
  · simp
  · intro hn
    rw [List.length_map, Nat.length_toDigits_le_iff (by decide) (by decide)]
    exact hn

end Clib

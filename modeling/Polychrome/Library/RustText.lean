import Polychrome.Library.CString

/-!
# Rust's functions on text

A {lit}`str` is its UTF-8 bytes.  The functions below look for ASCII characters
only, which no byte of another character's encoding can be taken for.

Main results:

- Definition {lit}`parseUnsigned` and theorem {lit}`parseUnsigned_iff`: the numerals
  that an unsigned integer is read from.
- Theorem {lit}`splitOnce_eq_some_iff`: the first separator.
-/

namespace Rust

/-- {lit}`str::from_utf8` succeeds. -/
def isUtf8 (s : Bytes) : Bool := ByteArray.validateUTF8 ⟨s.toArray⟩

/-- {lit}`u8::is_ascii_alphanumeric` -/
def isAsciiAlphanumeric (b : UInt8) : Bool :=
  Clib.isDigit b || (65 ≤ b && b ≤ 90) || (97 ≤ b && b ≤ 122)

/-- {lit}`u8::to_ascii_lowercase` -/
def toAsciiLowercase (b : UInt8) : UInt8 := if 65 ≤ b && b ≤ 90 then b + 32 else b

/-- {lit}`str::eq_ignore_ascii_case` -/
def eqIgnoreAsciiCase (s t : Bytes) : Bool := s.map toAsciiLowercase == t.map toAsciiLowercase

/-- {lit}`str::strip_prefix` -/
def stripStart (start s : Bytes) : Option Bytes :=
  if start.isPrefixOf s then some (s.drop start.length) else none

/-- {lit}`str::split_once` -/
def splitOnce (separator : UInt8) : Bytes → Option (Bytes × Bytes)
  | [] => none
  | b :: s =>
      if b = separator then some ([], s)
      else (splitOnce separator s).map fun x => (b :: x.1, x.2)

/-- A beginning is taken off. -/
theorem stripStart_eq_some_iff {start s rest : Bytes} :
    stripStart start s = some rest ↔ s = start ++ rest := by
  unfold stripStart
  split
  case isTrue hstart =>
    rcases List.isPrefixOf_iff_prefix.mp hstart with ⟨t, rfl⟩
    simp
  case isFalse hstart =>
    simp only [reduceCtorEq, false_iff]
    rintro rfl
    exact hstart (List.isPrefixOf_iff_prefix.mpr (List.prefix_append start rest))

/-- A text is cut at the first separator. -/
theorem splitOnce_eq_some_iff {separator : UInt8} {s key rest : Bytes} :
    splitOnce separator s = some (key, rest) ↔
      s = key ++ separator :: rest ∧ separator ∉ key := by
  induction s generalizing key with
  | nil => simp [splitOnce]
  | cons b s ih =>
      by_cases hb : b = separator
      · subst hb
        cases key with
        | nil => simp [splitOnce]
        | cons c key => simp +contextual [splitOnce]
      · cases key with
        | nil => simp [splitOnce, hb]
        | cons c key =>
            simp only [splitOnce, if_neg hb, Option.map_eq_some_iff, Prod.exists, Prod.mk.injEq,
              List.cons.injEq, List.cons_append, List.mem_cons, not_or]
            constructor
            · rintro ⟨key', rest', hsplit, ⟨rfl, rfl⟩, rfl⟩
              rcases ih.mp hsplit with ⟨rfl, hkey⟩
              exact ⟨⟨rfl, rfl⟩, Ne.symm hb, hkey⟩
            · rintro ⟨⟨rfl, rfl⟩, -, hkey⟩
              exact ⟨key, rest, ih.mpr ⟨rfl, hkey⟩, ⟨rfl, rfl⟩, rfl⟩

/-! ## Integers -/

/-- One digit of {lit}`from_str_radix(_, 10)`, with both checked operations. -/
def pushDigit (bound n : Nat) (b : UInt8) : Option Nat :=
  if Clib.isDigit b then
    if 10 * n + (b.toNat - 48) < bound then some (10 * n + (b.toNat - 48)) else none
  else none

/-- {lit}`str::parse` for an unsigned integer type with {lit}`bound` values. -/
def parseUnsigned (bound : Nat) (s : Bytes) : Option Nat :=
  let digits := if s.head? = some 43 then s.drop 1 else s
  if digits = [] then none else digits.foldlM (pushDigit bound) 0

/-- A numeral is decimal digits, perhaps behind a plus sign. -/
def Numeral (s : Bytes) (n : Nat) : Prop :=
  ∃ digits, digits ≠ [] ∧ (s = digits ∨ s = 43 :: digits) ∧
    (∀ b ∈ digits, Clib.isDigit b = true) ∧ Clib.digitsValue digits = n

/-- More digits never make a number smaller. -/
theorem le_foldl_digits (digits : Bytes) (n : Nat) :
    n ≤ digits.foldl (fun n b => 10 * n + (b.toNat - 48)) n := by
  induction digits generalizing n with
  | nil => exact le_rfl
  | cons b digits ih =>
      rw [List.foldl_cons]
      have hstep := ih (10 * n + (b.toNat - 48))
      omega

/-- Digits are pushed while the value stays below the bound. -/
theorem foldlM_pushDigit {bound : Nat} {digits : Bytes} {m n : Nat} (hm : m < bound) :
    digits.foldlM (pushDigit bound) m = some n ↔
      (∀ b ∈ digits, Clib.isDigit b = true) ∧
        digits.foldl (fun n b => 10 * n + (b.toNat - 48)) m = n ∧ n < bound := by
  induction digits generalizing m with
  | nil =>
      simp only [List.foldlM_nil, Option.pure_def, Option.some.injEq, List.not_mem_nil,
        List.foldl_nil]
      constructor
      · rintro rfl
        exact ⟨by simp, rfl, hm⟩
      · exact fun h => h.2.1
  | cons b digits ih =>
      rw [List.foldlM_cons, List.foldl_cons, List.forall_mem_cons, pushDigit]
      by_cases hb : Clib.isDigit b = true
      · by_cases hnext : 10 * m + (b.toNat - 48) < bound
        · rw [if_pos hb, if_pos hnext]
          exact (ih hnext).trans (by simp [hb])
        · have hle := le_foldl_digits digits (10 * m + (b.toNat - 48))
          rw [if_pos hb, if_neg hnext]
          simp only [Option.bind_eq_bind, Option.bind_none, reduceCtorEq, false_iff]
          omega
      · rw [if_neg hb]
        simp [hb]

/-- What is parsed is a numeral below the bound. -/
theorem parseUnsigned_iff {bound : Nat} (hbound : 0 < bound) {s : Bytes} {n : Nat} :
    parseUnsigned bound s = some n ↔ Numeral s n ∧ n < bound := by
  have hvalue : ∀ digits : Bytes, digits.foldlM (pushDigit bound) 0 = some n ↔
      (∀ b ∈ digits, Clib.isDigit b = true) ∧ Clib.digitsValue digits = n ∧ n < bound :=
    fun digits => foldlM_pushDigit hbound
  have hsign : Clib.isDigit 43 = false := by decide
  unfold parseUnsigned Numeral
  by_cases hplus : s.head? = some 43
  · rcases List.head?_eq_some_iff.mp hplus with ⟨digits, rfl⟩
    simp only [List.head?_cons, if_true, List.drop_succ_cons, List.drop_zero]
    constructor
    · intro h
      split at h
      case isTrue => cases h
      case isFalse hne =>
        rcases (hvalue digits).mp h with ⟨hdigits, hn, hlt⟩
        exact ⟨⟨digits, hne, Or.inr rfl, hdigits, hn⟩, hlt⟩
    · rintro ⟨⟨digits', hne, heq, hdigits, hn⟩, hlt⟩
      rcases heq with rfl | heq
      · -- A plus sign is no digit.
        exact absurd (hdigits 43 List.mem_cons_self) (by simp [hsign])
      · cases heq
        rw [if_neg hne]
        exact (hvalue digits).mpr ⟨hdigits, hn, hlt⟩
  · simp only [if_neg hplus]
    constructor
    · intro h
      split at h
      case isTrue => cases h
      case isFalse hne =>
        rcases (hvalue s).mp h with ⟨hdigits, hn, hlt⟩
        exact ⟨⟨s, hne, Or.inl rfl, hdigits, hn⟩, hlt⟩
    · rintro ⟨⟨digits', hne, heq, hdigits, hn⟩, hlt⟩
      rcases heq with rfl | rfl
      · rw [if_neg hne]
        exact (hvalue s).mpr ⟨hdigits, hn, hlt⟩
      · exact absurd rfl hplus

/-- A numeral has one value. -/
theorem Numeral.unique {s : Bytes} {m n : Nat} (hm : Numeral s m) (hn : Numeral s n) : m = n := by
  have hbound : 0 < max m n + 1 := by omega
  have hparse := (parseUnsigned_iff hbound).mpr ⟨hm, by omega⟩
  exact Option.some.inj (hparse.symm.trans ((parseUnsigned_iff hbound).mpr ⟨hn, by omega⟩))

/-- A numeral in range is read whatever stands in for it otherwise. -/
theorem Numeral.read {bound : Nat} {s : Bytes} {n : Nat} (h : Numeral s n) (hlt : n < bound)
    (otherwise : Nat) : (parseUnsigned bound s).getD otherwise = n := by
  rw [(parseUnsigned_iff (by omega)).mpr ⟨h, hlt⟩]
  rfl

/-- The numeral that a number is written as. -/
theorem numeral_repr (n : Nat) : Numeral (bytes n.repr) n := by
  obtain ⟨hdigits, hvalue, hne, -⟩ := Clib.digits_repr n
  exact ⟨bytes n.repr, hne, Or.inl rfl, List.all_eq_true.mp hdigits, hvalue⟩

/-- Characters of ASCII are encoded by one byte. -/
theorem flatMap_utf8EncodeChar {chars : List Char} (h : ∀ c ∈ chars, c.toNat ≤ 127) :
    chars.flatMap String.utf8EncodeChar = chars.map fun c => UInt8.ofNat c.toNat := by
  induction chars with
  | nil => rfl
  | cons c chars ih =>
      rw [List.forall_mem_cons] at h
      have hchar : String.utf8EncodeChar c = [UInt8.ofNat c.toNat] := if_pos h.1
      rw [List.flatMap_cons, hchar, ih h.2]
      rfl

/-- ASCII text is UTF-8. -/
theorem isUtf8_bytes {s : String} (h : ∀ c ∈ s.toList, c.toNat ≤ 127) :
    isUtf8 (bytes s) = true := by
  rw [isUtf8, ByteArray.validateUTF8_eq_true_iff]
  refine ⟨s.toList, ?_⟩
  rw [List.utf8Encode, flatMap_utf8EncodeChar h, bytes]
  exact ByteArray.ext List.data_toByteArray.symm

/-- A decimal numeral is valid UTF-8. -/
theorem isUtf8_repr (n : Nat) : isUtf8 (bytes n.repr) = true := by
  apply isUtf8_bytes
  intro c hc
  rw [Nat.toList_repr] at hc
  have hdigit : c.isDigit = true := Nat.isDigit_of_mem_toDigits (by decide) (by decide) hc
  rw [Char.isDigit, Bool.and_eq_true, decide_eq_true_eq, decide_eq_true_eq] at hdigit
  have hhigh : c.toNat ≤ 57 := hdigit.2
  omega

end Rust

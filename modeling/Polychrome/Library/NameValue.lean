import Polychrome.Library.FastCgi

/-!
# The streams of a FastCGI request

The parameters of a request are pairs of a name and a value, each behind its length;
a length is one byte or four.  A stream is sent in slices and ended by an empty record.

Main results:

- Theorem {lit}`flatten_slices`: the slices of a stream put it together.
- Theorem {lit}`decodePairs_pairs`: pairs are read back from their bytes.
-/

namespace FastCgi

/-! ## Slices -/

/-- {lit}`s[start:start + size]` for every {lit}`start` in {lit}`range(0, len(s), size)`. -/
def slices (size : Nat) (s : Bytes) : List Bytes :=
  (List.range ((s.length + size - 1) / size)).map fun i => (s.drop (size * i)).take size

/-- The first slices make the beginning. -/
theorem flatten_range_slices (size : Nat) (s : Bytes) (n : Nat) :
    ((List.range n).map fun i => (s.drop (size * i)).take size).flatten = s.take (size * n) := by
  induction n with
  | zero => simp
  | succ n ih =>
      rw [List.range_succ, List.map_append, List.flatten_append, ih, Nat.mul_succ, List.take_add]
      simp

/-- All slices together are the whole. -/
theorem flatten_slices {size : Nat} (hsize : 0 < size) (s : Bytes) :
    (slices size s).flatten = s := by
  rw [slices, flatten_range_slices]
  apply List.take_of_length_le
  have hround := Nat.div_add_mod (s.length + size - 1) size
  have hmod := Nat.mod_lt (s.length + size - 1) hsize
  omega

/-- A slice is neither empty nor longer than its size. -/
theorem length_of_mem_slices {size : Nat} (hsize : 0 < size) {s slice : Bytes}
    (h : slice ∈ slices size s) : slice ≠ [] ∧ slice.length ≤ size := by
  rcases List.mem_map.mp h with ⟨i, hi, rfl⟩
  rw [List.mem_range] at hi
  have hstart : size * i < s.length := by
    have hle : size * (i + 1) ≤ s.length + size - 1 := by
      rw [Nat.mul_comm]
      exact (Nat.le_div_iff_mul_le hsize).mp hi
    rw [Nat.mul_succ] at hle
    omega
  constructor
  · apply List.ne_nil_of_length_pos
    rw [List.length_take, List.length_drop]
    omega
  · exact List.length_take_le _ _

/-! ## Lengths -/

/-- A number of four bytes, the high byte first. -/
def bytes32 (n : Nat) : Bytes :=
  [UInt8.ofNat (n / 2 ^ 24), UInt8.ofNat (n / 2 ^ 16), UInt8.ofNat (n / 2 ^ 8), UInt8.ofNat n]

/-- A length: one byte, or four with the highest bit set. -/
def lengthBytes (n : Nat) : Bytes :=
  if n < 128 then [UInt8.ofNat n] else bytes32 (n + 2 ^ 31)

/-- A length of four bytes whose first byte is {lit}`b`. -/
def readLong (b : UInt8) : Bytes → Option (Nat × Bytes)
  | b₂ :: b₁ :: b₀ :: s =>
      some (2 ^ 24 * (b.toNat % 128) + 2 ^ 16 * b₂.toNat + 2 ^ 8 * b₁.toNat + b₀.toNat, s)
  | _ => none

/-- A length and what is behind it. -/
def readLength : Bytes → Option (Nat × Bytes)
  | [] => none
  | b :: s => if b < 128 then some (b.toNat, s) else readLong b s

/-- A length is read back. -/
theorem readLength_lengthBytes {n : Nat} (h : n < 2 ^ 31) (s : Bytes) :
    readLength (lengthBytes n ++ s) = some (n, s) := by
  rw [lengthBytes]
  by_cases hshort : n < 128
  · have hbyte : (UInt8.ofNat n).toNat = n := by
      rw [UInt8.toNat_ofNat']
      omega
    have hlt : UInt8.ofNat n < 128 := by
      rw [UInt8.lt_iff_toNat_lt, hbyte]
      exact hshort
    rw [if_pos hshort, List.singleton_append, readLength, if_pos hlt, hbyte]
  · have hhigh : (UInt8.ofNat ((n + 2 ^ 31) / 2 ^ 24)).toNat = n / 2 ^ 24 + 128 := by
      rw [UInt8.toNat_ofNat']
      omega
    have hlong : ¬ UInt8.ofNat ((n + 2 ^ 31) / 2 ^ 24) < 128 := by
      rw [UInt8.lt_iff_toNat_lt, hhigh]
      exact not_lt.mpr (Nat.le_add_left 128 _)
    simp only [if_neg hshort, bytes32, List.cons_append, List.nil_append, readLength, if_neg hlong,
      readLong, hhigh, UInt8.toNat_ofNat']
    congr 2
    omega

/-! ## Pairs -/

/-- A pair as it is sent. -/
def pairBytes (pair : Bytes × Bytes) : Bytes :=
  lengthBytes pair.1.length ++ lengthBytes pair.2.length ++ pair.1 ++ pair.2

/-- The bytes that a length announces. -/
def readCount (n : Nat) (s : Bytes) : Option (Bytes × Bytes) :=
  if n ≤ s.length then some (s.take n, s.drop n) else none

def readPair (s : Bytes) : Option ((Bytes × Bytes) × Bytes) := do
  let (nameLength, s) ← readLength s
  let (valueLength, s) ← readLength s
  let (name, s) ← readCount nameLength s
  let (value, s) ← readCount valueLength s
  return ((name, value), s)

/-- The pairs of a stream, with a bound on their number. -/
def readPairs : Nat → Bytes → Option (List (Bytes × Bytes))
  | 0, s => if s = [] then some [] else none
  | fuel + 1, s =>
      if s = [] then some []
      else do
        let (pair, s) ← readPair s
        let pairs ← readPairs fuel s
        return pair :: pairs

/-- The pairs of a stream; each of them has two bytes at least. -/
def decodePairs (s : Bytes) : Option (List (Bytes × Bytes)) := readPairs s.length s

/-- As many bytes are read as are counted. -/
theorem readCount_append (t s : Bytes) : readCount t.length (t ++ s) = some (t, s) := by
  rw [readCount, if_pos (by simp), List.take_left, List.drop_left]

/-- The name and the value have lengths that can be sent. -/
def LengthsFit (pair : Bytes × Bytes) : Prop := pair.1.length < 2 ^ 31 ∧ pair.2.length < 2 ^ 31

/-- A pair is read back. -/
theorem readPair_pairBytes {pair : Bytes × Bytes} (h : LengthsFit pair) (s : Bytes) :
    readPair (pairBytes pair ++ s) = some (pair, s) := by
  rw [pairBytes, List.append_assoc, List.append_assoc, List.append_assoc, readPair,
    readLength_lengthBytes h.1]
  dsimp only [bind, Option.bind]
  rw [readLength_lengthBytes h.2]
  dsimp only
  rw [readCount_append]
  dsimp only
  rw [readCount_append]
  rfl

/-- No pair is empty on the wire. -/
theorem pairBytes_ne_nil (pair : Bytes × Bytes) : pairBytes pair ≠ [] := by
  have hlength : ∀ n, lengthBytes n ≠ [] := by
    intro n
    rw [lengthBytes]
    split <;> exact List.cons_ne_nil _ _
  simp [pairBytes, hlength]

/-- A list of pairs is read back in its order. -/
theorem readPairs_pairs {pairs : List (Bytes × Bytes)} (h : ∀ pair ∈ pairs, LengthsFit pair)
    {fuel : Nat} (hfuel : pairs.length ≤ fuel) :
    readPairs fuel (pairs.flatMap pairBytes) = some pairs := by
  induction pairs generalizing fuel with
  | nil => cases fuel <;> rfl
  | cons pair pairs ih =>
      rw [List.forall_mem_cons] at h
      obtain ⟨fuel, rfl⟩ : ∃ n, fuel = n + 1 := by
        refine ⟨fuel - 1, ?_⟩
        rw [List.length_cons] at hfuel
        omega
      have hne : pairBytes pair ++ pairs.flatMap pairBytes ≠ [] :=
        List.append_ne_nil_of_left_ne_nil (pairBytes_ne_nil pair) _
      rw [List.flatMap_cons, readPairs, if_neg hne, readPair_pairBytes h.1]
      dsimp only [bind, Option.bind]
      rw [ih h.2 (Nat.le_of_succ_le_succ hfuel)]
      rfl

/-- Pairs are read back from their bytes. -/
theorem decodePairs_pairs {pairs : List (Bytes × Bytes)} (h : ∀ pair ∈ pairs, LengthsFit pair) :
    decodePairs (pairs.flatMap pairBytes) = some pairs := by
  refine readPairs_pairs h ?_
  clear h
  induction pairs with
  | nil => exact Nat.zero_le _
  | cons pair pairs ih =>
      have hpos := List.length_pos_iff.mpr (pairBytes_ne_nil pair)
      rw [List.flatMap_cons, List.length_append, List.length_cons]
      omega

end FastCgi

import Polychrome.Library.Bytes

/-!
# FastCGI records

A record is a header of eight bytes, a content and a padding.  The header holds the
lengths of both, so a sequence of records can be read back from its bytes.

Main results:

- Theorems {lit}`pair_bytes16` and {lit}`bytes16_pair`: numbers of two bytes.
- Theorem {lit}`unpack_head`: a header is read back, and nothing else is read.
-/

namespace FastCgi

/-! ## Numbers of two bytes -/

/-- A number of two bytes, the high byte first. -/
def bytes16 (n : Nat) : Bytes := [UInt8.ofNat (n / 256), UInt8.ofNat (n % 256)]

/-- The number that two bytes stand for. -/
def pair (high low : UInt8) : Nat := 256 * high.toNat + low.toNat

/-- Two bytes make a number of sixteen bits. -/
theorem pair_lt (high low : UInt8) : pair high low < 2 ^ 16 := by
  have hhigh := high.toNat_lt
  have hlow := low.toNat_lt
  rw [pair]
  omega

/-- The number is put together from its two bytes. -/
theorem pair_ofNat {n : Nat} (h : n < 2 ^ 16) :
    pair (UInt8.ofNat (n / 256)) (UInt8.ofNat (n % 256)) = n := by
  rw [pair, UInt8.toNat_ofNat', UInt8.toNat_ofNat']
  omega

/-- Two bytes are read off their number. -/
theorem bytes16_pair (high low : UInt8) : bytes16 (pair high low) = [high, low] := by
  have hhigh : pair high low / 256 = high.toNat := by
    have hlow := low.toNat_lt
    rw [pair]
    omega
  have hlow : pair high low % 256 = low.toNat := by
    have hlow := low.toNat_lt
    rw [pair]
    omega
  rw [bytes16, hhigh, hlow, UInt8.ofNat_toNat, UInt8.ofNat_toNat]

/-! ## Records -/

/-- What a header says. -/
structure Header where
  version : UInt8
  kind : UInt8
  requestId : Nat
  length : Nat
  padding : UInt8
  reserved : UInt8
deriving DecidableEq, Repr

/-- {lit}`struct.unpack("!BBHHBB", ...)` -/
def unpack : Bytes → Option Header
  | [version, kind, id₁, id₀, length₁, length₀, padding, reserved] =>
      some
        { version := version
          kind := kind
          requestId := pair id₁ id₀
          length := pair length₁ length₀
          padding := padding
          reserved := reserved }
  | _ => none

/-- {lit}`struct.pack("!BBHHBB", ...)` -/
def Header.pack (header : Header) : Bytes :=
  [header.version, header.kind] ++ bytes16 header.requestId ++ bytes16 header.length ++
    [header.padding, header.reserved]

/-- A record, whose lengths fit into its header. -/
structure Record where
  version : UInt8
  kind : UInt8
  requestId : Nat
  content : Bytes
  padding : Bytes
  reserved : UInt8
  requestId_lt : requestId < 2 ^ 16
  content_lt : content.length < 2 ^ 16
  padding_lt : padding.length < 2 ^ 8

/-- The header of a record. -/
def Record.header (record : Record) : Header where
  version := record.version
  kind := record.kind
  requestId := record.requestId
  length := record.content.length
  padding := UInt8.ofNat record.padding.length
  reserved := record.reserved

/-- The header of a record as it is sent. -/
def Record.head (record : Record) : Bytes := record.header.pack

/-- A record as it is sent. -/
def Record.wire (record : Record) : Bytes := record.head ++ record.content ++ record.padding

/-- A header that is packed is unpacked. -/
theorem unpack_pack {header : Header} (hid : header.requestId < 2 ^ 16)
    (hlength : header.length < 2 ^ 16) : unpack header.pack = some header := by
  simp only [Header.pack, bytes16, List.cons_append, List.nil_append, unpack, pair_ofNat hid,
    pair_ofNat hlength]

/-- The header of a record is read back. -/
theorem unpack_head (record : Record) : unpack record.head = some record.header :=
  unpack_pack record.requestId_lt record.content_lt

/-- A header has eight bytes. -/
@[simp]
theorem length_head (record : Record) : record.head.length = 8 :=
  rfl

/-- The length of the padding fits its byte. -/
theorem padding_toNat (record : Record) :
    record.header.padding.toNat = record.padding.length := by
  rw [Record.header, UInt8.toNat_ofNat']
  exact Nat.mod_eq_of_lt record.padding_lt

/-- What unpacks is a packed header. -/
theorem pack_of_unpack {head : Bytes} {header : Header} (h : unpack head = some header) :
    head = header.pack ∧ header.requestId < 2 ^ 16 ∧ header.length < 2 ^ 16 := by
  unfold unpack at h
  split at h
  · cases h
    refine ⟨?_, pair_lt _ _, pair_lt _ _⟩
    simp only [Header.pack, bytes16_pair, List.cons_append, List.nil_append]
  · cases h

/-- Eight bytes always unpack. -/
theorem unpack_isSome {head : Bytes} (h : head.length = 8) :
    ∃ header, unpack head = some header := by
  match head, h with
  | [_, _, _, _, _, _, _, _], _ => exact ⟨_, rfl⟩

/-- The record with a header and what follows it. -/
theorem exists_record {header : Header} {content padding : Bytes}
    (hid : header.requestId < 2 ^ 16) (hlength : content.length = header.length)
    (hlt : header.length < 2 ^ 16) (hpadding : padding.length = header.padding.toNat) :
    ∃ record : Record, record.header = header ∧ record.content = content ∧
      record.padding = padding := by
  have hpadding' : padding.length < 2 ^ 8 := hpadding ▸ header.padding.toNat_lt
  refine ⟨{
    version := header.version
    kind := header.kind
    requestId := header.requestId
    content := content
    padding := padding
    reserved := header.reserved
    requestId_lt := hid
    content_lt := hlength ▸ hlt
    padding_lt := hpadding' }, ?_, rfl, rfl⟩
  rcases header with ⟨version, kind, requestId, length, paddingLength, reserved⟩
  simp only [Record.header, hlength, hpadding, UInt8.ofNat_toNat]

/-! ## Streams of records -/

/-- The content of the records of a kind. -/
def ofKind (kind : UInt8) (records : List Record) : Bytes :=
  (records.filter fun record => record.kind == kind).flatMap Record.content

/-- Without records there is no content. -/
@[simp]
theorem ofKind_nil (kind : UInt8) : ofKind kind [] = [] :=
  rfl

/-- A record adds its content to the stream of its type. -/
theorem ofKind_cons (kind : UInt8) (record : Record) (records : List Record) :
    ofKind kind (record :: records) =
      (if record.kind = kind then record.content else []) ++ ofKind kind records := by
  by_cases h : record.kind = kind
  · simp [ofKind, h]
  · simp [ofKind, h]

/-- Streams are continued record by record. -/
theorem ofKind_append (kind : UInt8) (records records' : List Record) :
    ofKind kind (records ++ records') = ofKind kind records ++ ofKind kind records' := by
  simp [ofKind]

/-- Records of one kind carry all of their contents for it. -/
theorem ofKind_of_forall {kind : UInt8} {records : List Record}
    (h : ∀ record ∈ records, record.kind = kind) :
    ofKind kind records = records.flatMap Record.content := by
  rw [ofKind, List.filter_eq_self.mpr fun record hmem => beq_iff_eq.mpr (h record hmem)]

/-- Records of other kinds carry nothing for it. -/
theorem ofKind_of_ne {kind : UInt8} {records : List Record}
    (h : ∀ record ∈ records, record.kind ≠ kind) : ofKind kind records = [] := by
  rw [ofKind, List.filter_eq_nil_iff.mpr fun record hmem => by simpa using h record hmem]
  rfl

end FastCgi

import Polychrome.Client.Receive
import Polychrome.Library.NameValue

/-!
# Sending a request

This module embeds {lit}`record`, {lit}`encode_params` and what {lit}`request` sends in
{lit}`tests/fcgi.py`.

Main results:

- Definition {lit}`requestWire`: the bytes of a request.
- Theorem {lit}`request_sent_whole`: the bytes are the records of a request, and what
  they carry is the environment and the body.

Current gaps:

- {lit}`None` stands for {lit}`struct.error`; the defaults of the environment are left
  out.
-/

namespace Polychrome

namespace Client

open FastCgi

/-! ## The encoding -/

/-- {lit}`record(kind, data)` -/
def record (kind : UInt8) (data : Bytes) : Option Bytes :=
  if data.length < 2 ^ 16 then
    some (Header.pack
      { version := 1
        kind := kind
        requestId := 1
        length := data.length
        padding := 0
        reserved := 0 } ++ data)
  else none

/-- {lit}`bytes([length]) if length < 128 else struct.pack("!I", length | 0x80000000)` -/
def packLength (length : Nat) : Option Bytes :=
  if length < 128 then some [UInt8.ofNat length]
  else
    let marked := length ||| 0x80000000
    if marked < 2 ^ 32 then some (bytes32 marked) else none

/-- {lit}`encode_params` -/
def encodeParams : List (Bytes × Bytes) → Option Bytes
  | [] => some []
  | (key, value) :: params => do
      let keyLength ← packLength key.length
      let valueLength ← packLength value.length
      let rest ← encodeParams params
      return keyLength ++ valueLength ++ key ++ value ++ rest

/-- {lit}`sock.sendall(record(kind, ...))` for the slices of a stream, and its end. -/
def sendStream (kind : UInt8) (stream : Bytes) : Option Bytes := do
  let records ← (slices 65535 stream).mapM (record kind)
  let last ← record kind []
  return records.flatten ++ last

/-- {lit}`struct.pack("!HB5x", 1, int(keep))` -/
def beginning (keep : Bool) : Bytes := [0, 1, if keep then 1 else 0, 0, 0, 0, 0, 0]

/-- What {lit}`request` sends. -/
def requestWire (keep : Bool) (env : List (Bytes × Bytes)) (body : Bytes) : Option Bytes := do
  let begun ← record 1 (beginning keep)
  let encoded ← encodeParams env
  let params ← sendStream 4 encoded
  let stdin ← sendStream 5 body
  return begun ++ params ++ stdin

/-! ## What is sent -/

/-- A length that fits is packed as the protocol writes it. -/
theorem packLength_eq {n : Nat} (h : n < 2 ^ 31) : packLength n = some (lengthBytes n) := by
  have hmarked : n ||| 0x80000000 = n + 2 ^ 31 := by
    have hor := Nat.two_pow_add_eq_or_of_lt h 1
    rw [Nat.mul_one] at hor
    rw [Nat.or_comm, Nat.add_comm]
    exact hor.symm
  rw [packLength, lengthBytes]
  by_cases hshort : n < 128
  · rw [if_pos hshort, if_pos hshort]
  · rw [if_neg hshort, if_neg hshort]
    dsimp only
    rw [hmarked, if_pos (by omega)]

/-- A whole environment is encoded if its lengths fit. -/
theorem encodeParams_eq {env : List (Bytes × Bytes)} (h : ∀ pair ∈ env, LengthsFit pair) :
    encodeParams env = some (env.flatMap pairBytes) := by
  induction env with
  | nil => rfl
  | cons pair env ih =>
      rw [List.forall_mem_cons] at h
      rcases pair with ⟨key, value⟩
      rw [encodeParams, packLength_eq h.1.1, packLength_eq h.1.2, ih h.2]
      rfl

/-- The record of the request with a kind and a content. -/
def plainRecord (kind : UInt8) (content : Bytes) (h : content.length < 2 ^ 16) : Record where
  version := 1
  kind := kind
  requestId := 1
  content := content
  padding := []
  reserved := 0
  requestId_lt := by decide
  content_lt := h
  padding_lt := by decide

/-- What {lit}`record` packs is one record of the wanted type. -/
theorem record_eq (kind : UInt8) {data : Bytes} (h : data.length < 2 ^ 16) :
    ∃ r : Record, record kind data = some r.wire ∧ (Expected r ∧ r.kind = kind) ∧
      r.content = data := by
  refine ⟨plainRecord kind data h, ?_, ⟨⟨rfl, rfl⟩, rfl⟩, rfl⟩
  rw [record, if_pos h, Record.wire]
  exact congrArg some (List.append_nil _).symm

/-- The records of one stream: contents that are not empty, and then one that is. -/
structure IsStream (kind : UInt8) (stream : Bytes) (records : List Record) : Prop where
  expected : ∀ record ∈ records, Expected record ∧ record.kind = kind
  ended : ∃ slices last, records = slices ++ [last] ∧ last.content = [] ∧
    (∀ record ∈ slices, record.content ≠ []) ∧ slices.flatMap Record.content = stream

/-- A stream carries its bytes under its kind. -/
theorem IsStream.ofKind_self {kind : UInt8} {stream : Bytes} {records : List Record}
    (h : IsStream kind stream records) : ofKind kind records = stream := by
  rcases h.ended with ⟨slices, last, rfl, hlast, -, hstream⟩
  rw [ofKind_of_forall fun record hmem => (h.expected record hmem).2, List.flatMap_append, hstream,
    List.flatMap_singleton, hlast, List.append_nil]

/-- A stream has no records of another type. -/
theorem IsStream.ofKind_ne {kind kind' : UInt8} {stream : Bytes} {records : List Record}
    (h : IsStream kind stream records) (hne : kind ≠ kind') : ofKind kind' records = [] :=
  ofKind_of_ne fun record hmem => (h.expected record hmem).2 ▸ hne

/-- What is packed piece by piece is a list of such records. -/
theorem mapM_record (kind : UInt8) {contents : List Bytes}
    (h : ∀ content ∈ contents, content.length < 2 ^ 16) :
    ∃ records : List Record, contents.mapM (record kind) = some (records.map Record.wire) ∧
      records.map Record.content = contents ∧
      ∀ record ∈ records, Expected record ∧ record.kind = kind := by
  induction contents with
  | nil => exact ⟨[], rfl, rfl, by simp⟩
  | cons content contents ih =>
      rw [List.forall_mem_cons] at h
      obtain ⟨records, hwire, hcontent, hexpected⟩ := ih h.2
      obtain ⟨first, hfirst, hkind, hdata⟩ := record_eq kind h.1
      refine ⟨first :: records, ?_, ?_, ?_⟩
      · rw [List.mapM_cons, hfirst, hwire]
        rfl
      · rw [List.map_cons, hcontent, hdata]
      · rw [List.forall_mem_cons]
        exact ⟨hkind, hexpected⟩

/-- A stream is sent whole, and only its end is an empty record. -/
theorem sendStream_eq (kind : UInt8) (stream : Bytes) :
    ∃ records, sendStream kind stream = some (records.flatMap Record.wire) ∧
      IsStream kind stream records := by
  have hslices : ∀ slice ∈ slices 65535 stream, slice ≠ [] ∧ slice.length < 2 ^ 16 := by
    intro slice hmem
    have hslice := length_of_mem_slices (by omega) hmem
    exact ⟨hslice.1, by omega⟩
  obtain ⟨records, hwire, hcontent, hexpected⟩ :=
    mapM_record kind fun slice hmem => (hslices slice hmem).2
  have hnone : ([] : Bytes).length < 2 ^ 16 := Nat.two_pow_pos 16
  obtain ⟨last, hlast, hkind, hempty⟩ := record_eq kind hnone
  refine ⟨records ++ [last], ?_, ?_, records, last, rfl, hempty, ?_, ?_⟩
  · rw [sendStream, hwire, hlast]
    simp [List.flatMap_def]
  · intro record hmem
    rcases List.mem_append.mp hmem with hmem | hmem
    · exact hexpected record hmem
    · rw [List.mem_singleton.mp hmem]
      exact hkind
  · intro record hmem
    exact (hslices _ (hcontent ▸ List.mem_map_of_mem hmem)).1
  · rw [List.flatMap_def, hcontent, flatten_slices (by omega)]

/-- A request is what its three parts are. -/
theorem requestWire_eq {keep : Bool} {env : List (Bytes × Bytes)} {body encoded : Bytes}
    {begun : Record} {params stdin : List Record}
    (hbegun : record 1 (beginning keep) = some begun.wire)
    (hencoded : encodeParams env = some encoded)
    (hparams : sendStream 4 encoded = some (params.flatMap Record.wire))
    (hstdin : sendStream 5 body = some (stdin.flatMap Record.wire)) :
    requestWire keep env body = some ((begun :: params ++ stdin).flatMap Record.wire) := by
  rw [requestWire, List.flatMap_append, List.flatMap_cons]
  refine Option.bind_eq_some_iff.mpr ⟨_, hbegun, ?_⟩
  refine Option.bind_eq_some_iff.mpr ⟨_, hencoded, ?_⟩
  refine Option.bind_eq_some_iff.mpr ⟨_, hparams, ?_⟩
  exact Option.bind_eq_some_iff.mpr ⟨_, hstdin, rfl⟩

/-- Whatever the environment and the body are, what is sent is the beginning of a request
and two streams; the parameters are read back from the first one, and the second one is
the body. -/
theorem request_sent_whole (keep : Bool) (env : List (Bytes × Bytes)) (body : Bytes)
    (henv : ∀ pair ∈ env, LengthsFit pair) :
    ∃ begun params stdin encoded, requestWire keep env body =
        some ((begun :: params ++ stdin).flatMap Record.wire) ∧
      Expected begun ∧ begun.kind = 1 ∧
      begun.content = beginning keep ∧
      IsStream 4 encoded params ∧ decodePairs encoded = some env ∧ IsStream 5 body stdin := by
  have hlength : (beginning keep).length < 2 ^ 16 := by
    simp [beginning]
  obtain ⟨begun, hbegun, ⟨hexpected, hkind⟩, hcontent⟩ := record_eq 1 hlength
  obtain ⟨params, hparams, hparamsStream⟩ := sendStream_eq 4 (env.flatMap pairBytes)
  obtain ⟨stdin, hstdin, hstdinStream⟩ := sendStream_eq 5 body
  exact ⟨begun, params, stdin, env.flatMap pairBytes,
    requestWire_eq hbegun (encodeParams_eq henv) hparams hstdin, hexpected, hkind, hcontent,
    hparamsStream, decodePairs_pairs henv, hstdinStream⟩

/-- A request with one parameter and a body. -/
theorem request_sent_whole_sample :
    ∃ begun params stdin encoded,
      requestWire false [(bytes "REQUEST_METHOD", bytes "GET")] (bytes "body") =
        some ((begun :: params ++ stdin).flatMap Record.wire) ∧
      IsStream 4 encoded params ∧ IsStream 5 (bytes "body") stdin := by
  obtain ⟨begun, params, stdin, encoded, hwire, -, -, -, hparams, -, hstdin⟩ :=
    request_sent_whole false [(bytes "REQUEST_METHOD", bytes "GET")] (bytes "body")
      (by simpa [LengthsFit] using ⟨by decide, by decide⟩)
  exact ⟨begun, params, stdin, encoded, hwire, hparams, hstdin⟩

end Client

end Polychrome

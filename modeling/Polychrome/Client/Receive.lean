import Polychrome.Library.Arrivals
import Polychrome.Library.Collecting
import Polychrome.Library.FastCgi

/-!
# Receiving records

This module embeds {lit}`receive_exact` and the loop of {lit}`receive_response` in
{lit}`tests/fcgi.py`.  The bytes of the connection arrive in pieces of any size.

Main results:

- Theorems {lit}`receiveExact_append` and {lit}`receiveExact_exact`: the count asked for
  is received, however the bytes arrive.
- Theorem {lit}`receiveRecords_iff`: what is received is what the records carry.

Current gaps:

- The time limit of the socket is left out.
-/

namespace Polychrome

namespace Client

open FastCgi Stream

/-- How {lit}`receive_response` fails. -/
inductive Failure
  /-- {lit}`EOFError` -/
  | endOfFile
  /-- {lit}`ValueError("Unexpected FastCGI record")` -/
  | unexpectedRecord
  /-- {lit}`UnicodeDecodeError` -/
  | undecodable
  /-- {lit}`IndexError` or {lit}`ValueError` at the status -/
  | badStatus
deriving DecidableEq, Repr

/-! ## Counts of bytes -/

/-- The loop of {lit}`receive_exact`, with a bound on its turns. -/
def receiveFrom (length : Nat) : Nat → Bytes → Arrivals → Except Failure (Bytes × Arrivals)
  | 0, result, sock => .ok (result, sock)
  | fuel + 1, result, sock =>
      if result.length < length then
        let part := recv (length - result.length) sock
        if part.1 = [] then .error .endOfFile
        else receiveFrom length fuel (result ++ part.1) part.2
      else .ok (result, sock)

/-- {lit}`receive_exact`; a turn that does not fail receives a byte. -/
def receiveExact (sock : Arrivals) (length : Nat) : Except Failure (Bytes × Arrivals) :=
  receiveFrom length length [] sock

/-- What the loop comes to from where it stands. -/
theorem receiveFrom_spec {length fuel : Nat} {result : Bytes} {sock : Arrivals}
    (hfuel : length ≤ result.length + fuel) (hle : result.length ≤ length) :
    (∃ data rest, receiveFrom length fuel result sock = .ok (result ++ data, rest) ∧
      content sock = data ++ content rest ∧ (result ++ data).length = length) ∨
    (receiveFrom length fuel result sock = .error .endOfFile ∧
      result.length + (content sock).length < length) := by
  induction fuel generalizing result sock with
  | zero =>
      refine Or.inl ⟨[], sock, by rw [receiveFrom, List.append_nil], rfl, ?_⟩
      rw [List.append_nil]
      omega
  | succ fuel ih =>
      rw [receiveFrom]
      by_cases hlt : result.length < length
      · rw [if_pos hlt]
        dsimp only
        have hpart := recv_append (length - result.length) sock
        have hshort := length_recv_le (length - result.length) sock
        have hsome : content sock ≠ [] → (recv (length - result.length) sock).1 ≠ [] :=
          recv_ne_nil (by omega)
        generalize recv (length - result.length) sock = part at hpart hshort hsome
        by_cases hnone : part.1 = []
        · rw [if_pos hnone]
          refine Or.inr ⟨rfl, ?_⟩
          have hover : content sock = [] := by
            by_contra hmore
            exact hsome hmore hnone
          rw [hover, List.length_nil, Nat.add_zero]
          exact hlt
        · rw [if_neg hnone]
          have hpos := List.length_pos_iff.mpr hnone
          have hfuel' : length ≤ (result ++ part.1).length + fuel := by
            rw [List.length_append]
            omega
          have hle' : (result ++ part.1).length ≤ length := by
            rw [List.length_append]
            omega
          rcases @ih (result ++ part.1) part.2 hfuel' hle' with
            ⟨data, rest, hok, hrest, hlength⟩ | ⟨herror, hover⟩
          · refine Or.inl ⟨part.1 ++ data, rest, ?_, ?_, ?_⟩
            · rw [hok, List.append_assoc]
            · rw [← hpart, hrest, List.append_assoc]
            · rwa [← List.append_assoc]
          · refine Or.inr ⟨herror, ?_⟩
            rw [← hpart, List.length_append]
            rw [List.length_append] at hover
            omega
      · rw [if_neg hlt]
        refine Or.inl ⟨[], sock, by rw [List.append_nil], rfl, ?_⟩
        rw [List.append_nil]
        omega

/-- As many bytes as are asked for, or too few have arrived. -/
theorem receiveExact_spec (sock : Arrivals) (length : Nat) :
    (∃ data rest, receiveExact sock length = .ok (data, rest) ∧
      content sock = data ++ content rest ∧ data.length = length) ∨
    (receiveExact sock length = .error .endOfFile ∧ (content sock).length < length) := by
  have hspec : _ ∨ _ := @receiveFrom_spec length length [] sock (by simp) (by simp)
  simpa [receiveExact] using hspec

/-- What is there is received. -/
theorem receiveExact_append {sock : Arrivals} {data tail : Bytes} {length : Nat}
    (h : content sock = data ++ tail) (hlength : data.length = length) :
    ∃ rest, receiveExact sock length = .ok (data, rest) ∧ content rest = tail := by
  rcases receiveExact_spec sock length with ⟨data', rest, hok, hrest, hlength'⟩ | ⟨-, hover⟩
  · rw [h] at hrest
    obtain ⟨rfl, rfl⟩ := List.append_inj hrest (hlength.trans hlength'.symm)
    exact ⟨rest, hok, rfl⟩
  · rw [h, List.length_append] at hover
    omega

/-- Nothing else is received. -/
theorem receiveExact_exact {sock rest : Arrivals} {data : Bytes} {length : Nat}
    (h : receiveExact sock length = .ok (data, rest)) :
    content sock = data ++ content rest ∧ data.length = length := by
  rcases receiveExact_spec sock length with ⟨data', rest', hok, hrest, hlength⟩ | ⟨herror, -⟩
  · rw [hok] at h
    cases h
    exact ⟨hrest, hlength⟩
  · rw [herror] at h
    cases h

/-! ## Records -/

/-- What a turn of the loop in {lit}`receive_response` leads to. -/
inductive Turn
  | again (output errors : Bytes) (sock : Arrivals)
  | over (output errors : Bytes) (sock : Arrivals)

/-- {lit}`if padding: receive_exact(sock, padding)` -/
def receivePadding (sock : Arrivals) (padding : UInt8) : Except Failure (Bytes × Arrivals) :=
  if padding ≠ 0 then receiveExact sock padding.toNat else .ok ([], sock)

/-- One turn of the loop in {lit}`receive_response`. -/
def receiveRecord (output errors : Bytes) (sock : Arrivals) : Except Failure Turn := do
  let (head, sock) ← receiveExact sock 8
  match unpack head with
  | none => .error .unexpectedRecord
  | some header =>
      if header.version ≠ 1 ∨ header.requestId ≠ 1 then .error .unexpectedRecord
      else
        let (data, sock) ← receiveExact sock header.length
        let (_, sock) ← receivePadding sock header.padding
        if header.kind = 6 then .ok (.again (output ++ data) errors sock)
        else if header.kind = 7 then .ok (.again output (errors ++ data) sock)
        else if header.kind = 3 then .ok (.over output errors sock)
        else .ok (.again output errors sock)

/-- The loop in {lit}`receive_response`, with a bound on its turns. -/
def receiveLoop : Nat → Bytes → Bytes → Arrivals → Except Failure (Bytes × Bytes × Arrivals)
  | 0, _, _, _ => .error .endOfFile
  | fuel + 1, output, errors, sock => do
      match ← receiveRecord output errors sock with
      | .again output errors sock => receiveLoop fuel output errors sock
      | .over output errors sock => .ok (output, errors, sock)

/-- {lit}`output` and {lit}`errors` behind the loop in {lit}`receive_response`; a turn that
goes on has received eight bytes. -/
def receiveRecords (sock : Arrivals) : Except Failure (Bytes × Bytes × Arrivals) :=
  receiveLoop ((content sock).length + 1) [] [] sock

/-- What a record makes of the output and the errors. -/
def turnOf (output errors : Bytes) (record : Record) (sock : Arrivals) : Turn :=
  if record.kind = 6 then .again (output ++ record.content) errors sock
  else if record.kind = 7 then .again output (errors ++ record.content) sock
  else if record.kind = 3 then .over output errors sock
  else .again output errors sock

/-- The client takes the record for one of its request. -/
def Expected (record : Record) : Prop := record.version = 1 ∧ record.requestId = 1

/-- The padding is received as any count of bytes, whether it is asked for or not. -/
theorem receivePadding_eq (sock : Arrivals) (padding : UInt8) :
    receivePadding sock padding = receiveExact sock padding.toNat := by
  rw [receivePadding]
  by_cases hzero : padding = 0
  · rw [if_neg (not_not.mpr hzero), hzero]
    rfl
  · rw [if_pos hzero]

/-- A record that arrives is received. -/
theorem receiveRecord_wire (output errors : Bytes) {tail : Bytes} {sock : Arrivals}
    {record : Record} (hexpected : Expected record) (h : content sock = record.wire ++ tail) :
    ∃ rest, receiveRecord output errors sock = .ok (turnOf output errors record rest) ∧
      content rest = tail := by
  rw [Record.wire, List.append_assoc, List.append_assoc] at h
  obtain ⟨sock₁, hhead, h₁⟩ := receiveExact_append h (length_head record)
  obtain ⟨sock₂, hdata, h₂⟩ := receiveExact_append h₁ rfl
  obtain ⟨rest, hpadding, hrest⟩ := receiveExact_append h₂ (padding_toNat record).symm
  refine ⟨rest, ?_, hrest⟩
  have hknown : ¬ (record.header.version ≠ 1 ∨ record.header.requestId ≠ 1) := by
    rintro (hversion | hid)
    · exact hversion hexpected.1
    · exact hid hexpected.2
  have hkind : record.header.kind = record.kind := rfl
  rw [receiveRecord, hhead]
  dsimp only [bind, Except.bind]
  rw [unpack_head]
  dsimp only
  rw [if_neg hknown]
  have hlength : record.header.length = record.content.length := rfl
  rw [hlength, hdata]
  dsimp only
  rw [receivePadding_eq, hpadding]
  dsimp only
  rw [hkind, turnOf]
  split_ifs <;> rfl

/-- Whatever is received in a turn is a record. -/
theorem receiveRecord_exact {output errors : Bytes} {sock : Arrivals} {turn : Turn}
    (h : receiveRecord output errors sock = .ok turn) :
    ∃ record rest, Expected record ∧ content sock = record.wire ++ content rest ∧
      turn = turnOf output errors record rest := by
  obtain ⟨⟨head, sock₁⟩, hhead, h⟩ := Except.bind_eq_ok.mp h
  obtain ⟨hsock, hlength⟩ := receiveExact_exact hhead
  dsimp only at h
  obtain ⟨header, hunpack⟩ := unpack_isSome hlength
  obtain ⟨rfl, hid, hlt⟩ := pack_of_unpack hunpack
  rw [hunpack] at h
  dsimp only at h
  split at h
  · cases h
  case isFalse hknown =>
    rw [not_or, not_not, not_not] at hknown
    obtain ⟨⟨data, sock₂⟩, hdata, h⟩ := Except.bind_eq_ok.mp h
    obtain ⟨hsock₁, hdatalength⟩ := receiveExact_exact hdata
    obtain ⟨⟨padding, sock₃⟩, hpadding, h⟩ := Except.bind_eq_ok.mp h
    rw [receivePadding_eq] at hpadding
    obtain ⟨hsock₂, hpaddinglength⟩ := receiveExact_exact hpadding
    obtain ⟨record, rfl, rfl, rfl⟩ := exists_record hid hdatalength hlt hpaddinglength
    refine ⟨record, sock₃, hknown, ?_, ?_⟩
    · rw [hsock, hsock₁, hsock₂, Record.wire, List.append_assoc, List.append_assoc]
      rfl
    · have hkind : record.header.kind = record.kind := rfl
      dsimp only at h
      rw [hkind] at h
      rw [turnOf]
      split_ifs at h ⊢ <;> cases h <;> rfl

/-! ## Whole responses -/

/-- The records of one response: the last one ends the request, and no other one does. -/
structure IsResponse (records : List Record) (last : Record) : Prop where
  before : ∀ record ∈ records, Expected record ∧ record.kind ≠ 3
  expected : Expected last
  ends : last.kind = 3

/-- The record of type 3 ends the loop. -/
theorem turnOf_ends {output errors : Bytes} {record : Record} {sock : Arrivals}
    (h : record.kind = 3) : turnOf output errors record sock = .over output errors sock := by
  rw [turnOf, h, if_neg (by decide), if_neg (by decide), if_pos rfl]

/-- Another record adds its content to the output or to the errors. -/
theorem turnOf_goes {output errors : Bytes} {record : Record} {sock : Arrivals}
    (h : record.kind ≠ 3) :
    turnOf output errors record sock =
      .again (output ++ ofKind 6 [record]) (errors ++ ofKind 7 [record]) sock := by
  rw [turnOf, ofKind_cons, ofKind_cons, ofKind_nil, ofKind_nil, List.append_nil, List.append_nil]
  by_cases hout : record.kind = 6
  · rw [if_pos hout, if_pos hout, if_neg (by rw [hout]; decide), List.append_nil]
  · rw [if_neg hout, if_neg hout]
    by_cases herr : record.kind = 7
    · rw [if_pos herr, if_pos herr, List.append_nil]
    · rw [if_neg herr, if_neg h, if_neg herr, List.append_nil, List.append_nil]

/-- Records that arrive whole are received. -/
theorem receiveLoop_wire {records : List Record} {last : Record} (h : IsResponse records last)
    {fuel : Nat} (hfuel : records.length < fuel) {output errors tail : Bytes} {sock : Arrivals}
    (hsock : content sock = records.flatMap Record.wire ++ last.wire ++ tail) :
    ∃ rest, receiveLoop fuel output errors sock =
        .ok (output ++ ofKind 6 records, errors ++ ofKind 7 records, rest) ∧
      content rest = tail := by
  induction records generalizing fuel output errors sock with
  | nil =>
      obtain ⟨fuel, rfl⟩ : ∃ n, fuel = n + 1 := ⟨fuel - 1, by omega⟩
      obtain ⟨rest, hturn, hrest⟩ := receiveRecord_wire output errors h.expected hsock
      refine ⟨rest, ?_, hrest⟩
      rw [receiveLoop, hturn, turnOf_ends h.ends]
      simp [bind, Except.bind]
  | cons record records ih =>
      obtain ⟨fuel, rfl⟩ : ∃ n, fuel = n + 1 := ⟨fuel - 1, by omega⟩
      obtain ⟨⟨hexpected, hkind⟩, hbefore⟩ := List.forall_mem_cons.mp h.before
      rw [List.flatMap_cons, List.append_assoc, List.append_assoc] at hsock
      obtain ⟨rest, hturn, hrest⟩ := receiveRecord_wire output errors hexpected hsock
      rw [← List.append_assoc] at hrest
      obtain ⟨rest', hloop, hrest'⟩ := ih ⟨hbefore, h.expected, h.ends⟩
        (Nat.lt_of_succ_lt_succ hfuel) hrest
      refine ⟨rest', ?_, hrest'⟩
      rw [receiveLoop, hturn, turnOf_goes hkind]
      dsimp only [bind, Except.bind]
      rw [hloop, List.append_assoc, List.append_assoc, ← ofKind_append, ← ofKind_append]
      rfl

/-- What is received has arrived in records. -/
theorem receiveLoop_exact {fuel : Nat} {output errors output' errors' : Bytes}
    {sock rest : Arrivals}
    (h : receiveLoop fuel output errors sock = .ok (output', errors', rest)) :
    ∃ records last, IsResponse records last ∧
      content sock = records.flatMap Record.wire ++ last.wire ++ content rest ∧
      output' = output ++ ofKind 6 records ∧ errors' = errors ++ ofKind 7 records := by
  induction fuel generalizing output errors sock with
  | zero => cases h
  | succ fuel ih =>
      obtain ⟨turn, hturn, h⟩ := Except.bind_eq_ok.mp h
      obtain ⟨record, rest', hexpected, hsock, rfl⟩ := receiveRecord_exact hturn
      by_cases hkind : record.kind = 3
      · rw [turnOf_ends hkind] at h
        cases h
        exact ⟨[], record, ⟨by simp, hexpected, hkind⟩, hsock, by simp, by simp⟩
      · rw [turnOf_goes hkind] at h
        obtain ⟨records, last, hresponse, hrest, rfl, rfl⟩ := ih h
        refine ⟨record :: records, last, ⟨?_, hresponse.expected, hresponse.ends⟩, ?_, ?_, ?_⟩
        · rw [List.forall_mem_cons]
          exact ⟨⟨hexpected, hkind⟩, hresponse.before⟩
        · simp only [hsock, hrest, List.flatMap_cons, List.append_assoc]
        · rw [List.append_assoc, ← ofKind_append]
          rfl
        · rw [List.append_assoc, ← ofKind_append]
          rfl

/-- No record is empty on the wire. -/
theorem length_le_wire (records : List Record) :
    records.length ≤ (records.flatMap Record.wire).length := by
  induction records with
  | nil => exact Nat.zero_le _
  | cons record records ih =>
      rw [List.flatMap_cons, List.length_append, List.length_cons, Record.wire]
      simp only [List.length_append, length_head]
      omega

/-- However the bytes arrive: what is received is what the records of one response carry,
and nothing behind the end of the request is touched. -/
theorem receiveRecords_iff {sock : Arrivals} {output errors tail : Bytes} :
    (∃ rest, receiveRecords sock = .ok (output, errors, rest) ∧ content rest = tail) ↔
      ∃ records last, IsResponse records last ∧
        content sock = records.flatMap Record.wire ++ last.wire ++ tail ∧
        output = ofKind 6 records ∧ errors = ofKind 7 records := by
  constructor
  · rintro ⟨rest, h, rfl⟩
    exact receiveLoop_exact h
  · rintro ⟨records, last, hresponse, hsock, rfl, rfl⟩
    refine receiveLoop_wire hresponse ?_ hsock
    have hlength := length_le_wire records
    rw [hsock, List.length_append, List.length_append]
    omega

end Client

end Polychrome

import Polychrome.Client.Receive
import Polychrome.Library.PythonText
import Polychrome.Request.Callbacks

/-!
# Reading a response

This module embeds what {lit}`receive_response` in {lit}`tests/fcgi.py` makes of the
output, and sets it against the head that {lit}`send_headers` and
{lit}`protocol_error` write.

Main results:

- Definition {lit}`receiveResponse`: the response that the client returns.
- Theorem {lit}`readOutput_headerBlocks`: the head is read back and the body is left
  alone.

Current gaps:

- Methods of {lit}`str` on text that is not ASCII are a parameter.
-/

namespace Polychrome

namespace Client

open Clib FastCgi Python Request Rust Stream

/-- What {lit}`receive_response` returns. -/
structure Response where
  status : Int
  headers : List (Bytes × Bytes)
  body : Bytes
  errors : Bytes
deriving DecidableEq, Repr

/-! ## The head -/

/-- The variables {lit}`status` and {lit}`headers`. -/
structure Head where
  status : Int
  headers : List (Bytes × Bytes)
deriving DecidableEq, Repr

/-- One turn of the loop over the lines. -/
def readLine (text : Text) (head : Head) (line : Bytes) : Except Failure Head :=
  let (name, separator, value) := partition (bytes ":") line
  if separator = [] then .ok head
  else if !(decodes name && decodes value) then .error .undecodable
  else
    let name := text.lowerOf name
    let value := text.stripOf value
    if name = bytes "status" then
      match (text.wordOf value).bind text.intOf with
      | some status => .ok { head with status := status }
      | none => .error .badStatus
    else .ok { head with headers := head.headers ++ [(name, value)] }

/-- What is made of the output. -/
def readOutput (text : Text) (output errors : Bytes) : Except Failure Response := do
  let (rawHeaders, _, body) := partition (crlf ++ crlf) output
  let head ← (split crlf rawHeaders).foldlM (readLine text) { status := 200, headers := [] }
  return { status := head.status, headers := head.headers, body := body, errors := errors }

/-- {lit}`receive_response` -/
def receiveResponse (text : Text) (sock : Arrivals) : Except Failure Response := do
  let (output, errors, _) ← receiveRecords sock
  readOutput text output errors

/-! ## Lines of a head -/

/-- A header that can be sent: a line of ASCII characters. -/
def Sendable (header : Bytes) : Prop := 13 ∉ header ∧ isAscii header = true

/-- The name and the value of a header, if it has a name. -/
def field (header : Bytes) : Option (Bytes × Bytes) :=
  (splitFirst (bytes ":") header).map fun r => (r.1.map toAsciiLowercase, strip r.2)

/-- The headers that {lit}`send_headers` does not leave out. -/
def sent (headers : List Bytes) : List Bytes :=
  headers.filter fun header =>
    !(header.isEmpty || startsWithCaseless (bytes "status:") header)

/-- A part of a text of ASCII characters is one. -/
theorem isAscii_of_sublist {s t : Bytes} (h : s ⊆ t) (ht : isAscii t = true) :
    isAscii s = true := by
  rw [isAscii, List.all_eq_true] at ht ⊢
  exact fun b hb => ht b (h hb)

/-- What is split is put together from its parts. -/
theorem splitFirst_eq_append {separator s before behind : Bytes}
    (h : splitFirst separator s = some (before, behind)) :
    s = before ++ separator ++ behind := by
  induction s generalizing before with
  | nil => cases h
  | cons b s ih =>
      rw [splitFirst] at h
      split at h
      case isTrue hprefix =>
        cases h
        rw [List.isPrefixOf_iff_prefix] at hprefix
        rw [List.nil_append]
        exact (List.prefix_iff_eq_append.mp hprefix).symm
      case isFalse =>
        obtain ⟨r, hr, heq⟩ := Option.map_eq_some_iff.mp h
        cases heq
        rw [ih hr]
        rfl

/-- Only a line for the status has its name. -/
theorem startsWithCaseless_of_name {name value : Bytes}
    (h : name.map toAsciiLowercase = bytes "status") :
    startsWithCaseless (bytes "status:") (name ++ bytes ":" ++ value) = true := by
  have hlength : name.length = 6 := by
    rw [← List.length_map toAsciiLowercase, h]
    rfl
  have htake : (name ++ bytes ":" ++ value).take (bytes "status:").length = name ++ bytes ":" := by
    have heq : (bytes "status:").length = (name ++ bytes ":").length := by
      rw [List.length_append, hlength]
      rfl
    rw [heq, List.take_left]
  rw [startsWithCaseless, htake, List.map_append, beq_iff_eq]
  have hlower : (name.map fun b => if 65 ≤ b ∧ b ≤ 90 then b + 32 else b) = bytes "status" := by
    rw [← h]
    apply List.map_congr_left
    intro b _
    simp [toAsciiLowercase]
  rw [hlower]
  rfl

/-- A header that is sent adds its field. -/
theorem readLine_sendable (text : Text) (head : Head) {header : Bytes} (h : Sendable header)
    (hstatus : startsWithCaseless (bytes "status:") header = false) :
    readLine text head header =
      .ok { head with headers := head.headers ++ (field header).toList } := by
  rw [readLine, partition, field]
  cases hsplit : splitFirst (bytes ":") header with
  | none => simp
  | some r =>
      obtain ⟨name, value⟩ := r
      have heq := splitFirst_eq_append hsplit
      have hname : isAscii name = true := isAscii_of_sublist (by rw [heq]; simp) h.2
      have hvalue : isAscii value = true := isAscii_of_sublist (by rw [heq]; simp) h.2
      have hother : name.map toAsciiLowercase ≠ bytes "status" := by
        intro hlower
        rw [heq, startsWithCaseless_of_name hlower] at hstatus
        cases hstatus
      dsimp only
      rw [if_neg (by decide), decodes, decodes, hname, hvalue, if_neg (by simp), Text.lowerOf,
        if_pos hname, Text.stripOf, if_pos hvalue, if_neg hother]
      rfl

/-- Headers that can be sent are appended one by one. -/
theorem foldlM_readLine (text : Text) {headers : List Bytes}
    (h : ∀ header ∈ headers, Sendable header ∧
      startsWithCaseless (bytes "status:") header = false) (head : Head) :
    headers.foldlM (readLine text) head =
      .ok { head with headers := head.headers ++ headers.filterMap field } := by
  induction headers generalizing head with
  | nil => simp [pure, Except.pure]
  | cons header headers ih =>
      rw [List.forall_mem_cons] at h
      rw [List.foldlM_cons, readLine_sendable text head h.1.1 h.1.2]
      dsimp only [bind, Except.bind]
      rw [ih h.2]
      cases hfield : field header <;> simp [hfield]

/-! ## Heads -/

/-- The line for the status. -/
def statusLine (status : Int) : Bytes := bytes "Status: " ++ bytes (toString status)

/-- The status line is cut at its colon. -/
theorem splitFirst_statusLine (status : Int) :
    splitFirst (bytes ":") (statusLine status) =
      some (bytes "Status", 32 :: bytes (toString status)) := by
  have hline : statusLine status = bytes "Status" ++ (bytes ":" ++ 32 :: bytes (toString status)) :=
    rfl
  have hcolon : bytes ":" = [58] := rfl
  rw [hline, hcolon, splitFirst_append (by decide), splitFirst_hit (by decide)]
  rfl

/-- The status line sets the status. -/
theorem readLine_statusLine (text : Text) (head : Head) {status : Int}
    (h : status.natAbs < 10 ^ 10) :
    readLine text head (statusLine status) = .ok { head with status := status } := by
  have hvalue : isAscii (32 :: bytes (toString status)) = true := by
    have hnumeral := isAscii_numeral status
    rw [isAscii] at hnumeral ⊢
    rw [List.all_cons, hnumeral]
    rfl
  have hstrip : text.stripOf (32 :: bytes (toString status)) = bytes (toString status) := by
    rw [Text.stripOf, if_pos hvalue]
    exact strip_of_plain fun b hb => (numeral_plain hb).2.1
  have hname : isAscii (bytes "Status") = true := by decide
  have hlower : text.lowerOf (bytes "Status") = bytes "status" := rfl
  rw [readLine, partition, splitFirst_statusLine]
  dsimp only
  rw [if_neg (by decide), decodes, decodes, hname, hvalue, if_neg (by simp), hlower, hstrip,
    if_pos rfl, wordOf_numeral, Option.bind_some, Text.intOf, decimal_toString h]
  rfl

/-- The status line is one line. -/
theorem isLine_statusLine (status : Int) : IsLine (statusLine status) := by
  refine ⟨List.cons_ne_nil _ _, ?_⟩
  rw [statusLine, List.mem_append]
  rintro (hname | hvalue)
  · exact absurd hname (by decide)
  · exact (numeral_plain hvalue).2.2 rfl

/-- A head with a status and headers, as both of the writers build it. -/
def headOf (status : Int) (headers : List Bytes) : Bytes :=
  (statusLine status :: headers).flatMap (fun line => line ++ crlf) ++ crlf

/-- The head is read back, and the body is what is behind it. -/
theorem readOutput_headOf (text : Text) {status : Int} (hstatus : status.natAbs < 10 ^ 10)
    {headers : List Bytes}
    (h : ∀ header ∈ headers, header ≠ [] ∧ Sendable header ∧
      startsWithCaseless (bytes "status:") header = false) (body errors : Bytes) :
    readOutput text (headOf status headers ++ body) errors =
      .ok
        { status := status
          headers := headers.filterMap field
          body := body
          errors := errors } := by
  have hlines : ∀ line ∈ statusLine status :: headers, IsLine line := by
    rw [List.forall_mem_cons]
    exact ⟨isLine_statusLine status, fun header hmem => ⟨(h header hmem).1, (h header hmem).2.1.1⟩⟩
  have hfirst := splitFirst_head (List.cons_ne_nil _ _) hlines body
  have hsplit := split_joined (List.cons_ne_nil _ _) fun line hmem => (hlines line hmem).2
  rw [readOutput, partition, headOf, hfirst]
  dsimp only
  rw [hsplit, List.foldlM_cons, readLine_statusLine text _ hstatus]
  dsimp only [bind, Except.bind]
  rw [foldlM_readLine text fun header hmem => (h header hmem).2]
  rfl

/-- The blocks of {lit}`send_headers` make a head. -/
theorem headerBlocks_eq (httpResponseCode : Int32) (headers : List Bytes) :
    (headerBlocks httpResponseCode headers).flatten =
      headOf httpResponseCode.toInt (sent headers) := by
  have hstatus : bytes ("Status: " ++ toString httpResponseCode ++ "\r\n") =
      statusLine httpResponseCode.toInt ++ crlf := by
    rw [bytes_append, bytes_append]
    rfl
  rw [headerBlocks, headOf, hstatus, List.flatMap_cons, sent]
  simp only [List.cons_append, List.flatten_cons, List.flatten_append, List.append_assoc]
  congr 2
  generalize headers.filter _ = lines
  have hcrlf : bytes "\r\n" = crlf := rfl
  rw [hcrlf]
  induction lines with
  | nil => simp
  | cons line lines ih =>
      rw [List.flatMap_cons, List.flatMap_cons, List.flatten_append, List.append_assoc, ih]
      simp

/-- What {lit}`protocol_error` writes first is a head with one header. -/
theorem protocolHeader_eq (status : Nat) :
    protocolHeader status = headOf status [bytes "Content-Type: text/plain"] := by
  rw [protocolHeader, bytes_append, bytes_append, headOf, statusLine]
  simp only [List.flatMap_cons, List.flatMap_nil, List.append_nil, List.append_assoc]
  rfl

/-- What {lit}`send_headers` and the output behind it come to at the client. -/
theorem readOutput_headerBlocks (text : Text) (httpResponseCode : Int32) {headers : List Bytes}
    (h : ∀ header ∈ sent headers, Sendable header) (body errors : Bytes) :
    readOutput text ((headerBlocks httpResponseCode headers).flatten ++ body) errors =
      .ok
        { status := httpResponseCode.toInt
          headers := (sent headers).filterMap field
          body := body
          errors := errors } := by
  rw [headerBlocks_eq]
  refine readOutput_headOf text ?_ (fun header hmem => ?_) body errors
  · have hlow := httpResponseCode.le_toInt
    have hhigh := httpResponseCode.toInt_lt
    omega
  · have hkept := (List.mem_filter.mp hmem).2
    rw [Bool.not_eq_true', Bool.or_eq_false_iff] at hkept
    exact ⟨by simpa using hkept.1, h header hmem, hkept.2⟩

/-- What {lit}`protocol_error` comes to at the client. -/
theorem readOutput_protocolHeader (text : Text) {status : Nat} (hstatus : status < 10 ^ 10)
    (message errors : Bytes) :
    readOutput text (protocolHeader status ++ message) errors =
      .ok
        { status := status
          headers := [(bytes "content-type", bytes "text/plain")]
          body := message
          errors := errors } := by
  rw [protocolHeader_eq]
  refine readOutput_headOf text (by omega) (fun header hmem => ?_) message errors
  rw [List.mem_singleton.mp hmem]
  exact ⟨by decide, ⟨by decide, by decide⟩, by decide⟩

end Client

end Polychrome

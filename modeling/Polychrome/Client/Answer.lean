import Polychrome.Client.Response
import Polychrome.Request.Refusal
import Polychrome.Request.Response

/-!
# What the client is told

A run of a child leaves a log of what it has handed to the connection.  PHP's FastCGI
library puts it into records, with contents and paddings of its own choice and with
diagnostics between them; the connection delivers their bytes in pieces.  What the
client of {lit}`tests/fcgi.py` returns depends on none of that.

Main results:

- Theorem {lit}`receive_response_iff`: when the client returns a response.
- Theorem {lit}`served_response_read`: the response of a script.
- Theorem {lit}`refused_request_read`: the answer to a request that is refused.
-/

namespace Polychrome

namespace Client

open Clib FastCgi Posix Python Request.Callbacks Stream
open Request hiding State start step

/-- Records that arrive whole are received, and what stands behind the end of the request
stays in the socket. -/
theorem receiveRecords_of_arrived {sock : Arrivals} {records : List Record} {last : Record}
    {tail : Bytes} (hresponse : IsResponse records last)
    (hsock : content sock = records.flatMap Record.wire ++ last.wire ++ tail) :
    ∃ rest, receiveRecords sock = .ok (ofKind 6 records, ofKind 7 records, rest) ∧
      content rest = tail :=
  receiveRecords_iff.mpr ⟨records, last, hresponse, hsock, rfl, rfl⟩

/-- The client returns a response exactly if the records of one response arrive whole and
their output can be read.  However they are cut and delivered, records that arrive whole
come to what their contents say, be it a response or the exception raised on reading
them, and nothing behind the end of the request is taken from the socket. -/
theorem receive_response_iff (text : Text) (sock : Arrivals) :
    (∀ response, receiveResponse text sock = .ok response ↔
      ∃ records last tail, IsResponse records last ∧
        content sock = records.flatMap Record.wire ++ last.wire ++ tail ∧
        readOutput text (ofKind 6 records) (ofKind 7 records) = .ok response) ∧
    ∀ records last tail, IsResponse records last →
      content sock = records.flatMap Record.wire ++ last.wire ++ tail →
      receiveResponse text sock = readOutput text (ofKind 6 records) (ofKind 7 records) ∧
      ∃ rest, receiveRecords sock = .ok (ofKind 6 records, ofKind 7 records, rest) ∧
        content rest = tail := by
  have harrived : ∀ records last tail, IsResponse records last →
      content sock = records.flatMap Record.wire ++ last.wire ++ tail →
      receiveResponse text sock = readOutput text (ofKind 6 records) (ofKind 7 records) := by
    intro records last tail hresponse hsock
    obtain ⟨rest, hreceived, -⟩ := receiveRecords_of_arrived hresponse hsock
    rw [receiveResponse, hreceived]
    rfl
  refine ⟨fun response => ?_, fun records last tail hresponse hsock =>
    ⟨harrived records last tail hresponse hsock, receiveRecords_of_arrived hresponse hsock⟩⟩
  constructor
  · intro h
    obtain ⟨⟨output, errors, rest⟩, hreceived, hread⟩ := Except.bind_eq_ok.mp h
    obtain ⟨records, last, hresponse, hsock, rfl, rfl⟩ :=
      receiveRecords_iff.mp ⟨rest, hreceived, rfl⟩
    exact ⟨records, last, content rest, hresponse, hsock, hread⟩
  · rintro ⟨records, last, tail, hresponse, hsock, hread⟩
    exact (harrived records last tail hresponse hsock).trans hread

/-- A cut string is as short as it was cut. -/
theorem take_lt (s : Bytes) {n : Nat} : (s.take (2 ^ n - 1)).length < 2 ^ n :=
  (List.length_take_le _ s).trans_lt (Nat.sub_one_lt_of_lt (Nat.two_pow_pos n))

/-- A record of request 1, cut to what a record can hold. -/
def recordOf (kind : UInt8) (content padding : Bytes) : Record where
  version := 1
  kind := kind
  requestId := 1
  content := content.take (2 ^ 16 - 1)
  padding := padding.take (2 ^ 8 - 1)
  reserved := 0
  requestId_lt := Nat.one_lt_two_pow (by omega)
  content_lt := take_lt content
  padding_lt := take_lt padding

/-- The pieces in which bytes arrive. -/
def arriving (pieces : List Bytes) : Arrivals :=
  pieces.filterMap fun p => if h : p ≠ [] then some ⟨p, h⟩ else none

/-- Python's text, of which a sample needs no more than ASCII. -/
def asciiText : Text where
  lower := id
  strip := id
  word := some
  int := fun _ => none

/-- Two responses on the wire with more behind them: the records of the first cannot be read
for a response, since its status is no number, and the client takes no byte too many. -/
theorem receive_response_iff_sample :
    receiveResponse asciiText
        (arriving
          [(recordOf 6 (bytes "Status: abc\r\n\r\n") (bytes "pad")).wire,
            (recordOf 3 [] []).wire ++ bytes "more"]) = .error .badStatus ∧
      ∃ rest, receiveRecords
          (arriving
            [(recordOf 6 (bytes "Status: abc\r\n\r\n") (bytes "pad")).wire,
              (recordOf 3 [] []).wire ++ bytes "more"]) =
            .ok (bytes "Status: abc\r\n\r\n", [], rest) ∧
        content rest = bytes "more" := by
  have hresponse :
      IsResponse [recordOf 6 (bytes "Status: abc\r\n\r\n") (bytes "pad")] (recordOf 3 [] []) := by
    refine ⟨?_, ⟨rfl, rfl⟩, rfl⟩
    rw [List.forall_mem_singleton]
    exact ⟨⟨rfl, rfl⟩, by decide⟩
  obtain ⟨hread, hrest⟩ :=
    (receive_response_iff asciiText
      (arriving
        [(recordOf 6 (bytes "Status: abc\r\n\r\n") (bytes "pad")).wire,
          (recordOf 3 [] []).wire ++ bytes "more"])).2
      [recordOf 6 (bytes "Status: abc\r\n\r\n") (bytes "pad")] (recordOf 3 [] [])
      (bytes "more") hresponse (by decide +kernel)
  refine ⟨hread.trans ?_, hrest⟩
  decide +kernel

/-! ## The log on the wire -/

/-- The STDOUT bytes that the connection carries for a call. -/
def conveyed : Op → Bytes
  | .output handed accepted => handed.take accepted
  | .protocol handed => handed
  | _ => []

/-- The call is one of {lit}`protocol_error`. -/
def refuses : Op → Bool
  | .protocol _ => true
  | _ => false

/-- The records carry the output of the log. -/
structure Carries (log : List Op) (records : List Record) (last : Record) : Prop where
  response : IsResponse records last
  output : ofKind 6 records = log.flatMap conveyed

/-- The bytes of the records are on their way to the client, whatever comes behind. -/
def OnTheWay (records : List Record) (last : Record) (sock : Arrivals) : Prop :=
  records.flatMap Record.wire ++ last.wire <+: content sock

/-- What the log conveys is what the client reads. -/
theorem receiveResponse_of_carries {text : Text} {log : List Op} {records : List Record}
    {last : Record} {sock : Arrivals} {response : Response} (hcarries : Carries log records last)
    (hsock : OnTheWay records last sock)
    (hread : readOutput text (log.flatMap conveyed) (ofKind 7 records) = .ok response) :
    receiveResponse text sock = .ok response := by
  rcases hsock with ⟨tail, htail⟩
  obtain ⟨rest, hreceived, -⟩ := receiveRecords_of_arrived hcarries.response htail.symm
  rw [receiveResponse, hreceived]
  exact hcarries.output ▸ hread

section Runs

variable {view : View} {applicationRoot : Bytes} {params : Params} {inherited : List RawFd}
  {stdin : Bytes} {es : List Event} {s : State}

/-- Calls that hand over no output convey nothing. -/
theorem conveyed_of_silent {op : Op} (h : op.stdout = []) : conveyed op = [] := by
  cases op with
  | output handed accepted =>
      have hnil : handed = [] := h
      rw [hnil, conveyed, List.take_nil]
  | protocol handed => exact h
  | stdin | endRequest | close => rfl

/-- What a whole response conveys is what {lit}`write_output` was called with. -/
theorem conveyed_of_run
    (hrun : LabelledMachine.exec (step view applicationRoot params) (start inherited stdin) es =
      some s)
    (hopen : StartupFailsOpen view applicationRoot params inherited stdin es)
    (hended : .endRequest ∈ s.log) (hunrefused : ∀ op ∈ s.log, refuses op = false)
    (hwhole : ∀ output ∈ s.outputs, output.cut = false) :
    s.log.flatMap conveyed = (s.outputs.map Output.data).flatten := by
  have hlaws := responseLaws_of_open hrun hopen
  rcases List.append_of_mem hended with ⟨before, after, hlog⟩
  have hbefore : before.flatMap conveyed = before.flatMap Op.accepted := by
    apply List.flatMap_congr
    intro op hop
    cases op with
    | protocol handed => cases hunrefused _ (hlog ▸ List.mem_append_left _ hop)
    | output | stdin | endRequest | close => rfl
  have hafter : after.flatMap conveyed = [] := by
    rw [List.flatMap_eq_nil_iff]
    exact fun op hop => conveyed_of_silent (hlaws.silent before after hlog op hop).1
  have hsent : s.outputs.flatMap Output.sent = s.outputs.flatMap Output.data := by
    apply List.flatMap_congr
    exact fun output houtput => hlaws.whole output houtput (hwhole output houtput)
  calc
    s.log.flatMap conveyed = before.flatMap conveyed ++ after.flatMap conveyed := by
      rw [hlog, List.flatMap_append, List.flatMap_cons]
      rfl
    _ = s.outputs.flatMap Output.sent := by
      rw [hafter, List.append_nil, hbefore, hlaws.ordered before after hlog]
    _ = (s.outputs.map Output.data).flatten := by rw [hsent, List.flatMap_def]

end Runs

/-- If PHP has the head written before the body and no write is cut short, the client reads
the status, the headers and the body that PHP was asked for: whatever the run was, the
records and their delivery. -/
theorem served_response_read (view : View) (applicationRoot : Bytes) (params : Params)
    (inherited : List RawFd) (stdin : Bytes) (es : List Event) (s : State)
    (hrun : LabelledMachine.exec (step view applicationRoot params) (start inherited stdin) es =
      some s)
    (hopen : StartupFailsOpen view applicationRoot params inherited stdin es)
    (hended : .endRequest ∈ s.log) (hunrefused : ∀ op ∈ s.log, refuses op = false)
    (hwhole : ∀ output ∈ s.outputs, output.cut = false) (httpResponseCode : Int32)
    (headers blocks : List Bytes) (hsendable : ∀ header ∈ sent headers, Sendable header)
    (houtputs : s.outputs.map Output.data = headerBlocks httpResponseCode headers ++ blocks)
    (text : Text) (records : List Record) (last : Record) (sock : Arrivals)
    (hcarries : Carries s.log records last) (hsock : OnTheWay records last sock) :
    receiveResponse text sock =
      .ok
        { status := httpResponseCode.toInt
          headers := (sent headers).filterMap field
          body := blocks.flatten
          errors := ofKind 7 records } := by
  apply receiveResponse_of_carries hcarries hsock
  rw [conveyed_of_run hrun hopen hended hunrefused hwhole, houtputs, List.flatten_append]
  exact readOutput_headerBlocks text httpResponseCode hsendable blocks.flatten _

/-- A script that sets a header and writes in two parts. -/
def servedRun : List Event :=
  admittedEvents ++
    [.child (.requestStartup true), .child (.openScript true),
      .sendHeaders 201 [bytes "X-Kind: sample"], .fcgiWrite 13, .resume, .fcgiWrite 14, .resume,
      .fcgiWrite 2, .resume, .fcgiWrite 2, .resume, .writeOutput (bytes "done"), .fcgiWrite 3,
      .fcgiWrite 1, .resume, .child (.execute 0), .child .requestShutdown, .child .finishRequest]

/-- Its records, with a notice between them. -/
def servedRecords : List Record :=
  [recordOf 6 (bytes "Status: 201\r\nX-Kind: sam") (bytes "pad"), recordOf 7 (bytes "notice") [],
    recordOf 6 (bytes "ple\r\n\r\ndone") []]

/-- Their bytes in three pieces. -/
def servedPieces : Arrivals :=
  let wire := servedRecords.flatMap Record.wire ++ (recordOf 3 (List.replicate 8 0) []).wire
  arriving [wire.take 5, (wire.drop 5).take 30, wire.drop 35]

/-- The response of {lit}`servedRun`, cut in the middle of a header. -/
theorem served_response_read_sample :
    receiveResponse asciiText servedPieces =
      .ok
        { status := 201
          headers := [(bytes "x-kind", bytes "sample")]
          body := bytes "done"
          errors := bytes "notice" } := by
  obtain ⟨s, hrun, hended, hunrefused, hwhole, houtputs, hlog⟩ :
      ∃ s, LabelledMachine.exec (step sampleView (bytes "/srv") sampleParams) (start [] [])
          servedRun = some s ∧
        .endRequest ∈ s.log ∧ (∀ op ∈ s.log, refuses op = false) ∧
        (∀ output ∈ s.outputs, output.cut = false) ∧
        s.outputs.map Output.data =
          headerBlocks 201 [bytes "X-Kind: sample"] ++ [bytes "done"] ∧
        ofKind 6 servedRecords = s.log.flatMap conveyed :=
    ⟨_, rfl, by decide +kernel, by decide +kernel, by decide +kernel, by decide +kernel,
      by decide +kernel⟩
  have hnever : Event.child (.requestStartup false) ∉ servedRun := by decide +kernel
  have hopen : StartupFailsOpen sampleView (bytes "/srv") sampleParams [] [] servedRun := by
    intro before after t hes
    exact absurd (hes ▸ List.mem_append_right before List.mem_cons_self) hnever
  have hsendable : ∀ header ∈ sent [bytes "X-Kind: sample"], Sendable header := by
    intro header hmem
    have heq : header = bytes "X-Kind: sample" :=
      List.mem_singleton.mp (List.mem_of_mem_filter hmem)
    rw [heq]
    exact ⟨by decide, by decide⟩
  have hresponse : IsResponse servedRecords (recordOf 3 (List.replicate 8 0) []) := by
    refine ⟨?_, ⟨rfl, rfl⟩, rfl⟩
    simp only [servedRecords, List.forall_mem_cons]
    exact ⟨⟨⟨rfl, rfl⟩, by decide⟩, ⟨⟨rfl, rfl⟩, by decide⟩, ⟨⟨rfl, rfl⟩, by decide⟩, by simp⟩
  have hread := served_response_read sampleView (bytes "/srv") sampleParams [] [] servedRun s hrun
    hopen hended hunrefused hwhole 201 [bytes "X-Kind: sample"] [bytes "done"] hsendable houtputs
    asciiText servedRecords _ servedPieces ⟨hresponse, hlog⟩ ⟨[], by decide +kernel⟩
  rw [hread]
  decide +kernel

/-! ## Refusals -/

/-- The statuses of the tests in {lit}`poly_serve_one`. -/
theorem status_of_refused {view : View} {applicationRoot : Bytes} {params : Params} {status : Nat}
    {message : Bytes} (h : examine view applicationRoot params = .refused status message) :
    status = 400 ∨ status = 403 ∨ status = 404 := by
  unfold examine at h
  split at h
  case h_1 | h_2 | h_3 =>
    cases h
    exact Or.inl rfl
  case h_4 =>
    split at h
    · cases h
      exact Or.inr (Or.inr rfl)
    · split at h
      · cases h
      · cases h
        exact Or.inr (Or.inl rfl)

/-- A request that is refused is told its status and the reason, in plain text: whatever
the run was, the records and their delivery. -/
theorem refused_request_read (view : View) (applicationRoot : Bytes) (params : Params)
    (status : Nat) (message : Bytes)
    (hverdict : examine view applicationRoot params = .refused status message)
    (inherited : List RawFd) (stdin : Bytes) (es : List Event) (s : State)
    (hrun : LabelledMachine.exec (step view applicationRoot params) (start inherited stdin) es =
      some s)
    (hreturned : ∃ result, s.gate.child.phase = .returned result)
    (hread : .child (.readRequest true) ∈ es) (hcalm : .child .bailout ∉ es)
    (text : Text) (records : List Record) (last : Record) (sock : Arrivals)
    (hcarries : Carries s.log records last) (hsock : OnTheWay records last sock) :
    receiveResponse text sock =
      .ok
        { status := status
          headers := [(bytes "content-type", bytes "text/plain")]
          body := message
          errors := ofKind 7 records } := by
  have hanswered := (refusing_of_run hverdict hrun).told_of_returned hreturned hread hcalm
  apply receiveResponse_of_carries hcarries hsock
  have hconveyed : s.log.flatMap conveyed = protocolHeader status ++ message := by
    rw [hanswered]
    simp [told, conveyed]
  rw [hconveyed]
  refine readOutput_protocolHeader text ?_ message _
  rcases status_of_refused hverdict with rfl | rfl | rfl <;> decide

/-- A request without a method, in one piece. -/
theorem refused_request_read_sample :
    receiveResponse asciiText
        (arriving
          [(recordOf 6 (protocolHeader 400 ++ bytes "Invalid FastCGI request.\n") []).wire ++
            (recordOf 3 [] []).wire]) =
      .ok
        { status := 400
          headers := [(bytes "content-type", bytes "text/plain")]
          body := bytes "Invalid FastCGI request.\n"
          errors := [] } := by
  obtain ⟨s, hrun, hreturned, hlog⟩ :
      ∃ s, LabelledMachine.exec (step sampleView (bytes "/srv") fun _ => none)
          (start [] (bytes "body")) invalidRequest = some s ∧
        s.gate.child.phase = .returned 0 ∧
        ofKind 6 [recordOf 6 (protocolHeader 400 ++ bytes "Invalid FastCGI request.\n") []] =
          s.log.flatMap conveyed :=
    ⟨_, rfl, rfl, by decide +kernel⟩
  refine refused_request_read sampleView (bytes "/srv") (fun _ => none) 400
    (bytes "Invalid FastCGI request.\n") rfl [] (bytes "body") invalidRequest s hrun
    ⟨0, hreturned⟩ (by decide) (by decide) asciiText
    [recordOf 6 (protocolHeader 400 ++ bytes "Invalid FastCGI request.\n") []] (recordOf 3 [] [])
    _ ⟨⟨?_, ⟨rfl, rfl⟩, rfl⟩, hlog⟩ ⟨[], by decide +kernel⟩
  rw [List.forall_mem_singleton]
  exact ⟨⟨rfl, rfl⟩, by decide⟩

end Client

end Polychrome

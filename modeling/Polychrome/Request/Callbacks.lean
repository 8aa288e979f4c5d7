import Polychrome.Request.Body

/-!
# The callbacks of a request

This module embeds what PHP calls while it handles a request: the SAPI callbacks
{lit}`write_output`, {lit}`send_headers`, {lit}`flush_output` and {lit}`read_post`,
and the function {lit}`fastcgi_finish_request`.  They run on top of the child of
the request, in frames.

PHP itself is not part of the sources.  While it runs code of its own or of the
script it may call any of them, also from inside {lit}`php_output_end_all` and
{lit}`sapi_send_headers`, and a bailout may unwind any number of frames.  The
functions of its FastCGI library do not bail out; {lit}`fcgi_write` takes at most
the count it got, and {lit}`fcgi_end` and {lit}`fcgi_close` do nothing on a request
already ended and closed.

Main results:

- Definition {lit}`step`: one step of the child, of a callback or of PHP.
- Inductive {lit}`Step` and theorem {lit}`step_cases`: what one step can do.
- Theorem {lit}`gate_simulation`: a request is a run of the child with its script.

Current gaps:

- A flush hands over no bytes of its own, so it leaves no trace in the log.
- {lit}`written` of an output is what {lit}`write_output` returns; the result of
  {lit}`send_headers` is constant and that of {lit}`fastcgi_finish_request` says
  whether it returned at once, so both are left out.
-/

namespace Polychrome

namespace Request

open Posix Clib

/-! ## The text of a response -/

/-- The head of an answer that {lit}`protocol_error` writes. -/
def protocolHeader (status : Nat) : Bytes :=
  bytes ("Status: " ++ toString status ++ "\r\nContent-Type: text/plain\r\n\r\n")

/-- What {lit}`send_headers` passes to {lit}`write_output`, one block a call. -/
def headerBlocks (httpResponseCode : Int32) (headers : List Bytes) : List Bytes :=
  bytes ("Status: " ++ toString httpResponseCode ++ "\r\n") ::
    (headers.filter fun header =>
      !(header.isEmpty || startsWithCaseless (bytes "status:") header)).flatMap
        (fun header => [header, bytes "\r\n"]) ++ [bytes "\r\n"]

/-- The count that {lit}`write_output` passes to {lit}`fcgi_write`. -/
def partOf (length written : Nat) : Int :=
  cInt (if length - written > intMax then intMax else length - written)

/-- One call writes at most what an {lit}`int` can say. -/
theorem partOf_eq {length written : Nat} :
    partOf length written = min (length - written) intMax := by
  rw [partOf, ite_gt_eq_min, cInt_of_le (min_le_right _ _)]

namespace Callbacks

/-! ## The state -/

/-- What the child does with the connection of its request. -/
inductive Op
  /-- {lit}`fcgi_write` of a part of an output, with how much of it was taken -/
  | output (handed : Bytes) (accepted : Nat)
  /-- {lit}`fcgi_write` in {lit}`protocol_error` -/
  | protocol (handed : Bytes)
  /-- {lit}`fcgi_read`, with what it has read -/
  | stdin (taken : Bytes)
  /-- {lit}`fcgi_end` -/
  | endRequest
  /-- {lit}`fcgi_close` -/
  | close
deriving DecidableEq, Repr

/-- The STDOUT bytes that are handed to the connection. -/
def Op.stdout : Op → Bytes
  | .output handed _ | .protocol handed => handed
  | _ => []

/-- The STDIN bytes that are taken from the connection. -/
def Op.taken : Op → Bytes
  | .stdin taken => taken
  | _ => []

/-- What the connection has accepted of an output. -/
def Op.accepted : Op → Bytes
  | .output handed accepted => handed.take accepted
  | _ => []

/-- One call of {lit}`write_output` on an open response; {lit}`cut` says that a
write failed or that a bailout ended it. -/
structure Output where
  data : Bytes
  written : Nat
  cut : Bool
deriving DecidableEq, Repr

/-- What a call of {lit}`write_output` has brought to the connection. -/
def Output.sent (output : Output) : Bytes := output.data.take output.written

/-- A callback under way, at the call it is about to make. -/
inductive Frame
  /-- {lit}`fcgi_write` in {lit}`write_output`, with the blocks that
  {lit}`send_headers` has still to write -/
  | output (data : Bytes) (written : Nat) (todo : List Bytes)
  /-- {lit}`php_handle_aborted_connection` in {lit}`write_output` -/
  | aborted (todo : List Bytes)
  /-- {lit}`sapi_send_headers` in {lit}`flush_output` -/
  | flushHeaders
  /-- {lit}`fcgi_flush` in {lit}`flush_output` -/
  | flush
  /-- {lit}`php_handle_aborted_connection` in {lit}`flush_output` -/
  | flushAborted
  /-- {lit}`php_output_end_all` in {lit}`fastcgi_finish_request` -/
  | outputEnd
  /-- {lit}`sapi_send_headers` in {lit}`fastcgi_finish_request` -/
  | headersEnd
  /-- the rest of {lit}`fastcgi_finish_request` -/
  | finish
deriving DecidableEq, Repr

/-- PHP's own code or the script runs in the frame. -/
def Frame.engine : Frame → Bool
  | .flushHeaders | .outputEnd | .headersEnd => true
  | _ => false

/-- The child of the request, the callbacks under way, the innermost first, the
flag {lit}`response_finished`, what PHP knows of the connection, and the history. -/
structure State where
  gate : Request.State
  frames : List Frame
  responseFinished : Bool
  /-- the connection of the request is open -/
  connected : Bool
  /-- {lit}`fcgi_end` has ended the request -/
  ended : Bool
  /-- the arguments of {lit}`protocol_error` -/
  refusal : Nat × Bytes
  body : Body
  log : List Op
  /-- the calls of {lit}`write_output` that are over -/
  outputs : List Output

/-- One step, with the answer of the call it makes. -/
inductive Event
  | child (event : Child.Event)
  | writeOutput (data : Bytes)
  | sendHeaders (httpResponseCode : Int32) (headers : List Bytes)
  | flushOutput
  | readPost (read : Read)
  /-- {lit}`fastcgi_finish_request` -/
  | finishRequest
  | fcgiWrite (result : Int)
  | fcgiFlush (flushed : Bool)
  /-- the innermost callback goes on -/
  | resume
  /-- a {lit}`zend_try` of PHP catches a bailout from this many frames -/
  | caught (depth : Nat)
deriving DecidableEq, Repr

/-- The step of the child, if it is one. -/
def Event.childEvent : Event → Option Child.Event
  | .child e => some e
  | _ => none

/-! ## Ends and bailouts -/

/-- {lit}`fcgi_end` -/
def State.fcgiEnd (s : State) : State :=
  if s.ended then s else { s with ended := true, log := s.log ++ [.endRequest] }

/-- {lit}`fcgi_close` -/
def State.fcgiClose (s : State) : State :=
  if s.connected then { s with connected := false, log := s.log ++ [.close] } else s

/-- {lit}`fcgi_finish_request` -/
def State.fcgiFinishRequest (s : State) : State :=
  if s.connected then s.fcgiEnd.fcgiClose else s

/-- Both calls change the connection and the log only. -/
theorem fcgiClose_fcgiEnd (s : State) :
    s.fcgiEnd.fcgiClose =
      { s with
        connected := false
        ended := true
        log := s.log ++ ((if s.ended then [] else [.endRequest]) ++
          if s.connected then [.close] else []) } := by
  rcases s with ⟨gate, frames, responseFinished, connected, ended, refusal, body, log, outputs⟩
  cases ended <;> cases connected <;> simp [State.fcgiEnd, State.fcgiClose]

/-- What finishing leaves of the connection. -/
theorem fcgiFinishRequest_eq (s : State) :
    s.fcgiFinishRequest =
      { s with
        connected := false
        ended := s.ended || s.connected
        log := s.log ++ if s.connected then
          (if s.ended then [.close] else [.endRequest, .close]) else [] } := by
  rcases s with ⟨gate, frames, responseFinished, connected, ended, refusal, body, log, outputs⟩
  cases ended <;> cases connected <;>
    simp [State.fcgiFinishRequest, State.fcgiEnd, State.fcgiClose]

/-- The call of {lit}`write_output` that a bailout ends. -/
def cutOutputs : List Frame → List Output
  | .output data written _ :: _ => [{ data := data, written := written, cut := true }]
  | _ => []

/-- A bailout leaves the innermost frames. -/
def State.unwind (s : State) (depth : Nat) : State :=
  { s with
    frames := s.frames.drop depth
    outputs := s.outputs ++ cutOutputs s.frames }

/-! ## The callbacks -/

/-- The frame of the next call of {lit}`write_output`, which returns at once on a
finished response. -/
def State.blocks (s : State) : List Bytes → List Frame
  | [] => []
  | data :: todo => if s.responseFinished then [] else [.output data 0 todo]

/-- PHP calls the child. -/
def State.call (s : State) : Event → Option State
  | .writeOutput data => some { s with frames := s.blocks [data] ++ s.frames }
  | .sendHeaders httpResponseCode headers =>
      some { s with frames := s.blocks (headerBlocks httpResponseCode headers) ++ s.frames }
  | .flushOutput =>
      some (if s.responseFinished then s else { s with frames := .flushHeaders :: s.frames })
  | .readPost read =>
      if s.responseFinished then some s
      else
        (Request.readPost s.body read).map fun body =>
          { s with
            body := body
            log := s.log ++ [.stdin (s.body.stdin.take read.result.toNat)] }
  | .finishRequest =>
      some (if s.responseFinished then s else { s with frames := .outputEnd :: s.frames })
  | _ => none

/-- The innermost callback goes on. -/
def State.resume (s : State) (e : Event) : Option State :=
  match s.frames, e with
  | .output data written todo :: frames, .fcgiWrite result =>
      let part := partOf data.length written
      if written < data.length ∧ result ≤ part then
        let handed := (data.drop written).take part.toNat
        if result ≤ 0 then
          some
            { s with
              frames := .aborted todo :: frames
              log := s.log ++ [.output handed 0]
              outputs := s.outputs ++ [{ data := data, written := written, cut := true }] }
        else
          some
            { s with
              frames := .output data (written + result.toNat) todo :: frames
              log := s.log ++ [.output handed result.toNat] }
      else none
  | .output data written todo :: frames, .resume =>
      if written < data.length then none
      else
        some
          { s with
            frames := s.blocks todo ++ frames
            outputs := s.outputs ++ [{ data := data, written := written, cut := false }] }
  | .aborted todo :: frames, .resume => some { s with frames := s.blocks todo ++ frames }
  | .flushHeaders :: frames, .resume => some { s with frames := .flush :: frames }
  | .flush :: frames, .fcgiFlush true => some { s with frames := frames }
  | .flush :: frames, .fcgiFlush false => some { s with frames := .flushAborted :: frames }
  | .flushAborted :: frames, .resume => some { s with frames := frames }
  | .outputEnd :: frames, .resume => some { s with frames := .headersEnd :: frames }
  | .headersEnd :: frames, .resume => some { s with frames := .finish :: frames }
  | .finish :: frames, .resume =>
      some { s.fcgiEnd.fcgiClose with responseFinished := true, frames := frames }
  | _, _ => none

/-! ## The child -/

/-- The signals and bailouts, which come in whatever the callbacks do. -/
def interrupts : Child.Event → Bool
  | .raise _ | .deliver _ | .handler | .killed _ | .bailout => true
  | _ => false

/-- PHP runs, so it may call back. -/
def callable : Child.Phase → Bool
  | .requestStartup | .openScript | .execute | .missingScript | .requestShutdown _ => true
  | _ => false

/-- What a step of the child means for the connection. -/
def State.follow (view : View) (applicationRoot : Bytes) (params : Params) (s : State) :
    Child.Event → State
  | .readRequest true => { s with connected := true }
  | .examine _ =>
      match examine view applicationRoot params with
      | .refused status message => { s with refusal := (status, message) }
      | .admitted info => { s with body := { s.body with contentLength := info.contentLength } }
  | .requestStartup false =>
      { s with refusal := (500, bytes "PHP request startup failed.\n") }
  | .protocolError =>
      { s with
        log := s.log ++ [.protocol (protocolHeader s.refusal.1), .protocol s.refusal.2] }
  | .finishRequest => if s.responseFinished then s else s.fcgiFinishRequest
  | .bailout => s.unwind s.frames.length
  | _ => s

/-- PHP runs, and no signal handler does. -/
def State.running (s : State) : Bool :=
  callable s.gate.child.phase && s.gate.child.frames.isEmpty

/-- PHP's own code or the script runs. -/
def State.atEngine (s : State) : Bool :=
  match s.frames with
  | [] => true
  | frame :: _ => frame.engine

/-- One step of the child, of a callback or of PHP.  The main program of the child
waits for the callbacks. -/
def step (view : View) (applicationRoot : Bytes) (params : Params) :
    LabelledMachine.Machine State Event := fun s e =>
  match e with
  | .child e =>
      if interrupts e || s.frames.isEmpty then
        (Request.step view applicationRoot params s.gate e).map fun gate =>
          { s.follow view applicationRoot params e with gate := gate }
      else none
  | .caught depth =>
      if s.running && decide (0 < depth) && decide (depth ≤ s.frames.length) then
        some (s.unwind depth)
      else none
  | .fcgiWrite result => if s.running then s.resume (.fcgiWrite result) else none
  | .fcgiFlush flushed => if s.running then s.resume (.fcgiFlush flushed) else none
  | .resume => if s.running then s.resume .resume else none
  | e => if s.running && s.atEngine then s.call e else none

/-- A child before its request, with the STDIN that the request will have. -/
def start (inherited : List RawFd) (stdin : Bytes) : State where
  gate := Request.start inherited
  frames := []
  responseFinished := false
  connected := false
  ended := false
  refusal := (0, [])
  body := Body.start 0 stdin
  log := []
  outputs := []

/-! ## What one step can do -/

section Steps

variable (view : View) (applicationRoot : Bytes) (params : Params)

/-- The ways a request moves on. -/
inductive Step (s : State) : Event → State → Prop
  | child {e : Child.Event} {gate : Request.State}
      (hframes : interrupts e = true ∨ s.frames = [])
      (hgate : Request.step view applicationRoot params s.gate e = some gate) :
      Step s (.child e) { s.follow view applicationRoot params e with gate := gate }
  | caught {depth : Nat} (hrunning : s.running = true) (hpos : 0 < depth) :
      Step s (.caught depth) (s.unwind depth)
  /-- {lit}`write_output` or {lit}`send_headers` is called -/
  | called {e : Event} (blocks : List Bytes) (he : e.childEvent = none)
      (hrunning : s.running = true) (hengine : s.atEngine = true) :
      Step s e { s with frames := s.blocks blocks ++ s.frames }
  /-- {lit}`flush_output` or {lit}`fastcgi_finish_request` is called -/
  | entered {e : Event} {frame : Frame} (he : e.childEvent = none) (hrunning : s.running = true)
      (hengine : s.atEngine = true) (hopen : s.responseFinished = false)
      (hframe : frame.engine = true) : Step s e { s with frames := frame :: s.frames }
  /-- the callback returns at once -/
  | returned {e : Event} (he : e.childEvent = none) (hrunning : s.running = true)
      (hfinished : s.responseFinished = true) : Step s e s
  | read {read : Read} {body : Body} (hrunning : s.running = true)
      (hengine : s.atEngine = true) (hopen : s.responseFinished = false)
      (hread : Request.readPost s.body read = some body) :
      Step s (.readPost read)
        { s with
          body := body
          log := s.log ++ [.stdin (s.body.stdin.take read.result.toNat)] }
  | accepted {data : Bytes} {written : Nat} {todo : List Bytes} {frames : List Frame}
      {result : Int} (hrunning : s.running = true)
      (hframes : s.frames = .output data written todo :: frames)
      (hresult : result ≤ partOf data.length written) (hpos : 0 < result) :
      Step s (.fcgiWrite result)
        { s with
          frames := .output data (written + result.toNat) todo :: frames
          log := s.log ++ [.output
            ((data.drop written).take (partOf data.length written).toNat) result.toNat] }
  | failed {data : Bytes} {written : Nat} {todo : List Bytes} {frames : List Frame}
      {result : Int} (hrunning : s.running = true)
      (hframes : s.frames = .output data written todo :: frames) (hresult : result ≤ 0) :
      Step s (.fcgiWrite result)
        { s with
          frames := .aborted todo :: frames
          log := s.log ++ [.output
            ((data.drop written).take (partOf data.length written).toNat) 0]
          outputs := s.outputs ++ [{ data := data, written := written, cut := true }] }
  | completed {data : Bytes} {written : Nat} {todo : List Bytes} {frames : List Frame}
      (hrunning : s.running = true) (hframes : s.frames = .output data written todo :: frames)
      (hwritten : data.length ≤ written) :
      Step s .resume
        { s with
          frames := s.blocks todo ++ frames
          outputs := s.outputs ++ [{ data := data, written := written, cut := false }] }
  | continued {todo : List Bytes} {frames : List Frame} (hrunning : s.running = true)
      (hframes : s.frames = .aborted todo :: frames) :
      Step s .resume { s with frames := s.blocks todo ++ frames }
  /-- {lit}`flush_output` or {lit}`fastcgi_finish_request` goes on -/
  | advanced {e : Event} {frame frame' : Frame} {frames : List Frame} (he : e.childEvent = none)
      (hrunning : s.running = true) (hframes : s.frames = frame :: frames)
      (hquiet : ∀ data written todo, frame ≠ .output data written todo)
      (hquiet' : ∀ data written todo, frame' ≠ .output data written todo) :
      Step s e { s with frames := frame' :: frames }
  /-- {lit}`flush_output` returns -/
  | left {e : Event} {frame : Frame} {frames : List Frame} (he : e.childEvent = none)
      (hrunning : s.running = true) (hframes : s.frames = frame :: frames)
      (hquiet : ∀ data written todo, frame ≠ .output data written todo) :
      Step s e { s with frames := frames }
  /-- {lit}`fastcgi_finish_request` returns -/
  | finished {frames : List Frame} (hrunning : s.running = true)
      (hframes : s.frames = .finish :: frames) :
      Step s .resume { s.fcgiEnd.fcgiClose with responseFinished := true, frames := frames }

variable {view applicationRoot params}

/-- What the engine can call. -/
theorem call_cases {s s' : State} {e : Event} (hrunning : s.running = true)
    (hengine : s.atEngine = true) (h : s.call e = some s') :
    Step view applicationRoot params s e s' := by
  cases e with
  | writeOutput data =>
      cases h
      exact .called [data] rfl hrunning hengine
  | sendHeaders httpResponseCode headers =>
      cases h
      exact .called (headerBlocks httpResponseCode headers) rfl hrunning hengine
  | flushOutput =>
      rw [State.call] at h
      split at h
      case isTrue hfinished =>
        cases h
        exact .returned rfl hrunning hfinished
      case isFalse hopen =>
        cases h
        exact .entered rfl hrunning hengine (Bool.not_eq_true _ ▸ hopen) rfl
  | readPost read =>
      rw [State.call] at h
      split at h
      case isTrue hfinished =>
        cases h
        exact .returned rfl hrunning hfinished
      case isFalse hopen =>
        rcases Option.map_eq_some_iff.mp h with ⟨body, hread, rfl⟩
        exact .read hrunning hengine (Bool.not_eq_true _ ▸ hopen) hread
  | finishRequest =>
      rw [State.call] at h
      split at h
      case isTrue hfinished =>
        cases h
        exact .returned rfl hrunning hfinished
      case isFalse hopen =>
        cases h
        exact .entered rfl hrunning hengine (Bool.not_eq_true _ ▸ hopen) rfl
  | child | fcgiWrite | fcgiFlush | resume | caught => cases h

/-- What a callback can come back to. -/
theorem resume_cases {s s' : State} {e : Event} (hrunning : s.running = true)
    (h : s.resume e = some s') : Step view applicationRoot params s e s' := by
  unfold State.resume at h
  split at h
  case h_1 hframes =>
    dsimp only at h
    split at h
    case isTrue hpart =>
      split at h
      case isTrue hresult =>
        cases h
        exact .failed hrunning hframes hresult
      case isFalse hresult =>
        cases h
        exact .accepted hrunning hframes hpart.2 (not_le.mp hresult)
    case isFalse => cases h
  case h_2 hframes =>
    split at h
    case isTrue => cases h
    case isFalse hwritten =>
      cases h
      exact .completed hrunning hframes (not_lt.mp hwritten)
  case h_3 hframes =>
    cases h
    exact .continued hrunning hframes
  case h_4 hframes =>
    cases h
    exact .advanced rfl hrunning hframes (by simp) (by simp)
  case h_5 hframes =>
    cases h
    exact .left rfl hrunning hframes (by simp)
  case h_6 hframes =>
    cases h
    exact .advanced rfl hrunning hframes (by simp) (by simp)
  case h_7 hframes =>
    cases h
    exact .left rfl hrunning hframes (by simp)
  case h_8 hframes =>
    cases h
    exact .advanced rfl hrunning hframes (by simp) (by simp)
  case h_9 hframes =>
    cases h
    exact .advanced rfl hrunning hframes (by simp) (by simp)
  case h_10 hframes =>
    cases h
    exact .finished hrunning hframes
  case h_11 => cases h

/-- Every step is one of these. -/
theorem step_cases {s s' : State} {e : Event}
    (h : step view applicationRoot params s e = some s') :
    Step view applicationRoot params s e s' := by
  have hcall : (if s.running && s.atEngine then s.call e else none) = some s' →
      Step view applicationRoot params s e s' := by
    intro hcall
    rw [Option.ite_none_right_eq_some, Bool.and_eq_true] at hcall
    exact call_cases hcall.1.1 hcall.1.2 hcall.2
  have hresume : (if s.running then s.resume e else none) = some s' →
      Step view applicationRoot params s e s' := by
    intro hresume
    rw [Option.ite_none_right_eq_some] at hresume
    exact resume_cases hresume.1 hresume.2
  cases e with
  | child e =>
      rw [step] at h
      split at h
      case isTrue hframes =>
        rcases Option.map_eq_some_iff.mp h with ⟨gate, hgate, rfl⟩
        rw [Bool.or_eq_true, List.isEmpty_iff] at hframes
        exact .child hframes hgate
      case isFalse => cases h
  | caught depth =>
      rw [step] at h
      split at h
      case isTrue hcaught =>
        cases h
        simp only [Bool.and_eq_true, decide_eq_true_eq] at hcaught
        exact .caught hcaught.1.1 hcaught.1.2
      case isFalse => cases h
  | fcgiWrite | fcgiFlush | resume => exact hresume h
  | writeOutput | sendHeaders | flushOutput | readPost | finishRequest => exact hcall h

/-- Only the child itself changes what it was before its callbacks. -/
theorem gate_of_callback {s s' : State} {e : Event}
    (hstep : Step view applicationRoot params s e s') (he : e.childEvent = none) :
    s'.gate = s.gate := by
  cases hstep with
  | child => cases he
  | finished => rw [fcgiClose_fcgiEnd]
  | caught | called | entered | returned | read | accepted | failed | completed | continued |
      advanced | left => rfl

/-- A request refines the child with its script. -/
theorem gate_simulation (view : View) (applicationRoot : Bytes) (params : Params) :
    LabelledMachine.Simulation (step view applicationRoot params)
      (Request.step view applicationRoot params) Event.childEvent fun s t => s.gate = t where
  silent {s e s' t} ht hstep hproj := by
    rw [gate_of_callback (step_cases hstep) hproj, ht]
  visible {s e s' t d} ht hstep hproj := by
    cases step_cases hstep with
    | child _ hgate =>
        cases hproj
        exact ⟨_, ht ▸ hgate, rfl⟩
    | caught | read | accepted | failed | completed | continued | finished => cases hproj
    | called _ he | entered he | returned he | advanced he | left he =>
        rw [he] at hproj
        cases hproj

/-- A run of the callbacks is a run of the gate underneath. -/
theorem gate_run {inherited : List RawFd} {stdin : Bytes} {es : List Event} {s : State}
    (hrun : LabelledMachine.exec (step view applicationRoot params) (start inherited stdin) es =
      some s) :
    LabelledMachine.exec (Request.step view applicationRoot params) (Request.start inherited)
      (es.filterMap Event.childEvent) = some s.gate := by
  rcases (gate_simulation view applicationRoot params).exec rfl hrun with ⟨gate, hgate, rfl⟩
  exact hgate

end Steps

end Callbacks

end Request

end Polychrome

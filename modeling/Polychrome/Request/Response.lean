import Polychrome.Request.Stages

/-!
# One response for each request

This module follows the connection of a request through the callbacks, the
bailouts and the exits of {lit}`poly_serve_one`.  Its log is compared with the
exchange a client expects: bytes both ways, one end of the request, one close.

The four callbacks and the clean-up look at {lit}`response_finished`, and
{lit}`protocol_error` does not.  It comes behind the end of the request when code
that runs while PHP starts the request up has finished the response and the
start-up fails after that; nothing else hands over a byte behind the end.

Main results:

- Theorem {lit}`accounted_step`: the account of the outputs.
- Theorem {lit}`delivered_of_run`: the body of a request in a whole run.
- Theorem {lit}`response_ends_once`: one end for each request, behind all output.
-/

namespace Polychrome

namespace Request

namespace Callbacks

open Posix Clib

/-! ## The exchange -/

/-- What the client of a request has seen of its end. -/
inductive Exchange
  | underWay
  | ended
  | closed
deriving DecidableEq, Repr

/-- The exchange takes bytes both ways until the request is ended, and then the
connection is closed. -/
def Exchange.step : LabelledMachine.Machine Exchange Op
  | .underWay, .output _ _ | .underWay, .protocol _ | .underWay, .stdin _ => some .underWay
  | .underWay, .endRequest => some .ended
  | .ended, .close => some .closed
  | _, _ => none

/-- Only the close is behind the end of the request. -/
theorem Exchange.behind_end {x : Exchange} {before after : List Op}
    (h : LabelledMachine.exec step .underWay (before ++ .endRequest :: after) = some x) :
    after = [] ∨ after = [.close] := by
  rcases LabelledMachine.exec_append_eq_some_iff.mp h with ⟨y, -, hend⟩
  rcases Option.bind_eq_some_iff.mp hend with ⟨z, hstep, hafter⟩
  have hz : z = .ended := by
    cases y with
    | underWay =>
        cases hstep
        rfl
    | ended | closed => cases hstep
  subst hz
  match after, hafter with
  | [], _ => exact Or.inl rfl
  | [.close], _ => exact Or.inr rfl
  | .close :: _ :: _, hafter => cases hafter
  | .output _ _ :: _, hafter => cases hafter
  | .protocol _ :: _, hafter => cases hafter
  | .stdin _ :: _, hafter => cases hafter
  | .endRequest :: _, hafter => cases hafter

/-- The request is ended once if at all. -/
theorem Exchange.count_end {x : Exchange} {log : List Op}
    (h : LabelledMachine.exec step .underWay log = some x) :
    log.count .endRequest = if x = .underWay then 0 else 1 := by
  refine LabelledMachine.exec_history_induction
    (P := fun log x => log.count .endRequest = if x = .underWay then 0 else 1) rfl ?_ h
  intro log x op y _ hcount hstep
  rw [List.count_append, hcount]
  cases x with
  | underWay => cases op <;> cases hstep <;> rfl
  | ended =>
      cases op <;> cases hstep
      rfl
  | closed => cases hstep

section Runs

variable {view : View} {applicationRoot : Bytes} {params : Params}

/-! ## The account of the output -/

/-- What the call of {lit}`write_output` under way has brought to the connection. -/
def inFlight : List Frame → Bytes
  | .output data written _ :: _ => data.take written
  | _ => []

/-- The log is an exchange, and what it has accepted is what the calls of
{lit}`write_output` have brought, in their order. -/
structure State.Accounted (s : State) : Prop where
  exchanged : LabelledMachine.exec Exchange.step .underWay s.log =
    some (if s.ended then .closed else .underWay)
  sent : s.log.flatMap Op.accepted = s.outputs.flatMap Output.sent ++ inFlight s.frames
  whole : ∀ output ∈ s.outputs, output.cut = false → output.sent = output.data
  writing : ∀ data written todo frames, s.frames = .output data written todo :: frames →
    s.ended = false ∧ written ≤ data.length

/-- The engine writes no block of its own. -/
theorem not_output_of_engine {frames frames' : List Frame} {data : Bytes} {written : Nat}
    {todo : List Bytes} (h : ∀ frame ∈ frames, frame.engine = true) :
    frames ≠ .output data written todo :: frames' := by
  rintro rfl
  cases h _ List.mem_cons_self

/-- The engine has nothing in flight. -/
theorem inFlight_of_engine {frames : List Frame} (h : ∀ frame ∈ frames, frame.engine = true) :
    inFlight frames = [] := by
  cases frames with
  | nil => rfl
  | cons frame frames =>
      cases frame with
      | output => cases h _ List.mem_cons_self
      | aborted | flushHeaders | flush | flushAborted | outputEnd | headersEnd | finish => rfl

/-- Only a block under way is in flight. -/
theorem inFlight_of_quiet {frame : Frame} {frames : List Frame}
    (h : ∀ data written todo, frame ≠ .output data written todo) :
    inFlight (frame :: frames) = [] := by
  unfold inFlight
  split
  case h_1 hframes => exact absurd (List.cons.inj hframes).1 (h _ _ _)
  case h_2 => rfl

/-- A new call of {lit}`write_output` has brought nothing. -/
theorem inFlight_blocks {s : State} {blocks : List Bytes} {frames : List Frame}
    (h : ∀ frame ∈ frames, frame.engine = true) : inFlight (s.blocks blocks ++ frames) = [] := by
  unfold State.blocks
  split
  · exact inFlight_of_engine h
  · split
    · exact inFlight_of_engine h
    · rfl

/-- A block that is begun is begun on an open response. -/
theorem writing_blocks {s : State} {blocks : List Bytes} {frames : List Frame}
    (hflag : s.responseFinished = s.ended) (h : ∀ frame ∈ frames, frame.engine = true) :
    ∀ data written todo frames', s.blocks blocks ++ frames = .output data written todo :: frames' →
      s.ended = false ∧ written ≤ data.length := by
  intro data written todo frames' hframes
  unfold State.blocks at hframes
  split at hframes
  case h_1 => exact absurd hframes (not_output_of_engine h)
  case h_2 =>
    split at hframes
    case isTrue => exact absurd hframes (not_output_of_engine h)
    case isFalse hopen =>
      cases hframes
      exact ⟨hflag ▸ Bool.not_eq_true _ ▸ hopen, Nat.zero_le _⟩

/-- The outputs of a bailout. -/
theorem sent_cutOutputs (frames : List Frame) :
    (cutOutputs frames).flatMap Output.sent = inFlight frames := by
  unfold cutOutputs inFlight
  split <;> simp [Output.sent]

/-- A bailout ends the call under way where it is. -/
theorem State.Accounted.unwind {s : State} (h : s.Accounted) {depth : Nat}
    (hengine : ∀ frame ∈ s.frames.drop depth, frame.engine = true) :
    (s.unwind depth).Accounted where
  exchanged := h.exchanged
  sent := by
    rw [State.unwind]
    dsimp only
    rw [inFlight_of_engine hengine, List.flatMap_append, sent_cutOutputs, List.append_nil, h.sent]
  whole := by
    intro output hmem hcut
    rcases List.mem_append.mp hmem with hmem | hmem
    · exact h.whole output hmem hcut
    · unfold cutOutputs at hmem
      split at hmem
      · rw [List.mem_singleton.mp hmem] at hcut
        cases hcut
      · cases hmem
  writing := by
    intro data written todo frames hframes
    exact absurd hframes (not_output_of_engine hengine)

/-- The exchange goes on while the request is not ended. -/
theorem State.Accounted.append {s : State} (h : s.Accounted) (hended : s.ended = false)
    {ops : List Op} {x : Exchange}
    (hops : LabelledMachine.exec Exchange.step .underWay ops = some x) :
    LabelledMachine.exec Exchange.step .underWay (s.log ++ ops) = some x := by
  have hexchanged := h.exchanged
  rw [hended] at hexchanged
  exact LabelledMachine.exec_append_eq_some_iff.mpr ⟨.underWay, hexchanged, hops⟩

/-- A response that is under way can be ended. -/
theorem State.Accounted.append_end {s : State} (h : s.Accounted) (hended : s.ended = false) :
    LabelledMachine.exec Exchange.step .underWay (s.log ++ [.endRequest, .close]) =
      some .closed :=
  h.append hended rfl

/-- A call of the child keeps the account. -/
theorem accounted_child {s : State} {e : Child.Event} {gate : Request.State} (h : s.Accounted)
    (hfits : s.Fits) (hframes : interrupts e = true ∨ s.frames = [])
    (hgate : Request.step view applicationRoot params s.gate e = some gate) :
    State.Accounted { s.follow view applicationRoot params e with gate := gate } := by
  have hunwind : (s.unwind s.frames.length).Accounted := h.unwind (by simp)
  have hturn := turn_of_gate hgate
  unfold State.Fits at hfits
  generalize stage s.gate.child.phase = k at hfits hturn
  generalize stage gate.child.phase = k' at hturn
  cases hturn with
  | kept hcalm | died hcalm | noRequest hcalm =>
      rw [follow_of_calm hcalm]
      exact ⟨h.exchanged, h.sent, h.whole, h.writing⟩
  | requestRead | startupFailed | shutDown => exact ⟨h.exchanged, h.sent, h.whole, h.writing⟩
  | admitted | refused =>
      rw [State.follow]
      split <;> exact ⟨h.exchanged, h.sent, h.whole, h.writing⟩
  | initBailedOut | examineBailedOut | scriptBailedOut | bailedOut =>
      exact ⟨hunwind.exchanged, hunwind.sent, hunwind.whole, hunwind.writing⟩
  | refusalWritten =>
      have hended := hfits.2.2
      refine ⟨?_, ?_, h.whole, h.writing⟩
      · rw [State.follow, hended]
        exact h.append hended rfl
      · rw [State.follow, List.flatMap_append, h.sent]
        simp [Op.accepted]
  | finished =>
      rw [State.follow]
      split
      case isTrue => exact ⟨h.exchanged, h.sent, h.whole, h.writing⟩
      case isFalse hopen =>
        have hended : s.ended = false := hfits.1 ▸ Bool.not_eq_true _ ▸ hopen
        have hnone : s.frames = [] := hframes.resolve_left (by simp [interrupts])
        have hwriting : ∀ data written todo frames,
            s.frames ≠ .output data written todo :: frames := by
          simp [hnone]
        rw [fcgiFinishRequest_eq]
        cases hconnected : s.connected with
        | false =>
            refine ⟨?_, ?_, h.whole, fun _ _ _ _ hframes => absurd hframes (hwriting _ _ _ _)⟩
            · simpa [hended] using h.exchanged
            · simpa using h.sent
        | true =>
            refine ⟨?_, ?_, h.whole, fun _ _ _ _ hframes => absurd hframes (hwriting _ _ _ _)⟩
            · simpa [hended] using h.append_end hended
            · simp [hended, h.sent, Op.accepted]

/-- What the connection takes of a part. -/
theorem take_part {data : Bytes} {written : Nat} {result : Int}
    (hresult : result ≤ partOf data.length written) :
    data.take written ++
        ((data.drop written).take (partOf data.length written).toNat).take result.toNat =
      data.take (written + result.toNat) := by
  rw [List.take_take, min_eq_left (by omega), List.take_add]

section Calls

variable {s : State}

/-- A callback that writes has brought nothing when it is called. -/
theorem State.Accounted.called (h : s.Accounted) (hflag : s.responseFinished = s.ended)
    (hengines : ∀ frame ∈ s.frames, frame.engine = true) (blocks : List Bytes) :
    State.Accounted { s with frames := s.blocks blocks ++ s.frames } := by
  refine ⟨h.exchanged, ?_, h.whole, writing_blocks hflag hengines⟩
  rw [inFlight_blocks hengines, h.sent, inFlight_of_engine hengines]

/-- A frame that flushes or finishes has nothing in flight. -/
theorem State.Accounted.entered {frame : Frame} (h : s.Accounted) (hframe : frame.engine = true)
    (hengines : ∀ frame ∈ s.frames, frame.engine = true) :
    State.Accounted { s with frames := frame :: s.frames } := by
  have hengines' : ∀ frame' ∈ frame :: s.frames, frame'.engine = true :=
    List.forall_mem_cons.mpr ⟨hframe, hengines⟩
  refine ⟨h.exchanged, ?_, h.whole, ?_⟩
  · rw [inFlight_of_engine hengines', h.sent, inFlight_of_engine hengines]
  · intro data written todo frames hframes
    exact absurd hframes (not_output_of_engine hengines')

/-- Input is no output. -/
theorem State.Accounted.read (h : s.Accounted) (hended : s.ended = false) (body : Body)
    (taken : Bytes) :
    State.Accounted { s with body := body, log := s.log ++ [.stdin taken] } := by
  refine ⟨?_, ?_, h.whole, h.writing⟩
  · rw [hended]
    exact h.append hended rfl
  · rw [List.flatMap_append, h.sent]
    simp [Op.accepted]

/-- What {lit}`fcgi_write` takes of a part is brought by the call under way. -/
theorem State.Accounted.accepted {data : Bytes} {written : Nat} {todo : List Bytes}
    {frames : List Frame} {result : Int} (h : s.Accounted)
    (hframes : s.frames = .output data written todo :: frames)
    (hresult : result ≤ partOf data.length written) (hpos : 0 < result) :
    State.Accounted
      { s with
        frames := .output data (written + result.toNat) todo :: frames
        log := s.log ++ [.output
          ((data.drop written).take (partOf data.length written).toNat) result.toNat] } := by
  have hwriting := h.writing _ _ _ _ hframes
  refine ⟨?_, ?_, h.whole, ?_⟩
  · rw [hwriting.1]
    exact h.append hwriting.1 rfl
  · rw [List.flatMap_append, h.sent, hframes]
    simp [Op.accepted, inFlight, take_part hresult]
  · intro data' written' todo' frames' hframes'
    cases hframes'
    rw [partOf_eq] at hresult
    exact ⟨hwriting.1, by omega⟩

/-- A call of {lit}`write_output` that fails has brought what it had before. -/
theorem State.Accounted.failed {data : Bytes} {written : Nat} {todo : List Bytes}
    {frames : List Frame} (h : s.Accounted)
    (hframes : s.frames = .output data written todo :: frames) (part : Bytes) :
    State.Accounted
      { s with
        frames := .aborted todo :: frames
        log := s.log ++ [.output part 0]
        outputs := s.outputs ++ [{ data := data, written := written, cut := true }] } := by
  have hended := (h.writing _ _ _ _ hframes).1
  refine ⟨?_, ?_, ?_, ?_⟩
  · rw [hended]
    exact h.append hended rfl
  · rw [List.flatMap_append, h.sent, hframes]
    simp [Op.accepted, inFlight, Output.sent]
  · intro output hmem hcut
    rcases List.mem_append.mp hmem with hmem | hmem
    · exact h.whole output hmem hcut
    · rw [List.mem_singleton.mp hmem] at hcut
      cases hcut
  · intro data' written' todo' frames' hframes'
    cases hframes'

/-- A call that comes to its end has brought the whole block. -/
theorem State.Accounted.completed {data : Bytes} {written : Nat} {todo : List Bytes}
    {frames : List Frame} (h : s.Accounted) (hflag : s.responseFinished = s.ended)
    (hframes : s.frames = .output data written todo :: frames) (hwritten : data.length ≤ written)
    (hengines : ∀ frame ∈ frames, frame.engine = true) :
    State.Accounted
      { s with
        frames := s.blocks todo ++ frames
        outputs := s.outputs ++ [{ data := data, written := written, cut := false }] } := by
  refine ⟨h.exchanged, ?_, ?_, writing_blocks hflag hengines⟩
  · rw [inFlight_blocks hengines, h.sent, hframes]
    simp [inFlight, Output.sent]
  · intro output hmem hcut
    rcases List.mem_append.mp hmem with hmem | hmem
    · exact h.whole output hmem hcut
    · rw [List.mem_singleton.mp hmem]
      exact List.take_of_length_le hwritten

/-- The next block begins with nothing brought. -/
theorem State.Accounted.continued {frame : Frame} {todo : List Bytes} {frames : List Frame}
    (h : s.Accounted) (hflag : s.responseFinished = s.ended) (hframes : s.frames = frame :: frames)
    (hquiet : ∀ data written todo, frame ≠ .output data written todo)
    (hengines : ∀ frame ∈ frames, frame.engine = true) :
    State.Accounted { s with frames := s.blocks todo ++ frames } := by
  refine ⟨h.exchanged, ?_, h.whole, writing_blocks hflag hengines⟩
  rw [inFlight_blocks hengines, h.sent, hframes, inFlight_of_quiet hquiet]

/-- A callback that does not write goes on. -/
theorem State.Accounted.advanced {frame frame' : Frame} {frames : List Frame} (h : s.Accounted)
    (hframes : s.frames = frame :: frames)
    (hquiet : ∀ data written todo, frame ≠ .output data written todo)
    (hquiet' : ∀ data written todo, frame' ≠ .output data written todo) :
    State.Accounted { s with frames := frame' :: frames } := by
  refine ⟨h.exchanged, ?_, h.whole, ?_⟩
  · rw [inFlight_of_quiet hquiet', h.sent, hframes, inFlight_of_quiet hquiet]
  · intro data written todo frames' hframes'
    cases hframes'
    exact absurd rfl (hquiet' data written todo)

/-- A callback that does not write returns. -/
theorem State.Accounted.left {frame : Frame} {frames : List Frame} (h : s.Accounted)
    (hframes : s.frames = frame :: frames)
    (hquiet : ∀ data written todo, frame ≠ .output data written todo)
    (hengines : ∀ frame ∈ frames, frame.engine = true) :
    State.Accounted { s with frames := frames } := by
  refine ⟨h.exchanged, ?_, h.whole, ?_⟩
  · rw [inFlight_of_engine hengines, h.sent, hframes, inFlight_of_quiet hquiet]
  · intro data written todo frames' hframes'
    exact absurd hframes' (not_output_of_engine hengines)

/-- The end of the request brings no output. -/
theorem State.Accounted.finished {frames : List Frame} (h : s.Accounted)
    (hconnected : s.connected = !s.ended) (hframes : s.frames = .finish :: frames)
    (hengines : ∀ frame ∈ frames, frame.engine = true) :
    State.Accounted { s.fcgiEnd.fcgiClose with responseFinished := true, frames := frames } := by
  have hsent := h.sent
  rw [hframes] at hsent
  rw [fcgiClose_fcgiEnd]
  refine ⟨?_, ?_, h.whole, ?_⟩
  · cases hended : s.ended with
    | true => simpa [hconnected, hended] using h.exchanged
    | false => simpa [hconnected, hended] using h.append_end hended
  · dsimp only
    rw [inFlight_of_engine hengines, List.flatMap_append, hsent]
    cases hended : s.ended <;> simp [hconnected, hended, Op.accepted, inFlight]
  · intro data written todo frames' hframes'
    exact absurd hframes' (not_output_of_engine hengines)

end Calls

/-- Every step of the request keeps the account of its output. -/
theorem accounted_step {s s' : State} {e : Event} (h : s.Accounted) (hfits : s.Fits)
    (hnested : s.Nested) (hstep : Step view applicationRoot params s e s') : s'.Accounted := by
  have hbelow := hnested
  rw [State.Nested] at hbelow
  cases hstep with
  | child hframes hgate => exact accounted_child h hfits hframes hgate
  | caught hrunning hpos =>
      apply h.unwind
      intro frame hmem
      rw [← List.drop_one] at hbelow
      exact hbelow frame (List.drop_subset_drop_left s.frames hpos hmem)
  | called blocks _ hrunning hengine =>
      exact h.called (hfits.running hrunning).1 (engine_frames hnested hengine) blocks
  | entered _ hrunning hengine hopen hframe =>
      exact h.entered hframe (engine_frames hnested hengine)
  | returned => exact h
  | read hrunning hengine hopen hread =>
      exact h.read ((hfits.running hrunning).1 ▸ hopen) _ _
  | accepted hrunning hframes hresult hpos => exact h.accepted hframes hresult hpos
  | failed hrunning hframes hresult => exact h.failed hframes _
  | completed hrunning hframes hwritten =>
      rw [hframes, List.tail_cons] at hbelow
      exact h.completed (hfits.running hrunning).1 hframes hwritten hbelow
  | continued hrunning hframes =>
      rw [hframes, List.tail_cons] at hbelow
      exact h.continued (hfits.running hrunning).1 hframes (fun _ _ _ hs => by cases hs) hbelow
  | advanced _ hrunning hframes hquiet hquiet' => exact h.advanced hframes hquiet hquiet'
  | left _ hrunning hframes hquiet =>
      rw [hframes, List.tail_cons] at hbelow
      exact h.left hframes hquiet hbelow
  | finished hrunning hframes =>
      rw [hframes, List.tail_cons] at hbelow
      exact h.finished (hfits.running hrunning).2 hframes hbelow

/-! ## The body -/

/-- The body is sound, and fresh until the request is examined. -/
structure State.Reading (stdin : Bytes) (s : State) : Prop where
  sound : s.body.Sound s.body.contentLength stdin
  fresh : stage s.gate.child.phase = .waiting ∨ stage s.gate.child.phase = .read →
    s.body = Body.start 0 stdin

/-- A call of the child keeps what was read. -/
theorem reading_child {stdin : Bytes} {s : State} {e : Child.Event} {gate : Request.State}
    (h : s.Reading stdin)
    (hgate : Request.step view applicationRoot params s.gate e = some gate) :
    State.Reading stdin { s.follow view applicationRoot params e with gate := gate } := by
  have hturn := turn_of_gate hgate
  have hsound := h.sound
  have hfresh := h.fresh
  generalize stage s.gate.child.phase = k at hfresh hturn
  generalize hk : stage gate.child.phase = k' at hturn
  suffices hkeep : (s.follow view applicationRoot params e).body.Sound
      (s.follow view applicationRoot params e).body.contentLength stdin ∧
        (k' = .waiting ∨ k' = .read →
          (s.follow view applicationRoot params e).body = Body.start 0 stdin) from
    ⟨hkeep.1, hk ▸ hkeep.2⟩
  cases hturn with
  | kept hcalm =>
      rw [follow_of_calm hcalm]
      exact ⟨hsound, hfresh⟩
  | died hcalm | noRequest hcalm =>
      rw [follow_of_calm hcalm]
      exact ⟨hsound, by simp⟩
  | requestRead => exact ⟨hsound, fun _ => hfresh (Or.inl rfl)⟩
  | admitted | refused =>
      rw [State.follow]
      split
      case h_1 => exact ⟨hsound, by simp⟩
      case h_2 info hinfo =>
        rw [hfresh (Or.inr rfl)]
        exact ⟨Body.Sound.start (bodyLength_nonneg (contentLength_of_admitted hinfo)) stdin,
          by simp⟩
  | initBailedOut | examineBailedOut | scriptBailedOut | bailedOut | startupFailed |
      refusalWritten | shutDown => exact ⟨hsound, by simp⟩
  | finished =>
      rw [State.follow, fcgiFinishRequest_eq]
      split <;> exact ⟨hsound, by simp⟩

/-- Every step keeps what was read. -/
theorem reading_step {stdin : Bytes} {s s' : State} {e : Event} (h : s.Reading stdin)
    (hstep : Step view applicationRoot params s e s') : s'.Reading stdin := by
  cases hstep with
  | child _ hgate => exact reading_child h hgate
  | read hrunning hengine hopen hread =>
      have hsound := h.sound.readPost hread
      refine ⟨hsound.announced ▸ hsound, ?_⟩
      dsimp only
      rw [running_stage hrunning]
      simp
  | finished =>
      rw [fcgiClose_fcgiEnd]
      exact ⟨h.sound, h.fresh⟩
  | caught | called | entered | returned | accepted | failed | completed | continued |
      advanced | left => exact ⟨h.sound, h.fresh⟩

/-- In every run, what PHP gets is a beginning of STDIN within the announced length. -/
theorem delivered_of_run {inherited : List RawFd} {stdin : Bytes} {es : List Event} {s : State}
    (hrun : LabelledMachine.exec (step view applicationRoot params) (start inherited stdin) es =
      some s) :
    s.body.delivered <+: stdin ∧ (s.body.delivered.length : Int) ≤ s.body.contentLength := by
  have hstart : (start inherited stdin).Reading stdin :=
    ⟨Body.Sound.start (le_refl 0) stdin, fun _ => rfl⟩
  have hreading : s.Reading stdin :=
    LabelledMachine.exec_invariant (I := State.Reading stdin)
      (fun _ _ _ h hstep => reading_step h (step_cases hstep)) hstart hrun
  exact ⟨(List.prefix_append _ _).trans hreading.sound.kept, hreading.sound.bounded⟩

end Runs

/-! ## One response -/

/-- {lit}`php_request_startup` never fails behind {lit}`fastcgi_finish_request`: where it
fails, the response is not finished. -/
def StartupFailsOpen (view : View) (applicationRoot : Bytes) (params : Params)
    (inherited : List RawFd) (stdin : Bytes) (es : List Event) : Prop :=
  ∀ before after t, es = before ++ .child (.requestStartup false) :: after →
    LabelledMachine.exec (step view applicationRoot params) (start inherited stdin) before =
      some t → t.responseFinished = false

/-- What is known of the response after a run. -/
structure ResponseLaws (view : View) (applicationRoot : Bytes) (params : Params)
    (inherited : List RawFd) (stdin : Bytes) (es : List Event) (s : State) : Prop where
  once : .child (.readRequest true) ∈ es → (∃ result, s.gate.child.phase = .returned result) →
    s.log.count .endRequest = 1
  atMostOnce : s.log.count .endRequest ≤ 1
  silent : ∀ before after, s.log = before ++ .endRequest :: after →
    ∀ op ∈ after, op.stdout = [] ∧ op.taken = []
  finished : s.responseFinished = true → .endRequest ∈ s.log
  unread : ∀ before after t, es = before ++ after →
    LabelledMachine.exec (step view applicationRoot params) (start inherited stdin) before =
      some t → t.responseFinished = true → s.body.stdin = t.body.stdin
  ordered : ∀ before after, s.log = before ++ .endRequest :: after →
    before.flatMap Op.accepted = s.outputs.flatMap Output.sent
  whole : ∀ output ∈ s.outputs, output.cut = false → output.sent = output.data

section Runs

variable {view : View} {applicationRoot : Bytes} {params : Params} {inherited : List RawFd}
  {stdin : Bytes}

/-- What holds of a run's failing start-ups holds of its beginnings. -/
theorem StartupFailsOpen.earlier {es : List Event} {e : Event}
    (h : StartupFailsOpen view applicationRoot params inherited stdin (es ++ [e])) :
    StartupFailsOpen view applicationRoot params inherited stdin es := by
  intro before after t hes
  apply h before (after ++ [e]) t
  rw [hes, List.append_assoc]
  rfl

/-- The invariants hold along a run. -/
theorem sound_of_run {es : List Event} {s : State}
    (hrun : LabelledMachine.exec (step view applicationRoot params) (start inherited stdin) es =
      some s)
    (hopen : StartupFailsOpen view applicationRoot params inherited stdin es) :
    s.Fits ∧ s.Nested ∧ s.Accounted := by
  refine LabelledMachine.exec_history_induction
    (P := fun es s => StartupFailsOpen view applicationRoot params inherited stdin es →
      s.Fits ∧ s.Nested ∧ s.Accounted) ?_ ?_ hrun hopen
  · intro _
    refine ⟨⟨rfl, rfl, rfl⟩, by simp [State.Nested, start], ⟨rfl, rfl, ?_, ?_⟩⟩
    · simp [start]
    · intro data written todo frames hframes
      cases hframes
  · intro es s e s' hrun hbefore hstep hopen
    rcases hbefore hopen.earlier with ⟨hfits, hnested, haccounted⟩
    have hcases := step_cases hstep
    refine ⟨fits_step hfits ?_ hcases, nested_step hnested hcases,
      accounted_step haccounted hfits hnested hcases⟩
    rintro rfl
    exact hopen es [] s rfl hrun

/-- What has been opened is open or ended. -/
theorem opened_step {s s' : State} {e : Event} (h : s.connected = true ∨ s.ended = true)
    (hstep : Step view applicationRoot params s e s') :
    s'.connected = true ∨ s'.ended = true := by
  cases hstep with
  | child =>
      dsimp only
      unfold State.follow
      split
      case h_1 => exact Or.inl rfl
      case h_2 => split <;> exact h
      case h_5 =>
        rw [fcgiFinishRequest_eq]
        split
        · exact h
        · exact Or.inr (by simpa [or_comm] using h)
      all_goals exact h
  | finished =>
      rw [fcgiClose_fcgiEnd]
      exact Or.inr rfl
  | caught | called | entered | returned | read | accepted | failed | completed | continued |
      advanced | left => exact h

/-- A request that was read is open or ended. -/
theorem opened_of_run {es : List Event} {s : State}
    (hrun : LabelledMachine.exec (step view applicationRoot params) (start inherited stdin) es =
      some s) (hread : .child (.readRequest true) ∈ es) :
    s.connected = true ∨ s.ended = true := by
  refine LabelledMachine.exec_history_induction
    (P := fun es s => .child (.readRequest true) ∈ es → s.connected = true ∨ s.ended = true)
    (fun h => by cases h) ?_ hrun hread
  intro es s e s' _ hbefore hstep hmem
  have hcases := step_cases hstep
  rcases List.mem_append.mp hmem with hmem | hmem
  · exact opened_step (hbefore hmem) hcases
  · rw [← List.mem_singleton.mp hmem] at hcases
    cases hcases with
    | child => exact Or.inl rfl
    | called _ he | entered he | returned he | advanced he | left he => cases he

/-- A finished response stays finished, and nothing is read for it. -/
theorem finished_step {s s' : State} {e : Event} (h : s.responseFinished = true)
    (hstep : Step view applicationRoot params s e s') :
    s'.responseFinished = true ∧ s'.body.stdin = s.body.stdin := by
  cases hstep with
  | child =>
      dsimp only
      unfold State.follow
      split
      case h_2 => split <;> exact ⟨h, rfl⟩
      case h_5 =>
        rw [if_pos h]
        exact ⟨h, rfl⟩
      all_goals exact ⟨h, rfl⟩
  | finished =>
      rw [fcgiClose_fcgiEnd]
      exact ⟨rfl, rfl⟩
  | read _ _ hopen =>
      rw [h] at hopen
      cases hopen
  | caught | called | entered | returned | accepted | failed | completed | continued |
      advanced | left => exact ⟨h, rfl⟩

/-- Nothing is read behind the end of the response. -/
theorem read_of_finished {es : List Event} {s t : State} (h : s.responseFinished = true)
    (hrun : LabelledMachine.exec (step view applicationRoot params) s es = some t) :
    t.body.stdin = s.body.stdin := by
  have hkept := LabelledMachine.exec_invariant
    (I := fun u : State => u.responseFinished = true ∧ u.body.stdin = s.body.stdin)
    (fun u e u' hu hstep => by
      have hnext := finished_step hu.1 (step_cases hstep)
      exact ⟨hnext.1, hnext.2.trans hu.2⟩) ⟨h, rfl⟩ hrun
  exact hkept.2

/-- Where the request is ended, no output is under way. -/
theorem State.Accounted.inFlight_of_ended {s : State} (h : s.Accounted)
    (hended : s.ended = true) : inFlight s.frames = [] := by
  unfold inFlight
  split
  case h_1 hframes =>
    have hopen := (h.writing _ _ _ _ hframes).1
    rw [hended] at hopen
    cases hopen
  case h_2 => rfl

/-- The end is written once, if at all. -/
theorem State.Accounted.count_end {s : State} (h : s.Accounted) :
    s.log.count .endRequest = if s.ended then 1 else 0 := by
  rw [Exchange.count_end h.exchanged]
  cases s.ended <;> rfl

/-- The laws hold while no start-up fails behind the end. -/
theorem responseLaws_of_open {es : List Event} {s : State}
    (hrun : LabelledMachine.exec (step view applicationRoot params) (start inherited stdin) es =
      some s)
    (hopen : StartupFailsOpen view applicationRoot params inherited stdin es) :
    ResponseLaws view applicationRoot params inherited stdin es s := by
  rcases sound_of_run hrun hopen with ⟨hfits, hnested, haccounted⟩
  have hexchanged := haccounted.exchanged
  have hcount := haccounted.count_end
  constructor
  · rintro hread ⟨result, hreturned⟩
    rw [State.Fits, hreturned] at hfits
    have hended : s.ended = true := by
      rcases opened_of_run hrun hread with hconnected | hended
      · rw [hfits.2] at hconnected
        cases hconnected
      · exact hended
    rw [hcount, hended]
    rfl
  · rw [hcount]
    split
    · exact le_refl 1
    · exact Nat.zero_le 1
  · intro before after hlog op hmem
    rw [hlog] at hexchanged
    rcases Exchange.behind_end hexchanged with rfl | rfl
    · cases hmem
    · rw [List.mem_singleton.mp hmem]
      exact ⟨rfl, rfl⟩
  · intro hfinished
    rw [← List.count_pos_iff, hcount, hfits.finished hfinished]
    exact Nat.one_pos
  · intro before after t hes ht hfinished
    rw [hes] at hrun
    rcases LabelledMachine.exec_append_eq_some_iff.mp hrun with ⟨t', ht', hafter⟩
    rw [ht] at ht'
    cases ht'
    exact read_of_finished hfinished hafter
  · intro before after hlog
    have hended : s.ended = true := by
      by_contra hopen
      rw [hlog, if_neg hopen] at hcount
      simp at hcount
    have hsent := haccounted.sent
    rw [haccounted.inFlight_of_ended hended, List.append_nil, hlog] at hsent
    rw [hlog] at hexchanged
    rcases Exchange.behind_end hexchanged with rfl | rfl <;> simpa [Op.accepted] using hsent
  · exact haccounted.whole

/-! ### Start-ups that fail behind the end -/

/-- Bytes have been handed over behind the end of the request. -/
def Spoiled (log : List Op) : Prop :=
  ∃ before after op, log = before ++ .endRequest :: after ∧ op ∈ after ∧ op.stdout ≠ []

/-- What was spoiled stays spoiled. -/
theorem Spoiled.append {log : List Op} (h : Spoiled log) (ops : List Op) :
    Spoiled (log ++ ops) := by
  rcases h with ⟨before, after, op, rfl, hmem, hstdout⟩
  refine ⟨before, after ++ ops, op, ?_, List.mem_append_left ops hmem, hstdout⟩
  rw [List.append_assoc, List.cons_append]

/-- The log only grows. -/
theorem log_step {s s' : State} {e : Event} (hstep : Step view applicationRoot params s e s') :
    ∃ ops, s'.log = s.log ++ ops := by
  cases hstep with
  | child =>
      dsimp only
      unfold State.follow
      split
      case h_2 => split <;> exact ⟨[], (List.append_nil _).symm⟩
      case h_4 => exact ⟨_, rfl⟩
      case h_5 =>
        rw [fcgiFinishRequest_eq]
        split
        · exact ⟨[], (List.append_nil _).symm⟩
        · exact ⟨_, rfl⟩
      all_goals exact ⟨[], (List.append_nil _).symm⟩
  | finished =>
      rw [fcgiClose_fcgiEnd]
      exact ⟨_, rfl⟩
  | read | accepted | failed => exact ⟨_, rfl⟩
  | caught | called | entered | returned | completed | continued | advanced | left =>
      exact ⟨[], (List.append_nil _).symm⟩

/-- A finished response has been ended. -/
def State.Recorded (s : State) : Prop :=
  (s.responseFinished = true → s.ended = true) ∧ (s.ended = true → .endRequest ∈ s.log)

/-- Every step keeps the end on record. -/
theorem recorded_step {s s' : State} {e : Event} (h : s.Recorded)
    (hstep : Step view applicationRoot params s e s') : s'.Recorded := by
  cases hstep with
  | child =>
      rw [State.Recorded]
      dsimp only
      unfold State.follow
      split
      case h_2 => split <;> exact h
      case h_4 => exact ⟨h.1, fun hended => List.mem_append_left _ (h.2 hended)⟩
      case h_5 =>
        split
        case isTrue => exact h
        case isFalse hopen =>
          rw [fcgiFinishRequest_eq]
          refine ⟨fun hfinished => absurd hfinished hopen, fun hended => ?_⟩
          by_cases hbefore : s.ended = true
          · exact List.mem_append_left _ (h.2 hbefore)
          · have hconnected : s.connected = true := by simpa [hbefore] using hended
            simp [hbefore, hconnected]
      all_goals exact h
  | finished =>
      rw [fcgiClose_fcgiEnd]
      refine ⟨fun _ => rfl, fun _ => ?_⟩
      by_cases hbefore : s.ended = true
      · exact List.mem_append_left _ (h.2 hbefore)
      · simp [hbefore]
  | read | accepted | failed =>
      exact ⟨h.1, fun hended => List.mem_append_left _ (h.2 hended)⟩
  | caught | called | entered | returned | completed | continued | advanced | left => exact h

/-- In every run the end is on record. -/
theorem recorded_of_run {es : List Event} {s : State}
    (hrun : LabelledMachine.exec (step view applicationRoot params) (start inherited stdin) es =
      some s) : s.Recorded := by
  have hstart : (start inherited stdin).Recorded := ⟨by simp [start], by simp [start]⟩
  exact LabelledMachine.exec_invariant (I := State.Recorded)
    (fun _ _ _ h hstep => recorded_step h (step_cases hstep)) hstart hrun

/-- Only the child itself moves while PHP does not run. -/
theorem child_of_resting {s s' : State} {e : Event}
    (hstep : Step view applicationRoot params s e s')
    (hresting : stage s.gate.child.phase ≠ .running) :
    ∃ child gate, Request.step view applicationRoot params s.gate child = some gate ∧
      s' = { s.follow view applicationRoot params child with gate := gate } := by
  have hrunning : s.running ≠ true := fun h => hresting (running_stage h)
  cases hstep with
  | child _ hgate => exact ⟨_, _, hgate, rfl⟩
  | called _ _ h | entered _ h | returned _ h | advanced _ h | left _ h => exact absurd h hrunning
  | caught h | read h | accepted h | failed h | completed h | continued h | finished h =>
      exact absurd h hrunning

/-- A start-up has failed behind the end of the request, and what that comes to. -/
def State.Spoiling (s : State) : Prop :=
  Spoiled s.log ∨ stage s.gate.child.phase = .dead ∨
    stage s.gate.child.phase = .refusing ∧ .endRequest ∈ s.log

/-- The head of an error is not empty. -/
theorem protocolHeader_ne_nil (status : Nat) : protocolHeader status ≠ [] := by
  simp [protocolHeader, bytes]

/-- A start-up that failed behind the end stays so, and ends in bytes behind the end. -/
theorem spoiling_step {s s' : State} {e : Event} (h : s.Spoiling)
    (hstep : Step view applicationRoot params s e s') : s'.Spoiling := by
  rcases h with hspoiled | hdead | ⟨hrefusing, hmem⟩
  · rcases log_step hstep with ⟨ops, hlog⟩
    rw [State.Spoiling, hlog]
    exact Or.inl (hspoiled.append ops)
  · rcases child_of_resting hstep (by simp [hdead]) with ⟨child, gate, hgate, rfl⟩
    have hturn := turn_of_gate hgate
    rw [hdead] at hturn
    refine Or.inr (Or.inl ?_)
    dsimp only
    generalize stage gate.child.phase = k at hturn
    cases hturn <;> rfl
  · rcases child_of_resting hstep (by simp [hrefusing]) with ⟨child, gate, hgate, rfl⟩
    have hturn := turn_of_gate hgate
    rw [hrefusing] at hturn
    rw [State.Spoiling]
    dsimp only
    generalize stage gate.child.phase = k at hturn
    cases hturn with
    | kept hcalm =>
        rw [follow_of_calm hcalm]
        exact Or.inr (Or.inr ⟨rfl, hmem⟩)
    | died => exact Or.inr (Or.inl rfl)
    | refusalWritten =>
        rcases List.append_of_mem hmem with ⟨before, after, hlog⟩
        refine Or.inl ⟨before, after ++ [.protocol (protocolHeader s.refusal.1),
          .protocol s.refusal.2], .protocol (protocolHeader s.refusal.1), ?_, by simp,
          protocolHeader_ne_nil s.refusal.1⟩
        rw [State.follow, hlog, List.append_assoc, List.cons_append]

/-- A start-up that fails behind the end writes a second response. -/
theorem spoiling_of_startup {s s' : State} (hmem : .endRequest ∈ s.log)
    (hstep : Step view applicationRoot params s (.child (.requestStartup false)) s') :
    s'.Spoiling := by
  cases hstep with
  | child _ hgate =>
      have hturn := turn_of_gate hgate
      rw [State.Spoiling]
      dsimp only
      generalize stage s.gate.child.phase = k at hturn
      generalize stage _ = k' at hturn ⊢
      cases hturn with
      | kept hcalm | died hcalm | noRequest hcalm => cases hcalm
      | startupFailed => exact Or.inr (Or.inr ⟨rfl, hmem⟩)
  | called _ he | entered he | returned he | advanced he | left he => cases he

/-- If the laws hold of a finished run, no start-up failed behind the end. -/
theorem open_of_responseLaws {es : List Event} {s : State}
    (hrun : LabelledMachine.exec (step view applicationRoot params) (start inherited stdin) es =
      some s) (hreturned : ∃ result, s.gate.child.phase = .returned result)
    (h : ResponseLaws view applicationRoot params inherited stdin es s) :
    StartupFailsOpen view applicationRoot params inherited stdin es := by
  intro before after t hes ht
  by_contra hfinished
  rw [Bool.not_eq_false] at hfinished
  rw [hes] at hrun
  rcases LabelledMachine.exec_append_eq_some_iff.mp hrun with ⟨t', ht', hrest⟩
  rw [ht] at ht'
  cases ht'
  rcases Option.bind_eq_some_iff.mp hrest with ⟨u, hstartup, hafter⟩
  have hrecorded := recorded_of_run ht
  have hspoiling := spoiling_of_startup (hrecorded.2 (hrecorded.1 hfinished)) (step_cases hstartup)
  have hspoiled : s.Spoiling :=
    LabelledMachine.exec_invariant (I := State.Spoiling)
      (fun _ _ _ h hstep => spoiling_step h (step_cases hstep)) hspoiling hafter
  rcases hreturned with ⟨result, hreturned⟩
  rcases hspoiled with ⟨before, after, op, hlog, hmem, hstdout⟩ | hdead | ⟨hrefusing, -⟩
  · exact hstdout (h.silent before after hlog op hmem).1
  · rw [hreturned] at hdead
    cases hdead
  · rw [hreturned] at hrefusing
    cases hrefusing

end Runs

/-- A response is ended once, behind all output and with nothing behind it, if and only
if no start-up of PHP fails behind {lit}`fastcgi_finish_request`. -/
theorem response_ends_once (view : View) (applicationRoot : Bytes) (params : Params)
    (inherited : List RawFd) (stdin : Bytes) (es : List Event) (s : State)
    (hrun : LabelledMachine.exec (step view applicationRoot params) (start inherited stdin) es =
      some s) :
    (StartupFailsOpen view applicationRoot params inherited stdin es →
        ResponseLaws view applicationRoot params inherited stdin es s) ∧
      ((∃ result, s.gate.child.phase = .returned result) →
        ResponseLaws view applicationRoot params inherited stdin es s →
          StartupFailsOpen view applicationRoot params inherited stdin es) :=
  ⟨responseLaws_of_open hrun, open_of_responseLaws hrun⟩

/-- The child up to the start of its request. -/
def admittedEvents : List Event :=
  (sampleEvents.take 21).map .child

/-- A request whose script writes, finishes the response and writes again. -/
def finishedRun : List Event :=
  admittedEvents ++
    [.child (.requestStartup true), .child (.openScript true), .writeOutput (bytes "done"),
      .fcgiWrite 3, .fcgiWrite 1, .resume, .readPost ⟨10, 0, false⟩, .finishRequest, .resume, .resume,
      .resume, .writeOutput (bytes "late"), .readPost ⟨10, 0, false⟩, .flushOutput, .finishRequest,
      .child (.execute 0), .child .requestShutdown, .child .finishRequest]

/-- A response that the script finishes is ended once. -/
theorem response_ends_once_sample :
    ∃ s, LabelledMachine.exec (step sampleView (bytes "/srv") sampleParams) (start [] [])
        finishedRun = some s ∧
      ResponseLaws sampleView (bytes "/srv") sampleParams [] [] finishedRun s := by
  have hnever : Event.child (.requestStartup false) ∉ finishedRun := by decide
  refine ⟨_, rfl, (response_ends_once sampleView (bytes "/srv") sampleParams [] [] finishedRun _
    rfl).1 ?_⟩
  intro before after t hes
  exact absurd (hes ▸ List.mem_append_right before List.mem_cons_self) hnever

/-- The code that runs while PHP starts the request up finishes the response and dies. -/
def lateFailure : List Event :=
  admittedEvents ++
    [.finishRequest, .resume, .resume, .resume, .child (.requestStartup false),
      .child .protocolError, .child .finishRequest]

/-- The answer 500 is written behind the end of the request. -/
theorem failed_startup_writes_behind_end :
    ∃ s, LabelledMachine.exec (step sampleView (bytes "/srv") sampleParams) (start [] [])
        lateFailure = some s ∧
      s.gate.child.phase = .returned 1 ∧
      s.log = [.endRequest, .close, .protocol (protocolHeader 500),
        .protocol (bytes "PHP request startup failed.\n")] ∧
      ¬ ResponseLaws sampleView (bytes "/srv") sampleParams [] [] lateFailure s := by
  have hrun : ∃ s, LabelledMachine.exec (step sampleView (bytes "/srv") sampleParams)
      (start [] []) lateFailure = some s ∧ s.gate.child.phase = .returned 1 ∧
      s.log = [.endRequest, .close, .protocol (protocolHeader 500),
        .protocol (bytes "PHP request startup failed.\n")] := ⟨_, rfl, rfl, rfl⟩
  rcases hrun with ⟨s, hrun, hreturned, hlog⟩
  refine ⟨s, hrun, hreturned, hlog, fun h => ?_⟩
  have hsilent := (h.silent [] _ hlog (.protocol (protocolHeader 500)) (by simp)).1
  exact protocolHeader_ne_nil 500 hsilent

end Callbacks

end Request

end Polychrome

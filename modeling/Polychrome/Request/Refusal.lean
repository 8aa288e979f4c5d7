import Polychrome.Request.Stages

/-!
# Requests that are refused

A request that fails one of the tests of {lit}`poly_serve_one` gets the answer of
{lit}`protocol_error` and nothing else: PHP is not asked, the body stays unread, and
the connection is ended and closed behind the answer.

Main results:

- Definition {lit}`Answered`: what has been sent at each stage.
- Theorem {lit}`refused_request_told`: what the connection carries, in every run.

Current gaps:

- PHP's FastCGI library is assumed to hand over what {lit}`protocol_error` writes.
-/

namespace Polychrome

namespace Request

namespace Callbacks

open Posix

section Runs

variable {view : View} {applicationRoot : Bytes} {params : Params} {status : Nat}
  {message : Bytes}

/-- The calls of {lit}`protocol_error`. -/
def told (status : Nat) (message : Bytes) : List Op :=
  [.protocol (protocolHeader status), .protocol message]

/-- What a refused request has been answered when the child is at a stage. -/
def Answered (status : Nat) (message : Bytes) (es : List Event) (s : State) : Stage → Prop
  | .waiting => s.log = [] ∧ s.connected = false ∧ .child (.readRequest true) ∉ es
  | .read => s.log = [] ∧ s.connected = true
  | .running => False
  | .refusing => s.log = [] ∧ s.connected = true ∧ s.refusal = (status, message)
  | .ending =>
      s.log = told status message ∧ s.connected = true ∨
        s.log = [] ∧ (.child .bailout ∈ es ∨
          s.connected = false ∧ .child (.readRequest true) ∉ es)
  | .returned =>
      s.log = told status message ++ [.endRequest, .close] ∨
        (s.log = [.endRequest, .close] ∨ s.log = []) ∧
          (.child .bailout ∈ es ∨ .child (.readRequest true) ∉ es)
  | .dead =>
      s.log <+: told status message ++ [.endRequest, .close] ∨
        s.log <+: [.endRequest, .close]

/-- The child of a refused request and its connection. -/
structure Refusing (status : Nat) (message stdin : Bytes) (es : List Event) (s : State) :
    Prop where
  answered : Answered status message es s (stage s.gate.child.phase)
  unended : stage s.gate.child.phase ≠ .returned → stage s.gate.child.phase ≠ .dead →
    s.ended = false
  unfinished : s.responseFinished = false
  idle : s.frames = [] ∧ s.outputs = []
  unread : s.body.stdin = stdin

/-- A step that means nothing for the connection leaves the answer as it is. -/
theorem Answered.kept {es : List Event} {s s' : State} {k : Stage} {e : Child.Event}
    (h : Answered status message es s k) (hcalm : calm e = true) (hlog : s'.log = s.log)
    (hconnected : s'.connected = s.connected) (hrefusal : s'.refusal = s.refusal) :
    Answered status message (es ++ [.child e]) s' k := by
  have hread : .child (.readRequest true) ∉ es →
      Event.child (.readRequest true) ∉ es ++ [.child e] := by
    intro hes hmem
    rcases List.mem_append.mp hmem with hmem | hmem
    · exact hes hmem
    · rw [List.mem_singleton, Event.child.injEq] at hmem
      rw [← hmem] at hcalm
      cases hcalm
  cases k with
  | waiting => exact ⟨hlog.trans h.1, hconnected.trans h.2.1, hread h.2.2⟩
  | read => exact ⟨hlog.trans h.1, hconnected.trans h.2⟩
  | running => exact h
  | refusing => exact ⟨hlog.trans h.1, hconnected.trans h.2.1, hrefusal.trans h.2.2⟩
  | ending =>
      rcases h with ⟨htold, hopen⟩ | ⟨hnil, hwhy⟩
      · exact Or.inl ⟨hlog.trans htold, hconnected.trans hopen⟩
      · refine Or.inr ⟨hlog.trans hnil, ?_⟩
        exact hwhy.imp (List.mem_append_left _) fun hwhy => ⟨hconnected.trans hwhy.1, hread hwhy.2⟩
  | returned =>
      rcases h with htold | ⟨hlog', hwhy⟩
      · exact Or.inl (hlog.trans htold)
      · refine Or.inr ⟨by rwa [hlog], ?_⟩
        exact hwhy.imp (List.mem_append_left _) hread
  | dead => rwa [Answered, hlog]

/-- A child that dies leaves a beginning of the answer. -/
theorem Answered.died {es : List Event} {s : State} {k : Stage}
    (h : Answered status message es s k) :
    s.log <+: told status message ++ [.endRequest, .close] ∨ s.log <+: [.endRequest, .close] := by
  cases k with
  | waiting | read | refusing => exact Or.inr (by rw [h.1]; exact List.nil_prefix)
  | running => exact h.elim
  | ending =>
      rcases h with ⟨htold, -⟩ | ⟨hnil, -⟩
      · exact Or.inl (by rw [htold]; exact List.prefix_append _ _)
      · exact Or.inr (by rw [hnil]; exact List.nil_prefix)
  | returned =>
      rcases h with htold | ⟨hended | hnil, -⟩
      · exact Or.inl (by rw [htold])
      · exact Or.inr (by rw [hended])
      · exact Or.inr (by rw [hnil]; exact List.nil_prefix)
  | dead => exact h

/-- A verdict that refuses the request leads to {lit}`protocol_error`. -/
theorem refusing_of_examine {gate gate' : Request.State} {decision : Child.Decision}
    (hverdict : examine view applicationRoot params = .refused status message)
    (hgate : Request.step view applicationRoot params gate (.examine decision) = some gate') :
    stage gate'.child.phase = .refusing := by
  rcases Option.bind_eq_some_iff.mp hgate with ⟨child, hchild, hrest⟩
  dsimp only at hrest
  rw [hverdict, Option.ite_none_right_eq_some] at hrest
  obtain ⟨hdecision, hrest⟩ := hrest
  cases hrest
  cases Child.step_cases hchild with
  | moved _ hnext =>
      generalize gate.child.phase = p at hnext
      cases hnext with
      | admitted =>
          rcases admitted_of_decision hdecision.symm with ⟨info, hinfo⟩
          cases hinfo
      | refused => rfl

/-- A step of the child on the way of a refused request. -/
theorem refusing_child {stdin : Bytes} {es : List Event} {s : State} {e : Child.Event}
    {gate : Request.State}
    (hverdict : examine view applicationRoot params = .refused status message)
    (h : Refusing status message stdin es s)
    (hgate : Request.step view applicationRoot params s.gate e = some gate) :
    Refusing status message stdin (es ++ [.child e])
      { s.follow view applicationRoot params e with gate := gate } := by
  have hturn := turn_of_gate hgate
  have hanswered := h.answered
  have hunended := h.unended
  generalize hk : stage s.gate.child.phase = k at hturn hanswered hunended
  generalize hk' : stage gate.child.phase = k' at hturn
  cases hturn with
  | kept hcalm =>
      rw [follow_of_calm hcalm]
      refine ⟨?_, ?_, h.unfinished, h.idle, h.unread⟩
      · rw [hk']
        exact hanswered.kept hcalm rfl rfl rfl
      · rw [hk']
        exact hunended
  | died hcalm =>
      rw [follow_of_calm hcalm]
      refine ⟨?_, fun _ hdead => absurd hk' hdead, h.unfinished, h.idle, h.unread⟩
      rw [hk']
      exact hanswered.died
  | requestRead =>
      refine ⟨?_, fun _ _ => hunended (by simp) (by simp), h.unfinished, h.idle, h.unread⟩
      rw [hk']
      exact ⟨hanswered.1, rfl⟩
  | noRequest hcalm hmain =>
      rw [follow_of_calm hcalm]
      refine ⟨?_, fun _ _ => hunended (by simp) (by simp), h.unfinished, h.idle, h.unread⟩
      rw [hk']
      have hkept : Answered status message (es ++ [.child e]) s .waiting :=
        hanswered.kept hcalm rfl rfl rfl
      exact Or.inr ⟨hkept.1, Or.inr hkept.2⟩
  | initBailedOut =>
      refine ⟨?_, fun hreturned => absurd hk' hreturned, h.unfinished, ?_, h.unread⟩
      · rw [hk']
        exact Or.inr ⟨Or.inr hanswered.1, Or.inl (by simp)⟩
      · simp [State.follow, State.unwind, h.idle.1, h.idle.2, cutOutputs]
  | admitted =>
      rw [refusing_of_examine hverdict hgate] at hk'
      cases hk'
  | refused =>
      rw [State.follow, hverdict]
      refine ⟨?_, fun _ _ => hunended (by simp) (by simp), h.unfinished, h.idle, h.unread⟩
      rw [hk']
      exact ⟨hanswered.1, hanswered.2, rfl⟩
  | examineBailedOut =>
      refine ⟨?_, fun _ _ => hunended (by simp) (by simp), h.unfinished, ?_, h.unread⟩
      · rw [hk']
        exact Or.inr ⟨hanswered.1, Or.inl (by simp)⟩
      · simp [State.follow, State.unwind, h.idle.1, h.idle.2, cutOutputs]
  | refusalWritten =>
      refine ⟨?_, fun _ _ => hunended (by simp) (by simp), h.unfinished, h.idle, h.unread⟩
      rw [hk']
      refine Or.inl ⟨?_, hanswered.2.1⟩
      rw [State.follow, hanswered.1, hanswered.2.2]
      rfl
  | finished =>
      have hended := hunended (by simp) (by simp)
      rw [State.follow, if_neg (by simp [h.unfinished]), fcgiFinishRequest_eq, hended]
      refine ⟨?_, fun hreturned => absurd hk' hreturned, h.unfinished, h.idle, h.unread⟩
      rw [hk']
      rcases hanswered with ⟨htold, hopen⟩ | ⟨hnil, hwhy⟩
      · exact Or.inl (by simp [htold, hopen])
      · refine Or.inr ⟨?_, ?_⟩
        · cases hopen : s.connected <;> simp [hnil]
        · rcases hwhy with hbailed | ⟨-, hnone⟩
          · exact Or.inl (List.mem_append_left _ hbailed)
          · exact Or.inr (by simpa using hnone)
  | startupFailed | scriptBailedOut | bailedOut | shutDown => exact hanswered.elim

/-- A refusal is told in every run. -/
theorem refusing_of_run {inherited : List RawFd} {stdin : Bytes} {es : List Event} {s : State}
    (hverdict : examine view applicationRoot params = .refused status message)
    (hrun : LabelledMachine.exec (step view applicationRoot params) (start inherited stdin) es =
      some s) : Refusing status message stdin es s := by
  refine LabelledMachine.exec_history_induction (P := Refusing status message stdin) ?_ ?_ hrun
  · exact ⟨⟨rfl, rfl, List.not_mem_nil⟩, fun _ _ => rfl, rfl, ⟨rfl, rfl⟩, rfl⟩
  · intro es s e s' _ h hstep
    have hcases := step_cases hstep
    -- PHP does not run, so only the child moves.
    have hrest : ¬ s.running = true := by
      intro hrunning
      have hanswered := h.answered
      rw [running_stage hrunning] at hanswered
      exact hanswered
    rcases hcases with ⟨-, hgate⟩ | ⟨hrunning⟩ | ⟨-, -, hrunning⟩ | ⟨-, hrunning⟩ |
      ⟨-, hrunning⟩ | hrunning | hrunning | hrunning | hrunning | hrunning | ⟨-, hrunning⟩ |
      ⟨-, hrunning⟩ | hrunning
    · exact refusing_child hverdict h hgate
    all_goals exact absurd hrunning hrest

/-- Without a bailout the answer is whole when the child returns. -/
theorem Refusing.told_of_returned {stdin : Bytes} {es : List Event} {s : State}
    (h : Refusing status message stdin es s)
    (hreturned : ∃ result, s.gate.child.phase = .returned result)
    (hread : .child (.readRequest true) ∈ es) (hcalm : .child .bailout ∉ es) :
    s.log = told status message ++ [.endRequest, .close] := by
  rcases hreturned with ⟨result, hphase⟩
  have hanswered := h.answered
  rw [hphase] at hanswered
  rcases hanswered with htold | ⟨-, hbailed | hnone⟩
  · exact htold
  · exact absurd hbailed hcalm
  · exact absurd hread hnone

/-- In every run a request that fails a test is answered by the status and the message
of its refusal and by nothing else; PHP is not asked and the body is not read; and if the
child returns without a bailout, the answer is whole and the connection ended and
closed. -/
theorem refused_request_told (view : View) (applicationRoot : Bytes) (params : Params)
    (status : Nat) (message : Bytes)
    (hverdict : examine view applicationRoot params = .refused status message)
    (inherited : List RawFd) (stdin : Bytes) (es : List Event) (s : State)
    (hrun : LabelledMachine.exec (step view applicationRoot params) (start inherited stdin) es =
      some s) :
    s.running = false ∧ s.outputs = [] ∧ s.body.stdin = stdin ∧ s.responseFinished = false ∧
      (s.log <+: told status message ++ [.endRequest, .close] ∨
        s.log <+: [.endRequest, .close]) ∧
      ((∃ result, s.gate.child.phase = .returned result) → .child (.readRequest true) ∈ es →
        .child .bailout ∉ es → s.log = told status message ++ [.endRequest, .close]) := by
  have h := refusing_of_run hverdict hrun
  have hanswered := h.answered
  refine ⟨?_, h.idle.2, h.unread, h.unfinished, ?_, h.told_of_returned⟩
  · by_contra hrunning
    rw [running_stage (by simpa using hrunning)] at hanswered
    exact hanswered
  · exact hanswered.died

/-- A request without a method. -/
def invalidRequest : List Event :=
  (Request.sampleEvents.take 20).map .child ++
    [.child (.examine .invalid), .child .protocolError, .child .finishRequest]

/-- A request without a script is told why. -/
theorem refused_request_told_sample :
    ∃ s, LabelledMachine.exec (step sampleView (bytes "/srv") fun _ => none)
        (start [] (bytes "body")) invalidRequest = some s ∧
      s.log = told 400 (bytes "Invalid FastCGI request.\n") ++ [.endRequest, .close] := by
  have hlaws := refused_request_told sampleView (bytes "/srv") (fun _ => none) 400
    (bytes "Invalid FastCGI request.\n") rfl [] (bytes "body") invalidRequest _ rfl
  exact ⟨_, rfl, hlaws.2.2.2.2.2 ⟨0, rfl⟩ (by decide) (by decide)⟩

end Runs

end Callbacks

end Request

end Polychrome

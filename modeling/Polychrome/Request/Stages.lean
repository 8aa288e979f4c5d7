import Polychrome.Request.Callbacks

/-!
# The stages of a request

This module follows a request through the child: what each of its stages means for
the flag {lit}`response_finished` and for the connection, and how callbacks nest.

The clean-up and {lit}`protocol_error` come behind all callbacks.  The flag is set
when {lit}`protocol_error` runs only if the start-up of PHP has failed behind
{lit}`fastcgi_finish_request`.

Main results:

- Inductive {lit}`Turn` and theorem {lit}`turn_of_step`: the stages and the steps
  between them.
- Theorem {lit}`fits_step`: what the flag and the connection are in each stage.
- Theorem {lit}`nested_step`: callbacks nest inside PHP's own code only.
-/

namespace Polychrome

namespace Request

namespace Callbacks

open Posix

/-! ## The stages of a request -/

/-- How far the child has come with its request. -/
inductive Stage
  | waiting
  /-- a request has been read -/
  | read
  /-- PHP runs -/
  | running
  /-- {lit}`protocol_error` is next -/
  | refusing
  /-- the clean-up is next -/
  | ending
  | returned
  | dead
deriving DecidableEq, Repr

def stage : Child.Phase → Stage
  | .closeListener | .examine => .read
  | .requestStartup | .openScript | .execute | .missingScript | .requestShutdown _ => .running
  | .refuse _ => .refusing
  | .finishRequest _ => .ending
  | .returned _ => .returned
  | .terminated _ => .dead
  | _ => .waiting

/-- The callbacks are called while the script runs. -/
theorem callable_iff {p : Child.Phase} : callable p = true ↔ stage p = .running := by
  cases p <;> simp [callable, stage]

/-- The steps that mean nothing for the connection. -/
def calm : Child.Event → Bool
  | .readRequest true | .examine _ | .requestStartup false | .protocolError | .finishRequest
  | .bailout => false
  | _ => true

/-- What a step of the child does to its stage. -/
inductive Turn : Stage → Child.Event → Stage → Prop
  | kept {k : Stage} {e : Child.Event} (hcalm : calm e = true) : Turn k e k
  | died {k : Stage} {e : Child.Event} (hcalm : calm e = true) : Turn k e .dead
  | requestRead : Turn .waiting (.readRequest true) .read
  | noRequest {e : Child.Event} (hcalm : calm e = true) (hmain : interrupts e = false) :
      Turn .waiting e .ending
  | initBailedOut : Turn .waiting .bailout .returned
  | admitted {decision : Child.Decision} : Turn .read (.examine decision) .running
  | refused {decision : Child.Decision} : Turn .read (.examine decision) .refusing
  | examineBailedOut : Turn .read .bailout .ending
  | startupFailed : Turn .running (.requestStartup false) .refusing
  | refusalWritten : Turn .refusing .protocolError .ending
  | scriptBailedOut : Turn .running .bailout .running
  | bailedOut : Turn .running .bailout .ending
  | shutDown : Turn .running .requestShutdown .ending
  | finished : Turn .ending .finishRequest .returned

/-- Every phase of the child leads on by a turn. -/
theorem turn_of_next {stop : Bool} {p p' : Child.Phase} {e : Child.Event}
    (h : Child.Next stop p e p') : Turn (stage p) e (stage p') := by
  cases h
  case inheritedClosed | inheritedDone | deathSignalSet | parentThere | dispositionSet |
      dispositionsDone | childInitialized | requestInitialized | acceptCleared | accepted |
      acceptRetried | connectionCleared | cloexecSet | clockRead | stampSent |
      requestUnreadable | listenerClosed | startedUp | scriptOpened | scriptMissing |
      executed | missingWritten => exact .kept rfl
  case parentGone | acceptBarred | connectionBarred | stampLost | exited => exact .died rfl
  case acceptFailed | peerRefused => exact .noRequest rfl rfl
  case requestRead => exact .requestRead
  case admitted => exact .admitted
  case refused => exact .refused
  case refusalWritten => exact .refusalWritten
  case startupFailed => exact .startupFailed
  case requestShutDown => exact .shutDown
  case requestFinished => exact .finished
  case initBailedOut hphase => rcases hphase with rfl | rfl <;> exact .initBailedOut
  case startupBailedOut hphase =>
    rcases hphase with rfl | rfl
    · exact .examineBailedOut
    · exact .bailedOut
  case scriptBailedOut hphase => rcases hphase with rfl | rfl | rfl <;> exact .scriptBailedOut
  case shutdownBailedOut => exact .bailedOut

/-- Every call of the child is a turn. -/
theorem turn_of_step {s s' : Child.State} {e : Child.Event} (h : Child.Step s e s') :
    Turn (stage s.phase) e (stage s'.phase) := by
  cases h with
  | raised =>
      rw [Child.State.post_phase]
      exact .kept rfl
  | delivered => exact .kept rfl
  | requested => exact .kept rfl
  | drained => exact .died rfl
  | resumed => exact .kept rfl
  | killed => exact .died rfl
  | unmasked hphase =>
      rw [hphase]
      exact .kept rfl
  | unmaskedInto hphase =>
      rw [hphase]
      exact .kept rfl
  | activated hphase =>
      rw [hphase]
      exact .kept rfl
  | moved _ hnext => exact turn_of_next hnext

/-! ## The flags -/

section Runs

variable {view : View} {applicationRoot : Bytes} {params : Params}

/-- The child of a request turns as any child. -/
theorem turn_of_gate {gate gate' : Request.State} {e : Child.Event}
    (h : Request.step view applicationRoot params gate e = some gate') :
    Turn (stage gate.child.phase) e (stage gate'.child.phase) :=
  turn_of_step (Child.step_cases (child_of_step h))

/-- A call that is none of the request's leaves it alone. -/
theorem follow_of_calm {s : State} {e : Child.Event} (h : calm e = true) :
    s.follow view applicationRoot params e = s := by
  unfold State.follow
  split <;> first | rfl | cases h

/-- What the flag {lit}`response_finished` and the connection are in a stage. -/
def Fits : Stage → (finished connected ended : Bool) → Prop
  | .waiting, finished, connected, ended =>
      finished = false ∧ connected = false ∧ ended = false
  | .read, finished, connected, ended | .refusing, finished, connected, ended =>
      finished = false ∧ connected = true ∧ ended = false
  | .running, finished, connected, ended => finished = ended ∧ connected = !ended
  | .ending, finished, connected, ended =>
      finished = ended ∧ (ended = true → connected = false)
  | .returned, finished, connected, ended =>
      (finished = true → ended = true) ∧ connected = false
  | .dead, finished, connected, ended =>
      (finished = true → ended = true) ∧ (ended = true → connected = false)

/-- The flags fit the stage. -/
def State.Fits (s : State) : Prop :=
  Callbacks.Fits (stage s.gate.child.phase) s.responseFinished s.connected s.ended

/-- A finished response is ended. -/
theorem Fits.finished {k : Stage} {finished connected ended : Bool}
    (h : Fits k finished connected ended) : finished = true → ended = true := by
  cases k <;> simp_all [Fits]

/-- An ended response has no connection any more. -/
theorem Fits.disconnected {k : Stage} {finished connected ended : Bool}
    (h : Fits k finished connected ended) : ended = true → connected = false := by
  cases k <;> simp_all [Fits]

/-- A step of the child keeps the flags fit, unless the start-up fails behind
{lit}`fastcgi_finish_request`. -/
theorem fits_child {s : State} {e : Child.Event} {gate : Request.State} (h : s.Fits)
    (hsound : e = .requestStartup false → s.responseFinished = false)
    (hgate : Request.step view applicationRoot params s.gate e = some gate) :
    State.Fits { s.follow view applicationRoot params e with gate := gate } := by
  have hturn := turn_of_gate hgate
  unfold State.Fits at h ⊢
  dsimp only
  generalize stage s.gate.child.phase = k at h hturn
  generalize stage gate.child.phase = k' at hturn
  cases hturn with
  | kept hcalm =>
      rw [follow_of_calm hcalm]
      exact h
  | died hcalm =>
      rw [follow_of_calm hcalm]
      exact ⟨h.finished, h.disconnected⟩
  | requestRead => exact ⟨h.1, rfl, h.2.2⟩
  | noRequest hcalm =>
      rw [follow_of_calm hcalm]
      exact ⟨h.1.trans h.2.2.symm, fun _ => h.2.1⟩
  | initBailedOut => exact ⟨h.finished, h.2.1⟩
  | admitted =>
      rw [State.follow]
      split <;> exact ⟨h.1.trans h.2.2.symm, by rw [h.2.1, h.2.2]; rfl⟩
  | refused =>
      rw [State.follow]
      split <;> exact h
  | examineBailedOut => exact ⟨h.1.trans h.2.2.symm, h.disconnected⟩
  | startupFailed =>
      have hopen := hsound rfl
      have hended : s.ended = false := h.1 ▸ hopen
      exact ⟨hopen, by rw [State.follow, h.2, hended]; rfl, hended⟩
  | refusalWritten => exact ⟨h.1.trans h.2.2.symm, h.disconnected⟩
  | scriptBailedOut => exact h
  | bailedOut => exact ⟨h.1, h.disconnected⟩
  | shutDown => exact ⟨h.1, h.disconnected⟩
  | finished =>
      rw [State.follow]
      split
      case isTrue hfinished => exact ⟨h.finished, h.disconnected (h.finished hfinished)⟩
      case isFalse hopen =>
        rw [fcgiFinishRequest_eq]
        exact ⟨fun hfinished => absurd hfinished hopen, rfl⟩

/-- While the callbacks run, so does the script. -/
theorem running_stage {s : State} (h : s.running = true) :
    stage s.gate.child.phase = .running := by
  rw [State.running, Bool.and_eq_true] at h
  exact callable_iff.mp h.1

/-- While PHP runs, the connection is open until the request is ended. -/
theorem State.Fits.running {s : State} (h : s.Fits) (hrunning : s.running = true) :
    s.responseFinished = s.ended ∧ s.connected = !s.ended := by
  rwa [State.Fits, running_stage hrunning] at h

/-- Every step keeps stage and flags together. -/
theorem fits_step {s s' : State} {e : Event} (h : s.Fits)
    (hsound : e = .child (.requestStartup false) → s.responseFinished = false)
    (hstep : Step view applicationRoot params s e s') : s'.Fits := by
  cases hstep with
  | child hframes hgate => exact fits_child h (fun he => hsound (he ▸ rfl)) hgate
  | finished hrunning hframes =>
      rw [State.Fits, fcgiClose_fcgiEnd]
      dsimp only
      rw [running_stage hrunning]
      exact ⟨rfl, rfl⟩
  | caught | called | entered | returned | read | accepted | failed | completed | continued |
      advanced | left => exact h

/-! ## The frames -/

/-- Callbacks nest only inside PHP's own code. -/
def State.Nested (s : State) : Prop := ∀ frame ∈ s.frames.tail, frame.engine = true

/-- Only a bailout unwinds the callbacks. -/
theorem follow_frames {s : State} {e : Child.Event} :
    (s.follow view applicationRoot params e).frames = if e = .bailout then [] else s.frames := by
  unfold State.follow
  split
  case h_2 => split <;> rfl
  case h_5 =>
    rw [fcgiFinishRequest_eq]
    split <;> rfl
  case h_6 => simp [State.unwind]
  case h_7 => rw [if_neg (by assumption)]
  all_goals rfl

/-- Behind the first of its blocks the engine stands. -/
theorem engine_of_blocks {s : State} {blocks : List Bytes} :
    ∀ frame ∈ (s.blocks blocks).tail, frame.engine = true := by
  unfold State.blocks
  split
  · simp
  · split <;> simp

/-- Frames put on PHP's own code. -/
theorem engine_tail_append {above frames : List Frame}
    (habove : ∀ frame ∈ above.tail, frame.engine = true)
    (hframes : ∀ frame ∈ frames, frame.engine = true) :
    ∀ frame ∈ (above ++ frames).tail, frame.engine = true := by
  cases above with
  | nil => exact fun frame hmem => hframes frame (List.mem_of_mem_tail hmem)
  | cons top above =>
      intro frame hmem
      rcases List.mem_append.mp hmem with habove' | hframes'
      · exact habove frame habove'
      · exact hframes frame hframes'

/-- If the engine is on top, it is everywhere. -/
theorem engine_frames {s : State} (h : s.Nested) (hengine : s.atEngine = true) :
    ∀ frame ∈ s.frames, frame.engine = true := by
  intro frame hmem
  rw [State.Nested] at h
  unfold State.atEngine at hengine
  split at hengine
  case h_1 hnone => simp [hnone] at hmem
  case h_2 top frames hframes =>
    rw [hframes] at hmem h
    rcases List.mem_cons.mp hmem with rfl | hmem
    · exact hengine
    · exact h frame hmem

/-- Every step keeps the callbacks nested. -/
theorem nested_step {s s' : State} {e : Event} (h : s.Nested)
    (hstep : Step view applicationRoot params s e s') : s'.Nested := by
  rw [State.Nested] at h ⊢
  cases hstep with
  | child =>
      dsimp only
      rw [follow_frames]
      split
      case isTrue => simp
      case isFalse => exact h
  | caught _ hpos =>
      intro frame hmem
      apply h frame
      rw [← List.drop_one]
      exact List.drop_subset_drop_left s.frames hpos (List.mem_of_mem_tail hmem)
  | called blocks _ _ hengine => exact engine_tail_append engine_of_blocks (engine_frames h hengine)
  | entered _ _ hengine => exact engine_frames h hengine
  | returned | read => exact h
  | accepted _ hframes | failed _ hframes | advanced _ _ hframes =>
      rw [hframes] at h
      exact h
  | completed _ hframes | continued _ hframes =>
      rw [hframes] at h
      exact engine_tail_append engine_of_blocks h
  | left _ _ hframes =>
      rw [hframes] at h
      exact fun frame hmem => h frame (List.mem_of_mem_tail hmem)
  | finished _ hframes =>
      rw [hframes] at h
      rw [fcgiClose_fcgiEnd]
      exact fun frame hmem => h frame (List.mem_of_mem_tail hmem)

end Runs

end Callbacks

end Request

end Polychrome

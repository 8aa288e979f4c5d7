import Polychrome.Child.ServeOne

/-!
# Drain signals and the child

A drain signal can reach a child between any two of its steps.  Before
{lit}`connection_active` is set the handler ends the child at once; afterwards
it only leaves a mark that nothing reads any more.

Main results:

- Theorem {lit}`run_flags`: which phases know that a connection is active.
- Theorem {lit}`run_settled`: outside the handler {lit}`drain_requested` implies
  {lit}`connection_active`.
- Theorem {lit}`calm_simulation`: an active child moves as if no drain signal
  were ever sent.
- Theorem {lit}`ending_run` and theorem {lit}`ending_bounded`: a child whose
  handler starts too early runs nothing but handlers, and not for long.
-/

namespace Polychrome

namespace Child

/-! ## What the phase knows of the connection -/

/-- No connection has been marked active in this phase. -/
def Phase.idle : Phase → Bool
  | .closeInherited _ | .prctl | .getppid | .dispositions _ | .unmask | .childInit
  | .initRequest | .accept | .connectionTest _ | .markActive _ => true
  | _ => false

/-- A connection has been marked active in this phase. -/
def Phase.serving : Phase → Bool
  | .setCloexec _ | .readClock | .sendStamp _ | .readRequest | .closeListener | .examine
  | .refuse _ | .requestStartup | .openScript | .execute | .missingScript
  | .requestShutdown _ => true
  | _ => false

/-- {lit}`before_accept` lets only a child pass that has no connection. -/
theorem idle_of_next {stop : Bool} {p p' : Phase} {e : Event} (h : Next stop p e p')
    (hidle : p'.idle = true) : p.idle = true ∨ p = .beforeAccept ∧ stop = false := by
  cases h
  case acceptCleared hstop => exact Or.inr ⟨rfl, hstop⟩
  all_goals first | exact Or.inl rfl | cases hidle

/-- A move of the main program goes on with a connection that is served, or with none. -/
theorem serving_of_next {stop : Bool} {p p' : Phase} {e : Event} (h : Next stop p e p')
    (hserving : p'.serving = true) : p.serving = true := by
  cases h
  case scriptBailedOut hphase => rcases hphase with rfl | rfl | rfl <;> rfl
  all_goals first | rfl | cases hserving

/-- A terminated child makes no move. -/
theorem live_of_next {stop : Bool} {p p' : Phase} {e : Event} (h : Next stop p e p') :
    p.live = true := by
  cases h
  case initBailedOut hphase => rcases hphase with rfl | rfl <;> rfl
  case startupBailedOut hphase => rcases hphase with rfl | rfl <;> rfl
  case scriptBailedOut hphase => rcases hphase with rfl | rfl | rfl <;> rfl
  all_goals rfl

/-- The flag agrees with the phase. -/
structure Flags (s : State) : Prop where
  idle : s.phase.idle = true → s.connectionActive = false
  serving : s.phase.serving = true → s.connectionActive = true

/-- The flag agrees with the phase after every step. -/
theorem flags_step {s s' : State} {e : Event} (h : Flags s) (hs : Step s e s') : Flags s' := by
  cases hs
  case raised signal =>
    constructor
    · simpa using h.idle
    · simpa using h.serving
  case delivered => exact ⟨h.idle, h.serving⟩
  case requested => exact ⟨h.idle, h.serving⟩
  case drained => constructor <;> intro hphase <;> cases hphase
  case resumed => exact ⟨h.idle, h.serving⟩
  case killed => constructor <;> intro hphase <;> cases hphase
  case unmasked hphase _ _ =>
    exact ⟨fun _ => h.idle (by rw [hphase]; rfl), fun hserving => (by cases hserving)⟩
  case unmaskedInto hphase _ _ =>
    exact ⟨fun _ => h.idle (by rw [hphase]; rfl), fun hserving => (by cases hserving)⟩
  case activated => exact ⟨fun hidle => (by cases hidle), fun _ => rfl⟩
  case moved phase hframes hnext =>
    constructor
    · intro hidle
      rcases idle_of_next hnext hidle with hbefore | ⟨-, hstop⟩
      · exact h.idle hbefore
      · rw [Bool.or_eq_false_iff] at hstop
        exact hstop.1
    · intro hserving
      exact h.serving (serving_of_next hnext hserving)

/-- The flag agrees with the phase in every run. -/
theorem run_flags {inherited : List RawFd} {es : List Event} {s : State}
    (hrun : LabelledMachine.exec step (start inherited) es = some s) : Flags s :=
  LabelledMachine.exec_invariant (fun _ _ _ h hstep => flags_step h (step_cases hstep))
    ⟨by simp [start], by simp [start, Phase.serving]⟩ hrun

/-! ## Outside the handler -/

/-- Without an active connection only a handler that is about to end the child
has set {lit}`drain_requested`. -/
def Settled (s : State) : Prop :=
  s.phase.live = true → s.drainRequested = true →
    s.connectionActive = true ∨ ∃ frame ∈ s.frames, frame.requested = true

/-- A step requests no drain but by a handler that is about to end the child, or of an
active one. -/
theorem settled_step {s s' : State} {e : Event} (h : Settled s) (hs : Step s e s') :
    Settled s' := by
  intro hlive hdrain
  cases hs
  case raised signal =>
    simp only [State.post_phase, State.post_drainRequested, State.post_connectionActive,
      State.post_frames] at *
    exact h hlive hdrain
  case delivered signal _ _ _ _ =>
    rcases h hlive hdrain with hactive | ⟨frame, hmem, hrequested⟩
    · exact Or.inl hactive
    · exact Or.inr ⟨frame, List.mem_cons_of_mem _ hmem, hrequested⟩
  case requested => exact Or.inr ⟨_, List.mem_cons_self, rfl⟩
  case drained => cases hlive
  case resumed hactive => exact Or.inl hactive
  case killed => cases hlive
  case unmasked hphase hframes _ =>
    rcases h (by rw [hphase]; rfl) hdrain with hactive | ⟨frame, hmem, -⟩
    · exact Or.inl hactive
    · simp [hframes] at hmem
  case unmaskedInto hphase hframes _ =>
    rcases h (by rw [hphase]; rfl) hdrain with hactive | ⟨frame, hmem, -⟩
    · exact Or.inl hactive
    · simp [hframes] at hmem
  case activated => exact Or.inl rfl
  case moved phase hframes hnext =>
    rcases h (live_of_next hnext) hdrain with hactive | ⟨frame, hmem, -⟩
    · exact Or.inl hactive
    · simp [hframes] at hmem

/-- In every run an idle child that is asked to drain is about to end. -/
theorem run_settled {inherited : List RawFd} {es : List Event} {s : State}
    (hrun : LabelledMachine.exec step (start inherited) es = some s) : Settled s :=
  LabelledMachine.exec_invariant (fun _ _ _ h hstep => settled_step h (step_cases hstep))
    (by simp [Settled, start]) hrun

/-! ## An active child -/

/-- The steps that only drain signals cause. -/
def Event.draining : Event → Bool
  | .raise _ | .deliver _ | .handler => true
  | _ => false

/-- Forget the drain signals. -/
def Event.calm (e : Event) : Option Event := if e.draining then none else some e

/-- The child as it would be had no drain signal been sent. -/
def State.calmed (s : State) : State :=
  { s with pending := ∅, frames := [], drainRequested := false }

/-- The same point of the main program, with the connection active on both sides
and no signals on the second. -/
structure CalmMatch (s t : State) : Prop where
  flags : Flags s
  active : s.connectionActive = true
  active' : t.connectionActive = true
  frames : t.frames = []
  phase : t.phase = s.phase

/-- An active child matches itself without its drain signals. -/
theorem State.calmed_match {s : State} (h : Flags s) (hactive : s.connectionActive = true) :
    CalmMatch s s.calmed :=
  { flags := h, active := hactive, active' := hactive, frames := rfl, phase := rfl }

/-- Once active, a child is not stopped by the drain. -/
theorem CalmMatch.not_idle {s t : State} (h : CalmMatch s t) : s.phase.idle = false := by
  by_contra hidle
  rw [Bool.not_eq_false] at hidle
  exact absurd (h.flags.idle hidle) (by rw [h.active]; decide)

/-- An active child makes the same moves with and without drain signals. -/
theorem calm_simulation : LabelledMachine.Simulation step step Event.calm CalmMatch where
  silent {s e s' t} h hstep hcalm := by
    have hflags := flags_step h.flags (step_cases hstep)
    cases step_cases hstep
    case raised signal =>
      exact ⟨hflags, by simpa using h.active, h.active', h.frames, by simpa using h.phase⟩
    case delivered => exact ⟨hflags, h.active, h.active', h.frames, h.phase⟩
    case requested => exact ⟨hflags, h.active, h.active', h.frames, h.phase⟩
    case drained hidle => exact absurd hidle (by rw [h.active]; decide)
    case resumed => exact ⟨hflags, h.active, h.active', h.frames, h.phase⟩
    case killed => cases hcalm
    case unmasked => cases hcalm
    case unmaskedInto => cases hcalm
    case activated => cases hcalm
    case moved phase hframes hnext =>
      generalize s.phase = p at hnext
      cases hnext <;> cases hcalm
  visible {s e s' t d} h hstep hcalm := by
    have hflags := flags_step h.flags (step_cases hstep)
    have hnotidle := h.not_idle
    cases step_cases hstep
    case raised => cases hcalm
    case delivered => cases hcalm
    case requested => cases hcalm
    case drained => cases hcalm
    case resumed => cases hcalm
    case killed signal hlive hfatal =>
      cases hcalm
      exact ⟨_, step_of_killed (h.phase ▸ hlive) hfatal, hflags, h.active, h.active', h.frames, rfl⟩
    case unmasked hphase _ _ => rw [hphase] at hnotidle; cases hnotidle
    case unmaskedInto hphase _ _ => rw [hphase] at hnotidle; cases hnotidle
    case activated hphase _ => rw [hphase] at hnotidle; cases hnotidle
    case moved phase hframes hnext =>
      obtain rfl : e = d := by
        generalize s.phase = p at hnext
        cases hnext <;> cases hcalm <;> rfl
      rw [h.active, Bool.true_or, ← h.phase] at hnext
      have hmove : Next (t.connectionActive || t.drainRequested) t.phase e phase := by
        rw [h.active', Bool.true_or]
        exact hnext
      exact ⟨_, step_of_next h.frames hmove, hflags, h.active, h.active', h.frames, rfl⟩

/-! ## A child without a connection -/

/-- A child that is in a handler without an active connection, or has been ended
there. -/
structure Ending (s : State) : Prop where
  idle : s.connectionActive = false
  handling : s.phase.live = true → s.frames ≠ []
  status : ∀ status, s.phase = .terminated status →
    status = .exited 0 ∨ ∃ signal, status = .signaled signal

/-- The step belongs to the main program. -/
def Event.main : Event → Bool
  | .raise _ | .deliver _ | .handler | .killed _ => false
  | _ => true

/-- The main program does not run any more. -/
theorem ending_step {s s' : State} {e : Event} (h : Ending s) (hs : Step s e s') :
    Ending s' ∧ e.main = false := by
  cases hs
  case raised signal =>
    refine ⟨⟨?_, ?_, ?_⟩, rfl⟩
    · simpa using h.idle
    · simpa using h.handling
    · simpa using h.status
  case delivered hlive _ _ _ =>
    refine ⟨⟨h.idle, fun _ => List.cons_ne_nil _ _, ?_⟩, rfl⟩
    intro status hphase
    exact h.status status hphase
  case requested => exact ⟨⟨h.idle, fun _ => List.cons_ne_nil _ _, h.status⟩, rfl⟩
  case drained =>
    refine ⟨⟨h.idle, fun hlive => (by cases hlive), ?_⟩, rfl⟩
    intro status hphase
    cases hphase
    exact Or.inl rfl
  case resumed hactive => exact absurd h.idle (by rw [hactive]; decide)
  case killed signal _ _ =>
    refine ⟨⟨h.idle, fun hlive => (by cases hlive), ?_⟩, rfl⟩
    intro status hphase
    cases hphase
    exact Or.inr ⟨signal, rfl⟩
  case unmasked hphase hframes _ => exact absurd hframes (h.handling (by rw [hphase]; rfl))
  case unmaskedInto hphase hframes _ => exact absurd hframes (h.handling (by rw [hphase]; rfl))
  case activated hphase hframes => exact absurd hframes (h.handling (by rw [hphase]; rfl))
  case moved hframes hnext => exact absurd hframes (h.handling (live_of_next hnext))

/-- A child that is ending takes no step of the main program any more. -/
theorem ending_run {s u : State} {es : List Event} (h : Ending s)
    (hrun : LabelledMachine.exec step s es = some u) :
    Ending u ∧ ∀ e ∈ es, e.main = false := by
  refine LabelledMachine.exec_history_induction
    (P := fun es u => Ending u ∧ ∀ e ∈ es, e.main = false) ⟨h, by simp⟩ ?_ hrun
  rintro es u e u' - ⟨hu, hall⟩ hstep
  rcases ending_step hu (step_cases hstep) with ⟨hu', hmain⟩
  refine ⟨hu', ?_⟩
  intro e' he'
  rcases List.mem_append.mp he' with hold | hnew
  · exact hall e' hold
  · rw [List.mem_singleton.mp hnew]
    exact hmain

/-- A handler that starts before the connection is active is the end. -/
theorem ending_of_deliver {s s' : State} {signal : Signal} (hidle : s.connectionActive = false)
    (hs : Step s (.deliver signal) s') : Ending s' := by
  cases hs
  case delivered hlive _ _ _ =>
    refine ⟨hidle, fun _ => List.cons_ne_nil _ _, ?_⟩
    intro status hphase
    rw [show s.phase = .terminated status from hphase] at hlive
    cases hlive
  case moved hframes hnext =>
    generalize s.phase = p at hnext
    cases hnext

/-- A signal that is pending when the mask is lifted ends the child, too. -/
theorem ending_of_unmask {s s' : State} {delivered : Option Signal} (hflags : Flags s)
    (hpending : s.pending ≠ ∅) (hs : Step s (.sigprocmask delivered) s') : Ending s' := by
  cases hs
  case unmasked hempty => exact absurd hempty hpending
  case unmaskedInto hphase _ _ =>
    refine ⟨hflags.idle (by rw [hphase]; rfl), fun _ => List.cons_ne_nil _ _, ?_⟩
    intro status hterminated
    cases hterminated
  case moved hframes hnext =>
    generalize s.phase = p at hnext
    cases hnext

/-! ## How long the handlers take -/

/-- The handlers under way are those of different drain signals. -/
structure Distinct (s : State) : Prop where
  nodup : (s.frames.map Frame.signal).Nodup
  frames : ∀ frame ∈ s.frames, frame.signal.drains = true
  pending : ∀ signal ∈ s.pending, signal.drains = true

/-- There are three drain signals. -/
theorem Distinct.length_le {s : State} (h : Distinct s) : s.frames.length ≤ 3 := by
  have hsub : (s.frames.map Frame.signal).toFinset ⊆ {.sigusr1, .sigterm, .sigint} := by
    intro signal hmem
    rw [List.mem_toFinset, List.mem_map] at hmem
    rcases hmem with ⟨frame, hframe, rfl⟩
    have hdrains := h.frames frame hframe
    cases hsignal : frame.signal <;> simp_all [Signal.drains]
  have hcard := Finset.card_le_card hsub
  rw [List.toFinset_card_of_nodup h.nodup, List.length_map] at hcard
  exact hcard.trans (by decide)

/-- A step puts no second handler of one signal on the stack. -/
theorem distinct_step {s s' : State} {e : Event} (h : Distinct s) (hs : Step s e s') :
    Distinct s' := by
  cases hs
  case raised signal =>
    refine ⟨by simpa using h.nodup, by simpa using h.frames, ?_⟩
    intro signal' hmem
    rcases State.mem_post_pending s signal hmem with hold | ⟨rfl, hdrains⟩
    · exact h.pending signal' hold
    · exact hdrains
  case delivered signal _ _ hpending hother =>
    refine ⟨?_, ?_, ?_⟩
    · refine List.nodup_cons.mpr ⟨?_, h.nodup⟩
      intro hmem
      rcases List.mem_map.mp hmem with ⟨frame, hframe, heq⟩
      exact hother frame hframe heq
    · intro frame hmem
      rcases List.mem_cons.mp hmem with rfl | hold
      · exact h.pending signal hpending
      · exact h.frames frame hold
    · intro signal' hmem
      exact h.pending signal' (Finset.mem_of_mem_erase hmem)
  case requested signal frames _ hframes =>
    have hnodup := h.nodup
    have hdrains := h.frames
    rw [hframes] at hnodup hdrains
    refine ⟨hnodup, ?_, h.pending⟩
    intro frame hmem
    rcases List.mem_cons.mp hmem with rfl | hold
    · exact hdrains { signal := signal, requested := false } List.mem_cons_self
    · exact hdrains frame (List.mem_cons_of_mem _ hold)
  case drained => exact ⟨h.nodup, h.frames, h.pending⟩
  case resumed frames _ hframes _ =>
    have hnodup := h.nodup
    have hdrains := h.frames
    rw [hframes] at hnodup hdrains
    exact ⟨(List.nodup_cons.mp hnodup).2,
      fun frame hmem => hdrains frame (List.mem_cons_of_mem _ hmem), h.pending⟩
  case killed => exact ⟨h.nodup, h.frames, h.pending⟩
  case unmasked => exact ⟨h.nodup, h.frames, h.pending⟩
  case unmaskedInto signal _ hframes hpending =>
    refine ⟨?_, ?_, ?_⟩
    · simp [State.enter, hframes]
    · simpa [State.enter, hframes] using h.pending signal hpending
    · intro signal' hmem
      exact h.pending signal' (Finset.mem_of_mem_erase hmem)
  case activated => exact ⟨h.nodup, h.frames, h.pending⟩
  case moved => exact ⟨h.nodup, h.frames, h.pending⟩

/-- In every run the handlers on the stack are for different signals. -/
theorem run_distinct {inherited : List RawFd} {es : List Event} {s : State}
    (hrun : LabelledMachine.exec step (start inherited) es = some s) : Distinct s :=
  LabelledMachine.exec_invariant (fun _ _ _ h hstep => distinct_step h (step_cases hstep))
    ⟨by simp [start], by simp [start], by simp [start]⟩ hrun

/-- The steps of the child's own that are left in its handlers at most. -/
def State.handlerSteps (s : State) : Nat :=
  2 * (3 - s.frames.length) +
    match s.frames with
    | [] => 0
    | frame :: _ => if frame.requested then 1 else 2

/-- A step of the child's own: a handler starts or goes on. -/
def Event.own : Event → Bool
  | .deliver _ | .handler => true
  | _ => false

/-- A step of a handler uses one of those that remain. -/
theorem handlerSteps_step {s s' : State} {e : Event} (h : Ending s) (hdistinct : Distinct s)
    (hs : Step s e s') (hlive : s'.phase.live = true) :
    s'.handlerSteps + (if e.own then 1 else 0) ≤ s.handlerSteps := by
  have hlength := (distinct_step hdistinct hs).length_le
  cases hs
  case raised signal => simp [State.handlerSteps, Event.own]
  case delivered signal hlive' _ _ _ =>
    have hhandling := h.handling hlive'
    cases hframes : s.frames with
    | nil => exact absurd hframes hhandling
    | cons frame frames =>
        simp only [State.enter, hframes, List.length_cons] at hlength
        simp only [State.handlerSteps, State.enter, hframes, List.length_cons, Event.own]
        cases frame.requested <;> simp <;> omega
  case requested signal frames _ hframes =>
    simp [State.handlerSteps, Event.own, hframes]
  case drained => cases hlive
  case resumed hactive => exact absurd h.idle (by rw [hactive]; decide)
  case killed => cases hlive
  case unmasked hphase hframes _ => exact absurd hframes (h.handling (by rw [hphase]; rfl))
  case unmaskedInto hphase hframes _ => exact absurd hframes (h.handling (by rw [hphase]; rfl))
  case activated hphase hframes => exact absurd hframes (h.handling (by rw [hphase]; rfl))
  case moved hframes hnext => exact absurd hframes (h.handling (live_of_next hnext))

/-- The dead take no steps. -/
theorem live_of_step {s s' : State} {e : Event} (hs : Step s e s')
    (hlive : s'.phase.live = true) : s.phase.live = true := by
  cases hs
  case raised => simpa using hlive
  case delivered hlive' _ _ _ => exact hlive'
  case requested hlive' _ => exact hlive'
  case drained => cases hlive
  case resumed hlive' _ _ => exact hlive'
  case killed => cases hlive
  case unmasked hphase _ _ => rw [hphase]; rfl
  case unmaskedInto hphase _ _ => rw [hphase]; rfl
  case activated hphase _ => rw [hphase]; rfl
  case moved hnext => exact live_of_next hnext

/-- A child that is ending makes few more steps of its own while it lives. -/
theorem ending_bounded {s u : State} {es : List Event} (h : Ending s) (hdistinct : Distinct s)
    (hrun : LabelledMachine.exec step s es = some u) (hlive : u.phase.live = true) :
    es.countP Event.own ≤ 6 := by
  have hcount : u.phase.live = true → u.handlerSteps + es.countP Event.own ≤ s.handlerSteps := by
    refine (LabelledMachine.exec_history_induction
      (P := fun es u => (Ending u ∧ Distinct u) ∧
        (u.phase.live = true → u.handlerSteps + es.countP Event.own ≤ s.handlerSteps))
      ⟨⟨h, hdistinct⟩, by simp⟩ ?_ hrun).2
    rintro es u e u' - ⟨⟨hending, hdistinct'⟩, hle⟩ hstep
    have hs := step_cases hstep
    refine ⟨⟨(ending_step hending hs).1, distinct_step hdistinct' hs⟩, ?_⟩
    intro hlive'
    have hlast := handlerSteps_step hending hdistinct' hs hlive'
    have hbefore := hle (live_of_step hs hlive')
    rw [List.countP_append, List.countP_singleton]
    omega
  have hstart : s.handlerSteps ≤ 6 := by
    unfold State.handlerSteps
    split
    · omega
    case h_2 frame frames hframes =>
      rw [hframes, List.length_cons]
      split <;> omega
  have hend := hcount hlive
  omega

/-- The handler itself is never stuck. -/
theorem handler_unstuck {s : State} (hlive : s.phase.live = true) (hframes : s.frames ≠ []) :
    (step s .handler).isSome = true := by
  cases hs : s.frames with
  | nil => exact absurd hs hframes
  | cons frame frames =>
      simp only [step, hlive, hs, if_true]
      cases frame.requested <;> cases s.connectionActive <;> rfl

/-! ## The laws of the drain -/

/-- The mark is never taken back. -/
theorem active_of_step {s s' : State} {e : Event} (hs : Step s e s')
    (hactive : s.connectionActive = true) : s'.connectionActive = true := by
  cases hs
  case raised => simpa using hactive
  case activated => rfl
  all_goals exact hactive

/-- A request is started in one phase only. -/
theorem phase_of_request {s s' : State} {success : Bool}
    (hs : Step s (.requestStartup success) s') : s.phase = .requestStartup := by
  cases hs
  case moved hframes hnext =>
    generalize s.phase = p at hnext
    cases hnext <;> rfl

/-- A request is started only for an active connection. -/
theorem active_of_request {inherited : List RawFd} {es : List Event} {s : State} {success : Bool}
    (hrun : LabelledMachine.exec step (start inherited) es = some s)
    (hrequest : .requestStartup success ∈ es) : s.connectionActive = true := by
  revert hrequest
  refine LabelledMachine.exec_history_induction
    (P := fun es s => .requestStartup success ∈ es → s.connectionActive = true)
    (by simp) ?_ hrun
  intro es s e s' hprefix ih hstep hmem
  have hs := step_cases hstep
  apply active_of_step hs
  rcases List.mem_append.mp hmem with hold | hnew
  · exact ih hold
  · obtain rfl := List.mem_singleton.mp hnew
    exact (run_flags hprefix).serving (by rw [phase_of_request hs]; rfl)

/-- A signal sent behind the mask is not lost. -/
theorem pending_of_raise {inherited : List RawFd} {es : List Event} {s : State} {signal : Signal}
    (hdrains : signal.drains = true)
    (hrun : LabelledMachine.exec step (start inherited) es = some s)
    (hlive : s.phase.live = true) (hblocked : s.blocked = true) (hraise : .raise signal ∈ es) :
    signal ∈ s.pending := by
  revert hlive hblocked hraise
  refine LabelledMachine.exec_history_induction
    (P := fun es s => s.phase.live = true → s.blocked = true → .raise signal ∈ es →
      signal ∈ s.pending) (by simp) ?_ hrun
  intro es s e s' _ ih hstep hlive hblocked hmem
  have hs := step_cases hstep
  have hbefore := live_of_step hs hlive
  have hold : e ≠ .raise signal → .raise signal ∈ es := by
    intro hne
    rcases List.mem_append.mp hmem with hold | hnew
    · exact hold
    · exact absurd (List.mem_singleton.mp hnew).symm hne
  cases hs
  case raised signal' =>
    by_cases hsame : signal' = signal
    · subst hsame
      simp [State.post, hbefore, hdrains]
    · have hpending := ih hbefore (by simpa using hblocked) (hold (by simpa using hsame))
      unfold State.post
      split
      · exact Finset.mem_insert_of_mem hpending
      · exact hpending
  case delivered hunblocked _ _ =>
    exact Bool.noConfusion (hunblocked.symm.trans hblocked)
  case requested => exact ih hbefore hblocked (hold (by simp))
  case drained => cases hlive
  case resumed => exact ih hbefore hblocked (hold (by simp))
  case killed => cases hlive
  case unmasked => cases hblocked
  case unmaskedInto => cases hblocked
  case activated => exact ih hbefore hblocked (hold (by simp))
  case moved hframes hnext =>
    refine ih hbefore hblocked (hold ?_)
    rintro rfl
    generalize s.phase = p at hnext
    cases hnext

/-- A drain signal reaches the child: its handler starts, or it is pending when
the mask is lifted. -/
def Reached (s : State) (e : Event) : Prop :=
  (∃ signal, e = .deliver signal) ∨ (∃ delivered, e = .sigprocmask delivered) ∧ s.pending ≠ ∅

/-- What a child's run {lit}`es` that ends in {lit}`s` says about drain signals.

{lit}`unaffected` compares the run from an active state on with the same run
without any drain signal; {lit}`ends` is about a signal that reaches the child
before. -/
structure DrainLaws (inherited : List RawFd) (es : List Event) (s : State) : Prop where
  unaffected : ∀ earlier later s₁, es = earlier ++ later →
    LabelledMachine.exec step (start inherited) earlier = some s₁ → s₁.connectionActive = true →
    ∃ u, LabelledMachine.exec step s₁.calmed (later.filterMap Event.calm) = some u ∧
      u.phase = s.phase
  ends : ∀ earlier e later s₁, es = earlier ++ e :: later →
    LabelledMachine.exec step (start inherited) earlier = some s₁ → s₁.connectionActive = false →
    Reached s₁ e →
    (∀ success, .requestStartup success ∉ es) ∧
    (∀ status, s.phase = .terminated status →
      status = .exited 0 ∨ ∃ signal, status = .signaled signal) ∧
    (s.phase.live = true → later.countP Event.own ≤ 6 ∧ (step s .handler).isSome = true)
  kept : s.phase.live = true → s.blocked = true → ∀ signal : Signal, signal.drains = true →
    .raise signal ∈ es → signal ∈ s.pending
  settled : s.phase.live = true → s.frames = [] → s.drainRequested = true →
    s.connectionActive = true

/-- A drain signal that reaches an idle child is about to end it. -/
theorem ending_of_reached {inherited : List RawFd} {es : List Event} {s s' : State} {e : Event}
    (hrun : LabelledMachine.exec step (start inherited) es = some s)
    (hidle : s.connectionActive = false) (hreached : Reached s e) (hs : Step s e s') :
    Ending s' := by
  rcases hreached with ⟨signal, rfl⟩ | ⟨⟨delivered, rfl⟩, hpending⟩
  · exact ending_of_deliver hidle hs
  · exact ending_of_unmask (run_flags hrun) hpending hs

/-- Every run of a child keeps the laws of the drain. -/
theorem run_drain_laws {inherited : List RawFd} {es : List Event} {s : State}
    (hrun : LabelledMachine.exec step (start inherited) es = some s) :
    DrainLaws inherited es s where
  unaffected earlier later s₁ hes hearlier hactive := by
    rw [hes, LabelledMachine.exec_append, hearlier] at hrun
    rcases calm_simulation.exec (State.calmed_match (run_flags hearlier) hactive) hrun with
      ⟨u, hu, hmatch⟩
    exact ⟨u, hu, hmatch.phase⟩
  ends earlier e later s₁ hes hearlier hidle hreached := by
    have hsplit := hrun
    rw [hes, LabelledMachine.exec_append, hearlier] at hsplit
    simp only [Option.bind_some, LabelledMachine.exec_cons, Option.bind_eq_some_iff] at hsplit
    rcases hsplit with ⟨s₂, hstep, hlater⟩
    have hs := step_cases hstep
    have hending := ending_of_reached hearlier hidle hreached hs
    rcases ending_run hending hlater with ⟨hend, hmain⟩
    refine ⟨?_, hend.status, ?_⟩
    · intro success hmem
      have hactive := active_of_request hrun hmem
      rw [hend.idle] at hactive
      cases hactive
    · intro hlive
      have hdistinct := distinct_step (run_distinct hearlier) hs
      exact ⟨ending_bounded hending hdistinct hlater hlive,
        handler_unstuck hlive (hend.handling hlive)⟩
  kept hlive hblocked signal hdrains hraise :=
    pending_of_raise hdrains hrun hlive hblocked hraise
  settled hlive hframes hdrain := by
    rcases run_settled hrun hlive hdrain with hactive | ⟨frame, hmem, -⟩
    · exact hactive
    · simp [hframes] at hmem

end Child

end Polychrome

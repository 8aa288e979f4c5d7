import Polychrome.Child.Connection

/-!
# The parent test

Before it does anything else a child asks the kernel for {lit}`SIGKILL` at the
death of its parent, and only then tests whether the parent is still there.

Main results:

- Theorem {lit}`run_armed`: behind the request the request has been made, and no
  handler runs in front of the test.
- Theorem {lit}`orphan_step`: a child whose parent is gone goes on to the test and
  ends there.
-/

namespace Polychrome

namespace Child

/-- The child has not passed {lit}`getppid() != expected_parent` yet. -/
def Phase.untested : Phase → Bool
  | .closeInherited _ | .prctl | .getppid => true
  | _ => false

/-- The steps up to the parent test and the test itself. -/
def Phase.untilTest : Phase → Nat
  | .closeInherited todo => todo.length + 3
  | .prctl => 2
  | .getppid => 1
  | _ => 0

/-- The steps of a child that finds its parent gone. -/
def Event.orphaned : Event → Bool
  | .raise _ | .killed _ | .close _ | .tau | .prctl | .getppid false => true
  | _ => false

/-- The request for {lit}`SIGKILL` at the death of the parent. -/
def Event.arms : Event → Bool
  | .prctl => true
  | _ => false

/-- The child is behind its request for {lit}`SIGKILL`. -/
def Phase.requested (p : Phase) : Prop := p.untested = false ∨ p = .getppid

/-- The parent test lies ahead only of what is in front of it. -/
theorem untested_of_next {stop : Bool} {p p' : Phase} {e : Event} (h : Next stop p e p')
    (huntested : p'.untested = true) : p.untested = true ∧ p'.untilTest + 1 = p.untilTest := by
  cases h
  case inheritedClosed => exact ⟨rfl, rfl⟩
  case inheritedDone => exact ⟨rfl, rfl⟩
  case deathSignalSet => exact ⟨rfl, rfl⟩
  all_goals cases huntested

/-- Only the request leads behind the request. -/
theorem requested_of_next {stop : Bool} {p p' : Phase} {e : Event} (h : Next stop p e p')
    (hrequested : p'.requested) : e.arms = true ∨ p.requested := by
  cases h
  case inheritedClosed => simp [Phase.requested, Phase.untested] at hrequested
  case inheritedDone => simp [Phase.requested, Phase.untested] at hrequested
  case deathSignalSet => exact Or.inl rfl
  case parentThere => exact Or.inr (Or.inr rfl)
  case parentGone => exact Or.inr (Or.inr rfl)
  case initBailedOut hphase => rcases hphase with rfl | rfl <;> exact Or.inr (Or.inl rfl)
  case startupBailedOut hphase => rcases hphase with rfl | rfl <;> exact Or.inr (Or.inl rfl)
  case scriptBailedOut hphase => rcases hphase with rfl | rfl | rfl <;> exact Or.inr (Or.inl rfl)
  all_goals exact Or.inr (Or.inl rfl)

/-- What is known of a child at its parent test: no handler runs up to there, and
behind the request the request has been made. -/
structure Armed (es : List Event) (s : State) : Prop where
  quiet : s.phase.untested = true → s.blocked = true ∧ s.frames = []
  asked : s.phase.live = true → s.phase.requested → es.any Event.arms = true

/-- A step that leaves the main program where it is. -/
theorem Armed.steady {es : List Event} {s s' : State} {e : Event} (h : Armed es s)
    (hphase : s'.phase = s.phase)
    (hquiet : s.phase.untested = true → s'.blocked = s.blocked ∧ s'.frames = s.frames) :
    Armed (es ++ [e]) s' where
  quiet huntested := by
    rw [hphase] at huntested
    rcases hquiet huntested with ⟨hblocked, hframes⟩
    rw [hblocked, hframes]
    exact h.quiet huntested
  asked hlive hrequested := by
    rw [hphase] at hlive hrequested
    rw [List.any_append, h.asked hlive hrequested, Bool.true_or]

/-- A step of the main program from behind the parent test. -/
theorem Armed.behind {es : List Event} {s s' : State} {e : Event} (h : Armed es s)
    (hlive : s.phase.live = true) (hpassed : s.phase.untested = false)
    (hpassed' : s'.phase.untested = false) : Armed (es ++ [e]) s' where
  quiet huntested := by rw [hpassed'] at huntested; cases huntested
  asked _ _ := by rw [List.any_append, h.asked hlive (Or.inl hpassed), Bool.true_or]

/-- What is known at the parent test is kept by every step. -/
theorem armed_step {es : List Event} {s s' : State} {e : Event} (h : Armed es s)
    (hs : Step s e s') : Armed (es ++ [e]) s' := by
  cases hs
  case raised signal => exact h.steady (by simp) (by simp)
  case delivered signal hlive hunblocked _ _ =>
    refine h.steady rfl ?_
    intro huntested
    rw [(h.quiet huntested).1] at hunblocked
    cases hunblocked
  case requested signal frames hlive hframes =>
    refine h.steady rfl ?_
    intro huntested
    rw [(h.quiet huntested).2] at hframes
    cases hframes
  case drained => exact ⟨by simp [State.exit, Phase.untested], by simp [State.exit, Phase.live]⟩
  case resumed signal frames hlive hframes hactive =>
    refine h.steady rfl ?_
    intro huntested
    rw [(h.quiet huntested).2] at hframes
    cases hframes
  case killed => exact ⟨by simp [Phase.untested], by simp [Phase.live]⟩
  case unmasked hphase _ _ =>
    exact h.behind (by rw [hphase]; rfl) (by rw [hphase]; rfl) rfl
  case unmaskedInto hphase _ _ =>
    exact h.behind (by rw [hphase]; rfl) (by rw [hphase]; rfl) rfl
  case activated hphase _ =>
    exact h.behind (by rw [hphase]; rfl) (by rw [hphase]; rfl) rfl
  case moved phase hframes hnext =>
    refine ⟨fun huntested => h.quiet (untested_of_next hnext huntested).1, ?_⟩
    intro _ hrequested
    rw [List.any_append]
    rcases requested_of_next hnext hrequested with harms | hbefore
    · simp [harms]
    · rw [h.asked (live_of_next hnext) hbefore, Bool.true_or]

/-- What is known at the parent test is known in every run. -/
theorem run_armed {inherited : List RawFd} {es : List Event} {s : State}
    (hrun : LabelledMachine.exec step (start inherited) es = some s) : Armed es s := by
  refine LabelledMachine.exec_history_induction (P := Armed) ⟨?_, ?_⟩ ?_ hrun
  · exact fun _ => ⟨rfl, rfl⟩
  · simp [start, Phase.requested, Phase.untested]
  · exact fun es s e s' _ h hstep => armed_step h (step_cases hstep)

/-- A child whose parent is gone only goes on to its parent test, which ends it. -/
theorem orphan_step {es : List Event} {s s' : State} {e : Event} (h : Armed es s)
    (huntested : s.phase.untested = true) (hgone : e ≠ .getppid true) (hs : Step s e s') :
    e.orphaned = true ∧
      s'.phase.untilTest + (if e.moves then 1 else 0) ≤ s.phase.untilTest ∧
      (s'.phase.untested = true ∨ s'.phase = .terminated (.exited 1) ∨
        ∃ signal, e = .killed signal ∧ s'.phase = .terminated (.signaled signal)) := by
  rcases h.quiet huntested with ⟨hblocked, hquiet⟩
  cases hs
  case raised signal => exact ⟨rfl, by simp [Event.moves], Or.inl (by simpa using huntested)⟩
  case delivered hunblocked _ _ => rw [hblocked] at hunblocked; cases hunblocked
  case requested hframes => rw [hquiet] at hframes; cases hframes
  case drained hframes _ => rw [hquiet] at hframes; cases hframes
  case resumed hframes _ => rw [hquiet] at hframes; cases hframes
  case killed signal _ _ =>
    exact ⟨rfl, Nat.zero_le _, Or.inr (Or.inr ⟨signal, rfl, rfl⟩)⟩
  case unmasked hphase _ _ => rw [hphase] at huntested; cases huntested
  case unmaskedInto hphase _ _ => rw [hphase] at huntested; cases huntested
  case activated hphase _ => rw [hphase] at huntested; cases huntested
  case moved phase _ hnext =>
    change _ ∧ phase.untilTest + _ ≤ _ ∧ (phase.untested = true ∨ phase = _ ∨ _)
    generalize s.phase = p at hnext huntested
    cases hnext
    case inheritedClosed => exact ⟨rfl, Nat.le_refl _, Or.inl rfl⟩
    case inheritedDone => exact ⟨rfl, Nat.le_refl _, Or.inl rfl⟩
    case deathSignalSet => exact ⟨rfl, Nat.le_refl _, Or.inl rfl⟩
    case parentThere => exact absurd rfl hgone
    case parentGone => exact ⟨rfl, Nat.le_refl _, Or.inr (Or.inl rfl)⟩
    case initBailedOut hphase => rcases hphase with rfl | rfl <;> cases huntested
    case startupBailedOut hphase => rcases hphase with rfl | rfl <;> cases huntested
    case scriptBailedOut hphase => rcases hphase with rfl | rfl | rfl <;> cases huntested
    all_goals cases huntested

/-- A child that has ended is only sent signals. -/
theorem raised_of_ended {s s' : State} {e : Event} (hended : s.phase.live = false)
    (hs : Step s e s') : (∃ signal, e = .raise signal) ∧ s'.phase = s.phase := by
  cases hs
  case raised signal => exact ⟨⟨signal, rfl⟩, by simp⟩
  case delivered hlive _ _ _ => rw [hended] at hlive; cases hlive
  case requested hlive _ => rw [hended] at hlive; cases hlive
  case drained hlive _ _ => rw [hended] at hlive; cases hlive
  case resumed hlive _ _ => rw [hended] at hlive; cases hlive
  case killed hlive _ => rw [hended] at hlive; cases hlive
  case unmasked hphase _ _ => rw [hphase] at hended; cases hended
  case unmaskedInto hphase _ _ => rw [hphase] at hended; cases hended
  case activated hphase _ => rw [hphase] at hended; cases hended
  case moved hnext => rw [live_of_next hnext] at hended; cases hended

/-- No step adds to the calls before the parent test. -/
theorem untilTest_step {s s' : State} {e : Event} (hs : Step s e s') :
    s'.phase.untilTest ≤ s.phase.untilTest := by
  by_cases huntested : s'.phase.untested = true
  · cases hs
    case raised => simp
    case delivered => exact Nat.le_refl _
    case requested => exact Nat.le_refl _
    case resumed => exact Nat.le_refl _
    case moved hnext => exact Nat.le_of_succ_le (untested_of_next hnext huntested).2.le
    all_goals cases huntested
  · have hzero : s'.phase.untilTest = 0 := by
      cases hphase : s'.phase <;>
        first | rfl | (rw [hphase] at huntested; exact absurd rfl huntested)
    omega

/-- The way to the parent test is no longer than what the child inherits. -/
theorem run_untilTest {inherited : List RawFd} {es : List Event} {s : State}
    (hrun : LabelledMachine.exec step (start inherited) es = some s) :
    s.phase.untilTest ≤ inherited.length + 3 :=
  LabelledMachine.exec_invariant (I := fun s => s.phase.untilTest ≤ inherited.length + 3)
    (fun _ _ _ h hstep => (untilTest_step (step_cases hstep)).trans h) (Nat.le_refl _) hrun

/-- An orphan is never stuck on its way to the test, and sends nothing there. -/
theorem orphan_unstuck {es : List Event} {s : State} (h : Armed es s)
    (huntested : s.phase.untested = true) :
    ∃ e, e.moves = true ∧ e ≠ .getppid true ∧ (∀ stamp, e ≠ .send stamp true) ∧
      (step s e).isSome = true := by
  have hframes := (h.quiet huntested).2
  have hstep : ∀ {e : Event} {p : Phase},
      Next (s.connectionActive || s.drainRequested) s.phase e p → (step s e).isSome = true := by
    intro e p hnext
    rw [step_of_next hframes hnext]
    rfl
  cases hphase : s.phase with
  | closeInherited todo =>
      rw [hphase] at hstep
      cases todo with
      | nil => exact ⟨.tau, rfl, by simp, by simp, hstep .inheritedDone⟩
      | cons fd todo => exact ⟨.close fd, rfl, by simp, by simp, hstep .inheritedClosed⟩
  | prctl =>
      rw [hphase] at hstep
      exact ⟨.prctl, rfl, by simp, by simp, hstep .deathSignalSet⟩
  | getppid =>
      rw [hphase] at hstep
      exact ⟨.getppid false, rfl, by simp, by simp, hstep .parentGone⟩
  | _ => rw [hphase] at huntested; cases huntested

end Child

end Polychrome

import Polychrome.Child.ParentTest
import Polychrome.System.Descriptors
import Polychrome.System.Drain

/-!
# The death of the manager

The manager can die at any moment, and its children must not go on holding the
listener.  A child asks the kernel for {lit}`SIGKILL` at the death of its parent
and tests only then whether the parent is still there, so that a manager which
dies before the request is noticed by the test.

The machine of this module is the system with a manager that can die.  The
kernel marks the children that have made their request when the manager dies,
and answers {lit}`getppid` by whether it lives.  A marked child has
{lit}`SIGKILL` pending; how far it gets before the kernel acts on it is left
open, so a marked child can still take any step.

Main results:

- Theorem {lit}`system_run`: but for the death of the manager, a run is a run of
  the system, so everything known of the system holds of orphans too.
- Theorem {lit}`no_orphan_serves`: behind the death of the manager a child that is
  not marked ends at its parent test, after few steps, without ever reaching
  {lit}`accept`.

Current gaps:

- An orphan is given a parent other than the manager, which is how the kernel
  reparents; that the pid of a dead manager is not reused is part of that.
-/

namespace Polychrome

namespace System

/-! ## What a child inherits -/

/-- A child inherits its own event end, the signals and an event end for each
worker there is. -/
def InheritsFew (config : Config) (s : State) : Prop :=
  ∀ (pid : Pid) (p : Process), s.procs[pid]? = some p →
    p.inherited.length ≤ config.workers + 1

/-- Whatever the manager is answered, no child inherits more than a socket for each worker
and one. -/
theorem inheritsFew_answer {config : Config} {signals : RawFd} {s t : State} {e : Manager.Event}
    (h : InheritsFew config s) (htracks : Manager.Tracks config s.manager s.kernel)
    (hanswer : s.answer signals e = some t) : InheritsFew config t := by
  cases e
  case socketpair reply =>
    rcases reply with ⟨parent, child⟩ | errno
    · simp only [State.answer] at hanswer
      split at hanswer
      · cases hanswer
      · cases hanswer
        exact h
    · cases hanswer
      exact h
  case fork reply =>
    rcases reply with newborn | errno
    · simp only [State.answer] at hanswer
      split at hanswer
      case h_1 parent child hphase =>
        cases hanswer
        intro pid p hp
        rw [Std.ExtTreeMap.getElem?_insert] at hp
        split at hp
        case isTrue =>
          cases hp
          have hroom : s.manager.workers.size < config.workers :=
            htracks.room (by rw [hphase]; rfl)
          simp only [Process.fork, List.length_cons, List.length_map,
            MapEntries.length_values]
          omega
        case isFalse => exact h pid p hp
      case h_2 => cases hanswer
    · cases hanswer
      exact h
  case recv pid fd stamp =>
    simp only [State.answer] at hanswer
    repeat' split at hanswer
    all_goals first | (cases hanswer; done) | skip
    all_goals
      cases hanswer
      exact h
  case kill pid signal =>
    cases hanswer
    intro pid' p hp
    rw [Std.ExtTreeMap.getElem?_modify] at hp
    split at hp
    case isTrue heq =>
      rcases Option.map_eq_some_iff.mp hp with ⟨p₀, hp₀, rfl⟩
      exact h pid p₀ hp₀
    case isFalse => exact h pid' p hp
  case waitpid reply =>
    rcases reply with - | ⟨pid, status⟩
    · cases hanswer
      exact h
    · simp only [State.answer] at hanswer
      repeat' split at hanswer
      all_goals first | (cases hanswer; done) | skip
      cases hanswer
      intro pid' p hp
      rw [Std.ExtTreeMap.getElem?_erase] at hp
      split at hp
      · cases hp
      · exact h pid' p hp
  all_goals
    cases hanswer
    exact h

/-- No child of any run does. -/
theorem run_inheritsFew {config : Config} {signals : RawFd} {t : Instant} {es : List Event}
    {s : State} (hrun : LabelledMachine.exec (step config signals) (initial t) es = some s) :
    InheritsFew config s := by
  refine LabelledMachine.exec_history_induction (P := fun _ s => InheritsFew config s) ?_ ?_ hrun
  · intro pid p hp
    simp [initial] at hp
  · intro es s e s' hbefore h hstep
    cases e with
    | manager e =>
        simp only [step, Option.bind_eq_some_iff, Option.map_eq_some_iff] at hstep
        rcases hstep with ⟨u, hanswer, m, -, rfl⟩
        have hu : InheritsFew config u :=
          inheritsFew_answer h (Manager.run_tracks (manager_run hbefore)) hanswer
        exact hu
    | child pid e =>
        rcases Descriptors.childStep_procs hstep with ⟨p, p', hp, hp', hprocs⟩
        intro pid' q hq
        rw [hprocs, Std.ExtTreeMap.getElem?_insert] at hq
        split at hq
        case isTrue =>
          cases hq
          rw [(Process.step_eq_some hp').1]
          exact h pid p hp
        case isFalse => exact h pid' q hq

/-! ## A manager that can die -/

namespace Orphans

/-- The system, whether its manager lives, and the children with a {lit}`SIGKILL`
pending because it died. -/
structure State where
  system : System.State
  alive : Bool
  doomed : List Pid

/-- A step of the system, or the death of the manager. -/
inductive Event
  | system (e : System.Event)
  | managerDies
deriving DecidableEq, Repr

/-- The children that have asked for {lit}`SIGKILL` at the death of their parent. -/
def armed (procs : Std.ExtTreeMap Pid Process) : List Pid :=
  (procs.toList.filter fun x => x.2.past.any Child.Event.arms).map Prod.fst

/-- A dead manager makes no call, and {lit}`getppid` tells whether it lives. -/
def answers (alive : Bool) : System.Event → Bool
  | .manager _ => alive
  | .child _ (.getppid unchanged) => unchanged == alive
  | .child _ _ => true

/-- One step of the system with a manager that can die. -/
def step (config : Config) (signals : RawFd) : LabelledMachine.Machine State Event := fun s e =>
  match e with
  | .managerDies =>
      if s.alive then some { s with alive := false, doomed := armed s.system.procs } else none
  | .system e =>
      if answers s.alive e then
        (System.step config signals s.system e).map fun t => { s with system := t }
      else none

/-- The manager lives, and no child has been forked. -/
def initial (t : Instant) : State where
  system := System.initial t
  alive := true
  doomed := []

/-- The step of the system that a step is. -/
def Event.ofSystem : Event → Option System.Event
  | .system e => some e
  | .managerDies => none

/-- The child {lit}`pid` makes a step of its own. -/
def Event.movesOf (pid : Pid) : Event → Bool
  | .system (.child pid' e) => pid' == pid && e.moves
  | _ => false

variable {config : Config} {signals : RawFd}

/-- A child is armed if it has asked to be told of the manager's death. -/
theorem mem_armed {procs : Std.ExtTreeMap Pid Process} {pid : Pid} :
    pid ∈ armed procs ↔
      ∃ p : Process, procs[pid]? = some p ∧ p.past.any Child.Event.arms = true := by
  simp [armed, Std.ExtTreeMap.mem_toList_iff_getElem?_eq_some]

/-- A step of the system leaves the manager alive or dead, as it was. -/
theorem step_system {s s' : State} {e : System.Event}
    (h : step config signals s (.system e) = some s') :
    answers s.alive e = true ∧ System.step config signals s.system e = some s'.system ∧
      s'.alive = s.alive ∧ s'.doomed = s.doomed := by
  simp only [step] at h
  split at h
  case isTrue hanswers =>
    rcases Option.map_eq_some_iff.mp h with ⟨t, hstep, rfl⟩
    exact ⟨hanswers, hstep, rfl, rfl⟩
  case isFalse => cases h

/-- Whether or not its manager dies, the system is the one without a death. -/
theorem system_simulation (config : Config) (signals : RawFd) :
    LabelledMachine.Simulation (step config signals) (System.step config signals) Event.ofSystem
      fun s t => t = s.system where
  silent {s e s' t} ht hstep hproj := by
    cases e with
    | system e => cases hproj
    | managerDies =>
        simp only [step] at hstep
        split at hstep
        · cases hstep
          exact ht
        · cases hstep
  visible {s e s' t d} ht hstep hproj := by
    cases e with
    | managerDies => cases hproj
    | system e =>
        cases hproj
        exact ⟨s'.system, ht ▸ (step_system hstep).2.1, rfl⟩

/-- But for the death of the manager, a run is a run of the system. -/
theorem system_run {t : Instant} {es : List Event} {s : State}
    (hrun : LabelledMachine.exec (step config signals) (initial t) es = some s) :
    LabelledMachine.exec (System.step config signals) (System.initial t)
      (es.filterMap Event.ofSystem) = some s.system := by
  rcases (system_simulation config signals).exec rfl hrun with ⟨u, hu, rfl⟩
  exact hu

/-! ## Behind the death of the manager -/

/-- A step behind the death of the manager is a step of a child. -/
theorem step_dead {s s' : State} {e : Event} (hdead : s.alive = false)
    (h : step config signals s e = some s') :
    ∃ pid c, e = .system (.child pid c) ∧ c ≠ .getppid true ∧
      s.system.childStep pid c = some s'.system ∧ s'.alive = false ∧ s'.doomed = s.doomed := by
  cases e with
  | managerDies => simp [step, hdead] at h
  | system e =>
      rcases step_system h with ⟨hanswers, hstep, halive, hdoomed⟩
      rw [hdead] at hanswers halive
      cases e with
      | manager e => cases hanswers
      | child pid c =>
          refine ⟨pid, c, rfl, ?_, hstep, halive, hdoomed⟩
          rintro rfl
          cases hanswers

/-- What the child {lit}`pid` can still do when it stands at {lit}`q` without a mark
at the death of the manager. -/
structure Bereft (pid : Pid) (q : Process) (later : List Event) (p : Process) : Prop where
  steps : ∀ c, .system (.child pid c) ∈ later → c.orphaned = true
  count : p.state.phase.untilTest + later.countP (Event.movesOf pid) ≤
    q.state.phase.untilTest
  place : p.state.phase.untested = true ∨ p.state.phase.live = false ∧
    (q.state.phase.live = true → p.state.phase = .terminated (.exited 1) ∨
      ∃ signal, .system (.child pid (.killed signal)) ∈ later)

/-- Every call of a bereft child is accounted for. -/
theorem bereft_step {pid : Pid} {q p p' : Process} {later : List Event} {c : Child.Event}
    (h : Bereft pid q later p) (hgone : c ≠ .getppid true) (hstep : p.step c = some p') :
    Bereft pid q (later ++ [.system (.child pid c)]) p' := by
  have hs : Child.Step p.state c p'.state := Child.step_cases (Process.step_eq_some hstep).2.2.2
  have hcount := h.count
  have hlast : [Event.system (.child pid c)].countP (Event.movesOf pid) =
      if c.moves then 1 else 0 := by
    simp [List.countP_singleton, Event.movesOf]
  have hsteps : c.orphaned = true →
      ∀ c', .system (.child pid c') ∈ later ++ [Event.system (.child pid c)] →
        c'.orphaned = true := by
    intro horphaned c' hmem
    rcases List.mem_append.mp hmem with hbefore | hnew
    · exact h.steps c' hbefore
    · rw [List.mem_singleton] at hnew
      cases hnew
      exact horphaned
  rcases h.place with huntested | ⟨hended, hend⟩
  · rcases Child.orphan_step (Child.run_armed p.run) huntested hgone hs with
      ⟨horphaned, hless, hplace⟩
    refine ⟨hsteps horphaned, ?_, ?_⟩
    · rw [List.countP_append, hlast]
      omega
    · rcases hplace with hplace | hexited | ⟨signal, rfl, hkilled⟩
      · exact Or.inl hplace
      · exact Or.inr ⟨by rw [hexited]; rfl, fun _ => Or.inl hexited⟩
      · exact Or.inr ⟨by rw [hkilled]; rfl, fun _ => Or.inr ⟨signal, by simp⟩⟩
  · rcases Child.raised_of_ended hended hs with ⟨⟨signal, rfl⟩, hphase⟩
    refine ⟨hsteps rfl, ?_, ?_⟩
    · rw [List.countP_append, hlast, hphase]
      simpa [Child.Event.moves] using hcount
    · refine Or.inr ⟨by rw [hphase]; exact hended, fun hlive => ?_⟩
      rw [hphase]
      rcases hend hlive with hexited | ⟨signal', hkilled⟩
      · exact Or.inl hexited
      · exact Or.inr ⟨signal', List.mem_append_left _ hkilled⟩

/-- A child that has made no request when the manager dies is in front of its parent
test, or has ended. -/
theorem bereft_of_unmarked {pid : Pid} {q : Process}
    (hasked : q.past.any Child.Event.arms = false) : Bereft pid q [] q where
  steps c hmem := by cases hmem
  count := by simp
  place := by
    by_cases huntested : q.state.phase.untested = true
    · exact Or.inl huntested
    · cases hlive : q.state.phase.live with
      | false => exact Or.inr ⟨rfl, by simp⟩
      | true =>
          rw [Bool.not_eq_true] at huntested
          rw [(Child.run_armed q.run).asked hlive (Or.inl huntested)] at hasked
          cases hasked

/-- As long as it lives it has not passed the test. -/
theorem Bereft.untested_of_live {pid : Pid} {q p : Process} {later : List Event}
    (h : Bereft pid q later p) (hlive : p.state.phase.live = true) :
    p.state.phase.untested = true := by
  refine h.place.resolve_right ?_
  rw [hlive]
  rintro ⟨hended, -⟩
  cases hended

/-- Once it has ended, it has ended at the test or by a signal. -/
theorem Bereft.end_of_dead {pid : Pid} {q p : Process} {later : List Event}
    (h : Bereft pid q later p) (hended : p.state.phase.live = false)
    (hlive : q.state.phase.live = true) :
    p.state.phase = .terminated (.exited 1) ∨
      ∃ signal, .system (.child pid (.killed signal)) ∈ later := by
  rcases h.place with huntested | ⟨-, hend⟩
  · exfalso
    revert huntested hended
    cases p.state.phase <;> simp [Child.Phase.untested, Child.Phase.live]
  · exact hend hlive

/-- The processes behind the death of the manager are those at its death. -/
structure After (d : State) (later : List Event) (s : State) : Prop where
  dead : s.alive = false
  doomed : s.doomed = armed d.system.procs
  back : ∀ (pid : Pid) (p : Process), s.system.procs[pid]? = some p →
    ∃ q : Process, d.system.procs[pid]? = some q ∧
      (pid ∉ s.doomed → Bereft pid q later p)

/-- Every step behind the manager's death keeps what is known of the children. -/
theorem after_step {d s s' : State} {later : List Event} {e : Event} (h : After d later s)
    (hstep : step config signals s e = some s') : After d (later ++ [e]) s' := by
  rcases step_dead h.dead hstep with ⟨pid, c, rfl, hgone, hchild, halive, hdoomed⟩
  refine ⟨halive, hdoomed.trans h.doomed, ?_⟩
  rcases Descriptors.childStep_procs hchild with ⟨p, p', hp, hp', hprocs⟩
  intro pid' p₁ hp₁
  rw [hprocs, Std.ExtTreeMap.getElem?_insert] at hp₁
  rw [hdoomed]
  split at hp₁
  case isTrue heq =>
    cases hp₁
    rw [← Std.LawfulEqCmp.eq_of_compare heq]
    rcases h.back pid p hp with ⟨q, hq, hbereft⟩
    exact ⟨q, hq, fun hunmarked => bereft_step (hbereft hunmarked) hgone hp'⟩
  case isFalse hne =>
    rcases h.back pid' p₁ hp₁ with ⟨q, hq, hbereft⟩
    refine ⟨q, hq, fun hunmarked => ?_⟩
    have hother : pid ≠ pid' := by simpa using hne
    -- The step is another child's.
    rcases hbereft hunmarked with ⟨hsteps, hcount, hplace⟩
    refine ⟨?_, ?_, ?_⟩
    · intro c' hmem
      rcases List.mem_append.mp hmem with hbefore | hnew
      · exact hsteps c' hbefore
      · rw [List.mem_singleton] at hnew
        cases hnew
        exact absurd rfl hother
    · have hlast : [Event.system (.child pid c)].countP (Event.movesOf pid') = 0 := by
        simp [Event.movesOf, hother]
      rw [List.countP_append, hlast]
      exact hcount
    · refine hplace.imp_right fun hended => ⟨hended.1, fun hlive => ?_⟩
      refine (hended.2 hlive).imp_right ?_
      rintro ⟨signal, hkilled⟩
      exact ⟨signal, List.mem_append_left _ hkilled⟩

/-- What is known of the child {lit}`pid` that stands at {lit}`p`, when the manager has
died in {lit}`d` and {lit}`later` has happened since. -/
structure OrphanLaws (config : Config) (signals : RawFd) (d : State) (later : List Event)
    (s : State) (pid : Pid) (p : Process) : Prop where
  marked : p.state.phase.live = true → p.state.phase.untested = true ∨ pid ∈ s.doomed
  steps : pid ∉ s.doomed → ∀ c, .system (.child pid c) ∈ later → c.orphaned = true
  bounded : pid ∉ s.doomed → later.countP (Event.movesOf pid) ≤ config.workers + 4
  unstuck : pid ∉ s.doomed → p.state.phase.live = true →
    ∃ c, c.moves = true ∧ (step config signals s (.system (.child pid c))).isSome = true
  ended : pid ∉ s.doomed → p.state.phase.live = false →
    ∀ q : Process, d.system.procs[pid]? = some q → q.state.phase.live = true →
      p.state.phase = .terminated (.exited 1) ∨
        ∃ signal, .system (.child pid (.killed signal)) ∈ later

/-- A step that a child can make alone is a step of the system. -/
theorem step_of_child {s : State} {pid : Pid} {p : Process} {c : Child.Event}
    (hp : s.system.procs[pid]? = some p) (hanswers : answers s.alive (.child pid c) = true)
    (hsend : ∀ stamp, c ≠ .send stamp true) (hc : (Child.step p.state c).isSome = true) :
    (step config signals s (.system (.child pid c))).isSome = true := by
  rcases Option.isSome_iff_exists.mp hc with ⟨c', hc'⟩
  have hp' : ∃ p', p.step c = some p' := by
    unfold Process.step
    split
    case h_1 hnone => rw [hc'] at hnone; cases hnone
    case h_2 => exact ⟨_, rfl⟩
  rcases hp' with ⟨p', hp'⟩
  have hchild : (s.system.childStep pid c).isSome = true := by
    simp only [State.childStep, hp, hp', Option.isSome_some]
  simpa [step, System.step, hanswers] using hchild

/-- A run behind the death of the manager. -/
theorem after_of_death {t : Instant} {earlier later : List Event} {d s : State}
    (hdeath : LabelledMachine.exec (step config signals) (initial t)
      (earlier ++ [.managerDies]) = some d)
    (hlater : LabelledMachine.exec (step config signals) d later = some s) : After d later s := by
  have hd : d.alive = false ∧ d.doomed = armed d.system.procs := by
    rcases LabelledMachine.exec_concat_eq_some_iff.mp hdeath with ⟨u, -, hdies⟩
    simp only [step] at hdies
    split at hdies
    · cases hdies
      exact ⟨rfl, rfl⟩
    · cases hdies
  have hstart : After d [] d := by
    refine ⟨hd.1, hd.2, fun pid p hp => ⟨p, hp, fun hunmarked => ?_⟩⟩
    rw [hd.2, mem_armed] at hunmarked
    have hasked : p.past.any Child.Event.arms = false := by
      by_contra hany
      exact hunmarked ⟨p, hp, by simpa using hany⟩
    exact bereft_of_unmarked hasked
  exact LabelledMachine.exec_history_induction (P := After d) hstart
    (fun _ _ _ _ _ h hstep => after_step h hstep) hlater

/-- The laws of an orphan, read off the invariant. -/
theorem After.laws {t : Instant} {es later : List Event} {d s : State} (h : After d later s)
    (hrun : LabelledMachine.exec (step config signals) (initial t) es = some d) {pid : Pid}
    {p : Process} (hp : s.system.procs[pid]? = some p) :
    OrphanLaws config signals d later s pid p := by
  rcases h.back pid p hp with ⟨q, hq, hbereft⟩
  constructor
  case marked =>
    intro hlive
    by_cases hunmarked : pid ∈ s.doomed
    · exact Or.inr hunmarked
    · exact Or.inl ((hbereft hunmarked).untested_of_live hlive)
  case steps => exact fun hunmarked => (hbereft hunmarked).steps
  case bounded =>
    intro hunmarked
    have hcount := (hbereft hunmarked).count
    have htest := Child.run_untilTest q.run
    have hfew := run_inheritsFew (system_run hrun) pid q hq
    omega
  case unstuck =>
    intro hunmarked hlive
    have huntested := (hbereft hunmarked).untested_of_live hlive
    rcases Child.orphan_unstuck (Child.run_armed p.run) huntested with
      ⟨c, hmoves, hgone, hsend, hc⟩
    refine ⟨c, hmoves, step_of_child hp ?_ hsend hc⟩
    rw [h.dead]
    cases c <;> first | rfl | skip
    case getppid unchanged => cases unchanged <;> first | rfl | exact absurd rfl hgone
  case ended =>
    intro hunmarked hended q' hq' hlive
    rw [hq] at hq'
    cases hq'
    exact (hbereft hunmarked).end_of_dead hended hlive

/-- When the manager dies, no child goes on serving behind its back: a child without
a mark ends at its parent test after few steps, and once the marked children have been
killed nobody holds the listener. -/
theorem no_orphan_serves (config : Config) (signals : RawFd) (t : Instant)
    (earlier later : List Event) (d s : State)
    (hdeath : LabelledMachine.exec (step config signals) (initial t)
      (earlier ++ [.managerDies]) = some d)
    (hlater : LabelledMachine.exec (step config signals) d later = some s) :
    (∀ (pid : Pid) (p : Process), s.system.procs[pid]? = some p →
      OrphanLaws config signals d later s pid p) ∧
    ((∀ (pid : Pid) (p : Process), s.system.procs[pid]? = some p → pid ∈ s.doomed →
        p.state.phase.live = false) →
      (∀ pid c, pid ∉ s.doomed → c.moves = true →
        step config signals s (.system (.child pid c)) = none) →
      ∀ (pid : Pid) (p : Process), s.system.procs[pid]? = some p →
        p.state.phase.live = false) := by
  have hafter := after_of_death hdeath hlater
  have hlaws : ∀ (pid : Pid) (p : Process), s.system.procs[pid]? = some p →
      OrphanLaws config signals d later s pid p := fun pid p hp => hafter.laws hdeath hp
  refine ⟨hlaws, ?_⟩
  intro hkilled hquiet pid p hp
  by_cases hunmarked : pid ∈ s.doomed
  · exact hkilled pid p hp hunmarked
  · by_contra hlive
    rw [Bool.not_eq_false] at hlive
    rcases (hlaws pid p hp).unstuck hunmarked hlive with ⟨c, hmoves, hsome⟩
    rw [hquiet pid c hunmarked hmoves] at hsome
    cases hsome

/-- The manager dies between the fork of a child and the child's request. -/
def orphanedChild : List Event := System.forkedChild.map .system

/-- The child finds its parent gone. -/
def parentTest : List Event :=
  [.close 5, .close 3, .tau, .prctl, .getppid false].map fun c => .system (.child 7 c)

/-- A child whose manager dies before it looks ends with status 1 and serves nobody. -/
theorem no_orphan_serves_sample :
    ∃ d s p, LabelledMachine.exec (step Manager.sampleConfig 3) (initial 0)
        (orphanedChild ++ [.managerDies]) = some d ∧
      LabelledMachine.exec (step Manager.sampleConfig 3) d parentTest = some s ∧
      s.system.procs[7]? = some p ∧ p.state.phase = .terminated (.exited 1) ∧
      parentTest.countP (Event.movesOf 7) ≤ 1 + 4 := by
  have hlaws := (no_orphan_serves Manager.sampleConfig 3 0 orphanedChild parentTest _ _ rfl
    rfl).1 7 _ rfl
  exact ⟨_, _, _, rfl, rfl, rfl, rfl, hlaws.bounded List.not_mem_nil⟩

end Orphans

end System

end Polychrome

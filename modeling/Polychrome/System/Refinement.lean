import Polychrome.Manager.Refinement
import Polychrome.System.Descriptors
import Polychrome.System.Drain

/-!
# What the service is for

The manager and its children together keep a pool of workers that take one connection
each.  The pool says nothing of clocks, descriptors, signals and system calls; whatever
the order in which the manager and the children run, what they do is a run of the pool.

Main results:

- Definition {lit}`Event.pooled`: what a step means for the pool.
- Theorem {lit}`pool_simulation`: every step of the system is a step of the pool, or none.
- Theorem {lit}`service_refines_pool`: what follows for whole runs.
-/

namespace Polychrome

namespace System

open Manager (Mark)

/-- What a step of the system means for the pool. -/
def Event.pooled : Event → Option (Pool.Event Pid Mark)
  | .manager e => e.pooled
  | .child pid e => if e.takes then some (.mark .served pid) else none

/-- The child {lit}`pid` has taken a connection. -/
def State.hasServed (s : State) (pid : Pid) : Prop :=
  ∃ p : Process, s.procs[pid]? = some p ∧ 0 < p.past.countP Child.Event.takes

/-- The pool that the system keeps. -/
structure Pooled (s : State) (pool : Pool.State Pid Mark) : Prop where
  manager : Manager.Pooled s.manager s.kernel pool
  served : ∀ pid, pid ∈ pool.marked .served ↔ s.hasServed pid

section Steps

variable {config : Config} {signals : RawFd} {s t : State}

/-- A child that has just been forked has taken no connection. -/
theorem hasServed_forked {pid : Pid} {inherited : List RawFd} {channel : RawFd}
    (hnew : pid ∉ s.procs) (hprocs : t.procs = s.procs.insert pid (.fork inherited channel))
    (q : Pid) : t.hasServed q ↔ s.hasServed q := by
  rw [State.hasServed, hprocs, Std.ExtTreeMap.getElem?_insert]
  split
  case isTrue heq =>
    have hq : pid = q := Std.LawfulEqCmp.eq_of_compare heq
    subst hq
    simp [State.hasServed, Std.ExtTreeMap.getElem?_eq_none hnew, Process.fork]
  case isFalse => exact Iff.rfl

/-- A signal takes no connection. -/
theorem hasServed_raised {pid : Pid} {signal : Signal}
    (hprocs : t.procs = s.procs.modify pid fun p => p.raise signal) (q : Pid) :
    t.hasServed q ↔ s.hasServed q := by
  rw [State.hasServed, hprocs, Std.ExtTreeMap.getElem?_modify]
  split
  case isTrue heq =>
    have hq : pid = q := Std.LawfulEqCmp.eq_of_compare heq
    subst hq
    simp [State.hasServed, Process.raise, Child.Event.takes]
  case isFalse => exact Iff.rfl

/-- A reaped child no longer counts as having served. -/
theorem hasServed_erased {pid : Pid} (hprocs : t.procs = s.procs.erase pid) (q : Pid) :
    t.hasServed q ↔ s.hasServed q ∧ pid ≠ q := by
  rw [State.hasServed, hprocs, Std.ExtTreeMap.getElem?_erase]
  split
  case isTrue heq =>
    have hq : pid = q := Std.LawfulEqCmp.eq_of_compare heq
    simp [hq]
  case isFalse hne =>
    have hq : pid ≠ q := by
      rintro rfl
      simp at hne
    simp [hq, State.hasServed]

/-- What a child has taken shows in its own steps. -/
theorem hasServed_stepped {pid : Pid} {p p' : Process} {e : Child.Event}
    (hp : s.procs[pid]? = some p) (hstep : p.step e = some p')
    (hprocs : t.procs = s.procs.insert pid p') (q : Pid) :
    t.hasServed q ↔ e.takes = true ∧ q = pid ∨ s.hasServed q := by
  obtain ⟨-, -, hpast, -⟩ := Process.step_eq_some hstep
  rw [State.hasServed, hprocs, Std.ExtTreeMap.getElem?_insert]
  split
  case isTrue heq =>
    have hq : pid = q := Std.LawfulEqCmp.eq_of_compare heq
    subst hq
    simp only [State.hasServed, hp, Option.some.injEq, exists_eq_left', hpast, List.countP_append]
    cases htakes : e.takes <;> simp [htakes]
  case isFalse hne =>
    have hq : q ≠ pid := by
      rintro rfl
      simp at hne
    simp [hq, State.hasServed]

/-- The manager's calls forget the connections of the children they wait for. -/
theorem hasServed_answer {e : Manager.Event} (h : s.answer signals e = some t)
    (hnew : ∀ pid, e = .fork (.ok pid) → pid ∉ s.procs) (q : Pid) :
    t.hasServed q ↔ s.hasServed q ∧ e.pooled ≠ some (.leave q) := by
  have hstays : (∀ status, e ≠ .waitpid (some (q, status))) → (t.hasServed q ↔ s.hasServed q) →
      (t.hasServed q ↔ s.hasServed q ∧ e.pooled ≠ some (.leave q)) := by
    intro hwait hsame
    refine hsame.trans ⟨fun hserved => ⟨hserved, fun hleave => ?_⟩, And.left⟩
    obtain ⟨status, he⟩ := Manager.pooled_leave hleave
    exact hwait status he
  unfold State.answer at h
  split at h
  case h_1 =>
    split at h
    · cases h
    · cases h
      exact hstays (by simp) Iff.rfl
  case h_2 pid =>
    split at h
    · cases h
      exact hstays (by simp) (hasServed_forked (hnew pid rfl) rfl q)
    · cases h
  case h_3 =>
    cases h
    exact hstays (by simp) Iff.rfl
  case h_4 =>
    split at h
    · split at h
      · cases h
        exact hstays (by simp) Iff.rfl
      · cases h
    · cases h
      exact hstays (by simp) Iff.rfl
    · cases h
  case h_5 =>
    cases h
    exact hstays (by simp) (hasServed_raised rfl q)
  case h_6 pid status =>
    split at h
    · cases h
    · split at h
      · cases h
        refine (hasServed_erased rfl q).trans (and_congr_right fun _ => not_congr ?_)
        simp [Manager.Event.pooled]
      · cases h
  case h_7 hwait =>
    cases h
    exact hstays (fun status => hwait q status) Iff.rfl

/-- The system and the pool, with what is known of a system in a run. -/
structure Matched (config : Config) (s : State) (pool : Pool.State Pid Mark) : Prop where
  linked : Linked s
  tracks : Manager.Tracks config s.manager s.kernel
  dated : Manager.Dated s.manager
  pooled : Pooled s pool

/-- What the manager keeps is kept by every step of the system. -/
theorem kept_step {e : Event} (hlinked : Linked s)
    (htracks : Manager.Tracks config s.manager s.kernel) (hdated : Manager.Dated s.manager)
    (hstep : step config signals s e = some t) :
    Linked t ∧ Manager.Tracks config t.manager t.kernel ∧ Manager.Dated t.manager := by
  refine ⟨linked_step hlinked htracks hstep, ?_⟩
  cases e with
  | manager e =>
      simp only [step, Option.bind_eq_some_iff, Option.map_eq_some_iff] at hstep
      obtain ⟨u, -, m, hsupervised, rfl⟩ := hstep
      obtain ⟨hs, hk⟩ := LabelledMachine.sync_eq_some_iff.mp hsupervised
      exact ⟨Manager.tracks_step htracks (Manager.step_cases hs) hk,
        Manager.dated_step hdated (Manager.step_cases hs)⟩
  | child pid e =>
      obtain ⟨hmanager, hkernel⟩ := childStep_manager hstep
      rw [hmanager, hkernel]
      exact ⟨htracks, hdated⟩

/-- The connections on both sides of a call of the manager. -/
theorem served_answer {e : Manager.Event} {u : State} {m : Manager.State × Manager.Kernel}
    {pool pool' : Pool.State Pid Mark} (h : Matched config s pool)
    (hanswer : s.answer signals e = some u) (hk : s.kernel.step e = some m.2)
    (hmarked : ∀ pid, pid ∈ pool'.marked .served ↔
      pid ∈ pool.marked .served ∧ e.pooled ≠ some (.leave pid)) (pid : Pid) :
    pid ∈ pool'.marked .served ↔
      State.hasServed { u with manager := m.1, kernel := m.2 } pid := by
  have hnew : ∀ pid, e = .fork (.ok pid) → pid ∉ s.procs := by
    rintro pid rfl hmem
    simp [Manager.Kernel.step, (h.linked.procs_iff pid).mp hmem] at hk
  rw [hmarked, h.pooled.served]
  exact (hasServed_answer hanswer hnew pid).symm

/-- The child that takes a connection is a member and has not taken one before. -/
theorem pooled_takes {pid : Pid} {e : Child.Event} {pool : Pool.State Pid Mark}
    (h : Matched config s pool) (hstep : s.childStep pid e = some t) (htakes : e.takes = true) :
    ∃ pool', Pool.step config.workers pool (.mark .served pid) = some pool' ∧
      Pooled t pool' := by
  obtain ⟨hmanager, hkernel⟩ := childStep_manager hstep
  obtain ⟨p, p', hp, hmoved, hprocs⟩ := Descriptors.childStep_procs hstep
  have hlive : pid ∈ pool.live := by
    rw [h.pooled.manager.live, ← h.linked.procs_iff, Std.ExtTreeMap.mem_iff_isSome_getElem?, hp]
    rfl
  have hunserved : pid ∉ pool.marked .served := by
    intro hserved
    obtain ⟨q, hq, htaken⟩ := (h.pooled.served pid).mp hserved
    cases hp.symm.trans hq
    obtain ⟨-, -, hpast, -⟩ := Process.step_eq_some hmoved
    have hone := (Child.run_takes p'.run).le_one
    rw [hpast, List.countP_append, List.countP_singleton, if_pos htakes] at hone
    omega
  refine ⟨_, by rw [Pool.step, if_pos ⟨hlive, hunserved⟩], ⟨?_, ?_⟩⟩
  · rw [hmanager, hkernel]
    exact ⟨h.pooled.manager.live, h.pooled.manager.killed, h.pooled.manager.closing,
      h.pooled.manager.spared⟩
  · intro q
    rw [hasServed_stepped hp hmoved hprocs, ← h.pooled.served]
    simp [htakes]

end Steps

/-- Every step of the system is a step of the pool, or none. -/
theorem pool_simulation (config : Config) (signals : RawFd) :
    LabelledMachine.Simulation (step config signals) (Pool.step config.workers) Event.pooled
      (Matched config) where
  silent {s e t pool} h hstep hpooled := by
    obtain ⟨hlinked, htracks, hdated⟩ := kept_step h.linked h.tracks h.dated hstep
    refine ⟨hlinked, htracks, hdated, ?_⟩
    cases e with
    | manager e =>
        have hpooled' : e.pooled = none := hpooled
        simp only [step, Option.bind_eq_some_iff, Option.map_eq_some_iff] at hstep
        obtain ⟨u, hanswer, m, hsupervised, rfl⟩ := hstep
        obtain ⟨hs, hk⟩ := LabelledMachine.sync_eq_some_iff.mp hsupervised
        refine ⟨Manager.pooled_silent h.pooled.manager h.tracks (Manager.step_cases hs) hk hpooled',
          served_answer h hanswer hk ?_⟩
        simp [hpooled']
    | child pid e =>
        have htakes : ¬ e.takes = true := by
          intro htakes
          simp [Event.pooled, htakes] at hpooled
        obtain ⟨hmanager, hkernel⟩ := childStep_manager hstep
        obtain ⟨p, p', hp, hmoved, hprocs⟩ := Descriptors.childStep_procs hstep
        refine ⟨by rw [hmanager, hkernel]; exact h.pooled.manager, fun q => ?_⟩
        rw [hasServed_stepped hp hmoved hprocs, h.pooled.served]
        simp [htakes]
  visible {s e t pool d} h hstep hpooled := by
    obtain ⟨hlinked, htracks, hdated⟩ := kept_step h.linked h.tracks h.dated hstep
    suffices hmatch : ∃ pool', Pool.step config.workers pool d = some pool' ∧ Pooled t pool' by
      obtain ⟨pool', hpool, hafter⟩ := hmatch
      exact ⟨pool', hpool, hlinked, htracks, hdated, hafter⟩
    cases e with
    | manager e =>
        have hpooled' : e.pooled = some d := hpooled
        simp only [step, Option.bind_eq_some_iff, Option.map_eq_some_iff] at hstep
        obtain ⟨u, hanswer, m, hsupervised, rfl⟩ := hstep
        obtain ⟨hs, hk⟩ := LabelledMachine.sync_eq_some_iff.mp hsupervised
        obtain ⟨pool', hpool, hafter⟩ :=
          Manager.pooled_visible h.pooled.manager h.tracks h.dated (Manager.step_cases hs) hk
            hpooled'
        refine ⟨pool', hpool, hafter, served_answer h hanswer hk fun pid => ?_⟩
        rw [hpooled', Option.some_inj.ne]
        refine Pool.marked_step (Pool.step_cases hpool) (fun a hd => ?_) pid
        exact Manager.pooled_ne_served (hd ▸ hpooled')
    | child pid e =>
        rw [Event.pooled] at hpooled
        split at hpooled
        case isTrue htakes =>
          cases hpooled
          exact pooled_takes h hstep htakes
        case isFalse => cases hpooled

/-- Asked to end and without a child: nothing is left to happen. -/
def State.over (s : State) : Prop := s.manager.closing = true ∧ ∀ pid, pid ∉ s.procs

/-- A service that has not begun is an empty pool. -/
theorem matched_initial (config : Config) (t : Instant) :
    Matched config (initial t) Pool.empty := by
  have hrun : LabelledMachine.exec (step config 0) (initial t) [] = some (initial t) := rfl
  have hkilled : ∀ pid, ¬ (initial t).manager.hasKilled pid := by
    simp [Manager.State.hasKilled, initial, Manager.initial, Manager.start]
  have hserved : ∀ pid, ¬ (initial t).hasServed pid := by
    simp [State.hasServed, initial]
  exact
    { linked := run_linked hrun
      tracks := Manager.run_tracks (manager_run hrun)
      dated := fun todo hphase => by cases hphase
      pooled :=
        { manager :=
            { live := rfl
              killed := fun pid => by simp [Pool.empty, hkilled]
              closing := rfl
              spared := fun now pid todo hphase => by cases hphase }
          served := fun pid => by simp [Pool.empty, hserved] } }

/-- Every run of the service is a run of the pool. -/
theorem matched_run {config : Config} {signals : RawFd} {t : Instant} {es : List Event} {s : State}
    (hrun : LabelledMachine.exec (step config signals) (initial t) es = some s) :
    ∃ pool, LabelledMachine.exec (Pool.step config.workers) Pool.empty
      (es.filterMap Event.pooled) = some pool ∧ Matched config s pool :=
  (pool_simulation config signals).exec (matched_initial config t) hrun

/-- In every interleaving, the manager and its children keep a pool of workers that take
one connection each: there is room for the configured number of them, each is killed
once at most, none is forked once the manager has been asked to end, and none is told
before.  The manager returns from a closed and empty pool, and nothing happens to the
pool behind the point at which it is both. -/
theorem service_refines_pool (config : Config) (signals : RawFd) (t : Instant) (es : List Event)
    (s : State) (hrun : LabelledMachine.exec (step config signals) (initial t) es = some s) :
    ∃ pool, LabelledMachine.exec (Pool.step config.workers) Pool.empty
        (es.filterMap Event.pooled) = some pool ∧
      Pooled s pool ∧ (∀ pid, pid ∈ pool.live ↔ pid ∈ s.procs) ∧
      Pool.Laws config.workers (es.filterMap Event.pooled) pool ∧
      (s.manager.phase = .finished → s.over) ∧
      ∀ earlier later x, es = earlier ++ later →
        LabelledMachine.exec (step config signals) (initial t) earlier = some x → x.over →
        ∀ d ∈ later.filterMap Event.pooled, d = .close := by
  obtain ⟨pool, hpool, hmatched⟩ := matched_run hrun
  have hlive : ∀ {s : State} {pool}, Matched config s pool →
      ∀ pid, pid ∈ pool.live ↔ pid ∈ s.procs := by
    intro s pool h pid
    rw [h.pooled.manager.live]
    exact (h.linked.procs_iff pid).symm
  refine ⟨pool, hpool, hmatched.pooled, hlive hmatched, Pool.laws_of_run hpool, ?_, ?_⟩
  · intro hfinished
    have hdraining := (Manager.run_settled (manager_run hrun)).drained hfinished
    refine ⟨by rw [Manager.State.closing, hdraining]; rfl, fun pid hmem => ?_⟩
    have hnone := hmatched.tracks.laws.returned hfinished
    rw [hmatched.linked.procs_iff, hnone] at hmem
    exact absurd hmem (Finset.notMem_empty pid)
  · rintro earlier later x rfl hearlier ⟨hclosing, hempty⟩ d hd
    obtain ⟨x', hearlier', hlater⟩ := LabelledMachine.exec_append_eq_some_iff.mp hrun
    cases hearlier.symm.trans hearlier'
    obtain ⟨before, -, hbefore⟩ := matched_run hearlier
    obtain ⟨after, hafter, -⟩ := (pool_simulation config signals).exec hbefore hlater
    have hover : before.live = ∅ := by
      rw [Finset.eq_empty_iff_forall_notMem]
      exact fun pid hmem => hempty pid ((hlive hbefore pid).mp hmem)
    exact (Pool.over_run (hbefore.pooled.manager.closing.trans hclosing) hover hafter).1 d hd

/-- The child of {lit}`drainedInWindow` is waited for, and the manager returns. -/
def drainedService : List Event :=
  drainedInWindow ++
    [.manager .tau, .manager (.read none), .manager (.clockGettime 3), .manager (.now 3),
      .manager .tau, .manager (.waitpid (some (7, .exited 0))), .manager (.close 5),
      .manager (.waitpid none), .manager .tau]

/-- A drained service is a pool that one member joined, served in and left. -/
theorem service_refines_pool_sample :
    ∃ s, LabelledMachine.exec (step Manager.sampleConfig 3) (initial 0) drainedService = some s ∧
      s.over ∧
      ∃ pool, LabelledMachine.exec (Pool.step 1) Pool.empty
        [.join 7, .mark Mark.served 7, .close, .tell 7, .leave 7] = some pool ∧ pool.live = ∅ := by
  obtain ⟨s, hrun, hphase⟩ : ∃ s,
      LabelledMachine.exec (step Manager.sampleConfig 3) (initial 0) drainedService = some s ∧
        s.manager.phase = .finished := ⟨_, rfl, rfl⟩
  obtain ⟨pool, hpool, -, hlive, -, hover, -⟩ :=
    service_refines_pool Manager.sampleConfig 3 0 drainedService s hrun
  refine ⟨s, hrun, hover hphase, pool, hpool, ?_⟩
  rw [Finset.eq_empty_iff_forall_notMem]
  exact fun pid hmem => (hover hphase).2 pid ((hlive pid).mp hmem)

end System

end Polychrome

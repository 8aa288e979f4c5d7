import Polychrome.Manager.BackOff
import Polychrome.System.Stamps

/-!
# Children that never accept

A child that ends before it has accepted a connection should look like a failure
to the manager, which then waits before it forks the next one.  A child whose
accept loop gives up on an error does not: it returns zero.

Main results:

- Theorem {lit}`ReapAt.classified`: an abnormal end without a stamp is put to the
  test of its age.
- Theorem {lit}`unaccepted_child_fails_iff`: such ends count, and the next fork
  waits, exactly if the accept loop did not give up.
-/

namespace Polychrome

namespace System

/-- The accept loop did not give up, or the child was killed on its way out. -/
def EndsInFailure (past : List Child.Event) : Prop :=
  past.any Child.Event.givesUp = true → past.any Child.Event.kills = true

/-- A child that has never had a connection and was never sent a drain signal. -/
structure Unaccepted (past : List Child.Event) (s : Child.State) : Prop where
  idle : s.connectionActive = false
  quiet : past.any Child.Event.disturbs = false

/-- The manager counts the end of the worker {lit}`w` when its next clock readings
find it young, and no fork follows within the first interval. -/
def Counted (config : Config) (t : Instant) (earlier later : List Manager.Event)
    (w : Manager.Worker) (u : State) : Prop :=
  ∀ t₁ t₂ rest, later = .now t₁ :: .now t₂ :: rest → t₁ - w.born < fromSecs 1 →
    (∃ s₁ s₂, Manager.FailureAt config t (earlier ++ later) (earlier ++ [.now t₁]) t₂ rest s₁ s₂ ∧
      s₂.failures = Manager.saturatingSucc s₁.failures) ∧
    ∀ reply, (Manager.step config u.manager (.fork reply)).isSome = true →
      t₂ + fromMillis 200 ≤ u.kernel.clock

section StartUp

variable {config : Config} {signals : RawFd} {t : Instant} {es : List Event} {s s' : State}
  {pid : Pid} {p : Process}

/-- A child that has had no connection has sent no stamp. -/
theorem ReapAt.unstamped (h : ReapAt config signals t es s s' pid p)
    (hidle : p.state.connectionActive = false) {w : Manager.Worker}
    (hw : s.manager.workers[pid]? = some w) : w.started = none := by
  rcases h.linked.account pid p h.process with ⟨unread, -, haccount⟩
  rw [(Child.run_stamps p.run).before (Or.inl hidle), State.noted, hw] at haccount
  cases hstarted : w.started with
  | none => rfl
  | some stamp => simp [hstarted] at haccount

/-- The abnormal end of such a child is put to the test of its age; a normal one
resets the count. -/
theorem ReapAt.classified (h : ReapAt config signals t es s s' pid p)
    (hidle : p.state.connectionActive = false) :
    ∃ w status, s.manager.workers[pid]? = some w ∧ p.state.phase = .terminated status ∧
      s'.manager.retryAt = s.manager.retryAt ∧
      (status.abnormal = true → s'.manager.phase = .elapsed w ∧
        s'.manager.failures = s.manager.failures) ∧
      (status.abnormal = false → s'.manager.phase = .dropWorker w.events ∧
        s'.manager.failures = 0) := by
  rcases h.worker with ⟨w, status, hw, hphase, hs'⟩
  have hstarted := h.unstamped hidle hw
  refine ⟨w, status, hw, hphase, ?_, ?_, ?_⟩
  · simp [hs']
  · intro habnormal
    simp [hs', Manager.State.classify_phase, Manager.State.classify_failures, habnormal, hstarted]
  · intro hnormal
    simp [hs', Manager.State.classify_phase, Manager.State.classify_failures, hnormal]

/-- From the test on: two clock readings later the end is a start-up failure, and
every fork waits for the first interval at least. -/
theorem counted_of_elapsed {earlier later : List Manager.Event} {w : Manager.Worker}
    {manager : Manager.State} {kernel : Manager.Kernel} {u : State}
    (hearlier : LabelledMachine.exec (Manager.supervised config) (Manager.initial t) earlier =
      some (manager, kernel))
    (hlater : LabelledMachine.exec (Manager.supervised config) (manager, kernel) later =
      some (u.manager, u.kernel))
    (hphase : manager.phase = .elapsed w) : Counted config t earlier later w u := by
  rintro t₁ t₂ rest rfl hage
  simp only [LabelledMachine.exec_cons, Option.bind_eq_some_iff] at hlater
  rcases hlater with ⟨⟨s₁, k₁⟩, hfirst, ⟨s₂, k₂⟩, hsecond, hrest⟩
  have hs₁ : s₁ = { manager with phase := .startupFailed w } := by
    have hs := (LabelledMachine.sync_eq_some_iff.mp hfirst).1
    dsimp only at hs
    cases Manager.step_cases hs
    case diedYoung w' hphase' _ =>
      cases hphase.symm.trans hphase'
      rfl
    case diedOld w' hphase' hold =>
      cases hphase.symm.trans hphase'
      exact absurd hage (Nat.not_lt.mpr hold)
    all_goals simp_all
  have hbefore := LabelledMachine.exec_concat hearlier hfirst
  have hafter := LabelledMachine.exec_concat hbefore hsecond
  have hfailure : Manager.FailureAt config t (earlier ++ .now t₁ :: .now t₂ :: rest)
      (earlier ++ [.now t₁]) t₂ rest s₁ s₂ := {
    split := by simp
    before := ⟨k₁, hbefore⟩
    after := ⟨k₂, hafter⟩
    failing := by rw [hs₁]; rfl }
  refine ⟨⟨s₁, s₂, hfailure, hfailure.retryAt_eq.1⟩, ?_⟩
  intro reply hfork
  have hwhole : LabelledMachine.exec (Manager.supervised config) (Manager.initial t)
      (earlier ++ [.now t₁] ++ .now t₂ :: rest) = some (u.manager, u.kernel) := by
    rw [List.append_cons, LabelledMachine.exec_append, hafter]
    exact hrest
  exact (Manager.run_floor hfailure hwhole).trans
    (Manager.fork_due (Manager.run_paced hwhole) hfork)

end StartUp

/-- What the manager makes of a child that has never had a connection. -/
structure StartUpLaws (config : Config) (t : Instant) (earlier later : List Event)
    (s s' : State) (pid : Pid) (p : Process) (status : WaitStatus) (u : State) : Prop where
  abnormal_iff : status.abnormal = true ↔ EndsInFailure p.past
  counted : EndsInFailure p.past → ∃ w, s.manager.workers[pid]? = some w ∧
    Counted config t
      (earlier.filterMap Event.managerCall ++ [.waitpid (some (pid, status))])
      (later.filterMap Event.managerCall) w u
  uncounted : ¬ EndsInFailure p.past →
    s'.manager.failures = 0 ∧ s'.manager.retryAt = s.manager.retryAt

/-- What a reap says about the start-up of the child. -/
theorem start_up_laws {config : Config} {signals : RawFd} {t : Instant}
    {earlier later : List Event} {pid : Pid} {status : WaitStatus} {s s' u : State} {p : Process}
    (hearlier : LabelledMachine.exec (step config signals) (initial t) earlier = some s)
    (hreap : step config signals s (.manager (.waitpid (some (pid, status)))) = some s')
    (hlater : LabelledMachine.exec (step config signals) s' later = some u)
    (hp : s.procs[pid]? = some p) (hunaccepted : Unaccepted p.past p.state) :
    StartUpLaws config t earlier later s s' pid p status u := by
  have hat : ReapAt config signals t
      (earlier ++ .manager (.waitpid (some (pid, status))) :: later) s s' pid p :=
    ⟨⟨earlier, later, status, rfl, hearlier, hreap⟩, hp⟩
  have hterminated := terminated_of_reap hp hreap
  have habnormal := Child.status_abnormal_iff p.run hterminated hunaccepted.quiet hunaccepted.idle
  rcases hat.classified hunaccepted.idle with
    ⟨w, status', hw, hstatus, hretry, hcounted, huncounted⟩
  cases hterminated.symm.trans hstatus
  have hbefore := manager_run (LabelledMachine.exec_concat hearlier hreap)
  have hafter : LabelledMachine.exec (Manager.supervised config) (s'.manager, s'.kernel)
      (later.filterMap Event.managerCall) = some (u.manager, u.kernel) := by
    rcases (manager_simulation config signals).exec rfl hlater with ⟨m, hm, rfl⟩
    exact hm
  rw [List.filterMap_append] at hbefore
  exact {
    abnormal_iff := habnormal
    counted := fun hends =>
      ⟨w, hw, counted_of_elapsed hbefore hafter (hcounted (habnormal.mpr hends)).1⟩
    uncounted := by
      intro hgave
      have hnormal : status.abnormal = false := by
        rw [← Bool.not_eq_true, habnormal]
        exact hgave
      exact ⟨(huncounted hnormal).2, hretry⟩ }

/-- A child that never has a connection and is never sent a drain signal reports a
failure, and the manager counts it, exactly if its accept loop did not give up. -/
theorem unaccepted_child_fails_iff (config : Config) (signals : RawFd) (t : Instant) :
    (∀ (inherited : List RawFd) (past : List Child.Event) (s : Child.State) (status : WaitStatus),
      LabelledMachine.exec Child.step (Child.start inherited) past = some s →
      s.phase = .terminated status → Unaccepted past s →
      (status.abnormal = true ↔ EndsInFailure past)) ∧
    ∀ (earlier later : List Event) (pid : Pid) (status : WaitStatus) (s s' u : State) (p : Process),
      LabelledMachine.exec (step config signals) (initial t) earlier = some s →
      step config signals s (.manager (.waitpid (some (pid, status)))) = some s' →
      LabelledMachine.exec (step config signals) s' later = some u →
      s.procs[pid]? = some p → Unaccepted p.past p.state →
      StartUpLaws config t earlier later s s' pid p status u := by
  constructor
  · intro inherited past s status hrun hphase hunaccepted
    exact Child.status_abnormal_iff hrun hphase hunaccepted.quiet hunaccepted.idle
  · intro earlier later pid status s s' u p hearlier hreap hlater hp hunaccepted
    exact start_up_laws hearlier hreap hlater hp hunaccepted

/-- The listener cannot be accepted from, for lack of descriptors. -/
def failingAccept : List Event :=
  listeningChild ++
    [.child 7 (.accept (.error 24)), .child 7 .finishRequest, .child 7 .tau, .manager .tau,
      .manager (.read none), .manager (.clockGettime 200), .manager .tau, .manager .tau]

/-- From the reap to the fork of the next child, 299 ns after the birth of the first. -/
def promptRefork : List Event :=
  [.manager (.waitpid (some (7, .exited 0))), .manager (.close 5), .manager (.waitpid none),
    .manager .tau, .manager (.now 300), .manager .tau, .manager (.socketpair (.ok (5, 6))),
    .manager (.fork (.ok 8))]

/-- The child that could not accept reports success and is replaced at once. -/
theorem failed_accept_reports_success :
    ∃ s p u, LabelledMachine.exec (step Manager.sampleConfig 3) (initial 0) failingAccept = some s ∧
      s.procs[7]? = some p ∧ Unaccepted p.past p.state ∧
      p.state.phase = .terminated (.exited 0) ∧
      LabelledMachine.exec (step Manager.sampleConfig 3) s promptRefork = some u ∧
      u.procs.contains 8 = true ∧ u.manager.failures = 0 ∧ u.kernel.clock = 300 :=
  ⟨_, _, _, rfl, rfl, ⟨rfl, rfl⟩, rfl, rfl, rfl, rfl, rfl⟩

end System

end Polychrome

import Polychrome.System.Links

/-!
# Stamps and start-up failures

The manager reads the accept stamps in one phase of a pass and waits for its
children in a later one.  A child that sends its stamp in between and ends is
taken for one that has never accepted a connection.

Main results:

- Theorem {lit}`reap_started_iff`: a child that has sent its stamp is known to
  have started exactly if no stamp is left unread.
- Theorem {lit}`credited_iff_all_read`: the same for all the reaps of a run, with
  what it means for the back-off.
-/

namespace Polychrome

namespace System

/-- The run {lit}`es` waits for the process {lit}`p` between {lit}`s` and
{lit}`s'`. -/
structure ReapAt (config : Config) (signals : RawFd) (t : Instant) (es : List Event)
    (s s' : State) (pid : Pid) (p : Process) : Prop where
  step : ∃ (earlier later : List Event) (status : WaitStatus),
    es = earlier ++ .manager (.waitpid (some (pid, status))) :: later ∧
    LabelledMachine.exec (step config signals) (initial t) earlier = some s ∧
    System.step config signals s (.manager (.waitpid (some (pid, status)))) = some s'
  process : s.procs[pid]? = some p

/-- Every child that has sent its stamp is known to have started when it is waited
for, and its end neither raises {lit}`failures` nor moves {lit}`retry_at`. -/
def Credited (config : Config) (signals : RawFd) (t : Instant) (es : List Event) : Prop :=
  ∀ (s s' : State) (pid : Pid) (p : Process), ReapAt config signals t es s s' pid p →
    p.past.any Child.Event.stamps = true →
    ∃ w, s.manager.workers[pid]? = some w ∧ w.started.isSome = true ∧
      s'.manager.phase = .dropWorker w.events ∧ s'.manager.failures ≤ s.manager.failures ∧
      s'.manager.retryAt = s.manager.retryAt

/-- Whenever such a child is waited for, its stamp has been read. -/
def AllRead (config : Config) (signals : RawFd) (t : Instant) (es : List Event) : Prop :=
  ∀ (s s' : State) (pid : Pid) (p : Process), ReapAt config signals t es s s' pid p →
    p.past.any Child.Event.stamps = true → s.sockets[p.channel]? = some []

section Reaps

variable {config : Config} {signals : RawFd} {t : Instant} {es : List Event} {s s' : State}
  {pid : Pid} {p : Process}

/-- {lit}`waitpid` returns a child that has terminated, with its status. -/
theorem terminated_of_reap {status : WaitStatus} (hp : s.procs[pid]? = some p)
    (hstep : System.step config signals s (.manager (.waitpid (some (pid, status)))) = some s') :
    p.state.phase = .terminated status := by
  simp only [System.step, Option.bind_eq_some_iff] at hstep
  rcases hstep with ⟨u, hanswer, -⟩
  simp only [State.answer, hp] at hanswer
  split at hanswer
  case isTrue hphase => exact hphase
  case isFalse => cases hanswer

/-- The child that is waited for has an entry, and the entry is classified. -/
theorem ReapAt.worker (h : ReapAt config signals t es s s' pid p) :
    ∃ w status, s.manager.workers[pid]? = some w ∧ p.state.phase = .terminated status ∧
      s'.manager =
        { s.manager with workers := s.manager.workers.erase pid }.classify w status := by
  rcases h.step with ⟨earlier, later, status, -, hearlier, hstep⟩
  have htracks := Manager.run_tracks (manager_run hearlier)
  have hterminated := terminated_of_reap h.process hstep
  simp only [System.step, Option.bind_eq_some_iff, Option.map_eq_some_iff] at hstep
  rcases hstep with ⟨u, hanswer, ⟨manager, kernel⟩, hsupervised, rfl⟩
  rcases LabelledMachine.sync_eq_some_iff.mp hsupervised with ⟨hs, hk⟩
  dsimp only at hs hk ⊢
  cases Manager.step_cases hs
  case reapUnknown hphase hw =>
    have hmem := htracks.known hphase hk
    simp [hmem] at hw
  case reaped w hphase hw => exact ⟨w, status, hw, hterminated, rfl⟩

/-- At a reap manager and children are linked. -/
theorem ReapAt.linked (h : ReapAt config signals t es s s' pid p) : Linked s := by
  rcases h.step with ⟨earlier, later, status, -, hearlier, -⟩
  exact run_linked hearlier

/-- A stamp that was sent has been noted, or it is still unread. -/
theorem reap_started_iff (h : ReapAt config signals t es s s' pid p) {w : Manager.Worker}
    (hw : s.manager.workers[pid]? = some w) (hsent : p.past.any Child.Event.stamps = true) :
    w.started.isSome = true ↔ s.sockets[p.channel]? = some [] := by
  rcases h.linked.account pid p h.process with ⟨unread, hunread, haccount⟩
  have hone : p.past.countP Child.Event.stamps = 1 := by
    have hle := (Child.run_stamps p.run).le_one
    have hpos : 0 < p.past.countP Child.Event.stamps := by
      rw [List.countP_pos_iff]
      simpa using hsent
    omega
  rw [hone, State.noted, hw] at haccount
  rw [hunread, Option.some.injEq, ← List.length_eq_zero_iff]
  cases hstarted : w.started with
  | none =>
      have hlength : unread.length = 1 := by simpa [hstarted] using haccount.symm
      simp [hlength]
  | some stamp =>
      have hlength : unread.length = 0 := by simpa [hstarted] using haccount.symm
      simp [hlength]

/-- The end of a child that is known to have started leaves the back-off alone. -/
theorem ReapAt.started (h : ReapAt config signals t es s s' pid p) {w : Manager.Worker}
    (hw : s.manager.workers[pid]? = some w) (hstarted : w.started.isSome = true) :
    s'.manager.phase = .dropWorker w.events ∧ s'.manager.failures ≤ s.manager.failures ∧
      s'.manager.retryAt = s.manager.retryAt := by
  rcases h.worker with ⟨w', status, hw', -, hs'⟩
  cases hw.symm.trans hw'
  have hknown : w.started.isNone = false := by
    rw [← Option.not_isSome, hstarted]
    rfl
  rw [hs']
  refine ⟨?_, ?_, ?_⟩
  · simp [Manager.State.classify_phase, hknown]
  · simp [Manager.State.classify_failures, hknown]
  · simp

end Reaps

/-- In a run every child that has sent its stamp is credited with it if and only if
no such child is waited for while its stamp is unread. -/
theorem credited_iff_all_read (config : Config) (signals : RawFd) (t : Instant)
    (es : List Event) : Credited config signals t es ↔ AllRead config signals t es := by
  constructor
  · intro h s s' pid p hreap hsent
    rcases h s s' pid p hreap hsent with ⟨w, hw, hstarted, -⟩
    exact (reap_started_iff hreap hw hsent).mp hstarted
  · intro h s s' pid p hreap hsent
    rcases hreap.worker with ⟨w, status, hw, -, -⟩
    have hstarted := (reap_started_iff hreap hw hsent).mpr (h s s' pid p hreap hsent)
    exact ⟨w, hw, hstarted, hreap.started hw hstarted⟩

/-- One worker, from its fork to its call of {lit}`accept`. -/
def listeningChild : List Event :=
  [.manager (.now 0), .manager .tau, .manager (.socketpair (.ok (5, 6))),
    .manager (.fork (.ok 7)), .manager (.close 6), .manager (.now 1), .manager .tau,
    .manager (.poll (.ok 1)), .manager (.recv 7 5 none), .child 7 (.close 5),
    .child 7 (.close 3), .child 7 .tau, .child 7 .prctl, .child 7 (.getppid true),
    .child 7 (.sigaction .sigusr1), .child 7 (.sigaction .sigterm),
    .child 7 (.sigaction .sigint), .child 7 (.sigaction .sigchld), .child 7 .tau,
    .child 7 (.sigprocmask none), .child 7 .childInit, .child 7 .initRequest, .child 7 .tau]

/-- The stamp is sent behind the manager's last {lit}`recv`; the child crashes and
is waited for in the same pass. -/
def lateStamp : List Event :=
  listeningChild ++
    [.child 7 (.accept (.ok 9)), .child 7 .tau, .child 7 .markActive, .child 7 (.fcntl 9),
      .child 7 (.clockGettime 100), .child 7 (.send 100 true), .child 7 (.killed (.other 11)),
      .manager .tau, .manager (.read none), .manager (.clockGettime 200), .manager .tau,
      .manager .tau]

/-- The crash of a child that had accepted a connection counts as a start-up
failure. -/
theorem late_stamp_not_credited :
    (∃ s, LabelledMachine.exec (step Manager.sampleConfig 3) (initial 0)
        (lateStamp ++ [.manager (.waitpid (some (7, .signaled (.other 11)))),
          .manager (.now 300), .manager (.now 301)]) = some s ∧ s.manager.failures = 1) ∧
      ¬ Credited Manager.sampleConfig 3 0
        (lateStamp ++ [.manager (.waitpid (some (7, .signaled (.other 11)))),
          .manager (.now 300), .manager (.now 301)]) := by
  refine ⟨⟨_, rfl, rfl⟩, ?_⟩
  intro h
  rcases h _ _ 7 _ ⟨⟨lateStamp, _, _, rfl, rfl, rfl⟩, rfl⟩ rfl with ⟨w, hw, hstarted, -⟩
  cases hw
  cases hstarted

end System

end Polychrome

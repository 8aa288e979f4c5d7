import Polychrome.Manager.WorkerTable

/-!
# The work of the supervisor loop

The loop has loops inside it: over the free places, over the table three times,
and over stamps, signals and children for as long as the kernel has more of them.
A potential counts the calls that are left before the next poll.  Every call is
paid for out of the potential, but for those that the kernel makes necessary with
a stamp, a signal or a child that has ended, which are charged to that answer.

Main results:

- Theorem {lit}`receptive`: in every state the manager makes one call and takes
  every answer to it.
- Theorem {lit}`supervise_never_stalls`: the number of its calls is bounded by the
  number of polls and of what arrived.
-/

namespace Polychrome

namespace Manager

/-! ## The call that is made -/

/-- A system call without its answer. -/
inductive Call
  | tau
  | now
  | socketpair
  | fork
  | close (fd : RawFd)
  | poll
  | recv (pid : Pid) (fd : RawFd)
  | read
  | clockGettime
  | kill (pid : Pid) (signal : Signal)
  | waitpid
deriving DecidableEq, Repr

/-- The call that a label answers. -/
def Event.call : Event → Call
  | .tau => .tau
  | .now _ => .now
  | .socketpair _ => .socketpair
  | .fork _ => .fork
  | .close fd => .close fd
  | .poll _ => .poll
  | .recv pid fd _ => .recv pid fd
  | .read _ => .read
  | .clockGettime _ => .clockGettime
  | .kill pid signal => .kill pid signal
  | .waitpid _ => .waitpid

/-- The call that the manager makes in a state, if it has not returned. -/
def State.nextCall (s : State) : Option Call :=
  match s.phase with
  | .loopHead => if s.draining.isSome then some .tau else some .now
  | .socketpair => some .socketpair
  | .fork _ _ => some .fork
  | .unwind (fd :: _) | .closeChild _ _ fd | .dropWorker fd => some (.close fd)
  | .born _ _ | .spawnFailed | .pollFailed | .drainAgain | .drainFirst => some .now
  | .elapsed _ | .startupFailed _ => some .now
  | .poll => some .poll
  | .stamps (pid :: _) => s.workers[pid]?.map fun w => .recv pid w.events
  | .signals => some .read
  | .notify (pid :: _) => some (.kill pid .sigusr1)
  | .enforceClock => some .clockGettime
  | .enforce _ (_ :: _) => if s.draining.isSome then some .now else some .tau
  | .terminate _ pid _ => some (.kill pid .sigkill)
  | .reap => some .waitpid
  | .spawnTest | .unwind [] | .stamps [] | .notify [] | .enforce _ [] | .loopEnd => some .tau
  | .finished => none

/-- A step makes the call that is next. -/
theorem call_of_step {config : Config} {s s' : State} {e : Event} (h : Step config s e s') :
    s.nextCall = some e.call := by
  cases h
  all_goals simp only [State.nextCall, ‹s.phase = _›, Event.call]
  all_goals simp_all

/-- No answer to the call is left without a branch. -/
theorem step_of_call {config : Config} {s : State} {e : Event}
    (h : s.nextCall = some e.call) : (step config s e).isSome = true := by
  unfold State.nextCall at h
  split at h
  all_goals try split at h
  all_goals
    rcases e with - | t | ⟨⟨parent, child⟩ | errno⟩ | ⟨pid | errno⟩ | fd | ⟨count | errno⟩ |
      ⟨pid, fd, - | stamp⟩ | ⟨- | signal⟩ | ns | ⟨pid, signal⟩ | ⟨- | ⟨pid, status⟩⟩
  all_goals simp_all [Event.call, step]
  all_goals repeat' split
  -- What is left reads the table or the deadline where they have just been tested.
  all_goals simp_all

/-- Every answer to the next call is accepted, and no other call is made. -/
theorem step_isSome_iff (config : Config) (s : State) (e : Event) :
    (step config s e).isSome = true ↔ s.nextCall = some e.call := by
  constructor
  · intro h
    rcases Option.isSome_iff_exists.mp h with ⟨s', hs⟩
    exact call_of_step (step_cases hs)
  · exact step_of_call

/-- The manager makes a call in every state but the last one. -/
theorem Tracks.receptive {config : Config} {s : State} {k : Kernel} (h : Tracks config s k)
    (hphase : s.phase ≠ .finished) : ∃ c, s.nextCall = some c := by
  cases hs : s.phase with
  | loopHead => cases hdraining : s.draining <;> simp [State.nextCall, hs, hdraining]
  | unwind fds => cases fds <;> simp [State.nextCall, hs]
  | notify todo => cases todo <;> simp [State.nextCall, hs]
  | enforce now todo =>
      cases todo <;> cases hdraining : s.draining <;> simp [State.nextCall, hs, hdraining]
  | stamps todo =>
      cases todo with
      | nil => simp [State.nextCall, hs]
      | cons pid todo =>
          -- The worker whose stamps are read has not left the table.
          have hmem : pid ∈ s.workers := h.todo pid (by rw [hs]; exact List.mem_cons_self)
          rw [Std.ExtTreeMap.mem_iff_isSome_getElem?] at hmem
          rcases Option.isSome_iff_exists.mp hmem with ⟨w, hw⟩
          exact ⟨.recv pid w.events, by simp [State.nextCall, hs, hw]⟩
  | finished => exact absurd hs hphase
  | _ => simp [State.nextCall, hs]

/-! ## What arrives -/

/-- The manager polls. -/
def Event.polls : Event → Bool
  | .poll _ => true
  | _ => false

/-- A stamp is read. -/
def Event.stamps : Event → Bool
  | .recv _ _ (some _) => true
  | _ => false

/-- A signal is read. -/
def Event.signals : Event → Bool
  | .read (some _) => true
  | _ => false

/-- A child is waited for. -/
def Event.reaps : Event → Bool
  | .waitpid (some _) => true
  | _ => false

/-! ## What is left before the next poll -/

/-- The calls from a place in the loop to the next poll, with {lit}`n` workers to run
and as long as nothing arrives and no worker is missing. -/
def Phase.ahead (n : Nat) : Phase → Nat
  | .poll | .finished => 0
  | .spawnFailed => 1
  | .unwind fds => fds.length + 2
  | .born _ _ => 3
  | .closeChild _ _ _ => 4
  | .fork _ _ => 5
  | .socketpair => 6
  | .spawnTest => 7
  | .loopHead => 8
  | .loopEnd => 9
  | .reap => 10
  | .dropWorker _ => 11
  | .startupFailed _ => 12
  | .elapsed _ => 13
  | .enforce _ todo => 2 * todo.length + 11
  | .terminate _ _ todo => 2 * todo.length + 12
  | .enforceClock => 2 * n + 12
  | .signals => 2 * n + 13
  | .notify todo => todo.length + 2 * n + 14
  | .drainAgain => 2 * n + 14
  | .drainFirst => 3 * n + 15
  | .stamps todo => todo.length + 2 * n + 14
  | .pollFailed => 3 * n + 15

/-- The same with five more calls for every worker that is missing. -/
def State.ahead (config : Config) (s : State) : Nat :=
  5 * (config.workers - s.workers.size) + s.phase.ahead config.workers

/-- What an answer is charged: a poll pays for one round of the loop, a stamp for
itself, a signal for passing it on, and a child that has ended for its successor. -/
def charge (n : Nat) : Event → Nat
  | .poll _ => 3 * n + 16
  | .recv _ _ (some _) => 1
  | .read (some _) => n + 3
  | .waitpid (some _) => 9
  | _ => 0

/-- What a visited worker leaves to do. -/
theorem ahead_enforceNext (config : Config) (s : State) (now : Nat) (pid : Pid) (todo : List Pid)
    (drainExpired : Bool) (n : Nat) :
    (s.enforceNext config now pid todo drainExpired).phase.ahead n ≤ 2 * todo.length + 12 := by
  rw [State.enforceNext_phase]
  split
  · exact Nat.le_refl _
  · exact Nat.le_succ _

/-- What a reaped worker leaves to do. -/
theorem ahead_classify (s : State) (w : Worker) (status : WaitStatus) (n : Nat) :
    (s.classify w status).phase.ahead n ≤ 13 := by
  rw [State.classify_phase]
  split <;> simp [Phase.ahead]

/-- Every call is paid for. -/
theorem ahead_step {config : Config} {s s' : State} {k k' : Kernel} {e : Event}
    (h : Tracks config s k) (hs : Step config s e s') (hk : k.step e = some k') :
    s'.ahead config + 1 ≤ s.ahead config + charge config.workers e := by
  have hkeys : s.workers.keys.length ≤ config.workers := by
    rw [Std.ExtTreeMap.length_keys]
    exact h.size_le
  cases hs
  case inserted pid parent t hphase =>
    have hfresh : pid ∉ s.workers := h.fresh pid (by rw [hphase]; rfl)
    have hroom : s.workers.size < config.workers := h.room (by rw [hphase]; rfl)
    have hsize : (s.insertWorker pid parent t).workers.size = s.workers.size + 1 := by
      simp [State.insertWorker, Std.ExtTreeMap.size_insert, hfresh]
    simp only [State.ahead, hphase, hsize, Phase.ahead, charge]
    omega
  case reaped pid status w hphase hw =>
    have hless := ahead_classify { s with workers := s.workers.erase pid } w status config.workers
    have hsize : s.workers.size ≤ (s.workers.erase pid).size + 1 := by
      rw [Std.ExtTreeMap.size_erase]
      split <;> omega
    have hbefore : s.phase.ahead config.workers = 10 := by rw [hphase]; rfl
    simp only [State.ahead, hbefore, State.classify_fields, charge]
    omega
  case enforceCalm now pid todo hphase _ =>
    have hless := ahead_enforceNext config s now pid todo false config.workers
    have hbefore : s.phase.ahead config.workers = 2 * (todo.length + 1) + 11 := by rw [hphase]; rfl
    simp only [State.ahead, hbefore, State.enforceNext_fields, charge]
    omega
  case enforceDraining now pid todo t deadline hphase _ =>
    have hless := ahead_enforceNext config s now pid todo (decide (deadline ≤ t)) config.workers
    have hbefore : s.phase.ahead config.workers = 2 * (todo.length + 1) + 11 := by rw [hphase]; rfl
    simp only [State.ahead, hbefore, State.enforceNext_fields, charge]
    omega
  all_goals
    simp only [State.ahead, ‹s.phase = _›, charge, Phase.ahead, State.enterPoll_fields,
      State.enterStamps_fields, State.recordFailure_fields, Std.ExtTreeMap.size_modify,
      List.length_cons, List.length_nil]
    omega

/-- The charges of a run, added up. -/
theorem sum_charge (n : Nat) (es : List Event) :
    (es.map (charge n)).sum =
      (3 * n + 16) * es.countP Event.polls + es.countP Event.stamps +
        (n + 3) * es.countP Event.signals + 9 * es.countP Event.reaps := by
  induction es with
  | nil => simp
  | cons e es ih =>
      have hone : charge n e = (3 * n + 16) * [e].countP Event.polls + [e].countP Event.stamps +
          (n + 3) * [e].countP Event.signals + 9 * [e].countP Event.reaps := by
        rcases e with - | t | reply | reply | fd | reply | ⟨pid, fd, - | stamp⟩ |
          ⟨- | signal⟩ | ns | ⟨pid, signal⟩ | ⟨- | reply⟩ <;>
          simp [charge, Event.polls, Event.stamps, Event.signals, Event.reaps]
      have hcons : ∀ p : Event → Bool, (e :: es).countP p = [e].countP p + es.countP p :=
        fun p => by rw [← List.countP_append, List.singleton_append]
      rw [List.map_cons, List.sum_cons, ih, hone]
      simp only [hcons, Nat.mul_add]
      omega

/-! ## The laws of the loop's work -/

/-- The manager that has not returned makes one call and takes every answer to it. -/
theorem Tracks.one_call {config : Config} {s : State} {k : Kernel} (h : Tracks config s k)
    (hphase : s.phase ≠ .finished) :
    ∃ c, ∀ e, (step config s e).isSome = true ↔ e.call = c := by
  rcases h.receptive hphase with ⟨c, hc⟩
  refine ⟨c, fun e => ?_⟩
  rw [step_isSome_iff, hc, Option.some.injEq, eq_comm]

/-- A run from any state makes no more calls than were ahead and what arrived accounts
for. -/
theorem work_bounded {config : Config} {x y : State × Kernel} {es : List Event}
    (htracks : Tracks config x.1 x.2)
    (hrun : LabelledMachine.exec (supervised config) x es = some y) :
    es.length + y.1.ahead config ≤ x.1.ahead config +
      ((3 * config.workers + 16) * es.countP Event.polls + es.countP Event.stamps +
        (config.workers + 3) * es.countP Event.signals + 9 * es.countP Event.reaps) := by
  have hkeep : ∀ (x : State × Kernel) e x', Tracks config x.1 x.2 →
      supervised config x e = some x' → Tracks config x'.1 x'.2 := by
    intro x e x' h hstep
    obtain ⟨hs, hk⟩ := LabelledMachine.sync_eq_some_iff.mp hstep
    exact tracks_step h (step_cases hs) hk
  have hpay : ∀ (x : State × Kernel) e x', Tracks config x.1 x.2 →
      supervised config x e = some x' →
        x'.1.ahead config + 1 ≤ x.1.ahead config + charge config.workers e := by
    intro x e x' h hstep
    obtain ⟨hs, hk⟩ := LabelledMachine.sync_eq_some_iff.mp hstep
    exact ahead_step h (step_cases hs) hk
  rw [← sum_charge]
  exact LabelledMachine.exec_amortized hkeep hpay htracks hrun

/-- In every state of a run the manager has one call to make and takes every answer to
it, and so far it has made no more calls than the polls, the stamps, the signals and the
children that ended account for. -/
theorem supervise_never_stalls (config : Config) (t : Instant) (es : List Event) (s : State)
    (k : Kernel)
    (hrun : LabelledMachine.exec (supervised config) (initial t) es = some (s, k)) :
    (s.phase ≠ .finished →
      ∃ c, ∀ e, (step config s e).isSome = true ↔ e.call = c) ∧
    es.length ≤ 5 * config.workers + 8 + (3 * config.workers + 16) * es.countP Event.polls +
      es.countP Event.stamps + (config.workers + 3) * es.countP Event.signals +
      9 * es.countP Event.reaps := by
  refine ⟨(run_tracks hrun).one_call, ?_⟩
  have hspent := work_bounded (initial_tracks config t) hrun
  have hstart : (start t).ahead config = 5 * config.workers + 8 := by
    simp [State.ahead, start, Phase.ahead]
  simp only [initial, hstart] at hspent
  omega

/-- The bound at a run with one worker and one stamp. -/
theorem supervise_never_stalls_sample :
    ∃ s k, LabelledMachine.exec (supervised sampleConfig) (initial 0) sampleRun = some (s, k) ∧
      sampleRun.length ≤ 5 * 1 + 8 + (3 * 1 + 16) * 1 + 0 + (1 + 3) * 1 + 9 * 1 :=
  ⟨_, _, rfl, (supervise_never_stalls sampleConfig 0 sampleRun _ _ rfl).2⟩

end Manager

end Polychrome

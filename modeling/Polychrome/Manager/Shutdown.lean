import Polychrome.Manager.Outcome

/-!
# The end of the drain

When the deadline of the drain has passed, the next enforcement pass kills every
worker that is left.  Nothing is forked during the drain, so the loop ends as soon
as the kernel has handed over the children that were killed; if it does so within a
round of the loop, the manager polls twice more at most.

Main results:

- Theorem {lit}`culled_step`: a pass behind the deadline leaves no worker alone.
- Theorem {lit}`shutdown_completes`: the manager returns in the second round behind
  the deadline, after a bounded number of calls.
-/

namespace Polychrome

namespace Manager

/-! ## Behind the deadline -/

/-- The place in the loop belongs to a manager that is not draining. -/
def Phase.undrained : Phase → Bool
  | .drainFirst => true
  | p => p.inSpawn

/-- The deadline of the drain is set and has passed. -/
structure Overdue (s : State) (k : Kernel) : Prop where
  passed : ∃ deadline, s.draining = some deadline ∧ deadline ≤ k.clock
  placed : s.phase.undrained = false

/-- A pass over the deadlines drains nothing. -/
theorem undrained_enforceNext (config : Config) (s : State) (now : Nat) (pid : Pid)
    (todo : List Pid) (drainExpired : Bool) :
    (s.enforceNext config now pid todo drainExpired).phase.undrained = false := by
  rw [State.enforceNext_phase]
  split <;> rfl

/-- Classifying a worker drains nothing. -/
theorem undrained_classify (s : State) (worker : Worker) (status : WaitStatus) :
    (s.classify worker status).phase.undrained = false := by
  rw [State.classify_phase]
  split <;> rfl

/-- A deadline that has passed has passed for good, and nothing is spawned behind it. -/
theorem overdue_step {config : Config} {s s' : State} {k k' : Kernel} {e : Event}
    (h : Overdue s k) (hs : Step config s e s') (hk : k.step e = some k') : Overdue s' k' := by
  obtain ⟨deadline, hset, hle⟩ := h.passed
  have hplaced := h.placed
  have hle' : deadline ≤ k'.clock := hle.trans (Kernel.clock_le hk)
  cases hs
  case drainAgainDated t _ => exact ⟨⟨t, rfl, (Kernel.clock_now hk).ge⟩, rfl⟩
  case pollFailureDated t _ => exact ⟨⟨t, rfl, (Kernel.clock_now hk).ge⟩, rfl⟩
  case retryDue hdraining _ => rw [hset] at hdraining; cases hdraining
  case signalFirst hdraining => rw [hset] at hdraining; cases hdraining
  case enforceCalm hdraining => rw [hset] at hdraining; cases hdraining
  case enforceDraining now pid todo t deadline' _ hdraining =>
    exact ⟨⟨deadline, by simpa using hset, hle'⟩, undrained_enforceNext _ _ _ _ _ _⟩
  case reaped => exact ⟨⟨deadline, by simpa using hset, hle'⟩, undrained_classify _ _ _⟩
  case signalIgnored => exact ⟨⟨deadline, hset, hle'⟩, hplaced⟩
  case reapUnknown => exact ⟨⟨deadline, hset, hle'⟩, hplaced⟩
  case stampRead hphase _ =>
    exact ⟨⟨deadline, hset, hle'⟩, hplaced⟩
  all_goals
    first
    | exact ⟨⟨deadline, hset, hle'⟩, rfl⟩
    | (rw [‹s.phase = _›] at hplaced; cases hplaced)

/-- The workers that a pass behind the deadline has still to visit. -/
def Phase.unvisited : Phase → Option (List Pid)
  | .stamps _ | .signals | .drainAgain | .drainFirst | .notify _ | .enforceClock | .pollFailed =>
      none
  | .enforce _ todo => some todo
  | .terminate _ pid todo => some (pid :: todo)
  | _ => some []

/-- From the pass on, every worker has been killed or is still to be visited. -/
def Culled (s : State) : Prop :=
  ∀ todo, s.phase.unvisited = some todo →
    ∀ (pid : Pid) (w : Worker), s.workers[pid]? = some w → pid ∈ todo ∨ w.killed = true

/-- A step that keeps the table and visits no one. -/
theorem Culled.along {s s' : State} (h : Culled s) (hworkers : s'.workers = s.workers)
    (hnext : ∀ todo, s'.phase.unvisited = some todo → s.phase.unvisited = some todo) :
    Culled s' := by
  intro todo htodo pid w hw
  rw [hworkers] at hw
  exact h todo (hnext todo htodo) pid w hw

/-- A worker that is not killed by a pass behind the deadline had been killed before. -/
theorem Culled.visited {config : Config} {s : State} {now : Nat} {pid : Pid} {todo : List Pid}
    (h : Culled s) (hphase : s.phase = .enforce now (pid :: todo)) :
    Culled (s.enforceNext config now pid todo true) := by
  intro todo' htodo' pid' w hw
  simp only [State.enforceNext_fields] at hw
  rw [State.enforceNext_phase] at htodo'
  have hbefore := h (pid :: todo) (by rw [hphase]; rfl) pid' w hw
  split at htodo'
  case isTrue =>
    cases htodo'
    exact hbefore
  case isFalse hspared =>
    cases htodo'
    rcases hbefore with hmem | hkilled
    · rcases List.mem_cons.mp hmem with rfl | hmem
      · refine Or.inr ?_
        simpa [mustTerminate, hw] using hspared
      · exact Or.inl hmem
    · exact Or.inr hkilled

/-- A kill takes the worker off the list of those to visit. -/
theorem Culled.terminated {s : State} {now : Nat} {pid : Pid} {todo : List Pid} (h : Culled s)
    (hphase : s.phase = .terminate now pid todo) :
    Culled { s with
      workers := s.workers.modify pid Worker.markKilled, phase := .enforce now todo } := by
  rintro _ ⟨⟩ pid' w hw
  rw [Std.ExtTreeMap.getElem?_modify] at hw
  split at hw
  case isTrue =>
    rcases Option.map_eq_some_iff.mp hw with ⟨w₀, -, rfl⟩
    exact Or.inr rfl
  case isFalse hne =>
    rcases h (pid :: todo) (by rw [hphase]; rfl) pid' w hw with hmem | hkilled
    · rcases List.mem_cons.mp hmem with rfl | hmem
      · simp at hne
      · exact Or.inl hmem
    · exact Or.inr hkilled

/-- Nobody is left to be visited behind a reaped worker. -/
theorem unvisited_classify (s : State) (worker : Worker) (status : WaitStatus) :
    (s.classify worker status).phase.unvisited = some [] := by
  rw [State.classify_phase]
  split <;> rfl

/-- A step behind the deadline keeps the pass on its way; a poll begins a new one. -/
theorem culled_step {config : Config} {s s' : State} {k k' : Kernel} {e : Event}
    (h : s.phase = .poll ∨ Culled s) (hoverdue : Overdue s k) (hs : Step config s e s')
    (hk : k.step e = some k') : Culled s' := by
  obtain ⟨deadline, hset, hle⟩ := hoverdue.passed
  have hplaced := hoverdue.placed
  by_cases hpoll : s.phase = .poll
  · cases hs
    case polled => rintro _ ⟨⟩
    case pollInterrupted => rintro _ ⟨⟩
    case pollFailed => rintro _ ⟨⟩
    all_goals simp_all
  replace h : Culled s := h.resolve_left hpoll
  cases hs
  case enforceStarted ns hphase =>
    rintro _ ⟨⟩ pid w hw
    refine Or.inl (Std.ExtTreeMap.mem_keys.mpr ?_)
    rw [Std.ExtTreeMap.mem_iff_isSome_getElem?, hw]
    rfl
  case enforceCalm hdraining => rw [hset] at hdraining; cases hdraining
  case enforceDraining now pid todo t deadline' hphase hdraining =>
    have hdue : deadline' ≤ t := by
      rw [hset, Option.some.injEq] at hdraining
      calc deadline' = deadline := hdraining.symm
        _ ≤ k.clock := hle
        _ ≤ k'.clock := Kernel.clock_le hk
        _ = t := Kernel.clock_now hk
    rw [decide_eq_true hdue]
    exact h.visited hphase
  case terminated hphase => exact h.terminated hphase
  case reaped pid status w hphase hw =>
    intro todo htodo pid' w' hw'
    rw [unvisited_classify] at htodo
    cases htodo
    simp only [State.classify_fields, Std.ExtTreeMap.getElem?_erase] at hw'
    split at hw'
    · cases hw'
    · exact h [] (by rw [hphase]; rfl) pid' w' hw'
  case stampRead hphase _ =>
    intro todo htodo
    rw [hphase] at htodo
    cases htodo
  case signalIgnored => exact h
  case reapUnknown => exact h
  all_goals
    first
    | (rintro _ ⟨⟩; done)
    | (refine h.along rfl ?_; rintro _ ⟨⟩; rw [‹s.phase = _›]; rfl)
    | (rw [‹s.phase = _›] at hplaced; cases hplaced)

/-! ## The last round -/

/-- A child that was killed before a poll has been handed over when the reaping behind
that poll ends. -/
def KillsLand (config : Config) (x : State × Kernel) (later : List Event) : Prop :=
  ∀ before reply round behind y z,
    later = before ++ .poll reply :: (round ++ .waitpid none :: behind) →
    round.any Event.polls = false →
    LabelledMachine.exec (supervised config) x before = some y →
    LabelledMachine.exec (supervised config) x (before ++ .poll reply :: round) = some z →
    ∀ (pid : Pid) (w : Worker), y.1.workers[pid]? = some w → w.killed = true →
      pid ∉ z.2.children

/-- What holds of a run's kills holds of those of its beginnings. -/
theorem KillsLand.earlier {config : Config} {x : State × Kernel} {es fs : List Event}
    (h : KillsLand config x (es ++ fs)) : KillsLand config x es := by
  intro before reply round behind y z hes
  apply h before reply round (behind ++ fs) y z
  rw [hes]
  simp

/-- The round behind the poll at {lit}`y`: the table only loses workers, and it has lost
all of them when the reaping has ended. -/
structure LastRound (y s : State) : Prop where
  below : ∀ pid, pid ∈ s.workers → pid ∈ y.workers
  emptied : s.phase = .loopEnd → s.workers.isEmpty = true
  onward : s.phase ≠ .loopHead ∧ s.phase ≠ .poll

/-- A step that keeps the table and goes on to another place of the round. -/
theorem LastRound.along {y s s' : State} (h : LastRound y s) (hworkers : s'.workers = s.workers)
    (hend : s'.phase ≠ .loopEnd) (hhead : s'.phase ≠ .loopHead) (hpoll : s'.phase ≠ .poll) :
    LastRound y s' where
  below := by rw [hworkers]; exact h.below
  emptied hphase := absurd hphase hend
  onward := ⟨hhead, hpoll⟩

/-- Every call of the last round keeps what is known about it. -/
theorem lastRound_step {config : Config} {y s s' : State} {k : Kernel} {e : Event}
    (h : LastRound y s) (htracks : Tracks config s k) (hoverdue : Overdue s k)
    (hland : e = .waitpid none → ∀ pid, pid ∈ y.workers → pid ∉ k.children)
    (hs : Step config s e s') : LastRound y s' := by
  obtain ⟨deadline, hset, -⟩ := hoverdue.passed
  have hplaced := hoverdue.placed
  obtain ⟨hhead, hpoll⟩ := h.onward
  cases hs
  case drainingHead hphase _ => exact absurd hphase hhead
  case retryDue hphase _ _ => exact absurd hphase hhead
  case retryPending hphase _ _ => exact absurd hphase hhead
  case polled hphase => exact absurd hphase hpoll
  case pollInterrupted hphase => exact absurd hphase hpoll
  case pollFailed hphase _ => exact absurd hphase hpoll
  case stampRead pid todo w value hphase _ =>
    refine ⟨fun pid' hmem => h.below pid' ?_, fun hend => ?_, h.onward⟩
    · exact Std.ExtTreeMap.mem_modify.mp hmem
    · rw [hphase] at hend
      cases hend
  case terminated pid todo hphase =>
    exact ⟨fun pid' hmem => h.below pid' (Std.ExtTreeMap.mem_modify.mp hmem), by simp, by simp⟩
  case enforceCalm hdraining => rw [hset] at hdraining; cases hdraining
  case enforceDraining now pid todo t deadline' hphase _ =>
    refine ⟨by simpa using h.below, ?_, ?_⟩
    all_goals
      rw [State.enforceNext_phase]
      split <;> simp
  case reapDone hphase =>
    refine ⟨h.below, fun _ => ?_, by simp⟩
    -- Whoever is left in the table was there, and dead, at the poll.
    rw [Std.ExtTreeMap.isEmpty_iff, Std.ExtTreeMap.eq_empty_iff_forall_not_mem]
    intro pid hmem
    exact hland rfl pid (h.below pid hmem) ((htracks.children pid).mpr (Or.inl hmem))
  case reaped pid status w hphase hw =>
    refine ⟨fun pid' hmem => h.below pid' ?_, ?_, ?_⟩
    · simp only [State.classify_fields, Std.ExtTreeMap.mem_erase] at hmem
      exact hmem.2
    all_goals
      rw [State.classify_phase]
      split <;> simp
  case loopAgain hphase hstay =>
    rw [h.emptied hphase, hset] at hstay
    cases hstay
  case loopReturned => exact h.along rfl (by simp) (by simp) (by simp)
  case signalIgnored => exact h
  case reapUnknown => exact h
  all_goals
    first
    | (rw [‹s.phase = _›] at hplaced; cases hplaced; done)
    | exact h.along rfl (by simp) (by simp) (by simp)

/-- The first two rounds behind the deadline: nothing yet, the round that culls the
workers, and the round that loses them. -/
inductive Round (config : Config) (x : State × Kernel) (es : List Event) (s : State) : Prop
  | ahead (hes : es = []) (hphase : s.phase = .poll)
  | culling (hpolls : es.countP Event.polls = 1) (hculled : Culled s)
  | last (hpolls : es.countP Event.polls = 2) {before round : List Event} {reply : Reply Nat}
      {y : State × Kernel} (hes : es = before ++ .poll reply :: round)
      (hround : round.any Event.polls = false)
      (hbefore : LabelledMachine.exec (supervised config) x before = some y)
      (hkilled : ∀ (pid : Pid) (w : Worker), y.1.workers[pid]? = some w → w.killed = true)
      (hlast : LastRound y.1 s)

/-- Only the poll itself polls, and it keeps the table. -/
theorem phase_of_polls {config : Config} {s s' : State} {e : Event} (hs : Step config s e s')
    (hpoll : e.polls = true) : s.phase = .poll ∧ s'.workers = s.workers ∧
      s'.phase ≠ .loopEnd ∧ s'.phase ≠ .loopHead ∧ s'.phase ≠ .poll := by
  cases hs
  case polled hphase => exact ⟨hphase, rfl, by simp, by simp, by simp⟩
  case pollInterrupted hphase => exact ⟨hphase, rfl, by simp, by simp, by simp⟩
  case pollFailed hphase _ => exact ⟨hphase, rfl, by simp, by simp, by simp⟩
  all_goals cases hpoll

/-- At the poll the next call is the poll. -/
theorem polls_of_phase {config : Config} {s s' : State} {e : Event} (hs : Step config s e s')
    (hphase : s.phase = .poll) : e.polls = true := by
  cases hs
  case polled => rfl
  case pollInterrupted => rfl
  case pollFailed => rfl
  all_goals simp_all

/-- Every call behind the poll is in the first or the last round. -/
theorem round_step {config : Config} {x : State × Kernel} {es : List Event}
    {s s' : State} {k k' : Kernel} {e : Event} (h : Round config x es s)
    (htracks : Tracks config s k) (hoverdue : Overdue s k)
    (hrun : LabelledMachine.exec (supervised config) x es = some (s, k))
    (hland : KillsLand config x (es ++ [e]))
    (hs : Step config s e s') (hk : k.step e = some k') : Round config x (es ++ [e]) s' := by
  have hcount : (es ++ [e]).countP Event.polls =
      es.countP Event.polls + if e.polls = true then 1 else 0 := by
    rw [List.countP_append, List.countP_singleton]
  cases h with
  | ahead hes hphase =>
      refine .culling ?_ (culled_step (Or.inl hphase) hoverdue hs hk)
      rw [hcount, hes, if_pos (polls_of_phase hs hphase)]
      rfl
  | culling hpolls hculled =>
      by_cases hpoll : e.polls = true
      · obtain ⟨hphase, hworkers, hend, hhead, hpoll'⟩ := phase_of_polls hs hpoll
        obtain ⟨reply, rfl⟩ : ∃ reply, e = .poll reply := by
          cases e <;> first | exact ⟨_, rfl⟩ | cases hpoll
        have hkilled : ∀ (pid : Pid) (w : Worker), s.workers[pid]? = some w → w.killed = true := by
          intro pid w hw
          have hdone := hculled [] (by rw [hphase]; rfl) pid w hw
          simpa using hdone
        refine .last ?_ rfl rfl hrun hkilled ⟨?_, fun h => absurd h hend, hhead, hpoll'⟩
        · rw [hcount, hpolls, if_pos hpoll]
        · rw [hworkers]
          exact fun _ hmem => hmem
      · refine .culling ?_ (culled_step (Or.inr hculled) hoverdue hs hk)
        rw [hcount, hpolls, if_neg hpoll]
  | @last hpolls before round reply y hes hround hbefore hkilled hlast =>
      have hpoll : e.polls = false := by
        by_contra hpoll
        exact hlast.onward.2 (phase_of_polls hs (by simpa using hpoll)).1
      have hes' : es ++ [e] = before ++ .poll reply :: (round ++ [e]) := by
        rw [hes]
        simp
      refine .last ?_ hes' ?_ hbefore hkilled (lastRound_step hlast htracks hoverdue ?_ hs)
      · rw [hcount, hpolls, hpoll]
        rfl
      · rw [List.any_append, hround]
        simp [hpoll]
      · rintro rfl pid hmem
        rw [Std.ExtTreeMap.mem_iff_isSome_getElem?] at hmem
        rcases Option.isSome_iff_exists.mp hmem with ⟨w, hw⟩
        exact hland before reply round [] y (s, k) (by rw [hes]; simp) hround hbefore
          (hes ▸ hrun) pid w hw (hkilled pid w hw)

/-- A run behind the deadline is in its first or its last round. -/
theorem run_round {config : Config} {x y : State × Kernel} {es : List Event}
    (htracks : Tracks config x.1 x.2) (hoverdue : Overdue x.1 x.2) (hphase : x.1.phase = .poll)
    (hland : KillsLand config x es)
    (hrun : LabelledMachine.exec (supervised config) x es = some y) : Round config x es y.1 := by
  refine LabelledMachine.exec_history_induction
    (P := fun es y => KillsLand config x es → (Tracks config y.1 y.2 ∧ Overdue y.1 y.2) ∧
      Round config x es y.1) ?_ ?_ hrun hland |>.2
  · exact fun _ => ⟨⟨htracks, hoverdue⟩, .ahead rfl hphase⟩
  · intro es y e y' hbefore h hstep hland
    obtain ⟨hs, hk⟩ := LabelledMachine.sync_eq_some_iff.mp hstep
    obtain ⟨⟨htracks', hoverdue'⟩, hround⟩ := h hland.earlier
    exact ⟨⟨tracks_step htracks' (step_cases hs) hk, overdue_step hoverdue' (step_cases hs) hk⟩,
      round_step hround htracks' hoverdue' hbefore hland (step_cases hs) hk⟩

/-- Behind the deadline no child is forked. -/
theorem forks_of_overdue {config : Config} {s s' : State} {k : Kernel} {e : Event}
    (h : Overdue s k) (hs : Step config s e s') : [e].countP Event.forks = 0 := by
  have hplaced := h.placed
  cases hs
  case forked hphase => rw [hphase] at hplaced; cases hplaced
  all_goals rfl

/-- The children of a run behind the deadline only become fewer. -/
theorem overdue_balance {config : Config} {x y : State × Kernel} {es : List Event}
    (hoverdue : Overdue x.1 x.2)
    (hrun : LabelledMachine.exec (supervised config) x es = some y) :
    es.countP Event.forks = 0 ∧ es.countP Event.reaps + y.2.children.card = x.2.children.card := by
  refine (LabelledMachine.exec_history_induction
    (P := fun es y => Overdue y.1 y.2 ∧ es.countP Event.forks = 0 ∧
      es.countP Event.reaps + y.2.children.card = x.2.children.card)
    ⟨hoverdue, by simp, by simp⟩ ?_ hrun).2
  rintro es y e y' - ⟨hoverdue', hforks, hreaps⟩ hstep
  obtain ⟨hs, hk⟩ := LabelledMachine.sync_eq_some_iff.mp hstep
  have hnone := forks_of_overdue hoverdue' (step_cases hs)
  have hbalance := balance_step hreaps.symm hk
  refine ⟨overdue_step hoverdue' (step_cases hs) hk, ?_, ?_⟩
  · rw [List.countP_append, hforks, hnone]
  · rw [List.countP_append]
    omega

/-- When the deadline of the drain has passed and every child that is killed has been
handed over a round later, {lit}`supervise` polls twice more at most, forks no child and
returns after a bounded number of calls, with no child left. -/
theorem shutdown_completes (config : Config) (t : Instant) (es : List Event) (s : State)
    (k : Kernel) (deadline : Instant)
    (hrun : LabelledMachine.exec (supervised config) (initial t) es = some (s, k))
    (hphase : s.phase = .poll) (hdraining : s.draining = some deadline)
    (hpassed : deadline ≤ k.clock) (later : List Event) (u : State) (l : Kernel)
    (hlater : LabelledMachine.exec (supervised config) (s, k) later = some (u, l))
    (hland : KillsLand config (s, k) later) :
    later.countP Event.polls ≤ 2 ∧ later.countP Event.forks = 0 ∧
      later.length ≤ 20 * config.workers + 32 + later.countP Event.stamps +
        (config.workers + 3) * later.countP Event.signals ∧
      (u.phase = .finished ∧ l.children = ∅ ∨
        ∃ c, ∀ e, (step config u e).isSome = true ↔ e.call = c) := by
  have htracks := run_tracks hrun
  have hoverdue : Overdue s k := ⟨⟨deadline, hdraining, hpassed⟩, by rw [hphase]; rfl⟩
  have hpolls : later.countP Event.polls ≤ 2 := by
    cases run_round htracks hoverdue hphase hland hlater with
    | ahead hes _ => simp [hes]
    | culling hpolls _ => omega
    | last hpolls => omega
  obtain ⟨hforks, hreaps⟩ := overdue_balance hoverdue hlater
  refine ⟨hpolls, hforks, ?_, ?_⟩
  · have hspent := work_bounded htracks hlater
    have hcard : k.children.card ≤ config.workers := htracks.card_le
    have hahead : s.ahead config ≤ 5 * config.workers := by
      simp only [State.ahead, hphase, Phase.ahead]
      omega
    have hround : (3 * config.workers + 16) * later.countP Event.polls ≤
        (3 * config.workers + 16) * 2 := Nat.mul_le_mul_left _ hpolls
    simp only at hreaps hspent
    omega
  · have hwhole : LabelledMachine.exec (supervised config) (initial t) (es ++ later) =
        some (u, l) := LabelledMachine.exec_append_eq_some_iff.mpr ⟨(s, k), hrun, hlater⟩
    have htracks' := run_tracks hwhole
    by_cases hfinished : u.phase = .finished
    · exact Or.inl ⟨hfinished, htracks'.laws.returned hfinished⟩
    · exact Or.inr (htracks'.one_call hfinished)

/-- The worker of {lit}`sampleRun` outlives the deadline of the drain. -/
def overdueWorker : List Event :=
  [.now 0, .tau, .socketpair (.ok (5, 6)), .fork (.ok 7), .close 6, .now 1, .tau,
    .poll (.ok 1), .recv 7 5 none, .tau, .read (some .sigterm), .now 2, .kill 7 .sigusr1,
    .tau, .read none, .clockGettime 2, .now 30000000002, .kill 7 .sigkill, .tau, .waitpid none,
    .tau, .tau]

/-- The next round, with the end of the child. -/
def finalRound : List Event :=
  [.poll (.ok 1), .recv 7 5 none, .tau, .read none, .clockGettime 30000000003,
    .now 30000000003, .tau, .waitpid (some (7, .signaled .sigkill)), .now 30000000004, .close 5,
    .waitpid none, .tau]

/-- In a run with one empty {lit}`waitpid` it is enough to look there. -/
theorem killsLand_of_single {x : State × Kernel} {later : List Event} {n : Nat}
    (hsingle : ∀ i, later[i]? = some (.waitpid none) → i = n)
    (hempty : ∀ z, LabelledMachine.exec (supervised sampleConfig) x (later.take n) = some z →
      z.2.children = ∅) : KillsLand sampleConfig x later := by
  intro before reply round behind y z hlater _ _ hz pid w _ _
  have hsplit : later = (before ++ .poll reply :: round) ++ .waitpid none :: behind := by
    rw [hlater]
    simp
  have hn : (before ++ .poll reply :: round).length = n := by
    apply hsingle
    rw [hsplit]
    simp
  have htake : later.take n = before ++ .poll reply :: round := by
    rw [hsplit, List.take_left' hn]
  rw [hempty z (by rw [htake]; exact hz)]
  simp

/-- A worker that does not answer is killed behind the deadline, and the service returns. -/
theorem shutdown_completes_sample :
    ∃ s k u l, LabelledMachine.exec (supervised sampleConfig) (initial 0) overdueWorker =
        some (s, k) ∧
      LabelledMachine.exec (supervised sampleConfig) (s, k) finalRound = some (u, l) ∧
      u.phase = .finished ∧ finalRound.countP Event.polls ≤ 2 := by
  refine ⟨_, _, _, _, rfl, rfl, rfl, ?_⟩
  refine (shutdown_completes sampleConfig 0 overdueWorker _ _ 30000000002 rfl rfl rfl
    (Nat.le_refl _) finalRound _ _ rfl ?_).1
  refine killsLand_of_single (n := 10) ?_ ?_
  · intro i hi
    rcases List.getElem?_eq_some_iff.mp hi with ⟨hlt, -⟩
    have honce : ∀ i < 12, finalRound[i]? = some (.waitpid none) → i = 10 := by decide
    exact honce i hlt hi
  · intro z hz
    cases hz
    rfl

end Manager

end Polychrome

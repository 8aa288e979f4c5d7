import Polychrome.Manager.Deadlines
import Polychrome.Manager.Work

/-!
# What a run of the supervisor comes to

The loop tells the outside two things: that it is ready, once, and what came of
it, when it returns.  Both are read off the calls of the whole run.

Main results:

- Theorem {lit}`supervise_settles`: {lit}`supervise` returns only when it was asked
  to, with every child waited for, and its result is the last poll failure.
- Theorem {lit}`ready_announced_once`: it prints that it is ready once, with a full table
  and outside the drain.
-/

namespace Polychrome

namespace Manager

/-- A failure of {lit}`poll` that is not an interruption. -/
def Event.pollFailure : Event → Option Errno
  | .poll (.error errno) => if errno = eintr then none else some errno
  | _ => none

/-- The loop is asked to come to an end. -/
def Event.asksToEnd : Event → Bool
  | .poll (.error errno) => errno != eintr
  | .read (some signal) => endsService signal
  | _ => false

/-- A child is forked. -/
def Event.forks : Event → Bool
  | .fork (.ok _) => true
  | _ => false

/-- {lit}`fatal.map_or(Ok(()), Err)` -/
def State.result (s : State) : Except Errno Unit :=
  match s.fatal with
  | none => .ok ()
  | some errno => .error errno

/-! ## The end of a run -/

/-- What the variables say about the run so far. -/
structure Settled (es : List Event) (s : State) (k : Kernel) : Prop where
  fatal : s.fatal = (es.filterMap Event.pollFailure).getLast?
  asked : (s.draining.isSome || s.phase.cause.isSome) = es.any Event.asksToEnd
  balance : es.countP Event.forks = es.countP Event.reaps + k.children.card
  drained : s.phase = .finished → s.draining.isSome = true

/-- A call that forks no child and waits for none keeps the balance. -/
theorem balance_step {e : Event} {k k' : Kernel} {forks reaps : Nat}
    (h : forks = reaps + k.children.card) (hk : k.step e = some k') :
    forks + [e].countP Event.forks = reaps + [e].countP Event.reaps + k'.children.card := by
  unfold Kernel.step at hk
  split at hk
  case h_1 pid =>
    split at hk
    · cases hk
    case isFalse hnew =>
      cases hk
      simp only [List.countP_singleton, Event.forks, Event.reaps, if_true, Bool.false_eq_true,
        if_false, Finset.card_insert_of_notMem hnew]
      omega
  case h_2 pid status =>
    split at hk
    case isTrue hmem =>
      cases hk
      have hpos : 0 < k.children.card := Finset.card_pos.mpr ⟨pid, hmem⟩
      simp only [List.countP_singleton, Event.forks, Event.reaps, if_true, Bool.false_eq_true,
        if_false, Finset.card_erase_of_mem hmem]
      omega
    · cases hk
  case h_3 t =>
    split at hk
    · cases hk
      simpa [List.countP_singleton, Event.forks, Event.reaps] using h
    · cases hk
  case h_4 hfork hwait hnow =>
    cases hk
    have hnone : [e].countP Event.forks = 0 ∧ [e].countP Event.reaps = 0 := by
      rcases e with - | t | reply | ⟨pid | errno⟩ | fd | reply | ⟨pid, fd, stamp⟩ | reply | ns |
        ⟨pid, signal⟩ | ⟨- | ⟨pid, status⟩⟩ <;> simp_all [Event.forks, Event.reaps]
    omega

/-- Every call keeps the account of what the run comes to. -/
theorem settled_step {config : Config} {es : List Event} {s s' : State} {k k' : Kernel}
    {e : Event} (h : Settled es s k) (hs : Step config s e s') (hk : k.step e = some k') :
    Settled (es ++ [e]) s' k' where
  fatal := by
    rw [List.filterMap_append, List.getLast?_append, ← h.fatal]
    cases hs
    case pollFailed hphase herrno => simp [Event.pollFailure, herrno]
    case pollInterrupted => simp [Event.pollFailure, State.enterStamps]
    case enforceCalm => simp [Event.pollFailure]
    case enforceDraining => simp [Event.pollFailure]
    case reaped => simp [Event.pollFailure]
    all_goals rfl
  asked := by
    rw [List.any_append, ← h.asked]
    cases hs
    case enforceCalm hphase hdraining =>
      rw [State.enforceNext_cause, hphase]
      simp [Phase.cause, Event.asksToEnd]
    case enforceDraining hphase hdraining =>
      rw [State.enforceNext_cause, hphase]
      simp [Phase.cause, Event.asksToEnd]
    case reaped hphase _ =>
      rw [State.classify_cause, hphase]
      simp [Phase.cause, Event.asksToEnd]
    all_goals simp_all [Phase.cause, Event.asksToEnd]
  balance := by
    rw [List.countP_append, List.countP_append]
    exact balance_step h.balance hk
  drained hphase := by
    cases hs
    case loopReturned hdraining _ => exact hdraining
    case enforceCalm now pid todo _ _ =>
      exact absurd hphase (enforceNext_place config s now pid todo false).2.2
    case enforceDraining now pid todo t deadline _ _ =>
      exact absurd hphase (enforceNext_place config s now pid todo (decide (deadline ≤ t))).2.2
    case reaped pid status w _ _ =>
      exact absurd hphase (classify_place { s with workers := s.workers.erase pid } w status).2.2
    all_goals simp_all

/-- The account holds along every run. -/
theorem run_settled {config : Config} {t : Instant} {es : List Event} {s : State} {k : Kernel}
    (hrun : LabelledMachine.exec (supervised config) (initial t) es = some (s, k)) :
    Settled es s k := by
  refine LabelledMachine.exec_history_induction (P := fun es x => Settled es x.1 x.2) ?_ ?_ hrun
  · exact ⟨rfl, rfl, rfl, by simp [initial, start]⟩
  · intro es x e x' _ h hstep
    obtain ⟨hs, hk⟩ := LabelledMachine.sync_eq_some_iff.mp hstep
    exact settled_step h (step_cases hs) hk

/-- A run of {lit}`supervise` that returns was asked to end by a signal or by a poll
failure, has waited for every child it forked, and returns the last poll failure. -/
theorem supervise_settles (config : Config) (t : Instant) (es : List Event) (s : State)
    (k : Kernel)
    (hrun : LabelledMachine.exec (supervised config) (initial t) es = some (s, k))
    (hreturned : s.phase = .finished) :
    es.any Event.asksToEnd = true ∧
      es.countP Event.forks = es.countP Event.reaps ∧
      (s.result = .ok () ↔ es.filterMap Event.pollFailure = []) ∧
      ∀ errno, s.result = .error errno ↔
        (es.filterMap Event.pollFailure).getLast? = some errno := by
  have h := run_settled hrun
  refine ⟨?_, ?_, ?_, ?_⟩
  · rw [← h.asked, h.drained hreturned, Bool.true_or]
  · rw [h.balance, (run_tracks hrun).laws.returned hreturned, Finset.card_empty, Nat.add_zero]
  · rw [State.result, h.fatal]
    cases hlast : (es.filterMap Event.pollFailure).getLast? with
    | none => simpa using List.getLast?_eq_none_iff.mp hlast
    | some errno =>
        have hne : es.filterMap Event.pollFailure ≠ [] := by
          intro hnil
          rw [hnil] at hlast
          cases hlast
        simpa using hne
  · intro errno
    rw [State.result, h.fatal]
    cases (es.filterMap Event.pollFailure).getLast? <;> simp

/-- The worker of {lit}`sampleRun` with a poll that fails: its child is reaped. -/
def failingPoll : List Event :=
  [.now 0, .tau, .socketpair (.ok (5, 6)), .fork (.ok 7), .close 6, .now 1, .tau,
    .poll (.error 12), .now 2, .recv 7 5 none, .tau, .read none, .clockGettime 2, .now 3,
    .kill 7 .sigkill, .tau, .waitpid (some (7, .signaled .sigkill)), .now 4, .now 5, .close 5,
    .waitpid none, .tau]

/-- A poll that fails for good ends the service with its error. -/
theorem supervise_settles_sample :
    ∃ s k, LabelledMachine.exec (supervised sampleConfig) (initial 0) failingPoll =
        some (s, k) ∧ s.phase = .finished ∧ s.result = .error 12 :=
  ⟨_, _, rfl, rfl, ((supervise_settles sampleConfig 0 failingPoll _ _ rfl rfl).2.2.2 12).mpr rfl⟩

/-! ## The announcement -/

/-- The test for the announcement prints the line and sets the flag, or does neither. -/
theorem State.announce_cases (config : Config) (s : State) :
    (s.announce config).1 = s.ready ∧ (s.announce config).2 = [] ∨
      s.ready = false ∧ s.workers.size = config.workers ∧
        (s.announce config).1 = true ∧ (s.announce config).2 = [readyLine config] := by
  unfold State.announce
  split
  case isTrue htest =>
    rw [Bool.and_eq_true, Bool.not_eq_true', beq_iff_eq] at htest
    exact Or.inr ⟨htest.1, htest.2, rfl, rfl⟩
  case isFalse => exact Or.inl ⟨rfl, rfl⟩

/-- The table is full: the test for the announcement is next. -/
theorem printed_full {config : Config} {s : State} (hphase : s.phase = .spawnTest)
    (hfull : config.workers ≤ s.workers.size) :
    printed config s .tau = (s.announce config).2 := by
  simp only [printed, hphase, if_neg (Nat.not_lt.mpr hfull)]

/-- A failed spawn leads to the same test. -/
theorem printed_failed {config : Config} {s : State} (hphase : s.phase = .spawnFailed)
    (t : Instant) : printed config s (.now t) = ((s.recordFailure t).announce config).2 := by
  simp only [printed, hphase]

/-- A step prints nothing and leaves the flag, or it ends a spawn phase with a full table
and prints the line for the first time. -/
theorem printed_of_step {config : Config} {s s' : State} {e : Event}
    (hfailed : s.phase = .spawnFailed → s.workers.size < config.workers)
    (hs : Step config s e s') :
    s'.ready = s.ready ∧ printed config s e = [] ∨
      (s.phase = .spawnTest ∧ e = .tau ∧ s.workers.size = config.workers ∧ s'.phase = .poll) ∧
        s.ready = false ∧ s'.ready = true ∧ printed config s e = [readyLine config] := by
  cases hs
  case spawnFull hphase hfull =>
    rw [printed_full hphase hfull]
    rcases State.announce_cases config s with hquiet | ⟨hnot, hsize, hloud⟩
    · exact Or.inl hquiet
    · exact Or.inr ⟨⟨hphase, rfl, hsize, rfl⟩, hnot, hloud⟩
  case spawnFailureRecorded t hphase =>
    rw [printed_failed hphase]
    rcases State.announce_cases config (s.recordFailure t) with
      hquiet | ⟨-, hsize, -⟩
    · exact Or.inl hquiet
    · exact absurd hsize (hfailed hphase).ne
  case spawnMore hphase hroom =>
    exact Or.inl ⟨rfl, by simp only [printed, hphase, if_pos hroom]⟩
  case enforceCalm hphase _ => exact Or.inl ⟨by simp, by simp only [printed, hphase]⟩
  case enforceDraining hphase _ => exact Or.inl ⟨by simp, by simp only [printed, hphase]⟩
  case reaped hphase _ => exact Or.inl ⟨by simp, by simp only [printed, hphase]⟩
  all_goals exact Or.inl ⟨rfl, by simp only [printed, ‹s.phase = _›]⟩

/-- Where no spawn is under way, there are as many children as workers. -/
theorem Tracks.card_eq {config : Config} {s : State} {k : Kernel} (h : Tracks config s k)
    (hspawning : s.phase.spawning = none) : k.children.card = s.workers.size := by
  have hkeys : k.children = s.workers.keys.toFinset := by
    ext pid
    rw [← h.laws.keys_eq hspawning, List.mem_toFinset, Std.ExtTreeMap.mem_keys]
  rw [hkeys, List.toFinset_card_of_nodup Std.ExtTreeMap.nodup_keys, Std.ExtTreeMap.length_keys]

/-- A spawn is tried, and fails, only where a worker is missing. -/
theorem missing_of_step {config : Config} {s s' : State} {k : Kernel} {e : Event}
    (htracks : Tracks config s k) (hs : Step config s e s') (hphase : s'.phase = .spawnFailed) :
    s'.workers.size < config.workers := by
  cases hs
  case pairFailed hat => exact htracks.room (by rw [hat]; rfl)
  case unwound hat => exact htracks.room (by rw [hat]; rfl)
  case enforceCalm now pid todo _ _ =>
    have hin := (enforceNext_place config s now pid todo false).1
    rw [hphase] at hin
    cases hin
  case enforceDraining now pid todo t deadline _ _ =>
    have hin := (enforceNext_place config s now pid todo (decide (deadline ≤ t))).1
    rw [hphase] at hin
    cases hin
  case reaped pid status w _ _ =>
    have hin := (classify_place { s with workers := s.workers.erase pid } w status).1
    rw [hphase] at hin
    cases hin
  all_goals simp_all

/-- The lines that a run prints to say that the service is ready. -/
def transcript (config : Config) (t : Instant) (es : List Event) : List ReadyLine :=
  LabelledMachine.outputs (step config) (printed config) (start t) es

/-- What a run has printed is told by its flag. -/
structure Announced (config : Config) (t : Instant) (es : List Event) (s : State) : Prop where
  missing : s.phase = .spawnFailed → s.workers.size < config.workers
  transcript : transcript config t es = if s.ready then [readyLine config] else []

/-- One more call prints the line if it has not been printed, or nothing. -/
theorem announced_step {config : Config} {t : Instant} {es : List Event} {s s' : State}
    {k : Kernel} {e : Event}
    (hbefore : LabelledMachine.exec (supervised config) (initial t) es = some (s, k))
    (h : Announced config t es s) (hstep : step config s e = some s') :
    Announced config t (es ++ [e]) s' where
  missing := missing_of_step (run_tracks hbefore) (step_cases hstep)
  transcript := by
    have hmanager : LabelledMachine.exec (step config) (start t) es = some s :=
      (LabelledMachine.exec_sync_iff.mp hbefore).1
    rw [Manager.transcript, LabelledMachine.outputs_concat hmanager hstep]
    rw [← Manager.transcript, h.transcript]
    rcases printed_of_step h.missing (step_cases hstep) with
      ⟨hready, hprinted⟩ | ⟨-, hnot, hready, hprinted⟩
    · rw [hready, hprinted, List.append_nil]
    · rw [hnot, hready, hprinted]
      rfl

/-- Every run has announced readiness as the variable says. -/
theorem run_announced {config : Config} {t : Instant} {es : List Event} {s : State} {k : Kernel}
    (hrun : LabelledMachine.exec (supervised config) (initial t) es = some (s, k)) :
    Announced config t es s := by
  refine LabelledMachine.exec_history_induction (P := fun es x => Announced config t es x.1)
    ?_ ?_ hrun
  · refine ⟨fun hphase => ?_, rfl⟩
    cases hphase
  · intro es x e x' hbefore h hstep
    exact announced_step hbefore h (LabelledMachine.sync_eq_some_iff.mp hstep).1

/-- {lit}`supervise` prints the line with its settings once, if it is ready, and not at
all if it is not: by the end of a spawn phase that finds a full table, with as many children
forked and not waited for as there are workers to run, and outside the drain. -/
theorem ready_announced_once (config : Config) (t : Instant) (es : List Event) (s : State)
    (k : Kernel)
    (hrun : LabelledMachine.exec (supervised config) (initial t) es = some (s, k)) :
    transcript config t es = (if s.ready then [readyLine config] else []) ∧
    ∀ earlier e later s₁ k₁, es = earlier ++ e :: later →
      LabelledMachine.exec (supervised config) (initial t) earlier = some (s₁, k₁) →
      printed config s₁ e ≠ [] →
      s₁.phase = .spawnTest ∧ e = .tau ∧ s₁.draining = none ∧
        s₁.workers.size = config.workers ∧ k₁.children.card = config.workers ∧
        s₁.ready = false ∧ ∃ s₂, step config s₁ e = some s₂ ∧ s₂.phase = .poll ∧ s₂.ready = true := by
  refine ⟨(run_announced hrun).transcript, ?_⟩
  intro earlier e later s₁ k₁ hes hearlier hprinted
  obtain ⟨x, hearlier', hlater⟩ := LabelledMachine.exec_append_eq_some_iff.mp (hes ▸ hrun)
  rw [hearlier, Option.some.injEq] at hearlier'
  subst hearlier'
  simp only [LabelledMachine.exec_cons, Option.bind_eq_some_iff] at hlater
  obtain ⟨y, hboth, -⟩ := hlater
  have hstep : step config s₁ e = some y.1 := (LabelledMachine.sync_eq_some_iff.mp hboth).1
  have htracks := run_tracks hearlier
  rcases printed_of_step (run_announced hearlier).missing (step_cases hstep) with
    ⟨-, hnil⟩ | ⟨⟨hphase, htau, hsize, hpoll⟩, hnot, hready, -⟩
  · exact absurd hnil hprinted
  · refine ⟨hphase, htau, htracks.undrained (by rw [hphase]; rfl), hsize, ?_, hnot, y.1, hstep,
      hpoll, hready⟩
    exact (htracks.card_eq (by rw [hphase]; rfl)).trans hsize

/-- A child that is reaped and replaced: the table is full at the end of two spawn phases. -/
def refilledRun : List Event :=
  [.now 0, .tau, .socketpair (.ok (5, 6)), .fork (.ok 7), .close 6, .now 1, .tau,
    .poll (.ok 1), .recv 7 5 none, .tau, .read none, .clockGettime 2, .tau, .tau,
    .waitpid (some (7, .exited 0)), .close 5, .waitpid none, .tau, .now 3, .tau,
    .socketpair (.ok (5, 6)), .fork (.ok 8), .close 6, .now 4, .tau]

/-- A service that refills its table announces itself once, when it has its first child. -/
theorem ready_announced_once_sample :
    ∃ s k, LabelledMachine.exec (supervised sampleConfig) (initial 0) refilledRun = some (s, k) ∧
      s.workers.size = 1 ∧ transcript sampleConfig 0 refilledRun = [readyLine sampleConfig] ∧
      ∃ s₁ k₁, LabelledMachine.exec (supervised sampleConfig) (initial 0) (refilledRun.take 6) =
          some (s₁, k₁) ∧
        printed sampleConfig s₁ .tau = [readyLine sampleConfig] ∧ k₁.children.card = 1 := by
  obtain ⟨s, k, hrun, hsize, hready⟩ : ∃ s k,
      LabelledMachine.exec (supervised sampleConfig) (initial 0) refilledRun = some (s, k) ∧
        s.workers.size = 1 ∧ s.ready = true := ⟨_, _, rfl, rfl, rfl⟩
  obtain ⟨s₁, k₁, hearlier, hprinted⟩ : ∃ s₁ k₁,
      LabelledMachine.exec (supervised sampleConfig) (initial 0) (refilledRun.take 6) =
          some (s₁, k₁) ∧
        printed sampleConfig s₁ .tau = [readyLine sampleConfig] := ⟨_, _, rfl, rfl⟩
  have hlaws := ready_announced_once sampleConfig 0 refilledRun s k hrun
  obtain ⟨-, -, -, -, hcard, -⟩ := hlaws.2 (refilledRun.take 6) .tau (refilledRun.drop 7) s₁ k₁
    rfl hearlier (by simp [hprinted])
  refine ⟨s, k, hrun, hsize, ?_, s₁, k₁, hearlier, hprinted, hcard⟩
  rw [hlaws.1, hready]
  rfl

end Manager

end Polychrome

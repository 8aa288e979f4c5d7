import Polychrome.Manager.WorkerTable

/-!
# Who is told of a drain

The first {lit}`SIGTERM` or {lit}`SIGINT` begins a drain, and the manager tells its
children by {lit}`SIGUSR1`.

Main results:

- Definition {lit}`Asked`: a run in which a signal begins the drain.
- Theorem {lit}`drain_notifies_all`: the children that are told, in every run.
-/

namespace Polychrome

namespace Manager

/-- The child that a call tells of a drain. -/
def Event.notifies : Event → Option Pid
  | .kill pid .sigusr1 => some pid
  | _ => none

/-- The manager is about to date the drain, or to tell its children. -/
def Phase.notifying : Phase → Bool
  | .drainFirst | .notify _ => true
  | _ => false

/-- In the run a signal asks a manager to end that is not draining yet. -/
structure Asked (config : Config) (t : Instant) (es earlier : List Event) (signal : Signal)
    (later : List Event) (x : State × Kernel) : Prop where
  split : es = earlier ++ .read (some signal) :: later
  run : LabelledMachine.exec (supervised config) (initial t) earlier = some x
  ends : endsService signal = true
  undrained : x.1.draining = none

/-! ## What one step does -/

section Steps

variable {config : Config} {s s' : State} {e : Event}

/-- A pass over the deadlines tells nobody. -/
theorem notifying_enforceNext (config : Config) (s : State) (now : Nat) (pid : Pid)
    (todo : List Pid) (drainExpired : Bool) :
    (s.enforceNext config now pid todo drainExpired).phase.notifying = false := by
  rw [State.enforceNext_phase]
  split <;> rfl

/-- Classifying a worker tells nobody. -/
theorem notifying_classify (s : State) (worker : Worker) (status : WaitStatus) :
    (s.classify worker status).phase.notifying = false := by
  rw [State.classify_phase]
  split <;> rfl

/-- Only the loop over the children tells one of them. -/
theorem phase_of_notifies {pid : Pid} (hs : Step config s e s') (he : e.notifies = some pid) :
    ∃ todo, s.phase = .notify (pid :: todo) := by
  cases hs
  case notified hphase => cases he; exact ⟨_, hphase⟩
  all_goals cases he

/-- Only the first signal leads there. -/
theorem notifying_step (hs : Step config s e s') (hphase : s'.phase.notifying = true) :
    s.phase.notifying = true ∨
      ∃ signal, e = .read (some signal) ∧ endsService signal = true ∧ s.draining = none := by
  cases hs
  case signalFirst signal _ hsignal hdraining => exact Or.inr ⟨signal, rfl, hsignal, hdraining⟩
  case drainFirstDated hphase' => exact Or.inl (by rw [hphase']; rfl)
  case notified hphase' => exact Or.inl (by rw [hphase']; rfl)
  case signalIgnored => exact Or.inl hphase
  case reapUnknown => exact Or.inl hphase
  case stampRead => exact Or.inl hphase
  case enforceCalm => rw [notifying_enforceNext] at hphase; cases hphase
  case enforceDraining => rw [notifying_enforceNext] at hphase; cases hphase
  case reaped => rw [notifying_classify] at hphase; cases hphase
  all_goals cases hphase

/-- A drain is never taken back. -/
theorem draining_step (hs : Step config s e s') (h : s.draining.isSome = true) :
    s'.draining.isSome = true := by
  cases hs
  case pollFailureDated => rfl
  case drainAgainDated => rfl
  case drainFirstDated => rfl
  all_goals simpa using h

/-- The drain is under way, and everybody has been told. -/
structure Quiet (s : State) : Prop where
  draining : s.draining.isSome = true
  told : s.phase.notifying = false

/-- A state in which nobody is told any more stays so. -/
theorem quiet_step (h : Quiet s) (hs : Step config s e s') : Quiet s' ∧ e.notifies = none := by
  refine ⟨⟨draining_step hs h.draining, ?_⟩, ?_⟩
  · by_contra hphase
    rw [Bool.not_eq_false] at hphase
    rcases notifying_step hs hphase with hbefore | ⟨-, -, -, hnone⟩
    · rw [h.told] at hbefore
      cases hbefore
    · have hdraining := h.draining
      rw [hnone] at hdraining
      cases hdraining
  · by_contra hsome
    obtain ⟨pid, hpid⟩ := Option.ne_none_iff_exists'.mp hsome
    obtain ⟨todo, hphase⟩ := phase_of_notifies hs hpid
    have htold := h.told
    rw [hphase] at htold
    cases htold

/-- The first signal is followed by its date. -/
theorem step_of_first {signal : Signal} (hs : Step config s (.read (some signal)) s')
    (hends : endsService signal = true) (hnone : s.draining = none) :
    s.phase = .signals ∧ s' = { s with phase := .drainFirst } := by
  cases hs
  case signalIgnored hsignal => rw [hends] at hsignal; cases hsignal
  case signalAgain hdraining _ => rw [hnone] at hdraining; cases hdraining
  case signalFirst hphase _ _ => exact ⟨hphase, rfl⟩

/-- The first signal to end dates the drain and goes on to tell every worker. -/
theorem step_of_drainFirst (hs : Step config s e s') : s.phase = .drainFirst →
    ∃ t, e = .now t ∧ s'.draining.isSome = true ∧ s'.phase = .notify s.workers.keys := by
  cases hs
  case drainFirstDated t _ => exact fun _ => ⟨t, rfl, rfl, rfl⟩
  all_goals
    have hother := ‹s.phase = _›
    intro hphase
    rw [hother] at hphase
    cases hphase

/-- A turn of the loop over the children, or its end. -/
theorem step_of_notify (hs : Step config s e s') {todo : List Pid} : s.phase = .notify todo →
    (∃ pid rest, todo = pid :: rest ∧ e = .kill pid .sigusr1 ∧ s'.phase = .notify rest) ∨
      (todo = [] ∧ e = .tau ∧ s'.phase = .signals) := by
  cases hs
  case notified pid rest hnow =>
    intro hphase
    cases hnow.symm.trans hphase
    exact Or.inl ⟨pid, rest, rfl, rfl, rfl⟩
  case notifyDone hnow =>
    intro hphase
    cases hnow.symm.trans hphase
    exact Or.inr ⟨rfl, rfl, rfl⟩
  all_goals
    have hother := ‹s.phase = _›
    intro hphase
    rw [hother] at hphase
    cases hphase

/-- The children are told in a drain only. -/
def Dated (s : State) : Prop := ∀ todo, s.phase = .notify todo → s.draining.isSome = true

/-- Every call keeps the drain dated once it has begun. -/
theorem dated_step (h : Dated s) (hs : Step config s e s') : Dated s' := by
  intro todo hphase
  rcases notifying_step hs (by rw [hphase]; rfl) with hbefore | ⟨signal, rfl, hends, hnone⟩
  · cases hnow : s.phase
    case drainFirst =>
      obtain ⟨-, -, hdraining, -⟩ := step_of_drainFirst hs hnow
      exact hdraining
    case notify todo' => exact draining_step hs (h todo' hnow)
    all_goals
      rw [hnow] at hbefore
      cases hbefore
  · rw [(step_of_first hs hends hnone).2] at hphase
    cases hphase

end Steps

/-! ## Whole runs -/

section Runs

variable {config : Config} {x y : State × Kernel} {es : List Event}

/-- No notice is sent in a run from a quiet state. -/
theorem filterMap_notifies_of_quiet (h : Quiet x.1)
    (hrun : LabelledMachine.exec (supervised config) x es = some y) :
    es.filterMap Event.notifies = [] := by
  induction es generalizing x with
  | nil => rfl
  | cons e es ih =>
      obtain ⟨x', hstep, hrest⟩ := Option.bind_eq_some_iff.mp hrun
      obtain ⟨hs, -⟩ := LabelledMachine.sync_eq_some_iff.mp hstep
      obtain ⟨hquiet, hnone⟩ := quiet_step h (step_cases hs)
      rw [List.filterMap_cons, hnone]
      exact ih hquiet hrest

/-- Before a drain nobody is told. -/
theorem filterMap_notifies_of_undrained {t : Instant}
    (hrun : LabelledMachine.exec (supervised config) (initial t) es = some x)
    (hundrained : x.1.draining = none) : es.filterMap Event.notifies = [] := by
  have hinv : Dated x.1 ∧ (x.1.draining = none → es.filterMap Event.notifies = []) := by
    refine LabelledMachine.exec_history_induction
      (P := fun es x => Dated x.1 ∧ (x.1.draining = none → es.filterMap Event.notifies = []))
      ⟨fun todo hphase => (by cases hphase), fun _ => rfl⟩ ?_ hrun
    intro es x e x' _ hkept hstep
    obtain ⟨hdated, hbefore⟩ := hkept
    obtain ⟨hs, -⟩ := LabelledMachine.sync_eq_some_iff.mp hstep
    refine ⟨dated_step hdated (step_cases hs), fun hnone => ?_⟩
    have hnone' : x.1.draining = none := by
      by_contra hsome
      have hlater := draining_step (step_cases hs) (Option.isSome_iff_ne_none.mpr hsome)
      rw [hnone] at hlater
      cases hlater
    have hsilent : e.notifies = none := by
      by_contra hsome
      obtain ⟨pid, hpid⟩ := Option.ne_none_iff_exists'.mp hsome
      obtain ⟨todo, hphase⟩ := phase_of_notifies (step_cases hs) hpid
      have hdraining := hdated _ hphase
      rw [hnone'] at hdraining
      cases hdraining
    rw [List.filterMap_append, hbefore hnone', List.filterMap_cons, hsilent]
    rfl
  exact hinv.2 hundrained

/-- The loop over the children tells them one by one, and nobody is told behind it. -/
theorem notify_run {todo : List Pid} (hphase : x.1.phase = .notify todo)
    (hdraining : x.1.draining.isSome = true)
    (hrun : LabelledMachine.exec (supervised config) x es = some y) :
    ∃ told rest, es = (told.map fun pid => .kill pid .sigusr1) ++ rest ∧ told <+: todo ∧
      (rest ≠ [] → told = todo) ∧ rest.filterMap Event.notifies = [] := by
  induction es generalizing x todo with
  | nil => exact ⟨[], [], rfl, List.nil_prefix, fun h => absurd rfl h, rfl⟩
  | cons e es ih =>
      obtain ⟨x', hstep, hrest⟩ := Option.bind_eq_some_iff.mp hrun
      obtain ⟨hs, -⟩ := LabelledMachine.sync_eq_some_iff.mp hstep
      have hcases := step_cases hs
      have hdraining' := draining_step hcases hdraining
      rcases step_of_notify hcases hphase with ⟨pid, next, rfl, rfl, hnext⟩ | ⟨rfl, rfl, hover⟩
      · obtain ⟨told, rest, rfl, htold, hwhole, hsilent⟩ := ih hnext hdraining' hrest
        refine ⟨pid :: told, rest, rfl, (List.prefix_cons_inj pid).mpr htold, ?_, hsilent⟩
        intro hmore
        rw [hwhole hmore]
      · have hquiet : Quiet x'.1 := ⟨hdraining', by rw [hover]; rfl⟩
        refine ⟨[], .tau :: es, rfl, List.prefix_rfl, fun _ => rfl, ?_⟩
        rw [List.filterMap_cons]
        exact filterMap_notifies_of_quiet hquiet hrest

/-- Without a signal that begins the drain nobody is told. -/
theorem filterMap_notifies_of_unasked {t : Instant}
    (hrun : LabelledMachine.exec (supervised config) (initial t) es = some x)
    (hunasked : ∀ earlier signal later u, ¬ Asked config t es earlier signal later u) :
    es.filterMap Event.notifies = [] := by
  have hinv : (∃ earlier signal later u, Asked config t es earlier signal later u) ∨
      es.filterMap Event.notifies = [] ∧ x.1.phase.notifying = false := by
    refine LabelledMachine.exec_history_induction
      (P := fun es x => (∃ earlier signal later u, Asked config t es earlier signal later u) ∨
        es.filterMap Event.notifies = [] ∧ x.1.phase.notifying = false) (Or.inr ⟨rfl, rfl⟩) ?_ hrun
    intro es x e x' hbefore hkept hstep
    obtain ⟨hs, -⟩ := LabelledMachine.sync_eq_some_iff.mp hstep
    rcases hkept with ⟨earlier, signal, later, u, hasked⟩ | ⟨hsilent, htold⟩
    · refine Or.inl ⟨earlier, signal, later ++ [e], u, ?_, hasked.run, hasked.ends,
        hasked.undrained⟩
      rw [hasked.split, List.append_assoc, List.cons_append]
    · cases hphase : x'.1.phase.notifying with
      | true =>
          rcases notifying_step (step_cases hs) hphase with hnow | ⟨signal, rfl, hends, hnone⟩
          · rw [htold] at hnow
            cases hnow
          · exact Or.inl ⟨es, signal, [], x, rfl, hbefore, hends, hnone⟩
      | false =>
          refine Or.inr ⟨?_, rfl⟩
          have hnone : e.notifies = none := by
            by_contra hsome
            obtain ⟨pid, hpid⟩ := Option.ne_none_iff_exists'.mp hsome
            obtain ⟨todo, hnow⟩ := phase_of_notifies (step_cases hs) hpid
            rw [hnow] at htold
            cases htold
          rw [List.filterMap_append, hsilent, List.filterMap_cons, hnone]
          rfl
  rcases hinv with ⟨earlier, signal, later, u, hasked⟩ | ⟨hsilent, -⟩
  · exact absurd hasked (hunasked earlier signal later u)
  · exact hsilent

/-- What follows the signal that begins the drain. -/
theorem Asked.followed {t : Instant} {earlier later : List Event} {signal : Signal}
    (hasked : Asked config t es earlier signal later x)
    (hrun : LabelledMachine.exec (supervised config) (initial t) es = some y) :
    x.1.phase = .signals ∧
      (later = [] ∨ ∃ date told rest,
        later = .now date :: (told.map fun pid => .kill pid .sigusr1) ++ rest ∧
        told <+: x.1.workers.keys ∧ (rest ≠ [] → told = x.1.workers.keys) ∧
        rest.filterMap Event.notifies = []) := by
  rw [hasked.split] at hrun
  obtain ⟨x', hearlier, hrest⟩ := LabelledMachine.exec_append_eq_some_iff.mp hrun
  cases hasked.run.symm.trans hearlier
  obtain ⟨u, hread, hlater⟩ := Option.bind_eq_some_iff.mp hrest
  obtain ⟨hs, -⟩ := LabelledMachine.sync_eq_some_iff.mp hread
  obtain ⟨hphase, hu⟩ := step_of_first (step_cases hs) hasked.ends hasked.undrained
  refine ⟨hphase, ?_⟩
  cases later with
  | nil => exact Or.inl rfl
  | cons e later =>
      obtain ⟨v, hdate, hafter⟩ := Option.bind_eq_some_iff.mp hlater
      obtain ⟨hs', -⟩ := LabelledMachine.sync_eq_some_iff.mp hdate
      obtain ⟨date, rfl, hdraining, hnotify⟩ := step_of_drainFirst (step_cases hs') (by rw [hu])
      have hworkers : u.1.workers = x.1.workers := by rw [hu]
      rw [hworkers] at hnotify
      obtain ⟨told, rest, rfl, htold, hwhole, hsilent⟩ := notify_run hnotify hdraining hafter
      exact Or.inr ⟨date, told, rest, rfl, htold, hwhole, hsilent⟩

/-- The notices of a block are the workers it goes through. -/
theorem filterMap_notifies_told (told : List Pid) :
    (told.map fun pid => Event.kill pid .sigusr1).filterMap Event.notifies = told := by
  induction told with
  | nil => rfl
  | cons pid told ih =>
      rw [List.map_cons, List.filterMap_cons, ih]
      rfl

end Runs

/-- A drain is announced to every child that is alive when it begins, to each of them once and
in one go, and {lit}`SIGUSR1` is sent for no other reason: not by a drain that a failed poll has
begun, not by a later signal, and not to a child that is forked afterwards. -/
theorem drain_notifies_all (config : Config) (t : Instant) (es : List Event) (s : State)
    (k : Kernel)
    (hrun : LabelledMachine.exec (supervised config) (initial t) es = some (s, k)) :
    ((∀ earlier signal later x, ¬ Asked config t es earlier signal later x) →
      es.filterMap Event.notifies = []) ∧
    ∀ earlier signal later x, Asked config t es earlier signal later x →
      x.1.workers.keys.Nodup ∧ (∀ pid, pid ∈ x.1.workers.keys ↔ pid ∈ x.2.children) ∧
      (later = [] ∧ es.filterMap Event.notifies = [] ∨
        ∃ date told rest, later = .now date :: (told.map fun pid => .kill pid .sigusr1) ++ rest ∧
          es.filterMap Event.notifies = told ∧ told <+: x.1.workers.keys ∧
          (rest ≠ [] → told = x.1.workers.keys)) := by
  refine ⟨filterMap_notifies_of_unasked hrun, ?_⟩
  intro earlier signal later x hasked
  obtain ⟨hphase, hfollowed⟩ := hasked.followed hrun
  have hsilent := filterMap_notifies_of_undrained hasked.run hasked.undrained
  refine ⟨Std.ExtTreeMap.nodup_keys, ?_, ?_⟩
  · intro pid
    have hkeys := (run_tracks hasked.run).laws.keys_eq (by rw [hphase]; rfl) pid
    rw [Std.ExtTreeMap.mem_keys]
    exact hkeys
  · have hes : es.filterMap Event.notifies = later.filterMap Event.notifies := by
      rw [hasked.split, List.filterMap_append, hsilent, List.filterMap_cons]
      rfl
    rcases hfollowed with rfl | ⟨date, told, rest, rfl, htold, hwhole, hrest⟩
    · exact Or.inl ⟨rfl, hes⟩
    · refine Or.inr ⟨date, told, rest, rfl, ?_, htold, hwhole⟩
      have hdate : Event.notifies (.now date) = none := rfl
      rw [hes, List.cons_append, List.filterMap_cons, hdate]
      dsimp only
      rw [List.filterMap_append, filterMap_notifies_told, hrest, List.append_nil]

/-- A terminated service tells its one worker, once. -/
theorem drain_notifies_all_sample :
    ∃ x, Asked sampleConfig 0 sampleRun (sampleRun.take 10) .sigterm (sampleRun.drop 11) x ∧
      x.1.workers.keys.Nodup ∧ sampleRun.filterMap Event.notifies = x.1.workers.keys := by
  obtain ⟨s, k, hrun⟩ : ∃ s k,
      LabelledMachine.exec (supervised sampleConfig) (initial 0) sampleRun = some (s, k) :=
    ⟨_, _, rfl⟩
  have hasked : Asked sampleConfig 0 sampleRun (sampleRun.take 10) .sigterm (sampleRun.drop 11) _ :=
    ⟨rfl, rfl, rfl, rfl⟩
  obtain ⟨hnodup, -, ⟨hnil, -⟩ | ⟨date, told, rest, hlater, htold, -, hwhole⟩⟩ :=
    (drain_notifies_all sampleConfig 0 sampleRun s k hrun).2 _ _ _ _ hasked
  · cases hnil
  · refine ⟨_, hasked, hnodup, htold.trans (hwhole ?_)⟩
    -- The run ends far behind the notification.
    rintro rfl
    have hlengths := congrArg List.length hlater
    have hsent : told = [7] := htold.symm
    simp [hsent, sampleRun] at hlengths

end Manager

end Polychrome

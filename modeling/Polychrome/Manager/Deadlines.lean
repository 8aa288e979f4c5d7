import Polychrome.Manager.WorkerTable

/-!
# The two deadlines of a worker

A worker is killed for one of two reasons: its request has run for the whole
request timeout, or the drain deadline of the manager has passed.  This module
says what the two deadlines are in terms of the system calls a run has made,
without the variables of the loop, and proves that the loop keeps to them.

A pid can be used again once its child is reaped, so the account of a pid
starts anew whenever {lit}`fork` returns it.

Main results:

- Theorem {lit}`run_drain_recorded`: {lit}`draining` is the deadline the drain
  log dates, and theorem {lit}`passed_run`: once it has passed it stays passed.
- Theorem {lit}`run_life_recorded`: a worker's entry in the table is the account
  of its pid.
- Theorem {lit}`enforce_visits`: an enforcement pass visits every worker once
  and kills exactly those whose time is up.
- Theorem {lit}`supervise_keeps_deadlines`: the laws of both deadlines.
-/

namespace Polychrome

namespace Manager

/-! ## The drain deadline -/

/-- The event that the next clock reading dates. -/
inductive Cause
  /-- the signal that starts the drain -/
  | first
  /-- any other end of the grace period -/
  | again
deriving DecidableEq, Repr

/-- What the system calls so far say about the drain. -/
structure DrainLog where
  signalled : Bool
  cause : Option Cause
  deadline : Option Instant
deriving DecidableEq, Repr

/-- Enter one system call; {lit}`opens` decides which termination signal is the
first one. -/
def DrainLog.note (opens : DrainLog → Bool) (log : DrainLog) : Event → DrainLog
  | .read (some signal) =>
      if endsService signal then
        { log with signalled := true, cause := some (if opens log then .first else .again) }
      else log
  | .poll (.error errno) =>
      if errno = eintr then log else { log with cause := some .again }
  | .now t =>
      match log.cause with
      | none => log
      | some .first => { log with cause := none, deadline := some (t + fromSecs 30) }
      | some .again => { log with cause := none, deadline := some t }
  | _ => log

/-- The log before the first system call. -/
def DrainLog.empty : DrainLog := { signalled := false, cause := none, deadline := none }

/-- The drain log of a run: the first signal is the one that finds no deadline. -/
def drainLog (es : List Event) : DrainLog :=
  es.foldl (DrainLog.note fun log => log.deadline.isNone) .empty

/-- The record takes up one call at a time. -/
@[simp]
theorem drainLog_concat (es : List Event) (e : Event) :
    drainLog (es ++ [e]) = (drainLog es).note (fun log => log.deadline.isNone) e := by
  simp [drainLog]

/-- A drain deadline is set and has passed at {lit}`t`. -/
def DrainLog.passed (log : DrainLog) (t : Instant) : Prop :=
  ∃ deadline, log.deadline = some deadline ∧ deadline ≤ t

/-- The date that the next clock reading of this phase goes into. -/
def Phase.cause : Phase → Option Cause
  | .drainFirst => some .first
  | .drainAgain | .pollFailed => some .again
  | _ => none

/-- A pass over the deadlines begins no drain. -/
theorem State.enforceNext_cause (config : Config) (s : State) (now : Nat) (pid : Pid)
    (todo : List Pid) (drainExpired : Bool) :
    (s.enforceNext config now pid todo drainExpired).phase.cause = none := by
  rw [State.enforceNext_phase]
  split <;> rfl

/-- Classifying a worker begins no drain. -/
theorem State.classify_cause (s : State) (worker : Worker) (status : WaitStatus) :
    (s.classify worker status).phase.cause = none := by
  rw [State.classify_phase]
  split <;> rfl

/-- The loop has the drain log in its variables. -/
structure DrainRecorded (log : DrainLog) (s : State) : Prop where
  deadline : s.draining = log.deadline
  cause : s.phase.cause = log.cause

/-- Every call keeps the deadline as the record has it. -/
theorem drain_recorded_step {config : Config} {log : DrainLog} {s s' : State} {e : Event}
    (h : DrainRecorded log s) (hs : Step config s e s') :
    DrainRecorded (log.note (fun log => log.deadline.isNone) e) s' := by
  rcases h with ⟨hdeadline, hcause⟩
  rcases log with ⟨signalled, cause, deadline⟩
  dsimp only at hdeadline hcause
  subst deadline cause
  cases hs
  case signalAgain signal hphase hsignal hdraining =>
    rcases Option.isSome_iff_exists.mp hdraining with ⟨deadline, hdeadline⟩
    constructor <;> simp [DrainLog.note, Phase.cause, hsignal, hdeadline]
  case enforceCalm hphase hdraining =>
    constructor
    · simp [DrainLog.note]
    · rw [State.enforceNext_cause, hphase]
      rfl
  case enforceDraining hphase hdraining =>
    constructor
    · simp [DrainLog.note, Phase.cause, hphase]
    · rw [State.enforceNext_cause]
      simp [DrainLog.note, Phase.cause, hphase]
  case reaped hphase hw =>
    constructor
    · simp [DrainLog.note]
    · rw [State.classify_cause, hphase]
      rfl
  -- The other branches name the phase they lead to.
  all_goals
    constructor <;> simp_all [DrainLog.note, Phase.cause]

/-- {lit}`draining` is the deadline of the log, after every run. -/
theorem run_drain_recorded {config : Config} {t : Instant} {es : List Event} {s : State}
    {k : Kernel}
    (hrun : LabelledMachine.exec (supervised config) (initial t) es = some (s, k)) :
    DrainRecorded (drainLog es) s := by
  refine LabelledMachine.exec_history_induction
    (P := fun es x => DrainRecorded (drainLog es) x.1) ⟨rfl, rfl⟩ ?_ hrun
  intro es x e x' _ hx hstep
  rw [drainLog_concat]
  exact drain_recorded_step hx (step_cases (LabelledMachine.sync_eq_some_iff.mp hstep).1)

/-- The first signal is waiting for its date only as long as no deadline is set. -/
theorem drainLog_first (es : List Event) (hcause : (drainLog es).cause = some .first) :
    (drainLog es).deadline = none := by
  induction es using List.reverseRecOn with
  | nil => rfl
  | append_singleton es e ih =>
      rw [drainLog_concat] at hcause ⊢
      revert hcause
      unfold DrainLog.note
      split
      · split
        · simp
        · exact ih
      · split
        · exact ih
        · simp
      · split <;> simp_all
      · exact ih

/-- A deadline once passed stays passed. -/
theorem DrainLog.passed.mono {log : DrainLog} {t u : Instant} (h : log.passed t)
    (htu : t ≤ u) : log.passed u := by
  rcases h with ⟨deadline, hset, hle⟩
  exact ⟨deadline, hset, hle.trans htu⟩

/-- A deadline that has passed has passed for good: every later one is the
instant at which it is set. -/
theorem passed_step {es : List Event} {k k' : Kernel} {e : Event}
    (h : (drainLog es).passed k.clock) (hk : k.step e = some k') :
    (drainLog (es ++ [e])).passed k'.clock := by
  have hlater : (drainLog es).passed k'.clock := h.mono (Kernel.clock_le hk)
  rcases h with ⟨deadline, hset, -⟩
  rw [drainLog_concat]
  unfold DrainLog.note
  split
  · split
    · exact hlater
    · exact hlater
  · split
    · exact hlater
    · exact hlater
  · split
    · exact hlater
    case h_2 hcause => simp [drainLog_first es hcause] at hset
    case h_3 t _ _ => exact ⟨t, rfl, (Kernel.clock_now hk).ge⟩
  · exact hlater

/-- A deadline passed before a run is passed behind it. -/
theorem passed_run {config : Config} {es fs : List Event} {x y : State × Kernel}
    (hpassed : (drainLog es).passed x.2.clock)
    (hrun : LabelledMachine.exec (supervised config) x fs = some y) :
    (drainLog (es ++ fs)).passed y.2.clock := by
  refine LabelledMachine.exec_history_induction
    (P := fun fs y => (drainLog (es ++ fs)).passed y.2.clock) (by simpa using hpassed) ?_ hrun
  intro fs y e y' _ hy hstep
  rw [← List.append_assoc]
  exact passed_step hy (LabelledMachine.sync_eq_some_iff.mp hstep).2

/-! ## The account of a pid -/

/-- The stamps read and the kills sent since the child with this pid was forked. -/
structure Life where
  stamps : List Nat
  kills : Nat
deriving DecidableEq, Repr

/-- The account of a child that has just been forked. -/
def Life.empty : Life := { stamps := [], kills := 0 }

/-- Enter one system call into the account of {lit}`pid`. -/
def Life.note (pid : Pid) (life : Life) : Event → Life
  | .fork (.ok pid') => if pid' = pid then .empty else life
  | .recv pid' _ (some stamp) =>
      if pid' = pid then { life with stamps := life.stamps ++ [stamp] } else life
  | .kill pid' .sigkill => if pid' = pid then { life with kills := life.kills + 1 } else life
  | _ => life

/-- The account of {lit}`pid` after a run. -/
def life (pid : Pid) (es : List Event) : Life := es.foldl (Life.note pid) .empty

/-- The record of a worker takes up one call at a time. -/
@[simp]
theorem life_concat (pid : Pid) (es : List Event) (e : Event) :
    life pid (es ++ [e]) = (life pid es).note pid e := by
  simp [life]

/-- The request has run for the whole timeout, counted from its first stamp. -/
def Life.expired (config : Config) (life : Life) (now : Nat) : Prop :=
  ∃ first, life.stamps.head? = some first ∧ first + fromSecs config.timeout ≤ now

/-- The request timeout that {lit}`parse` lets through fits into 64 bits. -/
theorem timeoutNanos_eq {config : Config} (htimeout : config.timeout ≤ 86400) :
    timeoutNanos config = fromSecs config.timeout := by
  unfold timeoutNanos fromSecs
  exact Nat.mod_eq_of_lt (by omega)

/-- The saturating subtraction does no harm to a timeout that is not zero. -/
theorem Worker.expired_iff {config : Config} {now : Nat} {w : Worker} {life : Life}
    (htimeout : 1 ≤ config.timeout ∧ config.timeout ≤ 86400)
    (hstarted : w.started = life.stamps.head?) :
    w.expired config now = true ↔ life.expired config now := by
  have hpos : 0 < fromSecs config.timeout := by
    unfold fromSecs
    omega
  unfold Worker.expired Life.expired
  rw [hstarted, timeoutNanos_eq htimeout.2]
  cases life.stamps.head? with
  | none => simp
  | some first =>
      simp only [decide_eq_true_eq, Option.some.injEq, exists_eq_left']
      omega

/-- The table has the account of {lit}`pid` in its entry, and a kill that is
under way is due. -/
structure LifeRecorded (config : Config) (pid : Pid) (life : Life) (s : State)
    (k : Kernel) : Prop where
  entry : ∀ w, s.workers[pid]? = some w →
    w.started = life.stamps.head? ∧ (w.killed = true ↔ life.kills ≠ 0)
  fresh : s.phase.spawning = some pid → life = .empty
  once : life.kills ≤ 1
  due : ∀ now todo, s.phase = .terminate now pid todo →
    life.kills = 0 ∧
      (life.expired config now ∨ ∃ deadline, s.draining = some deadline ∧ deadline ≤ k.clock)

/-- What the enforcement pass tests, in terms of the account. -/
theorem LifeRecorded.mustTerminate_iff {config : Config} {pid : Pid} {life : Life} {s : State}
    {k : Kernel} (htimeout : 1 ≤ config.timeout ∧ config.timeout ≤ 86400)
    (h : LifeRecorded config pid life s k) (now : Nat) (drainExpired : Bool) :
    mustTerminate config s now pid drainExpired = true ↔
      pid ∈ s.workers ∧ life.kills = 0 ∧ (life.expired config now ∨ drainExpired = true) := by
  unfold mustTerminate
  cases hw : s.workers[pid]? with
  | none =>
      have hnot : pid ∉ s.workers := by
        rw [Std.ExtTreeMap.mem_iff_isSome_getElem?, hw]
        simp
      simp [hnot]
  | some w =>
      have hmem : pid ∈ s.workers := by
        rw [Std.ExtTreeMap.mem_iff_isSome_getElem?, hw]
        rfl
      rcases h.entry w hw with ⟨hstarted, hkilled⟩
      simp [hmem, hkilled, ← Worker.expired_iff htimeout hstarted, ← Bool.not_eq_true]

/-- A step that neither forks, reads a stamp nor kills, and keeps the table. -/
theorem LifeRecorded.quiet {config : Config} {pid : Pid} {life : Life} {s s' : State}
    {k k' : Kernel} (h : LifeRecorded config pid life s k)
    (hworkers : s'.workers = s.workers)
    (hspawning : s'.phase.spawning = s.phase.spawning)
    (hphase : ∀ now todo, s'.phase ≠ .terminate now pid todo) :
    LifeRecorded config pid life s' k' where
  entry := by
    rw [hworkers]
    exact h.entry
  fresh := by
    rw [hspawning]
    exact h.fresh
  once := h.once
  due now todo hterminate := absurd hterminate (hphase now todo)

/-- The account starts with the child: its pid is not in the table yet. -/
theorem LifeRecorded.forked {config : Config} {pid pid' : Pid} {life : Life} {s : State}
    {k k' : Kernel} (h : LifeRecorded config pid life s k) (htracks : Tracks config s k)
    {parent child : RawFd} (hk : k.step (.fork (.ok pid')) = some k') :
    LifeRecorded config pid (life.note pid (.fork (.ok pid')))
      { s with phase := .closeChild pid' parent child } k' := by
  by_cases hpid : pid' = pid
  · subst hpid
    have hnew : pid' ∉ s.workers := by
      intro hmem
      have hchild : pid' ∈ k.children := (htracks.children pid').mpr (Or.inl hmem)
      simp [Kernel.step, hchild] at hk
    have hnone : s.workers[pid']? = none := Std.ExtTreeMap.getElem?_eq_none hnew
    constructor <;> simp [Life.note, Life.empty, hnone]
  · have hlife : life.note pid (.fork (.ok pid')) = life := by simp [Life.note, hpid]
    rw [hlife]
    constructor
    · exact h.entry
    · simp [Phase.spawning, hpid]
    · exact h.once
    · simp

/-- The new entry is the account of a child that has done nothing yet. -/
theorem LifeRecorded.inserted {config : Config} {pid pid' : Pid} {life : Life} {s : State}
    {k k' : Kernel} (h : LifeRecorded config pid life s k) {parent : RawFd} {t : Instant}
    (hphase : s.phase = .born pid' parent) :
    LifeRecorded config pid life { s.insertWorker pid' parent t with phase := .spawnTest } k' := by
  constructor
  · intro w hw
    rw [State.insertWorker, Std.ExtTreeMap.getElem?_insert] at hw
    split at hw
    case isTrue heq =>
      have hpid : pid' = pid := by simpa using heq
      have hlife : life = .empty := h.fresh (by simp [hphase, Phase.spawning, hpid])
      cases hw
      simp [hlife, Life.empty]
    case isFalse => exact h.entry w hw
  · simp [Phase.spawning]
  · exact h.once
  · simp

/-- A stamp is kept in the entry only when it is the first one. -/
theorem LifeRecorded.stampRead {config : Config} {pid pid' : Pid} {life : Life} {s : State}
    {k : Kernel} (h : LifeRecorded config pid life s k) {todo : List Pid} {fd : RawFd}
    {stamp : Nat} (hphase : s.phase = .stamps (pid' :: todo)) :
    LifeRecorded config pid (life.note pid (.recv pid' fd (some stamp)))
      { s with workers := s.workers.modify pid' (Worker.noteStamp stamp) } k := by
  by_cases hpid : pid' = pid
  · subst hpid
    have hlife : life.note pid' (.recv pid' fd (some stamp)) =
        { life with stamps := life.stamps ++ [stamp] } := by simp [Life.note]
    rw [hlife]
    constructor
    · intro w hw
      rw [Std.ExtTreeMap.getElem?_modify_self] at hw
      rcases Option.map_eq_some_iff.mp hw with ⟨old, hold, rfl⟩
      rcases h.entry old hold with ⟨hstarted, hkilled⟩
      refine ⟨?_, hkilled⟩
      simp only [Worker.noteStamp, hstarted, List.head?_append, List.head?_cons]
      cases life.stamps.head? <;> rfl
    · simp [hphase, Phase.spawning]
    · exact h.once
    · simp [hphase]
  · have hlife : life.note pid (.recv pid' fd (some stamp)) = life := by
      simp [Life.note, hpid]
    rw [hlife]
    constructor
    · intro w hw
      rw [Std.ExtTreeMap.getElem?_modify, if_neg (by simpa using hpid)] at hw
      exact h.entry w hw
    · simp [hphase, Phase.spawning]
    · exact h.once
    · simp [hphase]

/-- The kill is entered on both sides, and it was the first. -/
theorem LifeRecorded.terminated {config : Config} {pid pid' : Pid} {life : Life} {s : State}
    {k : Kernel} (h : LifeRecorded config pid life s k) {now : Nat} {todo : List Pid}
    (hphase : s.phase = .terminate now pid' todo) :
    LifeRecorded config pid (life.note pid (.kill pid' .sigkill))
      { s with
        workers := s.workers.modify pid' Worker.markKilled
        phase := .enforce now todo } k := by
  by_cases hpid : pid' = pid
  · subst hpid
    have hlife : life.note pid' (.kill pid' .sigkill) = { life with kills := life.kills + 1 } := by
      simp [Life.note]
    have hkills : life.kills = 0 := (h.due now todo hphase).1
    rw [hlife]
    constructor
    · intro w hw
      rw [Std.ExtTreeMap.getElem?_modify_self] at hw
      rcases Option.map_eq_some_iff.mp hw with ⟨old, hold, rfl⟩
      exact ⟨(h.entry old hold).1, by simp [Worker.markKilled]⟩
    · simp [Phase.spawning]
    · simp [hkills]
    · simp
  · have hlife : life.note pid (.kill pid' .sigkill) = life := by simp [Life.note, hpid]
    rw [hlife]
    constructor
    · intro w hw
      rw [Std.ExtTreeMap.getElem?_modify, if_neg (by simpa using hpid)] at hw
      exact h.entry w hw
    · simp [Phase.spawning]
    · exact h.once
    · simp

/-- A worker is passed on to {lit}`kill` only when its time is up. -/
theorem LifeRecorded.enforced {config : Config} {pid pid' : Pid} {life : Life} {s : State}
    {k k' : Kernel} (htimeout : 1 ≤ config.timeout ∧ config.timeout ≤ 86400)
    (h : LifeRecorded config pid life s k) {now : Nat} {todo : List Pid} {drainExpired : Bool}
    (hphase : s.phase = .enforce now (pid' :: todo))
    (hdrain : drainExpired = true → ∃ deadline, s.draining = some deadline ∧ deadline ≤ k'.clock) :
    LifeRecorded config pid life (s.enforceNext config now pid' todo drainExpired) k' := by
  constructor
  · simpa using h.entry
  · rw [State.enforceNext_phase]
    split <;> simp [Phase.spawning]
  · exact h.once
  · intro now' todo' hterminate
    rw [State.enforceNext_phase] at hterminate
    split at hterminate
    case isTrue hmust =>
      cases hterminate
      rcases (h.mustTerminate_iff htimeout _ _).mp hmust with ⟨-, hkills, hup⟩
      exact ⟨hkills, hup.imp id fun hexpired => by simpa using hdrain hexpired⟩
    case isFalse => cases hterminate

/-- Every call keeps the entry of a worker as its record has it. -/
theorem life_recorded_step {config : Config}
    (htimeout : 1 ≤ config.timeout ∧ config.timeout ≤ 86400) {pid : Pid} {life : Life}
    {s s' : State} {k k' : Kernel} {e : Event} (h : LifeRecorded config pid life s k)
    (htracks : Tracks config s k) (hs : Step config s e s') (hk : k.step e = some k') :
    LifeRecorded config pid (life.note pid e) s' k' := by
  cases hs
  case forked hphase => exact h.forked htracks hk
  case inserted hphase => exact h.inserted hphase
  case stampRead hphase hw =>
    obtain rfl : k = k' := by simpa [Kernel.step] using hk
    exact h.stampRead hphase
  case terminated hphase =>
    obtain rfl : k = k' := by simpa [Kernel.step] using hk
    exact h.terminated hphase
  case enforceCalm hphase hdraining => exact h.enforced htimeout hphase (by simp)
  case enforceDraining t deadline hphase hdraining =>
    apply h.enforced htimeout hphase
    intro hexpired
    exact ⟨deadline, hdraining, by simpa [Kernel.clock_now hk] using hexpired⟩
  case reaped pid' status w hphase hw =>
    constructor
    · intro w' hw'
      simp only [State.classify_fields, Std.ExtTreeMap.getElem?_erase] at hw'
      split at hw'
      · cases hw'
      · exact h.entry w' hw'
    · rw [State.classify_phase]
      split <;> simp [Phase.spawning]
    · exact h.once
    · rw [State.classify_phase]
      split <;> simp
  -- The other branches keep the table and enter nothing.
  all_goals
    refine h.quiet ?_ ?_ ?_
    all_goals simp_all [Phase.spawning]

/-- The table keeps the account of every pid, after every run. -/
theorem run_life_recorded {config : Config}
    (htimeout : 1 ≤ config.timeout ∧ config.timeout ≤ 86400) {t : Instant} {es : List Event}
    {s : State} {k : Kernel} (pid : Pid)
    (hrun : LabelledMachine.exec (supervised config) (initial t) es = some (s, k)) :
    LifeRecorded config pid (life pid es) s k := by
  refine LabelledMachine.exec_history_induction
    (P := fun es x => LifeRecorded config pid (life pid es) x.1 x.2) ?_ ?_ hrun
  · constructor <;> simp [initial, start, life, Life.empty]
  · intro es x e x' hprefix hx hstep
    rcases LabelledMachine.sync_eq_some_iff.mp hstep with ⟨hs, hk⟩
    rw [life_concat]
    exact life_recorded_step htimeout hx (run_tracks hprefix) (step_cases hs) hk

/-- The first stamp of a child is there to stay. -/
theorem life_first_stamp {pid : Pid} {es fs : List Event} {first : Nat}
    (hfirst : (life pid es).stamps.head? = some first) (hfork : .fork (.ok pid) ∉ fs) :
    (life pid (es ++ fs)).stamps.head? = some first := by
  induction fs using List.reverseRecOn with
  | nil => simpa using hfirst
  | append_singleton fs e ih =>
      rw [List.mem_append, not_or] at hfork
      have hkept := ih hfork.1
      rw [← List.append_assoc, life_concat]
      unfold Life.note
      split
      · split
        case isTrue heq =>
          subst heq
          simp at hfork
        case isFalse => exact hkept
      · split
        · simp [List.head?_append, hkept]
        · exact hkept
      · split <;> exact hkept
      · exact hkept

/-! ## The enforcement pass -/

/-- The loop stands between the clock reading of an enforcement pass and its end. -/
def Phase.enforcing : Phase → Bool
  | .enforce _ _ | .terminate _ _ _ => true
  | _ => false

/-- What an enforcement pass does with one worker: the clock is read only while
the manager drains, and the kill may be left out. -/
structure Visit where
  pid : Pid
  reading : Option Instant
  sent : Bool
deriving DecidableEq, Repr

/-- The system calls of one visit. -/
def Visit.events (v : Visit) : List Event :=
  (match v.reading with
    | none => .tau
    | some t => .now t) :: if v.sent then [.kill v.pid .sigkill] else []

/-- {lit}`draining.is_some_and(|deadline| Instant::now() >= deadline)` -/
def Visit.drainExpired (draining : Option Instant) (v : Visit) : Bool :=
  match draining, v.reading with
  | some deadline, some t => decide (deadline ≤ t)
  | _, _ => false

/-- A pass that is carried through makes a next system call. -/
theorem enforcing_exec_cons {config : Config} {s u : State} {es : List Event}
    (henforcing : s.phase.enforcing = true) (hleft : u.phase.enforcing = false)
    (hrun : LabelledMachine.exec (step config) s es = some u) :
    ∃ e fs s', es = e :: fs ∧ Step config s e s' ∧
      LabelledMachine.exec (step config) s' fs = some u := by
  cases es with
  | nil =>
      simp only [LabelledMachine.exec_nil, Option.some.injEq] at hrun
      rw [hrun, hleft] at henforcing
      cases henforcing
  | cons e fs =>
      simp only [LabelledMachine.exec_cons, Option.bind_eq_some_iff] at hrun
      rcases hrun with ⟨s', hstep, hrest⟩
      exact ⟨e, fs, s', rfl, step_cases hstep, hrest⟩

/-- The end of a visit, behind the test: the kill follows exactly when it has to. -/
theorem enforceNext_exec {config : Config} {s u : State} {now : Nat} {pid : Pid}
    {todo : List Pid} {drainExpired : Bool} {es : List Event}
    (hleft : u.phase.enforcing = false)
    (hrun : LabelledMachine.exec (step config) (s.enforceNext config now pid todo drainExpired)
      es = some u) :
    ∃ (s₁ : State) (fs : List Event),
      es = (if mustTerminate config s now pid drainExpired then [.kill pid .sigkill] else []) ++
        fs ∧
      LabelledMachine.exec (step config) s₁ fs = some u ∧ s₁.phase = .enforce now todo ∧
      s₁.draining = s.draining ∧ ∀ p, p ≠ pid → s₁.workers[p]? = s.workers[p]? := by
  by_cases hmust : mustTerminate config s now pid drainExpired = true
  · rw [State.enforceNext, if_pos hmust] at hrun
    rcases enforcing_exec_cons rfl hleft hrun with ⟨e, fs, s', rfl, hs, hrest⟩
    cases hs
    case terminated hphase =>
      cases hphase
      refine ⟨_, fs, by simp [hmust], hrest, rfl, rfl, ?_⟩
      intro p hp
      simp [Std.ExtTreeMap.getElem?_modify, Ne.symm hp]
    all_goals simp_all
  · rw [State.enforceNext, if_neg hmust] at hrun
    exact ⟨_, es, by simp [hmust], hrun, rfl, rfl, fun p _ => rfl⟩

/-- The first visit of a pass that is carried through: the worker is killed if
and only if it has to be, and the other workers stay as they are. -/
theorem enforce_visit {config : Config} {s u : State} {now : Nat} {pid : Pid} {todo : List Pid}
    {es : List Event} (hphase : s.phase = .enforce now (pid :: todo))
    (hrun : LabelledMachine.exec (step config) s es = some u) (hleft : u.phase.enforcing = false) :
    ∃ (v : Visit) (s₁ : State) (fs : List Event), v.pid = pid ∧ es = v.events ++ fs ∧
      v.reading.isSome = s.draining.isSome ∧
      v.sent = mustTerminate config s now pid (v.drainExpired s.draining) ∧
      LabelledMachine.exec (step config) s₁ fs = some u ∧ s₁.phase = .enforce now todo ∧
      s₁.draining = s.draining ∧ ∀ p, p ≠ pid → s₁.workers[p]? = s.workers[p]? := by
  rcases enforcing_exec_cons (by rw [hphase]; rfl) hleft hrun with ⟨e, fs, s', rfl, hs, hrest⟩
  cases hs
  case enforceCalm hphase' hdraining =>
    cases hphase.symm.trans hphase'
    rcases enforceNext_exec hleft hrest with ⟨s₁, gs, rfl, hrun₁, hphase₁, hdraining₁, hother⟩
    refine ⟨⟨pid, none, mustTerminate config s now pid false⟩, s₁, gs, rfl, rfl, ?_, ?_, hrun₁,
      hphase₁, hdraining₁, hother⟩
    · simp [hdraining]
    · simp [Visit.drainExpired, hdraining]
  case enforceDraining t deadline hphase' hdraining =>
    cases hphase.symm.trans hphase'
    rcases enforceNext_exec hleft hrest with ⟨s₁, gs, rfl, hrun₁, hphase₁, hdraining₁, hother⟩
    refine ⟨⟨pid, some t, mustTerminate config s now pid (decide (deadline ≤ t))⟩, s₁, gs, rfl, rfl,
      ?_, ?_, hrun₁, hphase₁, hdraining₁, hother⟩
    · simp [hdraining]
    · simp [Visit.drainExpired, hdraining]
  all_goals simp_all

/-- A pass that is carried through visits its workers one after the other. -/
theorem enforce_visits {config : Config} {s u : State} {now : Nat} {todo : List Pid}
    {es : List Event} (hnodup : todo.Nodup) (hphase : s.phase = .enforce now todo)
    (hrun : LabelledMachine.exec (step config) s es = some u) (hleft : u.phase.enforcing = false) :
    ∃ (visits : List Visit) (fs : List Event), visits.map Visit.pid = todo ∧
      es = visits.flatMap Visit.events ++ .tau :: fs ∧
      ∀ v ∈ visits, v.reading.isSome = s.draining.isSome ∧
        v.sent = mustTerminate config s now v.pid (v.drainExpired s.draining) := by
  induction todo generalizing s es with
  | nil =>
      rcases enforcing_exec_cons (by rw [hphase]; rfl) hleft hrun with ⟨e, fs, s', rfl, hs, -⟩
      cases hs
      case enforceDone => exact ⟨[], fs, rfl, rfl, by simp⟩
      all_goals simp_all
  | cons pid todo ih =>
      rcases enforce_visit hphase hrun hleft with
        ⟨v, s₁, fs, hpid, rfl, hreading, hsent, hrun₁, hphase₁, hdraining₁, hother⟩
      rw [List.nodup_cons] at hnodup
      rcases ih hnodup.2 hphase₁ hrun₁ with ⟨visits, gs, hvisits, rfl, hall⟩
      refine ⟨v :: visits, gs, by simp [hpid, hvisits], by simp, ?_⟩
      intro w hw
      rcases List.mem_cons.mp hw with rfl | hw
      · exact ⟨hreading, hpid ▸ hsent⟩
      · -- The worker visited later is not the one that may have been marked.
        have hne : w.pid ≠ pid := by
          rintro rfl
          exact hnodup.1 (hvisits ▸ List.mem_map_of_mem hw)
        rcases hall w hw with ⟨hreading', hsent'⟩
        rw [hdraining₁] at hreading' hsent'
        refine ⟨hreading', hsent'.trans ?_⟩
        unfold mustTerminate
        rw [hother w.pid hne]

/-- A visit finds the drain over exactly if its reading is behind the deadline. -/
theorem Visit.drainExpired_iff {log : DrainLog} {v : Visit} :
    v.drainExpired log.deadline = true ↔ ∃ t, v.reading = some t ∧ log.passed t := by
  unfold Visit.drainExpired DrainLog.passed
  cases log.deadline <;> cases v.reading <;> simp

/-! ## The laws of the deadlines -/

/-- A pass over {lit}`workers` that has read the clock as {lit}`ns` after the
run {lit}`begun` visits each worker once.  It sends the kill exactly to those
that were not killed before and that have either used up the request timeout or
are found behind the drain deadline. -/
def PassKeepsDeadlines (config : Config) (begun : List Event) (ns : Nat) (workers : List Pid)
    (pass : List Event) : Prop :=
  ∃ (visits : List Visit) (after : List Event), visits.map Visit.pid = workers ∧
    pass = visits.flatMap Visit.events ++ .tau :: after ∧
    ∀ v ∈ visits,
      (v.reading.isSome ↔ (drainLog begun).deadline.isSome) ∧
      (v.sent ↔ (life v.pid begun).kills = 0 ∧
        ((life v.pid begun).expired config ns ∨
          ∃ t, v.reading = some t ∧ (drainLog begun).passed t))

/-- One pass over the table kills exactly those whose deadline has passed. -/
theorem enforcement_pass {config : Config}
    (htimeout : 1 ≤ config.timeout ∧ config.timeout ≤ 86400) {t : Instant}
    {begun pass : List Event} {ns : Nat} {s u : State} {k m : Kernel}
    (hbegun : LabelledMachine.exec (supervised config) (initial t) begun = some (s, k))
    (hrun : LabelledMachine.exec (supervised config) (s, k) (.clockGettime ns :: pass) =
      some (u, m))
    (hleft : u.phase.enforcing = false) :
    PassKeepsDeadlines config begun ns s.workers.keys pass := by
  have hmanager := (LabelledMachine.exec_sync_iff.mp hrun).1
  simp only [LabelledMachine.exec_cons, Option.bind_eq_some_iff] at hmanager
  rcases hmanager with ⟨s', hfirst, hrest⟩
  have hstarted : s' = { s with phase := .enforce ns s.workers.keys } := by
    cases step_cases hfirst
    rfl
  subst hstarted
  rcases enforce_visits Std.ExtTreeMap.nodup_keys rfl hrest hleft with
    ⟨visits, after, hvisits, hsplit, hall⟩
  refine ⟨visits, after, hvisits, hsplit, ?_⟩
  intro v hv
  have hdraining : s.draining = (drainLog begun).deadline := (run_drain_recorded hbegun).deadline
  have hmem : v.pid ∈ s.workers := by
    rw [← Std.ExtTreeMap.mem_keys, ← hvisits]
    exact List.mem_map_of_mem hv
  rcases hall v hv with ⟨hreading, hsent⟩
  dsimp only at hreading hsent
  rw [hdraining] at hreading hsent
  constructor
  · rw [hreading]
  · rw [hsent, ← Visit.drainExpired_iff]
    have hmust := (run_life_recorded htimeout v.pid hbegun).mustTerminate_iff htimeout ns
      (v.drainExpired (drainLog begun).deadline)
    exact hmust.trans (and_iff_right hmem)

/-- What a run {lit}`es` that ends in {lit}`s` says about the two deadlines.

Between them, {lit}`kill_due` and {lit}`pass` account for every {lit}`SIGKILL`
of the run: only an enforcement pass sends it, and {lit}`pass` says to whom. -/
structure DeadlineLaws (config : Config) (t : Instant) (es : List Event) (s : State)
    (k : Kernel) : Prop where
  killed_once : ∀ pid, (life pid es).kills ≤ 1
  kill_due : ∀ pid, (step config s (.kill pid .sigkill)).isSome →
    s.phase.enforcing = true ∧ (life pid es).kills = 0 ∧
      ((life pid es).stamps = [] → (drainLog es).passed k.clock)
  pass : ∀ begun ns rest s₁ k₁, es = begun ++ .clockGettime ns :: rest →
    LabelledMachine.exec (supervised config) (initial t) begun = some (s₁, k₁) →
    s.phase.enforcing = false → PassKeepsDeadlines config begun ns s₁.workers.keys rest
  first_stamp : ∀ earlier later pid first, es = earlier ++ later →
    (life pid earlier).stamps.head? = some first → .fork (.ok pid) ∉ later →
    (life pid es).stamps.head? = some first
  stays_passed : ∀ earlier later s₁ k₁, es = earlier ++ later →
    LabelledMachine.exec (supervised config) (initial t) earlier = some (s₁, k₁) →
    (drainLog earlier).passed k₁.clock → (drainLog es).passed k.clock

/-- Every run of {lit}`supervise` keeps the laws of the deadlines. -/
theorem supervise_keeps_deadlines (config : Config)
    (htimeout : 1 ≤ config.timeout ∧ config.timeout ≤ 86400) (t : Instant) (es : List Event)
    (s : State) (k : Kernel)
    (hrun : LabelledMachine.exec (supervised config) (initial t) es = some (s, k)) :
    DeadlineLaws config t es s k where
  killed_once pid := (run_life_recorded htimeout pid hrun).once
  kill_due pid hsome := by
    rcases Option.isSome_iff_exists.mp hsome with ⟨s', hs⟩
    have hphase : ∃ now todo, s.phase = .terminate now pid todo := by
      cases step_cases hs
      case terminated hphase => exact ⟨_, _, hphase⟩
    rcases hphase with ⟨now, todo, hphase⟩
    rcases (run_life_recorded htimeout pid hrun).due now todo hphase with ⟨hkills, hup⟩
    refine ⟨by rw [hphase]; rfl, hkills, ?_⟩
    intro hunstamped
    rcases hup with ⟨first, hfirst, -⟩ | hpassed
    · simp [hunstamped] at hfirst
    · rwa [(run_drain_recorded hrun).deadline] at hpassed
  pass begun ns rest s₁ k₁ hes hbegun hleft := by
    rw [hes, LabelledMachine.exec_append, hbegun] at hrun
    exact enforcement_pass htimeout hbegun hrun hleft
  first_stamp earlier later pid first hes hfirst hfork := by
    rw [hes]
    exact life_first_stamp hfirst hfork
  stays_passed earlier later s₁ k₁ hes hearlier hpassed := by
    rw [hes, LabelledMachine.exec_append, hearlier] at hrun
    rw [hes]
    exact passed_run hpassed hrun

/-- A worker whose request outlives the timeout, up to the pass that finds out. -/
def slowRequest : List Event :=
  [.now 0, .tau, .socketpair (.ok (5, 6)), .fork (.ok 7), .close 6, .now 1, .tau, .poll (.ok 1),
    .recv 7 5 (some 2), .recv 7 5 (some 9), .recv 7 5 none, .tau, .read none]

/-- A request that takes thirty seconds and more has its worker killed in the next pass. -/
theorem supervise_keeps_deadlines_sample :
    (∃ s k, LabelledMachine.exec (supervised sampleConfig) (initial 0)
      (slowRequest ++ [.clockGettime 30000000002, .tau, .kill 7 .sigkill, .tau]) = some (s, k)) ∧
      PassKeepsDeadlines sampleConfig slowRequest 30000000002 [7]
        [.tau, .kill 7 .sigkill, .tau] := by
  refine ⟨⟨_, _, rfl⟩, ?_⟩
  exact (supervise_keeps_deadlines sampleConfig ⟨by decide, by decide⟩ 0
    (slowRequest ++ [.clockGettime 30000000002, .tau, .kill 7 .sigkill, .tau]) _ _ rfl).pass
    slowRequest 30000000002 _ _ _ rfl rfl rfl

/-- The drain log of a manager that would give the first signal its grace period
even when a failed poll has begun the drain. -/
def graceDrainLog (es : List Event) : DrainLog :=
  es.foldl (DrainLog.note fun log => !log.signalled) .empty

/-- A worker that has accepted nothing; the poll fails, then the first signal
arrives. -/
def failedPoll : List Event :=
  [.now 0, .tau, .socketpair (.ok (5, 6)), .fork (.ok 7), .close 6, .now 1, .tau,
    .poll (.error 12), .now 2, .recv 7 5 none, .tau, .read (some .sigterm), .now 3, .read none,
    .clockGettime 3, .now 4]

/-- After a failed poll the first signal does not open a grace period: the idle
worker is killed 30 seconds early. -/
theorem first_signal_after_failed_poll :
    ∃ s k s', LabelledMachine.exec (supervised sampleConfig) (initial 0) failedPoll = some (s, k) ∧
      step sampleConfig s (.kill 7 .sigkill) = some s' ∧
      (life 7 failedPoll).stamps = [] ∧
      (graceDrainLog failedPoll).deadline = some (3 + fromSecs 30) ∧
      ¬ (graceDrainLog failedPoll).passed k.clock := by
  refine ⟨_, _, _, rfl, rfl, rfl, rfl, ?_⟩
  rintro ⟨deadline, hset, hle⟩
  cases hset
  exact absurd hle (by decide)

end Manager

end Polychrome

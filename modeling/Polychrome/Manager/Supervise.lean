import Mathlib.Data.Finset.Basic
import Std.Data.ExtTreeMap
import Polychrome.Config
import Polychrome.Library.LabelledMachine

/-!
# The supervisor loop

This module embeds {lit}`supervise` and {lit}`spawn` of the manager.  The code
between two system calls is one step of a labelled machine, and the label is
the system call together with the kernel's answer, so any number of child
exits, signals and failures can fall between two calls.  Reading the clock is
such a call; {lit}`Event.tau` is a branch that makes no call.  Of the lines written to
stderr the one that says that the service is ready is modelled.

The kernel's side is a second machine over the same labels.  It remembers the
children that were forked and not yet waited for and the latest clock reading,
and refuses the answers no kernel gives: a pid still in use, a reaped stranger,
a clock that runs backwards.

Main results:

- Definition {lit}`step`: one system call of the manager.
- Definition {lit}`supervised`: the manager run against the kernel.
- Inductive {lit}`Step` and theorem {lit}`step_cases`: what one step can do,
  one named case for each branch of the source.

Current gaps:

- Writing to stderr is assumed to succeed, and {lit}`getpid` is not a label.
- The diagnostics about children, failed spawns and the drain are left out.
-/

namespace Polychrome

/-- A process id, positive and therefore a natural number. -/
abbrev Pid := Nat

/-- A file descriptor. -/
abbrev RawFd := Nat

/-- A point of the monotonic clock, in nanoseconds. -/
abbrev Instant := Nat

/-- An {lit}`errno` value. -/
abbrev Errno := Nat

/-- {lit}`EINTR` -/
def eintr : Errno := 4

/-- {lit}`Duration::from_millis`, in nanoseconds. -/
def fromMillis (n : Nat) : Nat := 1000000 * n

/-- {lit}`Duration::from_secs`, in nanoseconds. -/
def fromSecs (n : Nat) : Nat := 1000000000 * n

/-- The signals the manager and its children tell apart. -/
inductive Signal
  | sigchld
  | sigterm
  | sigint
  | sigusr1
  | sigkill
  | other (number : Nat)
deriving DecidableEq, Repr

/-- How a child ended, as {lit}`waitpid` reports it. -/
inductive WaitStatus
  | exited (code : Nat)
  | signaled (signal : Signal)
deriving DecidableEq, Repr

/-- {lit}`!WIFEXITED(status) || WEXITSTATUS(status) != 0` -/
def WaitStatus.abnormal : WaitStatus → Bool
  | .exited code => code != 0
  | .signaled _ => true

/-- The answer of a system call that can fail. -/
inductive Reply (α : Type)
  | ok (value : α)
  | error (errno : Errno)
deriving DecidableEq, Repr

namespace Manager

/-- What the manager knows of one live child. -/
structure Worker where
  events : RawFd
  started : Option Nat
  killed : Bool
  born : Instant
deriving DecidableEq, Repr

/-- The worker table, ordered by pid. -/
abbrev Workers := Std.ExtTreeMap Pid Worker

/-- The system call the manager makes next, with the loop variables alive
there. -/
inductive Phase
  /-- {lit}`Instant::now() >= retry_at` -/
  | loopHead
  /-- {lit}`workers.len() < config.workers` -/
  | spawnTest
  | socketpair
  | fork (parent child : RawFd)
  /-- a failed fork drops both ends -/
  | unwind (fds : List RawFd)
  /-- {lit}`drop(child)` -/
  | closeChild (pid : Pid) (parent child : RawFd)
  /-- {lit}`born: Instant::now()` -/
  | born (pid : Pid) (parent : RawFd)
  | spawnFailed
  | poll
  | pollFailed
  /-- the accept stamps of the workers still to read -/
  | stamps (todo : List Pid)
  | signals
  /-- {lit}`draining = Some(Instant::now())` -/
  | drainAgain
  /-- {lit}`draining = Some(Instant::now() + Duration::from_secs(30))` -/
  | drainFirst
  /-- the workers still to receive {lit}`SIGUSR1` -/
  | notify (todo : List Pid)
  /-- {lit}`let now = monotonic_ns()` -/
  | enforceClock
  /-- the workers still to be held to their deadlines -/
  | enforce (now : Nat) (todo : List Pid)
  | terminate (now : Nat) (pid : Pid) (todo : List Pid)
  | reap
  /-- {lit}`worker.born.elapsed() < Duration::from_secs(1)` -/
  | elapsed (worker : Worker)
  /-- {lit}`retry_at = Instant::now() + ..` -/
  | startupFailed (worker : Worker)
  /-- the end of the block that owns the removed worker -/
  | dropWorker (fd : RawFd)
  | loopEnd
  | finished
deriving DecidableEq, Repr

/-- The variables of {lit}`supervise` and its program counter. -/
structure State where
  workers : Workers
  draining : Option Instant
  retryAt : Instant
  failures : Nat
  ready : Bool
  fatal : Option Errno
  phase : Phase

/-- One system call of the manager together with its answer. -/
inductive Event
  | tau
  | now (t : Instant)
  | socketpair (reply : Reply (RawFd × RawFd))
  | fork (reply : Reply Pid)
  | close (fd : RawFd)
  | poll (reply : Reply Nat)
  | recv (pid : Pid) (fd : RawFd) (stamp : Option Nat)
  | read (signal : Option Signal)
  | clockGettime (ns : Nat)
  | kill (pid : Pid) (signal : Signal)
  | waitpid (reply : Option (Pid × WaitStatus))
deriving DecidableEq, Repr

/-! ## Updates of the variables -/

/-- {lit}`failures.saturating_add(1)` on 32 bits. -/
def saturatingSucc (n : Nat) : Nat := min (n + 1) (2 ^ 32 - 1)

/-- {lit}`(100u64 << failures.min(6)).min(5000)` milliseconds. -/
def backOff (failures : Nat) : Nat := fromMillis (min (100 * 2 ^ min failures 6) 5000)

/-- {lit}`worker.started.get_or_insert(stamp)` -/
def Worker.noteStamp (stamp : Nat) (w : Worker) : Worker :=
  { w with started := some (w.started.getD stamp) }

/-- {lit}`worker.killed = true` -/
def Worker.markKilled (w : Worker) : Worker := { w with killed := true }

/-- {lit}`config.timeout.as_nanos() as u64` -/
def timeoutNanos (config : Config) : Nat := fromSecs config.timeout % 2 ^ 64

/-- {lit}`worker.started.is_some_and(|start| now.saturating_sub(start) >= ..)` -/
def Worker.expired (config : Config) (now : Nat) (w : Worker) : Bool :=
  match w.started with
  | none => false
  | some start => decide (timeoutNanos config ≤ now - start)

/-- {lit}`!worker.killed && (expired || drain_expired)` -/
def mustTerminate (config : Config) (s : State) (now : Nat) (pid : Pid)
    (drainExpired : Bool) : Bool :=
  match s.workers[pid]? with
  | none => false
  | some w => !w.killed && (w.expired config now || drainExpired)

/-- Record the new worker, as {lit}`workers.insert` does. -/
def State.insertWorker (s : State) (pid : Pid) (parent : RawFd) (t : Instant) : State :=
  { s with
    workers := s.workers.insert pid
      { events := parent, started := none, killed := false, born := t } }

/-- Count a start-up failure and push the next attempt back. -/
def State.recordFailure (s : State) (t : Instant) : State :=
  { s with
    failures := saturatingSucc s.failures
    retryAt := t + backOff (saturatingSucc s.failures) }

/-- The line {lit}`polychrome: ready root={} listen={} workers={} timeout={}s preload={}`. -/
structure ReadyLine where
  root : Bytes
  listen : Bytes
  workers : Nat
  timeout : Nat
  preload : Bool
deriving DecidableEq, Repr

/-- What the line says of a configuration. -/
def readyLine (config : Config) : ReadyLine where
  root := config.root
  listen := config.listen
  workers := config.workers
  timeout := config.timeout
  preload := config.preload

/-- {lit}`if !ready && workers.len() == config.workers`: what {lit}`ready` is set to and
what is printed. -/
def State.announce (config : Config) (s : State) : Bool × List ReadyLine :=
  if !s.ready && s.workers.size == config.workers then (true, [readyLine config])
  else (s.ready, [])

/-- Leave the spawn phase. -/
def State.enterPoll (config : Config) (s : State) : State :=
  { s with ready := (s.announce config).1, phase := .poll }

/-- Start reading the accept stamps. -/
def State.enterStamps (s : State) : State := { s with phase := .stamps s.workers.keys }

/-- End the examination of one worker in the enforcement pass. -/
def State.enforceNext (config : Config) (s : State) (now : Nat) (pid : Pid)
    (todo : List Pid) (drainExpired : Bool) : State :=
  if mustTerminate config s now pid drainExpired then
    { s with phase := .terminate now pid todo }
  else { s with phase := .enforce now todo }

/-- Classify a reaped worker that has just been removed from the table. -/
def State.classify (s : State) (worker : Worker) (status : WaitStatus) : State :=
  if status.abnormal && worker.started.isNone then { s with phase := .elapsed worker }
  else { s with failures := 0, phase := .dropWorker worker.events }

section Fields

variable (config : Config) (s : State) (pid : Pid) (parent : RawFd) (t : Instant)

/-- A spawned worker changes the table only. -/
@[simp]
theorem State.insertWorker_fields :
    (s.insertWorker pid parent t).draining = s.draining ∧
      (s.insertWorker pid parent t).retryAt = s.retryAt ∧
      (s.insertWorker pid parent t).failures = s.failures :=
  ⟨rfl, rfl, rfl⟩

/-- A failure changes the back-off only. -/
@[simp]
theorem State.recordFailure_fields :
    (s.recordFailure t).workers = s.workers ∧
      (s.recordFailure t).draining = s.draining ∧
      (s.recordFailure t).retryAt = t + backOff (saturatingSucc s.failures) ∧
      (s.recordFailure t).failures = saturatingSucc s.failures :=
  ⟨rfl, rfl, rfl, rfl⟩

/-- Going to the poll leaves table, drain and back-off alone. -/
@[simp]
theorem State.enterPoll_fields :
    (s.enterPoll config).workers = s.workers ∧
      (s.enterPoll config).draining = s.draining ∧
      (s.enterPoll config).retryAt = s.retryAt ∧
      (s.enterPoll config).failures = s.failures ∧
      (s.enterPoll config).phase = .poll :=
  ⟨rfl, rfl, rfl, rfl, rfl⟩

/-- Going to the stamps leaves table, drain and back-off alone. -/
@[simp]
theorem State.enterStamps_fields :
    s.enterStamps.workers = s.workers ∧
      s.enterStamps.draining = s.draining ∧
      s.enterStamps.retryAt = s.retryAt ∧
      s.enterStamps.failures = s.failures ∧
      s.enterStamps.phase = .stamps s.workers.keys :=
  ⟨rfl, rfl, rfl, rfl, rfl⟩

variable (now : Nat) (todo : List Pid) (drainExpired : Bool)

/-- Whatever is decided about a worker, only the phase changes. -/
@[simp]
theorem State.enforceNext_fields :
    (s.enforceNext config now pid todo drainExpired).workers = s.workers ∧
      (s.enforceNext config now pid todo drainExpired).draining = s.draining ∧
      (s.enforceNext config now pid todo drainExpired).retryAt = s.retryAt ∧
      (s.enforceNext config now pid todo drainExpired).failures = s.failures ∧
      (s.enforceNext config now pid todo drainExpired).fatal = s.fatal ∧
      (s.enforceNext config now pid todo drainExpired).ready = s.ready := by
  unfold State.enforceNext
  split <;> exact ⟨rfl, rfl, rfl, rfl, rfl, rfl⟩

/-- A worker is killed next if a deadline says so, and passed over otherwise. -/
theorem State.enforceNext_phase :
    (s.enforceNext config now pid todo drainExpired).phase =
      if mustTerminate config s now pid drainExpired then .terminate now pid todo
      else .enforce now todo := by
  unfold State.enforceNext
  split <;> rfl

variable (worker : Worker) (status : WaitStatus)

/-- Classifying a reaped worker touches the failures and the phase only. -/
@[simp]
theorem State.classify_fields :
    (s.classify worker status).workers = s.workers ∧
      (s.classify worker status).draining = s.draining ∧
      (s.classify worker status).retryAt = s.retryAt ∧
      (s.classify worker status).fatal = s.fatal ∧
      (s.classify worker status).ready = s.ready := by
  unfold State.classify
  split <;> exact ⟨rfl, rfl, rfl, rfl, rfl⟩

/-- Whoever ended well, or had taken a connection, clears the failures. -/
theorem State.classify_failures :
    (s.classify worker status).failures =
      if status.abnormal && worker.started.isNone then s.failures else 0 := by
  unfold State.classify
  split <;> rfl

/-- Only an abnormal end without a connection has its age looked at. -/
theorem State.classify_phase :
    (s.classify worker status).phase =
      if status.abnormal && worker.started.isNone then .elapsed worker
      else .dropWorker worker.events := by
  unfold State.classify
  split <;> rfl

end Fields

/-- {lit}`matches!(signal, libc::SIGTERM | libc::SIGINT)` -/
def endsService (signal : Signal) : Bool := signal == .sigterm || signal == .sigint

/-! ## The loop -/

/-- One system call of {lit}`supervise`, {lit}`spawn` included. -/
def step (config : Config) : LabelledMachine.Machine State Event := fun s e =>
  match s.phase, e with
  | .loopHead, .tau => if s.draining.isSome then some { s with phase := .poll } else none
  | .loopHead, .now t =>
      if s.draining.isSome then none
      else if s.retryAt ≤ t then some { s with phase := .spawnTest }
      else some { s with phase := .poll }
  | .spawnTest, .tau =>
      if s.workers.size < config.workers then some { s with phase := .socketpair }
      else some (s.enterPoll config)
  | .socketpair, .socketpair (.ok (parent, child)) =>
      some { s with phase := .fork parent child }
  | .socketpair, .socketpair (.error _) => some { s with phase := .spawnFailed }
  | .fork parent child, .fork (.ok pid) =>
      some { s with phase := .closeChild pid parent child }
  | .fork parent child, .fork (.error _) =>
      some { s with phase := .unwind [child, parent] }
  | .unwind (fd :: fds), .close fd' =>
      if fd' = fd then some { s with phase := .unwind fds } else none
  | .unwind [], .tau => some { s with phase := .spawnFailed }
  | .closeChild pid parent child, .close fd =>
      if fd = child then some { s with phase := .born pid parent } else none
  | .born pid parent, .now t =>
      some { s.insertWorker pid parent t with phase := .spawnTest }
  | .spawnFailed, .now t => some ((s.recordFailure t).enterPoll config)
  | .poll, .poll (.ok _) => some s.enterStamps
  | .poll, .poll (.error errno) =>
      if errno = eintr then some s.enterStamps
      else some { s with fatal := some errno, phase := .pollFailed }
  | .pollFailed, .now t => some { s with draining := some t }.enterStamps
  | .stamps (pid :: todo), .recv pid' fd stamp =>
      match s.workers[pid]? with
      | none => none
      | some w =>
          if pid' = pid ∧ fd = w.events then
            match stamp with
            | some value =>
                some { s with workers := s.workers.modify pid (Worker.noteStamp value) }
            | none => some { s with phase := .stamps todo }
          else none
  | .stamps [], .tau => some { s with phase := .signals }
  | .signals, .read none => some { s with phase := .enforceClock }
  | .signals, .read (some signal) =>
      if endsService signal then
        if s.draining.isSome then some { s with phase := .drainAgain }
        else some { s with phase := .drainFirst }
      else some s
  | .drainAgain, .now t => some { s with draining := some t, phase := .signals }
  | .drainFirst, .now t =>
      some { s with draining := some (t + fromSecs 30), phase := .notify s.workers.keys }
  | .notify (pid :: todo), .kill pid' signal =>
      if pid' = pid ∧ signal = .sigusr1 then some { s with phase := .notify todo } else none
  | .notify [], .tau => some { s with phase := .signals }
  | .enforceClock, .clockGettime ns =>
      some { s with phase := .enforce ns s.workers.keys }
  | .enforce now (pid :: todo), .tau =>
      if s.draining.isSome then none else some (s.enforceNext config now pid todo false)
  | .enforce now (pid :: todo), .now t =>
      match s.draining with
      | none => none
      | some deadline => some (s.enforceNext config now pid todo (decide (deadline ≤ t)))
  | .enforce _ [], .tau => some { s with phase := .reap }
  | .terminate now pid todo, .kill pid' signal =>
      if pid' = pid ∧ signal = .sigkill then
        some { s with
          workers := s.workers.modify pid Worker.markKilled
          phase := .enforce now todo }
      else none
  | .reap, .waitpid none => some { s with phase := .loopEnd }
  | .reap, .waitpid (some (pid, status)) =>
      match s.workers[pid]? with
      | none => some s
      | some worker => some ({ s with workers := s.workers.erase pid }.classify worker status)
  | .elapsed worker, .now t =>
      if t - worker.born < fromSecs 1 then some { s with phase := .startupFailed worker }
      else some { s with failures := 0, phase := .dropWorker worker.events }
  | .startupFailed worker, .now t =>
      some { s.recordFailure t with phase := .dropWorker worker.events }
  | .dropWorker fd, .close fd' =>
      if fd' = fd then some { s with phase := .reap } else none
  | .loopEnd, .tau =>
      if s.draining.isSome && s.workers.isEmpty then some { s with phase := .finished }
      else some { s with phase := .loopHead }
  | _, _ => none

/-- What the code behind a call prints before the next one. -/
def printed (config : Config) (s : State) (e : Event) : List ReadyLine :=
  match s.phase, e with
  | .spawnTest, .tau =>
      if s.workers.size < config.workers then [] else (s.announce config).2
  | .spawnFailed, .now t => ((s.recordFailure t).announce config).2
  | _, _ => []

/-- The variables of {lit}`supervise` when its loop begins; {lit}`t` is the
first clock reading. -/
def start (t : Instant) : State where
  workers := ∅
  draining := none
  retryAt := t
  failures := 0
  ready := false
  fatal := none
  phase := .loopHead

/-! ## The kernel's side -/

/-- The children forked and not yet waited for, and the latest clock reading. -/
structure Kernel where
  children : Finset Pid
  clock : Instant

/-- The answers a kernel can give: {lit}`fork` never returns the pid of an
unreaped child, {lit}`waitpid` returns only such pids, and the clock never runs
backwards. -/
def Kernel.step : LabelledMachine.Machine Kernel Event := fun k e =>
  match e with
  | .fork (.ok pid) =>
      if pid ∈ k.children then none else some { k with children := insert pid k.children }
  | .waitpid (some (pid, _)) =>
      if pid ∈ k.children then some { k with children := k.children.erase pid } else none
  | .now t => if k.clock ≤ t then some { k with clock := t } else none
  | _ => some k

/-- The clock never runs backwards. -/
theorem Kernel.clock_le {k k' : Kernel} {e : Event} (hk : k.step e = some k') :
    k.clock ≤ k'.clock := by
  unfold Kernel.step at hk
  split at hk
  all_goals
    first
    | (split at hk <;> cases hk <;> first | assumption | exact le_rfl)
    | (cases hk; exact le_rfl)

/-- A clock reading is the latest one from then on. -/
theorem Kernel.clock_now {k k' : Kernel} {t : Instant} (hk : k.step (.now t) = some k') :
    k'.clock = t := by
  simp only [Kernel.step] at hk
  split at hk
  · cases hk
    rfl
  · cases hk

/-- The manager run against the kernel. -/
def supervised (config : Config) : LabelledMachine.Machine (State × Kernel) Event :=
  LabelledMachine.sync (step config) Kernel.step

/-- Before the loop: no child yet, and the clock has just been read. -/
def initial (t : Instant) : State × Kernel := (start t, { children := ∅, clock := t })

/-! ## What one step can do -/

/-- The branches of {lit}`supervise`, one case each. -/
inductive Step (config : Config) (s : State) : Event → State → Prop
  | drainingHead (hphase : s.phase = .loopHead) (hdraining : s.draining.isSome) :
      Step config s .tau { s with phase := .poll }
  | retryDue {t : Instant} (hphase : s.phase = .loopHead) (hdraining : s.draining = none)
      (hdue : s.retryAt ≤ t) : Step config s (.now t) { s with phase := .spawnTest }
  | retryPending {t : Instant} (hphase : s.phase = .loopHead) (hdraining : s.draining = none)
      (hpending : t < s.retryAt) : Step config s (.now t) { s with phase := .poll }
  | spawnMore (hphase : s.phase = .spawnTest) (hroom : s.workers.size < config.workers) :
      Step config s .tau { s with phase := .socketpair }
  | spawnFull (hphase : s.phase = .spawnTest) (hfull : config.workers ≤ s.workers.size) :
      Step config s .tau (s.enterPoll config)
  | paired {parent child : RawFd} (hphase : s.phase = .socketpair) :
      Step config s (.socketpair (.ok (parent, child))) { s with phase := .fork parent child }
  | pairFailed {errno : Errno} (hphase : s.phase = .socketpair) :
      Step config s (.socketpair (.error errno)) { s with phase := .spawnFailed }
  | forked {pid : Pid} {parent child : RawFd} (hphase : s.phase = .fork parent child) :
      Step config s (.fork (.ok pid)) { s with phase := .closeChild pid parent child }
  | forkFailed {errno : Errno} {parent child : RawFd} (hphase : s.phase = .fork parent child) :
      Step config s (.fork (.error errno)) { s with phase := .unwind [child, parent] }
  | unwindClose {fd : RawFd} {fds : List RawFd} (hphase : s.phase = .unwind (fd :: fds)) :
      Step config s (.close fd) { s with phase := .unwind fds }
  | unwound (hphase : s.phase = .unwind []) :
      Step config s .tau { s with phase := .spawnFailed }
  | childClosed {pid : Pid} {parent child : RawFd}
      (hphase : s.phase = .closeChild pid parent child) :
      Step config s (.close child) { s with phase := .born pid parent }
  | inserted {pid : Pid} {parent : RawFd} {t : Instant} (hphase : s.phase = .born pid parent) :
      Step config s (.now t) { s.insertWorker pid parent t with phase := .spawnTest }
  | spawnFailureRecorded {t : Instant} (hphase : s.phase = .spawnFailed) :
      Step config s (.now t) ((s.recordFailure t).enterPoll config)
  | polled {count : Nat} (hphase : s.phase = .poll) :
      Step config s (.poll (.ok count)) s.enterStamps
  | pollInterrupted (hphase : s.phase = .poll) :
      Step config s (.poll (.error eintr)) s.enterStamps
  | pollFailed {errno : Errno} (hphase : s.phase = .poll) (herrno : errno ≠ eintr) :
      Step config s (.poll (.error errno)) { s with fatal := some errno, phase := .pollFailed }
  | pollFailureDated {t : Instant} (hphase : s.phase = .pollFailed) :
      Step config s (.now t) { s with draining := some t }.enterStamps
  | stampRead {pid : Pid} {todo : List Pid} {w : Worker} {value : Nat}
      (hphase : s.phase = .stamps (pid :: todo)) (hw : s.workers[pid]? = some w) :
      Step config s (.recv pid w.events (some value))
        { s with workers := s.workers.modify pid (Worker.noteStamp value) }
  | stampsDrained {pid : Pid} {todo : List Pid} {w : Worker}
      (hphase : s.phase = .stamps (pid :: todo)) (hw : s.workers[pid]? = some w) :
      Step config s (.recv pid w.events none) { s with phase := .stamps todo }
  | stampsDone (hphase : s.phase = .stamps []) :
      Step config s .tau { s with phase := .signals }
  | signalsDone (hphase : s.phase = .signals) :
      Step config s (.read none) { s with phase := .enforceClock }
  | signalIgnored {signal : Signal} (hphase : s.phase = .signals)
      (hsignal : endsService signal = false) : Step config s (.read (some signal)) s
  | signalAgain {signal : Signal} (hphase : s.phase = .signals)
      (hsignal : endsService signal) (hdraining : s.draining.isSome) :
      Step config s (.read (some signal)) { s with phase := .drainAgain }
  | signalFirst {signal : Signal} (hphase : s.phase = .signals)
      (hsignal : endsService signal) (hdraining : s.draining = none) :
      Step config s (.read (some signal)) { s with phase := .drainFirst }
  | drainAgainDated {t : Instant} (hphase : s.phase = .drainAgain) :
      Step config s (.now t) { s with draining := some t, phase := .signals }
  | drainFirstDated {t : Instant} (hphase : s.phase = .drainFirst) :
      Step config s (.now t)
        { s with draining := some (t + fromSecs 30), phase := .notify s.workers.keys }
  | notified {pid : Pid} {todo : List Pid} (hphase : s.phase = .notify (pid :: todo)) :
      Step config s (.kill pid .sigusr1) { s with phase := .notify todo }
  | notifyDone (hphase : s.phase = .notify []) :
      Step config s .tau { s with phase := .signals }
  | enforceStarted {ns : Nat} (hphase : s.phase = .enforceClock) :
      Step config s (.clockGettime ns) { s with phase := .enforce ns s.workers.keys }
  | enforceCalm {now : Nat} {pid : Pid} {todo : List Pid}
      (hphase : s.phase = .enforce now (pid :: todo)) (hdraining : s.draining = none) :
      Step config s .tau (s.enforceNext config now pid todo false)
  | enforceDraining {now : Nat} {pid : Pid} {todo : List Pid} {t deadline : Instant}
      (hphase : s.phase = .enforce now (pid :: todo)) (hdraining : s.draining = some deadline) :
      Step config s (.now t) (s.enforceNext config now pid todo (decide (deadline ≤ t)))
  | enforceDone {now : Nat} (hphase : s.phase = .enforce now []) :
      Step config s .tau { s with phase := .reap }
  | terminated {now : Nat} {pid : Pid} {todo : List Pid}
      (hphase : s.phase = .terminate now pid todo) :
      Step config s (.kill pid .sigkill)
        { s with workers := s.workers.modify pid Worker.markKilled, phase := .enforce now todo }
  | reapDone (hphase : s.phase = .reap) :
      Step config s (.waitpid none) { s with phase := .loopEnd }
  | reapUnknown {pid : Pid} {status : WaitStatus} (hphase : s.phase = .reap)
      (hw : s.workers[pid]? = none) : Step config s (.waitpid (some (pid, status))) s
  | reaped {pid : Pid} {status : WaitStatus} {w : Worker} (hphase : s.phase = .reap)
      (hw : s.workers[pid]? = some w) :
      Step config s (.waitpid (some (pid, status)))
        ({ s with workers := s.workers.erase pid }.classify w status)
  | diedYoung {w : Worker} {t : Instant} (hphase : s.phase = .elapsed w)
      (hage : t - w.born < fromSecs 1) :
      Step config s (.now t) { s with phase := .startupFailed w }
  | diedOld {w : Worker} {t : Instant} (hphase : s.phase = .elapsed w)
      (hage : fromSecs 1 ≤ t - w.born) :
      Step config s (.now t) { s with failures := 0, phase := .dropWorker w.events }
  | startupFailureRecorded {w : Worker} {t : Instant} (hphase : s.phase = .startupFailed w) :
      Step config s (.now t) { s.recordFailure t with phase := .dropWorker w.events }
  | workerDropped {fd : RawFd} (hphase : s.phase = .dropWorker fd) :
      Step config s (.close fd) { s with phase := .reap }
  | loopAgain (hphase : s.phase = .loopEnd)
      (hstay : (s.draining.isSome && s.workers.isEmpty) = false) :
      Step config s .tau { s with phase := .loopHead }
  | loopReturned (hphase : s.phase = .loopEnd)
      (hdraining : s.draining.isSome) (hempty : s.workers.isEmpty) :
      Step config s .tau { s with phase := .finished }

/-- Every step is one of the branches. -/
theorem step_cases {config : Config} {s s' : State} {e : Event}
    (h : step config s e = some s') : Step config s e s' := by
  unfold step at h
  -- One goal for each arm of the match, and one more for each test inside it.
  split at h
  all_goals
    repeat' split at h
    all_goals first | (cases h; done) | skip
  all_goals
    simp only [Option.some.injEq] at h
    subst h
  all_goals try obtain ⟨rfl, rfl⟩ := ‹_ ∧ _›
  all_goals subst_vars
  all_goals
    -- These four share label and target with an earlier branch.
    first
    | exact .stampsDone ‹_›
    | exact .notifyDone ‹_›
    | exact .enforceDone ‹_›
    | exact .workerDropped ‹_›
    | constructor <;> first | assumption | simp_all

end Manager

end Polychrome

import Polychrome.Child.Connection
import Polychrome.Manager.WorkerTable

/-!
# The manager together with its children

The manager and all of its children run side by side.  A label is a step of one
of them; the kernel keeps the processes that have not been waited for and, for
each open event socket, the stamps that the manager has not read.  A socket is
named by the manager's descriptor of its end.

A process carries the steps it has made together with the proof that they are a
run of the child, so that everything known of a child's runs is known of every
process in every state of the system.

Main results:

- Definition {lit}`step`: one step of the manager, of a child or of the outside.
- Theorem {lit}`manager_run`: the manager's part of a run of the system is a run
  of the supervised manager.
-/

namespace Polychrome

namespace System

/-! ## Processes -/

/-- A child from its fork on: {lit}`channel` is the manager's end of its event
socket, and {lit}`past` is what it has done. -/
structure Process where
  inherited : List RawFd
  channel : RawFd
  past : List Child.Event
  state : Child.State
  run : LabelledMachine.exec Child.step (Child.start inherited) past = some state

/-- A child that has just been forked. -/
def Process.fork (inherited : List RawFd) (channel : RawFd) : Process where
  inherited := inherited
  channel := channel
  past := []
  state := Child.start inherited
  run := rfl

/-- The process makes a step. -/
def Process.step (p : Process) (e : Child.Event) : Option Process :=
  match hstep : Child.step p.state e with
  | none => none
  | some state =>
      some { p with
        past := p.past ++ [e]
        state := state
        run := LabelledMachine.exec_concat p.run hstep }

/-- A signal is sent to the process. -/
def Process.raise (p : Process) (signal : Signal) : Process :=
  { p with
    past := p.past ++ [.raise signal]
    state := p.state.post signal
    run := LabelledMachine.exec_concat p.run rfl }

/-- A child's step moves the child alone and is written to its past. -/
theorem Process.step_eq_some {p p' : Process} {e : Child.Event} (h : p.step e = some p') :
    p'.inherited = p.inherited ∧ p'.channel = p.channel ∧ p'.past = p.past ++ [e] ∧
      Child.step p.state e = some p'.state := by
  unfold Process.step at h
  split at h
  · cases h
  case h_2 state hstep =>
    cases h
    exact ⟨rfl, rfl, rfl, hstep⟩

/-! ## The system -/

/-- The manager, the kernel's view of it, the processes that have not been waited
for and the unread stamps of each event socket. -/
structure State where
  manager : Manager.State
  kernel : Manager.Kernel
  procs : Std.ExtTreeMap Pid Process
  sockets : Std.ExtTreeMap RawFd (List Nat)

/-- A step of the manager, or a step of a child, which may be a signal sent to it
from the outside. -/
inductive Event
  | manager (e : Manager.Event)
  | child (pid : Pid) (e : Child.Event)
deriving DecidableEq, Repr

/-- What the kernel does with a call of the manager: descriptors that are open are
not handed out again, a child starts with all of the manager's descriptors, and
{lit}`waitpid` returns a child that has terminated. -/
def State.answer (signals : RawFd) (s : State) : Manager.Event → Option State
  | .socketpair (.ok (parent, child)) =>
      if parent ∈ s.sockets ∨ child ∈ s.sockets ∨ parent = child then none
      else some { s with sockets := s.sockets.insert parent [] }
  | .fork (.ok pid) =>
      match s.manager.phase with
      | .fork parent _ =>
          some { s with
            procs := s.procs.insert pid
              (Process.fork
                (parent :: signals :: s.manager.workers.values.map Manager.Worker.events)
                parent) }
      | _ => none
  | .close fd => some { s with sockets := s.sockets.erase fd }
  | .recv _ fd stamp =>
      match s.sockets[fd]?, stamp with
      | some (value :: unread), some value' =>
          if value' = value then some { s with sockets := s.sockets.insert fd unread } else none
      | some [], none => some s
      | _, _ => none
  | .kill pid signal =>
      some { s with procs := s.procs.modify pid fun p => p.raise signal }
  | .waitpid (some (pid, status)) =>
      match s.procs[pid]? with
      | none => none
      | some p =>
          if p.state.phase = .terminated status then some { s with procs := s.procs.erase pid }
          else none
  | _ => some s

/-- A step of the child {lit}`pid`.  A stamp that is sent joins the unread ones. -/
def State.childStep (s : State) (pid : Pid) (e : Child.Event) : Option State :=
  match s.procs[pid]? with
  | none => none
  | some p =>
      match p.step e with
      | none => none
      | some p' =>
          match e with
          | .send stamp true =>
              if p.channel ∈ s.sockets then
                some { s with
                  procs := s.procs.insert pid p'
                  sockets := s.sockets.modify p.channel fun unread => unread ++ [stamp] }
              else none
          | _ => some { s with procs := s.procs.insert pid p' }

/-- One step of the system. -/
def step (config : Config) (signals : RawFd) : LabelledMachine.Machine State Event := fun s e =>
  match e with
  | .manager e =>
      (s.answer signals e).bind fun t =>
        (Manager.supervised config (s.manager, s.kernel) e).map fun m =>
          { t with manager := m.1, kernel := m.2 }
  | .child pid e => s.childStep pid e

/-- The manager before its loop, without children. -/
def initial (t : Instant) : State where
  manager := (Manager.initial t).1
  kernel := (Manager.initial t).2
  procs := ∅
  sockets := ∅

/-! ## The manager's part -/

/-- The call of the manager that a step of the system is. -/
def Event.managerCall : Event → Option Manager.Event
  | .manager e => some e
  | .child _ _ => none

/-- A child's step leaves the manager and its kernel alone. -/
theorem childStep_manager {s t : State} {pid : Pid} {e : Child.Event}
    (h : s.childStep pid e = some t) : t.manager = s.manager ∧ t.kernel = s.kernel := by
  unfold State.childStep at h
  repeat' split at h
  all_goals first | (cases h; done) | skip
  all_goals
    cases h
    exact ⟨rfl, rfl⟩

/-- The system refines the manager run against the kernel alone. -/
theorem manager_simulation (config : Config) (signals : RawFd) :
    LabelledMachine.Simulation (step config signals) (Manager.supervised config) Event.managerCall
      fun s m => m = (s.manager, s.kernel) where
  silent {s e s' m} hm hstep hproj := by
    cases e with
    | manager e => cases hproj
    | child pid e =>
        rcases childStep_manager hstep with ⟨hmanager, hkernel⟩
        rw [hm, hmanager, hkernel]
  visible {s e s' m d} hm hstep hproj := by
    cases e with
    | manager e =>
        cases hproj
        simp only [step, Option.bind_eq_some_iff, Option.map_eq_some_iff] at hstep
        rcases hstep with ⟨t, -, m', hsupervised, rfl⟩
        exact ⟨m', hm ▸ hsupervised, rfl⟩
    | child pid e => cases hproj

/-- The manager's calls of a run are a run of the manager. -/
theorem manager_run {config : Config} {signals : RawFd} {t : Instant} {es : List Event} {s : State}
    (hrun : LabelledMachine.exec (step config signals) (initial t) es = some s) :
    LabelledMachine.exec (Manager.supervised config) (Manager.initial t)
      (es.filterMap Event.managerCall) = some (s.manager, s.kernel) := by
  rcases (manager_simulation config signals).exec rfl hrun with ⟨m, hm, rfl⟩
  exact hm

end System

end Polychrome

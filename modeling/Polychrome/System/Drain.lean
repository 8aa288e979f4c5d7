import Polychrome.System.Stamps

/-!
# Draining the system

Every process of the system is a run of the child, whatever the manager, the
other children and the outside do in between, so the laws of a child hold of
each of them.

Main results:

- Theorem {lit}`children_drain`: what a drain signal does to a child before and
  after its connection is active.
- Theorem {lit}`children_answer_iff`: a connection that was taken is answered
  exactly if no drain signal arrives between {lit}`accept` and
  {lit}`connection_active = 1`, the stamp can be sent, PHP does not refuse the peer
  and a request can be read.
-/

namespace Polychrome

namespace System

variable {config : Config} {signals : RawFd} {s s' : State}

/-- A signal of the manager is sent to the worker it names. -/
theorem raised_of_kill {pid : Pid} {signal : Signal} {p : Process} (hp : s.procs[pid]? = some p)
    (hstep : step config signals s (.manager (.kill pid signal)) = some s') :
    s'.procs[pid]? = some (p.raise signal) := by
  simp only [step, Option.bind_eq_some_iff, Option.map_eq_some_iff] at hstep
  rcases hstep with ⟨u, hanswer, m, -, rfl⟩
  cases hanswer
  rw [Std.ExtTreeMap.getElem?_modify_self, hp]
  rfl

/-- What is known of drain signals in every state of the system. -/
structure DrainLaws (config : Config) (signals : RawFd) (s : State) : Prop where
  child : ∀ (pid : Pid) (p : Process), s.procs[pid]? = some p →
    Child.DrainLaws p.inherited p.past p.state
  notified : ∀ (pid : Pid) (s' : State),
    step config signals s (.manager (.kill pid .sigusr1)) = some s' →
    ∃ p, s.procs[pid]? = some p ∧ s'.procs[pid]? = some (p.raise .sigusr1) ∧
      (p.state.phase.live = true → .sigusr1 ∈ (p.raise .sigusr1).state.pending)

/-- Every run of the system keeps the laws of the drain. -/
theorem children_drain (config : Config) (signals : RawFd) (t : Instant) (es : List Event)
    (s : State) (hrun : LabelledMachine.exec (step config signals) (initial t) es = some s) :
    DrainLaws config signals s where
  child pid p hp := Child.run_drain_laws p.run
  notified pid s' hstep := by
    have hsent : (Manager.step config s.manager (.kill pid .sigusr1)).isSome = true := by
      simp only [step, Option.bind_eq_some_iff, Option.map_eq_some_iff] at hstep
      rcases hstep with ⟨u, -, m, hsupervised, -⟩
      rw [(LabelledMachine.sync_eq_some_iff.mp hsupervised).1]
      rfl
    have hchild : pid ∈ s.kernel.children :=
      ((Manager.run_tracks (manager_run hrun)).laws.signalled pid .sigusr1 hsent).2
    have hmem : pid ∈ s.procs := ((run_linked hrun).procs_iff pid).mpr hchild
    rw [Std.ExtTreeMap.mem_iff_isSome_getElem?] at hmem
    rcases Option.isSome_iff_exists.mp hmem with ⟨p, hp⟩
    refine ⟨p, hp, raised_of_kill hp hstep, ?_⟩
    intro hlive
    simp [Process.raise, Child.State.post, hlive, Signal.drains]

/-- A child that is forked by the first calls of the manager. -/
def forkedChild : List Event :=
  [.manager (.now 0), .manager .tau, .manager (.socketpair (.ok (5, 6))),
    .manager (.fork (.ok 7))]

/-- The child of {lit}`forkedChild` up to the call that lifts the mask, with a
signal sent to it at its first step. -/
def earlySignal : List Child.Event :=
  [.raise .sigterm, .close 5, .close 3, .tau, .prctl, .getppid true, .sigaction .sigusr1,
    .sigaction .sigterm, .sigaction .sigint, .sigaction .sigchld, .tau]

/-- The signal is delivered when the mask is lifted. -/
def drainedEarly : List Child.Event :=
  earlySignal ++ [.sigprocmask (some .sigterm), .handler, .handler]

/-- A child told to drain before its request ends without starting one. -/
theorem children_drain_sample :
    ∃ s p, LabelledMachine.exec (step Manager.sampleConfig 3) (initial 0)
        (forkedChild ++ drainedEarly.map (Event.child 7)) = some s ∧
      s.procs[7]? = some p ∧ p.state.phase = .terminated (.exited 0) ∧
      ∀ success, .requestStartup success ∉ p.past := by
  refine ⟨_, _, rfl, rfl, rfl, ?_⟩
  exact ((children_drain Manager.sampleConfig 3 0
    (forkedChild ++ drainedEarly.map (Event.child 7)) _ rfl).child 7 _ rfl).ends earlySignal
    (.sigprocmask (some .sigterm)) [.handler, .handler] _ rfl rfl rfl
    (Or.inr ⟨⟨_, rfl⟩, by decide⟩) |>.1

/-! ## Connections that were taken -/

/-- What is known of the connection of every child.

{lit}`marked`, {lit}`unstuck` and {lit}`bounded` are about the child that goes on,
{lit}`answered` is about the child that has ended. -/
structure ConnectionLaws (p : Process) : Prop where
  marked : p.past.countP Child.Event.takes = 1 → p.state.phase.killed = false →
    Child.InWindow p.inherited p.past ∨ p.state.connectionActive = true ∨
      p.state.phase.holding = true ∧ p.state.frames = []
  unstuck : p.state.phase.live = true →
    ∃ e, e.moves = true ∧ (Child.step p.state e).isSome = true
  bounded : p.state.connectionActive = true → ∀ later s',
    LabelledMachine.exec Child.step p.state later = some s' →
      later.countP Child.Event.main ≤ 12
  answered : ∀ status, p.state.phase = .terminated status →
    p.past.countP Child.Event.takes = 1 → p.past.any Child.Event.kills = false →
    (p.past.any Child.Event.finishes = true ∧ p.past.any Child.Event.refuses = false ↔
      ¬ Child.InWindow p.inherited p.past ∧ p.past.any Child.Event.losesStamp = false ∧
        p.past.any Child.Event.unreadable = false ∧ p.past.any Child.Event.refuses = false)

/-- Every child of every run answers the connection it has taken exactly if no
handler starts in the window, its stamp is sent, its peer is not refused and it can
read a request. -/
theorem children_answer_iff (config : Config) (signals : RawFd) (t : Instant) :
    ∀ es s, LabelledMachine.exec (step config signals) (initial t) es = some s →
      ∀ (pid : Pid) (p : Process), s.procs[pid]? = some p → ConnectionLaws p := by
  intro es s _ pid p _
  refine ⟨Child.run_marked p.run, Child.unstuck, ?_, ?_⟩
  · exact fun hactive _ _ hlater =>
      Child.serving_bounded (Child.run_flags p.run) hactive hlater
  · intro status hphase htaken hkills
    rw [Child.answered_iff p.run hphase htaken hkills, Child.Spoilt]
    simp only [not_or, Bool.not_eq_true, and_assoc]

/-- The signal of the drain arrives when the connection is taken and not marked
active yet. -/
def drainedInWindow : List Event :=
  listeningChild ++
    [.child 7 (.accept (.ok 9)), .manager .tau, .manager (.read (some .sigterm)),
      .manager (.now 2), .manager (.kill 7 .sigusr1), .child 7 (.deliver .sigusr1),
      .child 7 .handler, .child 7 .handler]

/-- The child is not killed and exits with the connection unanswered. -/
theorem drain_drops_connection :
    ∃ s p, LabelledMachine.exec (step Manager.sampleConfig 3) (initial 0) drainedInWindow =
        some s ∧ s.procs[7]? = some p ∧ p.state.phase = .terminated (.exited 0) ∧
      p.past.countP Child.Event.takes = 1 ∧ p.past.any Child.Event.kills = false ∧
      p.state.connectionActive = false ∧ p.past.any Child.Event.finishes = false :=
  ⟨_, _, rfl, rfl, rfl, rfl, rfl, rfl, rfl⟩

/-- The same signal arrives one call later, when the connection is marked active: the
child goes on and ends behind the answer. -/
def drainedWhileServing : List Event :=
  listeningChild ++
    [.child 7 (.accept (.ok 9)), .manager .tau, .manager (.read (some .sigterm)),
      .manager (.now 2), .child 7 .tau, .child 7 .markActive, .manager (.kill 7 .sigusr1),
      .child 7 (.deliver .sigusr1), .child 7 .handler, .child 7 .handler, .child 7 (.fcntl 9),
      .child 7 (.clockGettime 100), .child 7 (.send 100 true), .child 7 (.readRequest true),
      .child 7 .closeListener, .child 7 (.examine .admitted), .child 7 (.requestStartup true),
      .child 7 (.openScript true), .child 7 (.execute 0), .child 7 .requestShutdown,
      .child 7 .finishRequest, .child 7 .tau]

/-- A child that takes, marks and answers a connection, with a signal delivered outside the
window. -/
theorem children_answer_sample :
    ∃ s p, LabelledMachine.exec (step Manager.sampleConfig 3) (initial 0) drainedWhileServing =
        some s ∧ s.procs[7]? = some p ∧ p.state.phase = .terminated (.exited 0) ∧
      p.past.countP Child.Event.takes = 1 ∧ p.state.drainRequested = true ∧
      p.past.any Child.Event.finishes = true ∧ ¬ Child.InWindow p.inherited p.past := by
  refine ⟨_, _, rfl, rfl, rfl, rfl, rfl, rfl, ?_⟩
  have hlaws := children_answer_iff Manager.sampleConfig 3 0 drainedWhileServing _ rfl 7 _ rfl
  exact ((hlaws.answered (.exited 0) rfl rfl rfl).mp ⟨rfl, rfl⟩).1

end System

end Polychrome

import Mathlib.Data.Finset.Card
import Polychrome.System.Stamps

/-!
# Connections at once

A child takes one connection at most, and the manager keeps no more children
than it has workers to run.

Main results:

- Theorem {lit}`accept_barred`: a child that has taken a connection never calls
  {lit}`accept` again.
- Theorem {lit}`connections_bounded`: one connection and one request a child, and
  never more connections at once than workers.
-/

namespace Polychrome

namespace Child

/-- PHP's accept loop comes back to {lit}`accept` only as long as the child has
taken no connection. -/
theorem accept_barred {inherited : List RawFd} {es : List Event} {s : State}
    (hrun : LabelledMachine.exec step (start inherited) es = some s)
    (htaken : es.countP Event.takes = 1) : s.phase ≠ .accept := by
  intro hphase
  have hcount := (run_takes hrun).count (by rw [hphase]; rfl)
  rw [htaken, (run_flags hrun).idle (by rw [hphase]; rfl), hphase] at hcount
  cases hcount

end Child

namespace System

variable {config : Config} {signals : RawFd}

/-- What is known of the connections of all children. -/
structure CapacityLaws (config : Config) (s : State) : Prop where
  takes : ∀ (pid : Pid) (p : Process), s.procs[pid]? = some p →
    p.past.countP Child.Event.takes ≤ 1
  starts : ∀ (pid : Pid) (p : Process), s.procs[pid]? = some p →
    p.past.countP Child.Event.starts ≤ 1
  barred : ∀ (pid : Pid) (p : Process), s.procs[pid]? = some p →
    p.past.countP Child.Event.takes = 1 →
    ∀ reply, (Child.step p.state (.accept reply)).isSome = false
  active_le : ∀ active : Finset Pid,
    (∀ pid ∈ active, ∃ p : Process, s.procs[pid]? = some p ∧ p.state.connectionActive = true) →
    active.card ≤ config.workers

/-- The processes of the system are the children of the manager. -/
theorem procs_card_le {t : Instant} {es : List Event} {s : State}
    (hrun : LabelledMachine.exec (step config signals) (initial t) es = some s)
    {pids : Finset Pid} (hpids : ∀ pid ∈ pids, pid ∈ s.procs) : pids.card ≤ config.workers := by
  have hsub : pids ⊆ s.kernel.children := by
    intro pid hpid
    exact ((run_linked hrun).procs_iff pid).mp (hpids pid hpid)
  exact (Finset.card_le_card hsub).trans (Manager.run_tracks (manager_run hrun)).card_le

/-- Every run of the system keeps the laws. -/
theorem connections_bounded (config : Config) (signals : RawFd) (t : Instant)
    (es : List Event) (s : State)
    (hrun : LabelledMachine.exec (step config signals) (initial t) es = some s) :
    CapacityLaws config s where
  takes pid p _ := (Child.run_takes p.run).le_one
  starts pid p _ := (Child.run_starts p.run).le_one
  barred pid p _ htaken reply := by
    by_contra hstep
    rw [Bool.not_eq_false] at hstep
    rcases Option.isSome_iff_exists.mp hstep with ⟨s', hstep⟩
    have hphase := Child.accept_barred p.run htaken
    cases Child.step_cases hstep with
    | moved hframes hnext =>
        generalize p.state.phase = phase at hnext hphase
        cases hnext <;> exact hphase rfl
  active_le active hactive := by
    apply procs_card_le hrun
    intro pid hpid
    rcases hactive pid hpid with ⟨p, hp, -⟩
    rw [Std.ExtTreeMap.mem_iff_isSome_getElem?, hp]
    rfl

/-- The child of {lit}`listeningChild` takes a connection that brings no request. -/
def malformedRequest : List Event :=
  listeningChild ++
    [.child 7 (.accept (.ok 9)), .child 7 .tau, .child 7 .markActive, .child 7 (.fcntl 9),
      .child 7 (.clockGettime 100), .child 7 (.send 100 true), .child 7 (.readRequest false)]

/-- A worker that has taken a malformed request takes no second connection. -/
theorem connections_bounded_sample :
    ∃ s p, LabelledMachine.exec (step Manager.sampleConfig 3) (initial 0) malformedRequest =
        some s ∧ s.procs[7]? = some p ∧ p.past.countP Child.Event.takes = 1 ∧
      (∀ reply, (Child.step p.state (.accept reply)).isSome = false) ∧
      ({7} : Finset Pid).card ≤ Manager.sampleConfig.workers := by
  have hlaws := connections_bounded Manager.sampleConfig 3 0 malformedRequest _ rfl
  refine ⟨_, _, rfl, rfl, rfl, hlaws.barred 7 _ rfl rfl, hlaws.active_le {7} ?_⟩
  intro pid hpid
  rw [Finset.mem_singleton] at hpid
  subst hpid
  exact ⟨_, rfl, rfl⟩

end System

end Polychrome

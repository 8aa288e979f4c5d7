import Polychrome.Library.Pool
import Polychrome.Manager.Notification
import Polychrome.Manager.Outcome

/-!
# What the manager is for

Behind its system calls the manager keeps a pool: it forks children while there is
room and nobody has asked it to end, tells and kills its children, and waits for them.

Main results:

- Definition {lit}`Pooled`: the pool that a manager keeps.
- Theorems {lit}`pooled_silent` and {lit}`pooled_visible`: every call of
  {lit}`supervise` is a step of the pool, or none.
-/

namespace Polychrome

namespace Manager

/-- What can happen to a child once in its life. -/
inductive Mark
  /-- it takes a connection -/
  | served
  /-- the manager kills it -/
  | killed
deriving DecidableEq, Repr

/-- What a call means for the pool. -/
def Event.pooled : Event → Option (Pool.Event Pid Mark)
  | .fork (.ok pid) => some (.join pid)
  | .kill pid .sigusr1 => some (.tell pid)
  | .kill pid .sigkill => some (.mark .killed pid)
  | .waitpid (some (pid, _)) => some (.leave pid)
  | .read (some signal) => if endsService signal then some .close else none
  | .poll (.error errno) => if errno = eintr then none else some .close
  | _ => none

/-- The manager has been asked to end. -/
def State.closing (s : State) : Bool := s.draining.isSome || s.phase.cause.isSome

/-- The worker {lit}`pid` is in the table and has been killed. -/
def State.hasKilled (s : State) (pid : Pid) : Prop :=
  ∃ w, s.workers[pid]? = some w ∧ w.killed = true

/-- The pool that a manager keeps. -/
structure Pooled (s : State) (k : Kernel) (p : Pool.State Pid Mark) : Prop where
  live : p.live = k.children
  killed : ∀ pid, pid ∈ p.marked .killed ↔ s.hasKilled pid
  closing : p.closing = s.closing
  spared : ∀ now pid todo, s.phase = .terminate now pid todo → ¬ s.hasKilled pid

/-! ## What one step does -/

section Steps

variable {config : Config} {s s' : State} {k k' : Kernel} {e : Event} {p : Pool.State Pid Mark}

/-- Who was killed is read off the table alone. -/
theorem hasKilled_of_workers (h : s'.workers = s.workers) (pid : Pid) :
    s'.hasKilled pid ↔ s.hasKilled pid := by
  rw [State.hasKilled, h, State.hasKilled]

/-- The new worker has not been killed. -/
theorem hasKilled_inserted {pid : Pid} {parent : RawFd} {t : Instant} (hfresh : pid ∉ s.workers)
    (q : Pid) : (s.insertWorker pid parent t).hasKilled q ↔ s.hasKilled q := by
  simp only [State.hasKilled, State.insertWorker, Std.ExtTreeMap.getElem?_insert]
  split
  case isTrue heq =>
    have hq : pid = q := Std.LawfulEqCmp.eq_of_compare heq
    subst hq
    simp [Std.ExtTreeMap.getElem?_eq_none hfresh]
  case isFalse => exact Iff.rfl

/-- A stamp kills nobody. -/
theorem hasKilled_noteStamp {pid : Pid} {stamp : Nat} (q : Pid) :
    ({ s with workers := s.workers.modify pid (Worker.noteStamp stamp) } : State).hasKilled q ↔
      s.hasKilled q := by
  simp only [State.hasKilled, Std.ExtTreeMap.getElem?_modify]
  split
  case isTrue heq =>
    have hq : pid = q := Std.LawfulEqCmp.eq_of_compare heq
    subst hq
    simp [Worker.noteStamp]
  case isFalse => exact Iff.rfl

/-- Killing a worker marks that worker only. -/
theorem hasKilled_markKilled {pid : Pid} {phase : Phase} (hmem : pid ∈ s.workers) (q : Pid) :
    ({ s with workers := s.workers.modify pid Worker.markKilled, phase := phase } : State).hasKilled
      q ↔ q = pid ∨ s.hasKilled q := by
  simp only [State.hasKilled, Std.ExtTreeMap.getElem?_modify]
  split
  case isTrue heq =>
    have hq : pid = q := Std.LawfulEqCmp.eq_of_compare heq
    subst hq
    simp [Worker.markKilled, Std.ExtTreeMap.getElem?_eq_some_getElem hmem]
  case isFalse hne =>
    have hq : q ≠ pid := by
      rintro rfl
      simp at hne
    simp [hq]

/-- A reaped worker is no longer among the killed. -/
theorem hasKilled_erased {pid : Pid} {w : Worker} {status : WaitStatus} (q : Pid) :
    ({ s with workers := s.workers.erase pid }.classify w status).hasKilled q ↔
      q ≠ pid ∧ s.hasKilled q := by
  simp only [State.hasKilled, State.classify_fields, Std.ExtTreeMap.getElem?_erase]
  split
  case isTrue heq =>
    have hq : pid = q := Std.LawfulEqCmp.eq_of_compare heq
    simp [hq]
  case isFalse hne =>
    have hq : q ≠ pid := by
      rintro rfl
      simp at hne
    simp [hq]

/-- A worker that is about to be killed has not been killed before. -/
theorem spared_enforceNext {now now' : Nat} {pid pid' : Pid} {todo todo' : List Pid}
    {drainExpired : Bool}
    (hphase : (s.enforceNext config now pid todo drainExpired).phase = .terminate now' pid' todo') :
    ¬ s.hasKilled pid' := by
  rw [State.enforceNext_phase] at hphase
  split at hphase
  case isTrue hmust =>
    cases hphase
    rintro ⟨w, hw, hkilled⟩
    simp [mustTerminate, hw, hkilled] at hmust
  case isFalse => cases hphase

/-- A step that changes neither the children nor who has been killed. -/
theorem Pooled.kept (h : Pooled s k p) (hchildren : k'.children = k.children)
    (hkilled : ∀ pid, s'.hasKilled pid ↔ s.hasKilled pid) (hclosing : s'.closing = s.closing)
    (hspared : ∀ now pid todo, s'.phase = .terminate now pid todo → ¬ s.hasKilled pid) :
    Pooled s' k' p where
  live := h.live.trans hchildren.symm
  killed pid := (h.killed pid).trans (hkilled pid).symm
  closing := h.closing.trans hclosing.symm
  spared now pid todo hphase := fun hk => hspared now pid todo hphase ((hkilled pid).mp hk)

/-- A call that means nothing for the pool. -/
theorem pooled_silent (h : Pooled s k p) (htracks : Tracks config s k) (hs : Step config s e s')
    (hk : k.step e = some k') (he : e.pooled = none) : Pooled s' k' p := by
  have hchildren : k'.children = k.children := by
    refine Kernel.children_of_step hk ?_ ?_
    · rintro pid rfl
      cases he
    · rintro reply rfl
      cases he
  cases hs
  case forked | notified | terminated | reapUnknown | reaped => cases he
  case signalAgain hsignal _ => simp [Event.pooled, hsignal] at he
  case signalFirst hsignal _ => simp [Event.pooled, hsignal] at he
  case pollFailed herrno => simp [Event.pooled, herrno] at he
  case inserted pid parent t hphase =>
    refine h.kept hchildren (hasKilled_inserted (htracks.fresh pid ?_)) ?_ ?_
    · rw [hphase]
      rfl
    · simp [State.closing, hphase, Phase.cause]
    · simp
  case stampRead hphase _ =>
    refine h.kept hchildren hasKilled_noteStamp rfl ?_
    intro now pid todo hterminate
    cases hphase.symm.trans hterminate
  case enforceCalm hphase _ =>
    refine h.kept hchildren (hasKilled_of_workers (by simp)) ?_ fun _ _ _ => spared_enforceNext
    simp only [State.closing, State.enforceNext_fields, State.enforceNext_cause, hphase]
    rfl
  case enforceDraining hphase _ =>
    refine h.kept hchildren (hasKilled_of_workers (by simp)) ?_ fun _ _ _ => spared_enforceNext
    simp only [State.closing, State.enforceNext_fields, State.enforceNext_cause, hphase]
    rfl
  all_goals
    refine h.kept hchildren (hasKilled_of_workers (by simp)) ?_ (by simp_all)
    simp_all [State.closing, Phase.cause]

/-- A fork finds room in an open pool. -/
theorem pooled_forked {pid : Pid} {parent child : RawFd} (h : Pooled s k p)
    (htracks : Tracks config s k) (hphase : s.phase = .fork parent child)
    (hk : k.step (.fork (.ok pid)) = some k') :
    ∃ p', Pool.step config.workers p (.join pid) = some p' ∧
      Pooled { s with phase := .closeChild pid parent child } k' p' := by
  have hcard := (htracks.forked hphase hk).card_le
  obtain ⟨hnew, rfl⟩ : pid ∉ k.children ∧ { k with children := insert pid k.children } = k' := by
    simpa [Kernel.step] using hk
  rw [Finset.card_insert_of_notMem hnew, ← h.live] at hcard
  have hdraining : s.draining = none := htracks.undrained (by rw [hphase]; rfl)
  have hopen : p.closing = false := by
    rw [h.closing, State.closing, hdraining, hphase]
    rfl
  refine ⟨{ p with live := insert pid p.live }, ?_, ?_⟩
  · rw [Pool.step, if_pos ⟨hopen, h.live ▸ hnew, hcard⟩]
  · refine ⟨by rw [h.live], h.killed, ?_, by simp⟩
    rw [hopen, State.closing, hdraining]
    rfl

/-- A worker is killed once. -/
theorem pooled_terminated {now : Nat} {pid : Pid} {todo : List Pid} (h : Pooled s k p)
    (htracks : Tracks config s k) (hphase : s.phase = .terminate now pid todo) :
    ∃ p', Pool.step config.workers p (.mark .killed pid) = some p' ∧
      Pooled
        { s with workers := s.workers.modify pid Worker.markKilled, phase := .enforce now todo }
        k p' := by
  have hmem : pid ∈ s.workers := htracks.todo pid (by rw [hphase]; exact List.mem_cons_self)
  have hlive : pid ∈ p.live := h.live ▸ (htracks.children pid).mpr (Or.inl hmem)
  have hspared : pid ∉ p.marked .killed := fun hkilled =>
    h.spared now pid todo hphase ((h.killed pid).mp hkilled)
  refine ⟨{ p with marked := Function.update p.marked .killed (insert pid (p.marked .killed)) },
    ?_, h.live, ?_, ?_, by simp⟩
  · rw [Pool.step, if_pos ⟨hlive, hspared⟩]
  · intro q
    dsimp only
    rw [Function.update_self, Finset.mem_insert, h.killed, hasKilled_markKilled hmem]
  · rw [h.closing, State.closing, State.closing, hphase]
    rfl

/-- A child that is waited for leaves the table and the pool together. -/
theorem pooled_reaped {pid : Pid} {status : WaitStatus} {w : Worker} (h : Pooled s k p)
    (hphase : s.phase = .reap) (hk : k.step (.waitpid (some (pid, status))) = some k') :
    ∃ p', Pool.step config.workers p (.leave pid) = some p' ∧
      Pooled ({ s with workers := s.workers.erase pid }.classify w status) k' p' := by
  obtain ⟨hmem, rfl⟩ : pid ∈ k.children ∧ { k with children := k.children.erase pid } = k' := by
    simpa [Kernel.step] using hk
  refine ⟨_, by rw [Pool.step, if_pos (h.live ▸ hmem)], by rw [h.live], ?_, ?_, ?_⟩
  · intro q
    rw [Finset.mem_erase, h.killed, hasKilled_erased]
  · simp only [h.closing, State.closing, State.classify_fields, State.classify_cause, hphase]
    rfl
  · intro now pid' todo hterminate
    rw [State.classify_phase] at hterminate
    split at hterminate <;> cases hterminate

/-- The manager is asked to end. -/
theorem pooled_asked (h : Pooled s k p) (hchildren : k'.children = k.children)
    (hworkers : s'.workers = s.workers) (hclosing : s'.closing = true)
    (hspared : ∀ now pid todo, s'.phase ≠ .terminate now pid todo) :
    ∃ p', Pool.step config.workers p .close = some p' ∧ Pooled s' k' p' := by
  refine ⟨{ p with closing := true }, rfl, h.live.trans hchildren.symm, ?_, hclosing.symm, ?_⟩
  · exact fun pid => (h.killed pid).trans (hasKilled_of_workers hworkers pid).symm
  · exact fun now pid todo hphase => absurd hphase (hspared now pid todo)

/-- A call that the pool notices. -/
theorem pooled_visible {d : Pool.Event Pid Mark} (h : Pooled s k p) (htracks : Tracks config s k)
    (hdated : Dated s) (hs : Step config s e s') (hk : k.step e = some k')
    (he : e.pooled = some d) :
    ∃ p', Pool.step config.workers p d = some p' ∧ Pooled s' k' p' := by
  cases hs
  case forked hphase =>
    cases he
    exact pooled_forked h htracks hphase hk
  case terminated hphase =>
    cases he
    cases hk
    exact pooled_terminated h htracks hphase
  case reaped hphase _ =>
    cases he
    exact pooled_reaped h hphase hk
  case reapUnknown pid status hphase hw =>
    -- The kernel hands over the manager's own children, and they are in the table.
    have hmem : pid ∈ k.children := by
      by_contra hnot
      simp [Kernel.step, hnot] at hk
    rw [(htracks.laws.keys_eq (by rw [hphase]; rfl) pid).symm] at hmem
    rw [Std.ExtTreeMap.getElem?_eq_some_getElem hmem] at hw
    cases hw
  case notified pid todo hphase =>
    cases he
    cases hk
    have hmem : pid ∈ s.workers := htracks.todo pid (by rw [hphase]; exact List.mem_cons_self)
    have hlive : pid ∈ p.live := h.live ▸ (htracks.children pid).mpr (Or.inl hmem)
    have hdraining := hdated _ hphase
    have hclosing : p.closing = true := by
      rw [h.closing, State.closing, hdraining]
      rfl
    refine ⟨p, by rw [Pool.step, if_pos ⟨hclosing, hlive⟩], h.live, h.killed, ?_, by simp⟩
    rw [hclosing, State.closing, hdraining]
    rfl
  case signalIgnored hsignal => simp [Event.pooled, hsignal] at he
  case signalAgain hsignal hdraining =>
    simp only [Event.pooled, hsignal, if_true, Option.some.injEq] at he
    subst he
    cases hk
    exact pooled_asked h rfl rfl (by simp [State.closing, Phase.cause]) (by simp)
  case signalFirst hsignal _ =>
    simp only [Event.pooled, hsignal, if_true, Option.some.injEq] at he
    subst he
    cases hk
    exact pooled_asked h rfl rfl (by simp [State.closing, Phase.cause]) (by simp)
  case pollInterrupted => simp [Event.pooled] at he
  case pollFailed herrno =>
    simp only [Event.pooled, herrno, if_false, Option.some.injEq] at he
    subst he
    cases hk
    exact pooled_asked h rfl rfl (by simp [State.closing, Phase.cause]) (by simp)
  all_goals cases he

/-- Only a child that is waited for leaves the pool. -/
theorem pooled_leave {pid : Pid} (he : e.pooled = some (.leave pid)) :
    ∃ status, e = .waitpid (some (pid, status)) := by
  unfold Event.pooled at he
  split at he
  case h_4 status =>
    cases he
    exact ⟨status, rfl⟩
  case h_5 => split at he <;> cases he
  case h_6 => split at he <;> cases he
  all_goals cases he

/-- The manager takes no connection. -/
theorem pooled_ne_served {pid : Pid} : e.pooled ≠ some (.mark .served pid) := by
  intro he
  unfold Event.pooled at he
  split at he
  case h_5 => split at he <;> cases he
  case h_6 => split at he <;> cases he
  all_goals cases he

end Steps

end Manager

end Polychrome

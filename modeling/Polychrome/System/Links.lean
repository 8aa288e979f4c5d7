import Polychrome.System.Composition

/-!
# What belongs to whom

Every entry of the worker table has its process and its event socket, and no
socket is shared.  From this follows what the manager knows of the stamp a
child has sent: it has noted it, or the stamp is still unread.

Main results:

- Definition {lit}`Linked` and theorem {lit}`run_linked`: the worker table, the
  processes and the sockets belong together in every state of the system.
-/

namespace Polychrome

namespace System

/-! ## Workers, processes and sockets -/

/-- The descriptors this phase is about to close, and the pair that no child has
been forked for. -/
def loose : Manager.Phase → List RawFd
  | .fork parent child => [parent, child]
  | .unwind fds => fds
  | .closeChild _ _ child => [child]
  | .elapsed w | .startupFailed w => [w.events]
  | .dropWorker fd => [fd]
  | _ => []

/-- The child that has been forked and has no entry yet, with its socket. -/
def newborn : Manager.Phase → Option (Pid × RawFd)
  | .closeChild pid parent _ | .born pid parent => some (pid, parent)
  | _ => none

/-- The stamp that the manager has noted for a process. -/
def State.noted (s : State) (pid : Pid) : Option Nat :=
  s.manager.workers[pid]?.bind Manager.Worker.started

/-- The worker table, the processes and the sockets belong together. -/
structure Linked (s : State) : Prop where
  procs_iff : ∀ pid, pid ∈ s.procs ↔ pid ∈ s.kernel.children
  worker : ∀ (pid : Pid) (w : Manager.Worker), s.manager.workers[pid]? = some w →
    ∃ p : Process, s.procs[pid]? = some p ∧ p.channel = w.events
  newborn : ∀ (pid : Pid) (parent : RawFd), newborn s.manager.phase = some (pid, parent) →
    ∃ p : Process, s.procs[pid]? = some p ∧ p.channel = parent
  account : ∀ (pid : Pid) (p : Process), s.procs[pid]? = some p →
    ∃ unread : List Nat, s.sockets[p.channel]? = some unread ∧
      p.past.countP Child.Event.stamps = unread.length + (s.noted pid).toList.length
  distinct : ∀ (pid pid' : Pid) (p p' : Process), s.procs[pid]? = some p →
    s.procs[pid']? = some p' → p.channel = p'.channel → pid = pid'
  loose : ∀ fd ∈ loose s.manager.phase, ∀ (pid : Pid) (p : Process),
    s.procs[pid]? = some p → p.channel ≠ fd
  pair : ∀ parent child, s.manager.phase = .fork parent child →
    s.sockets[parent]? = some [] ∧ parent ≠ child

section Links

variable {s s' : State}

/-- A child's channel is one of the open sockets. -/
theorem Linked.channel_mem (h : Linked s) {pid : Pid} {p : Process}
    (hp : s.procs[pid]? = some p) : p.channel ∈ s.sockets := by
  rcases h.account pid p hp with ⟨unread, hunread, -⟩
  rw [Std.ExtTreeMap.mem_iff_isSome_getElem?, hunread]
  rfl

/-- The same processes with the same sockets. -/
structure SameChannels (s s' : State) : Prop where
  mem_iff : ∀ pid, pid ∈ s'.procs ↔ pid ∈ s.procs
  back : ∀ (pid : Pid) (p : Process), s'.procs[pid]? = some p →
    ∃ p₀, s.procs[pid]? = some p₀ ∧ p₀.channel = p.channel

/-- Children that stay as they are keep their channels. -/
theorem SameChannels.untouched (hprocs : s'.procs = s.procs) : SameChannels s s' where
  mem_iff pid := by rw [hprocs]
  back pid p hp := ⟨p, hprocs ▸ hp, rfl⟩

/-- A child behind a step has the channel it had before. -/
theorem SameChannels.forth (h : SameChannels s s') {pid : Pid} {p : Process}
    (hp : s.procs[pid]? = some p) : ∃ p', s'.procs[pid]? = some p' ∧ p'.channel = p.channel := by
  have hmem : pid ∈ s'.procs := by
    rw [h.mem_iff, Std.ExtTreeMap.mem_iff_isSome_getElem?, hp]
    rfl
  rw [Std.ExtTreeMap.mem_iff_isSome_getElem?] at hmem
  rcases Option.isSome_iff_exists.mp hmem with ⟨p', hp'⟩
  rcases h.back pid p' hp' with ⟨p₀, hp₀, hchannel⟩
  cases hp.symm.trans hp₀
  exact ⟨p', hp', hchannel.symm⟩

/-- A process that moves keeps its socket. -/
theorem SameChannels.stepped {pid : Pid} {p p' : Process} (hp : s.procs[pid]? = some p)
    (hchannel : p'.channel = p.channel) (hprocs : s'.procs = s.procs.insert pid p') :
    SameChannels s s' where
  mem_iff pid' := by
    rw [hprocs, Std.ExtTreeMap.mem_insert, Std.LawfulEqCmp.compare_eq_iff_eq]
    constructor
    · rintro (rfl | hmem)
      · rw [Std.ExtTreeMap.mem_iff_isSome_getElem?, hp]
        rfl
      · exact hmem
    · exact Or.inr
  back pid' q hq := by
    rw [hprocs, Std.ExtTreeMap.getElem?_insert] at hq
    split at hq
    case isTrue heq =>
      cases hq
      rw [Std.LawfulEqCmp.eq_of_compare heq] at hp
      exact ⟨p, hp, hchannel.symm⟩
    case isFalse => exact ⟨q, hq, rfl⟩

/-- While the processes keep their sockets, only the accounts and a new pair of
sockets are left to be looked after.  A worker may be new if its child was
waiting for its entry. -/
theorem Linked.carried (h : Linked s) (hsame : SameChannels s s')
    (hkernel : s'.kernel.children = s.kernel.children)
    (hworker : ∀ (pid : Pid) (w : Manager.Worker), s'.manager.workers[pid]? = some w →
      (∃ w₀, s.manager.workers[pid]? = some w₀ ∧ w₀.events = w.events) ∨
        System.newborn s.manager.phase = some (pid, w.events))
    (hnewborn : ∀ x, System.newborn s'.manager.phase = some x →
      System.newborn s.manager.phase = some x)
    (hloose : ∀ fd ∈ System.loose s'.manager.phase, ∀ (pid : Pid) (p : Process),
      s.procs[pid]? = some p → p.channel ≠ fd)
    (haccount : ∀ (pid : Pid) (p : Process), s'.procs[pid]? = some p →
      ∃ unread : List Nat, s'.sockets[p.channel]? = some unread ∧
        p.past.countP Child.Event.stamps = unread.length + (s'.noted pid).toList.length)
    (hpair : ∀ parent child, s'.manager.phase = .fork parent child →
      s'.sockets[parent]? = some [] ∧ parent ≠ child) : Linked s' where
  procs_iff pid := by
    rw [hkernel, hsame.mem_iff]
    exact h.procs_iff pid
  worker pid w hw := by
    have hold : ∃ p, s.procs[pid]? = some p ∧ p.channel = w.events := by
      rcases hworker pid w hw with ⟨w₀, hw₀, hevents⟩ | hborn
      · rw [← hevents]
        exact h.worker pid w₀ hw₀
      · exact h.newborn pid w.events hborn
    rcases hold with ⟨p, hp, hchannel⟩
    rcases hsame.forth hp with ⟨p', hp', hchannel'⟩
    exact ⟨p', hp', hchannel'.trans hchannel⟩
  newborn pid parent hphase := by
    rcases h.newborn pid parent (hnewborn _ hphase) with ⟨p, hp, hchannel⟩
    rcases hsame.forth hp with ⟨p', hp', hchannel'⟩
    exact ⟨p', hp', hchannel'.trans hchannel⟩
  account := haccount
  distinct pid₁ pid₂ p₁ p₂ hp₁ hp₂ heq := by
    rcases hsame.back pid₁ p₁ hp₁ with ⟨q₁, hq₁, hchannel₁⟩
    rcases hsame.back pid₂ p₂ hp₂ with ⟨q₂, hq₂, hchannel₂⟩
    exact h.distinct pid₁ pid₂ q₁ q₂ hq₁ hq₂ (hchannel₁.trans (heq.trans hchannel₂.symm))
  loose fd hfd pid p hp := by
    rcases hsame.back pid p hp with ⟨p₀, hp₀, hchannel⟩
    rw [← hchannel]
    exact hloose fd hfd pid p₀ hp₀
  pair := hpair

/-- The manager goes on without touching a child. -/
theorem Linked.quiet (h : Linked s) (hprocs : s'.procs = s.procs)
    (hsockets : s'.sockets = s.sockets) (hworkers : s'.manager.workers = s.manager.workers)
    (hchildren : s'.kernel.children = s.kernel.children)
    (hloose : ∀ fd ∈ System.loose s'.manager.phase, fd ∈ System.loose s.manager.phase)
    (hnewborn : ∀ x, System.newborn s'.manager.phase = some x →
      System.newborn s.manager.phase = some x)
    (hpair : ∀ parent child, s'.manager.phase ≠ .fork parent child) : Linked s' := by
  refine h.carried (.untouched hprocs) hchildren ?_ hnewborn
    (fun fd hfd => h.loose fd (hloose fd hfd)) ?_
    fun parent child hphase => absurd hphase (hpair parent child)
  · intro pid w hw
    rw [hworkers] at hw
    exact Or.inl ⟨w, hw, rfl⟩
  · unfold State.noted
    rw [hprocs, hsockets, hworkers]
    exact h.account

/-- A new socket belongs to nobody yet. -/
theorem Linked.paired (h : Linked s) {parent child : RawFd} (hparent : parent ∉ s.sockets)
    (hchild : child ∉ s.sockets) (hne : parent ≠ child) (hprocs : s'.procs = s.procs)
    (hsockets : s'.sockets = s.sockets.insert parent [])
    (hmanager : s'.manager = { s.manager with phase := .fork parent child })
    (hkernel : s'.kernel.children = s.kernel.children) : Linked s' := by
  refine h.carried (.untouched hprocs) hkernel ?_ ?_ ?_ ?_ ?_
  · intro pid w hw
    rw [hmanager] at hw
    exact Or.inl ⟨w, hw, rfl⟩
  · simp [hmanager, System.newborn]
  · intro fd hfd pid p hp heq
    rw [hmanager] at hfd
    simp only [System.loose, List.mem_cons, List.not_mem_nil, or_false] at hfd
    rcases hfd with rfl | rfl
    · exact hparent (heq ▸ h.channel_mem hp)
    · exact hchild (heq ▸ h.channel_mem hp)
  · intro pid p hp
    rw [hprocs] at hp
    rcases h.account pid p hp with ⟨unread, hunread, haccount⟩
    have hother : parent ≠ p.channel := by
      rintro rfl
      exact hparent (h.channel_mem hp)
    refine ⟨unread, ?_, by simpa only [State.noted, hmanager] using haccount⟩
    rw [hsockets, Std.ExtTreeMap.getElem?_insert, if_neg (by simpa using hother)]
    exact hunread
  · intro parent' child' hphase
    rw [hmanager] at hphase
    cases hphase
    rw [hsockets]
    exact ⟨Std.ExtTreeMap.getElem?_insert_self, hne⟩

/-- The new child takes the socket over. -/
theorem Linked.forked (h : Linked s) {pid : Pid} {parent child : RawFd} {inherited : List RawFd}
    (hphase : s.manager.phase = .fork parent child) (hnew : pid ∉ s.kernel.children)
    (hunknown : s.manager.workers[pid]? = none)
    (hprocs : s'.procs = s.procs.insert pid (Process.fork inherited parent))
    (hsockets : s'.sockets = s.sockets)
    (hmanager : s'.manager = { s.manager with phase := .closeChild pid parent child })
    (hkernel : s'.kernel.children = insert pid s.kernel.children) : Linked s' := by
  have hother : ∀ {p : Process} {pid' : Pid}, s'.procs[pid']? = some p →
      (pid' = pid ∧ p = Process.fork inherited parent) ∨ pid ≠ pid' ∧ s.procs[pid']? = some p := by
    intro p pid' hp
    rw [hprocs, Std.ExtTreeMap.getElem?_insert] at hp
    split at hp
    case isTrue heq =>
      cases hp
      exact Or.inl ⟨(Std.LawfulEqCmp.eq_of_compare heq).symm, rfl⟩
    case isFalse hne => exact Or.inr ⟨by simpa using hne, hp⟩
  have hold : ∀ {p : Process} {pid' : Pid}, s.procs[pid']? = some p → s'.procs[pid']? = some p := by
    intro p pid' hp
    have hmem : pid' ∈ s.procs := by
      rw [Std.ExtTreeMap.mem_iff_isSome_getElem?, hp]
      rfl
    have hne : pid ≠ pid' := by
      rintro rfl
      exact hnew ((h.procs_iff pid).mp hmem)
    rw [hprocs, Std.ExtTreeMap.getElem?_insert, if_neg (by simpa using hne)]
    exact hp
  have hpair := h.pair parent child hphase
  have hloose : ∀ fd ∈ [parent, child], ∀ (pid : Pid) (p : Process), s.procs[pid]? = some p →
      p.channel ≠ fd := by simpa [hphase, System.loose] using h.loose
  exact {
    procs_iff := by
      intro pid'
      rw [hprocs, hkernel, Std.ExtTreeMap.mem_insert, Finset.mem_insert, h.procs_iff,
        Std.LawfulEqCmp.compare_eq_iff_eq, eq_comm]
    worker := by
      intro pid' w hw
      rw [hmanager] at hw
      rcases h.worker pid' w hw with ⟨p, hp, hchannel⟩
      exact ⟨p, hold hp, hchannel⟩
    newborn := by
      intro pid' parent' hnewborn
      rw [hmanager] at hnewborn
      cases hnewborn
      refine ⟨Process.fork inherited parent, ?_, rfl⟩
      rw [hprocs, Std.ExtTreeMap.getElem?_insert_self]
    account := by
      intro pid' p hp
      rw [hsockets]
      simp only [State.noted, hmanager]
      rcases hother hp with ⟨rfl, rfl⟩ | ⟨-, hp⟩
      · refine ⟨[], hpair.1, ?_⟩
        simp [Process.fork, hunknown]
      · exact h.account pid' p hp
    distinct := by
      intro pid₁ pid₂ p₁ p₂ hp₁ hp₂ heq
      rcases hother hp₁ with ⟨rfl, rfl⟩ | ⟨-, hp₁⟩ <;> rcases hother hp₂ with ⟨rfl, rfl⟩ | ⟨-, hp₂⟩
      · rfl
      · exact absurd heq.symm (hloose parent List.mem_cons_self pid₂ p₂ hp₂)
      · exact absurd heq (hloose parent List.mem_cons_self pid₁ p₁ hp₁)
      · exact h.distinct pid₁ pid₂ p₁ p₂ hp₁ hp₂ heq
    loose := by
      intro fd hfd pid' p hp
      rw [hmanager] at hfd
      simp only [System.loose, List.mem_singleton] at hfd
      subst hfd
      rcases hother hp with ⟨rfl, rfl⟩ | ⟨-, hp⟩
      · exact hpair.2
      · exact hloose fd (by simp) pid' p hp
    pair := by simp [hmanager] }

/-- The socket of a loose descriptor goes. -/
theorem Linked.closed (h : Linked s) {fd : RawFd} (hfd : fd ∈ System.loose s.manager.phase)
    (hprocs : s'.procs = s.procs) (hsockets : s'.sockets = s.sockets.erase fd)
    (hworkers : s'.manager.workers = s.manager.workers)
    (hkernel : s'.kernel.children = s.kernel.children)
    (hloose : ∀ fd ∈ System.loose s'.manager.phase, fd ∈ System.loose s.manager.phase)
    (hnewborn : ∀ x, System.newborn s'.manager.phase = some x →
      System.newborn s.manager.phase = some x)
    (hpair : ∀ parent child, s'.manager.phase ≠ .fork parent child) : Linked s' := by
  refine h.carried (.untouched hprocs) hkernel ?_ hnewborn
    (fun fd hfd => h.loose fd (hloose fd hfd)) ?_
    fun parent child hphase => absurd hphase (hpair parent child)
  · intro pid w hw
    rw [hworkers] at hw
    exact Or.inl ⟨w, hw, rfl⟩
  · intro pid p hp
    rw [hprocs] at hp
    rcases h.account pid p hp with ⟨unread, hunread, haccount⟩
    refine ⟨unread, ?_, by simpa only [State.noted, hworkers] using haccount⟩
    have hother : fd ≠ p.channel := (h.loose fd hfd pid p hp).symm
    rw [hsockets, Std.ExtTreeMap.getElem?_erase, if_neg (by simpa using hother)]
    exact hunread

/-- The worker table takes the new child over. -/
theorem Linked.inserted (h : Linked s) {pid : Pid} {parent : RawFd} {t : Instant}
    (hphase : s.manager.phase = .born pid parent) (hunknown : s.manager.workers[pid]? = none)
    (hprocs : s'.procs = s.procs) (hsockets : s'.sockets = s.sockets)
    (hmanager : s'.manager = { s.manager.insertWorker pid parent t with phase := .spawnTest })
    (hkernel : s'.kernel.children = s.kernel.children) : Linked s' := by
  have hworkers : ∀ pid', s'.manager.workers[pid']? =
      if pid = pid' then some { events := parent, started := none, killed := false, born := t }
      else s.manager.workers[pid']? := by
    intro pid'
    rw [hmanager]
    simp only [Manager.State.insertWorker, Std.ExtTreeMap.getElem?_insert,
      Std.LawfulEqCmp.compare_eq_iff_eq]
  have hnoted : ∀ pid', s'.noted pid' = s.noted pid' := by
    intro pid'
    unfold State.noted
    rw [hworkers]
    split
    case isTrue heq =>
      subst heq
      rw [hunknown]
      rfl
    case isFalse => rfl
  refine h.carried (.untouched hprocs) hkernel ?_ ?_ ?_ ?_ ?_
  · intro pid' w hw
    rw [hworkers] at hw
    split at hw
    case isTrue heq =>
      subst heq
      cases hw
      exact Or.inr (by rw [hphase]; rfl)
    case isFalse => exact Or.inl ⟨w, hw, rfl⟩
  · simp [hmanager, System.newborn]
  · simp [hmanager, System.loose]
  · intro pid' p hp
    rw [hprocs] at hp
    rw [hsockets, hnoted]
    exact h.account pid' p hp
  · simp [hmanager]

/-- A stamp moves from the socket to the table. -/
theorem Linked.stampRead (h : Linked s) {pid : Pid} {todo : List Pid} {w : Manager.Worker}
    {value : Nat} {unread : List Nat} (hphase : s.manager.phase = .stamps (pid :: todo))
    (hw : s.manager.workers[pid]? = some w)
    (hunread : s.sockets[w.events]? = some (value :: unread))
    (hprocs : s'.procs = s.procs) (hsockets : s'.sockets = s.sockets.insert w.events unread)
    (hmanager : s'.manager =
      { s.manager with workers := s.manager.workers.modify pid (Manager.Worker.noteStamp value) })
    (hkernel : s'.kernel.children = s.kernel.children) : Linked s' := by
  rcases h.worker pid w hw with ⟨q, hq, hchannel⟩
  have hworkers : ∀ pid', s'.manager.workers[pid']? =
      if pid = pid' then some (w.noteStamp value) else s.manager.workers[pid']? := by
    intro pid'
    rw [hmanager]
    simp only [Std.ExtTreeMap.getElem?_modify, Std.LawfulEqCmp.compare_eq_iff_eq]
    split
    case isTrue heq =>
      subst heq
      rw [hw]
      rfl
    case isFalse => rfl
  have hphase' : s'.manager.phase = s.manager.phase := by rw [hmanager]
  refine h.carried (.untouched hprocs) hkernel ?_ ?_ ?_ ?_ ?_
  · intro pid' w' hw'
    rw [hworkers] at hw'
    split at hw'
    case isTrue heq =>
      subst heq
      cases hw'
      exact Or.inl ⟨w, hw, rfl⟩
    case isFalse => exact Or.inl ⟨w', hw', rfl⟩
  · simp [hphase', hphase, System.newborn]
  · simp [hphase', hphase, System.loose]
  · intro pid' p hp
    rw [hprocs] at hp
    rcases h.account pid' p hp with ⟨unread', hunread', haccount⟩
    by_cases hpid : pid = pid'
    · subst hpid
      cases hq.symm.trans hp
      rw [hchannel, hunread] at hunread'
      cases hunread'
      refine ⟨unread, by rw [hsockets, hchannel, Std.ExtTreeMap.getElem?_insert_self], ?_⟩
      -- A child sends no second stamp, so this one is the first to be noted.
      have hone := (Child.run_stamps q.run).le_one
      rw [haccount, List.length_cons] at hone
      have hnone : (s.noted pid).toList.length = 0 := by omega
      have hnoted : (s'.noted pid).toList.length = 1 := by
        simp [State.noted, hworkers, Manager.Worker.noteStamp]
      rw [haccount, hnone, hnoted]
      rfl
    · have hother : w.events ≠ p.channel := by
        intro heq
        exact hpid (h.distinct pid pid' q p hq hp (hchannel.trans heq))
      refine ⟨unread', ?_, ?_⟩
      · rw [hsockets, Std.ExtTreeMap.getElem?_insert, if_neg (by simpa using hother)]
        exact hunread'
      · simpa only [State.noted, hworkers, if_neg hpid] using haccount
  · simp [hphase', hphase]

/-- The same processes with the same sockets, none of which has sent a stamp in
between. -/
structure SameProcs (s s' : State) : Prop where
  mem_iff : ∀ pid, pid ∈ s'.procs ↔ pid ∈ s.procs
  back : ∀ (pid : Pid) (p : Process), s'.procs[pid]? = some p →
    ∃ p₀, s.procs[pid]? = some p₀ ∧ p₀.channel = p.channel ∧
      p.past.countP Child.Event.stamps = p₀.past.countP Child.Event.stamps

/-- Processes that send no stamp keep their sockets. -/
theorem SameProcs.channels (h : SameProcs s s') : SameChannels s s' where
  mem_iff := h.mem_iff
  back pid p hp := by
    rcases h.back pid p hp with ⟨p₀, hp₀, hchannel, -⟩
    exact ⟨p₀, hp₀, hchannel⟩

/-- A signal that the manager sends is not a stamp. -/
theorem SameProcs.raised {pid : Pid} {signal : Signal}
    (hprocs : s'.procs = s.procs.modify pid fun p => p.raise signal) : SameProcs s s' where
  mem_iff pid' := by rw [hprocs, Std.ExtTreeMap.mem_modify]
  back pid' p hp := by
    rw [hprocs, Std.ExtTreeMap.getElem?_modify] at hp
    split at hp
    case isTrue heq =>
      rcases Option.map_eq_some_iff.mp hp with ⟨p₀, hp₀, rfl⟩
      rw [Std.LawfulEqCmp.eq_of_compare heq] at hp₀
      refine ⟨p₀, hp₀, rfl, ?_⟩
      simp [Process.raise, List.countP_append, Child.Event.stamps]
    case isFalse => exact ⟨p, hp, rfl, rfl⟩

/-- A step of a child that sends no stamp changes neither the sockets nor the stamps sent. -/
theorem SameProcs.stepped {pid : Pid} {p p' : Process} {e : Child.Event}
    (hp : s.procs[pid]? = some p) (hstep : p.step e = some p') (he : e.stamps = false)
    (hprocs : s'.procs = s.procs.insert pid p') : SameProcs s s' where
  mem_iff := by
    rcases Process.step_eq_some hstep with ⟨-, hchannel, -, -⟩
    exact (SameChannels.stepped hp hchannel hprocs).mem_iff
  back pid' q hq := by
    rw [hprocs, Std.ExtTreeMap.getElem?_insert] at hq
    split at hq
    case isTrue heq =>
      cases hq
      rw [Std.LawfulEqCmp.eq_of_compare heq] at hp
      rcases Process.step_eq_some hstep with ⟨-, hchannel, hpast, -⟩
      exact ⟨p, hp, hchannel.symm, by simp [hpast, List.countP_append, he]⟩
    case isFalse => exact ⟨q, hq, rfl, rfl⟩

/-- The processes move on without a stamp. -/
theorem Linked.replaced (h : Linked s) (hsame : SameProcs s s') (hsockets : s'.sockets = s.sockets)
    (hworker : ∀ (pid : Pid) (w : Manager.Worker), s'.manager.workers[pid]? = some w →
      ∃ w₀, s.manager.workers[pid]? = some w₀ ∧ w₀.events = w.events)
    (hnoted : ∀ pid, s'.noted pid = s.noted pid)
    (hkernel : s'.kernel.children = s.kernel.children)
    (hloose : ∀ fd ∈ System.loose s'.manager.phase, fd ∈ System.loose s.manager.phase)
    (hnewborn : ∀ x, System.newborn s'.manager.phase = some x →
      System.newborn s.manager.phase = some x)
    (hpair : ∀ parent child, s'.manager.phase = .fork parent child →
      s.manager.phase = .fork parent child) : Linked s' := by
  refine h.carried hsame.channels hkernel (fun pid w hw => Or.inl (hworker pid w hw)) hnewborn
    (fun fd hfd => h.loose fd (hloose fd hfd)) ?_ ?_
  · intro pid p hp
    rcases hsame.back pid p hp with ⟨p₀, hp₀, hchannel, hsends⟩
    rw [hsockets, hnoted, hsends, ← hchannel]
    exact h.account pid p₀ hp₀
  · intro parent child hphase
    rw [hsockets]
    exact h.pair parent child (hpair parent child hphase)

/-- A process that has been waited for leaves its socket behind. -/
theorem Linked.reaped (h : Linked s) {pid : Pid} {w : Manager.Worker} {status : WaitStatus}
    (hw : s.manager.workers[pid]? = some w) (hprocs : s'.procs = s.procs.erase pid)
    (hsockets : s'.sockets = s.sockets)
    (hmanager : s'.manager =
      { s.manager with workers := s.manager.workers.erase pid }.classify w status)
    (hkernel : s'.kernel.children = s.kernel.children.erase pid) : Linked s' := by
  rcases h.worker pid w hw with ⟨q, hq, hchannel⟩
  have hworkers : ∀ pid', s'.manager.workers[pid']? =
      if pid = pid' then none else s.manager.workers[pid']? := by
    intro pid'
    simp only [hmanager, Manager.State.classify_fields, Std.ExtTreeMap.getElem?_erase,
      Std.LawfulEqCmp.compare_eq_iff_eq]
  have hback : ∀ {pid' : Pid} {p : Process}, s'.procs[pid']? = some p →
      pid ≠ pid' ∧ s.procs[pid']? = some p := by
    intro pid' p hp
    rw [hprocs, Std.ExtTreeMap.getElem?_erase] at hp
    split at hp
    · cases hp
    case isFalse hne => exact ⟨by simpa using hne, hp⟩
  have hforth : ∀ {pid' : Pid} {p : Process}, pid ≠ pid' → s.procs[pid']? = some p →
      s'.procs[pid']? = some p := by
    intro pid' p hne hp
    rw [hprocs, Std.ExtTreeMap.getElem?_erase, if_neg (by simpa using hne)]
    exact hp
  have hphase : s'.manager.phase = .elapsed w ∨ s'.manager.phase = .dropWorker w.events := by
    rw [hmanager, Manager.State.classify_phase]
    split
    · exact Or.inl rfl
    · exact Or.inr rfl
  exact {
    procs_iff := by
      intro pid'
      rw [hprocs, hkernel, Std.ExtTreeMap.mem_erase, Finset.mem_erase, h.procs_iff]
      simp only [ne_eq, Std.LawfulEqCmp.compare_eq_iff_eq]
      rw [eq_comm]
    worker := by
      intro pid' w' hw'
      rw [hworkers] at hw'
      split at hw'
      · cases hw'
      case isFalse hne =>
        rcases h.worker pid' w' hw' with ⟨p, hp, hp'⟩
        exact ⟨p, hforth hne hp, hp'⟩
    newborn := by
      rcases hphase with hphase | hphase <;> simp [hphase, System.newborn]
    account := by
      intro pid' p hp
      rcases hback hp with ⟨hne, hp⟩
      rw [hsockets]
      simp only [State.noted, hworkers, if_neg hne]
      exact h.account pid' p hp
    distinct := by
      intro pid₁ pid₂ p₁ p₂ hp₁ hp₂
      exact h.distinct pid₁ pid₂ p₁ p₂ (hback hp₁).2 (hback hp₂).2
    loose := by
      intro fd hfd pid' p hp heq
      rcases hback hp with ⟨hne, hp⟩
      have hevents : fd = w.events := by
        rcases hphase with hphase | hphase <;> simpa [hphase, System.loose] using hfd
      exact hne (h.distinct pid pid' q p hq hp (hchannel.trans (hevents.symm.trans heq.symm)))
    pair := by
      rcases hphase with hphase | hphase <;> simp [hphase] }

/-- A stamp is sent and waits in the socket. -/
theorem Linked.sent (h : Linked s) {pid : Pid} {p p' : Process} {stamp : Nat}
    (hp : s.procs[pid]? = some p) (hstep : p.step (.send stamp true) = some p')
    (hprocs : s'.procs = s.procs.insert pid p')
    (hsockets : s'.sockets = s.sockets.modify p.channel fun unread => unread ++ [stamp])
    (hmanager : s'.manager = s.manager) (hkernel : s'.kernel = s.kernel) : Linked s' := by
  rcases Process.step_eq_some hstep with ⟨-, hchannel, hpast, -⟩
  have hnoted : ∀ pid', s'.noted pid' = s.noted pid' := by
    intro pid'
    rw [State.noted, hmanager, State.noted]
  refine h.carried (.stepped hp hchannel hprocs) (by rw [hkernel]) ?_ ?_ ?_ ?_ ?_
  · intro pid' w hw
    rw [hmanager] at hw
    exact Or.inl ⟨w, hw, rfl⟩
  · rw [hmanager]
    exact fun x hx => hx
  · rw [hmanager]
    exact h.loose
  · intro pid' q hq
    rw [hnoted]
    rw [hprocs, Std.ExtTreeMap.getElem?_insert] at hq
    split at hq
    case isTrue heq =>
      rw [← Std.LawfulEqCmp.eq_of_compare heq]
      cases hq
      rcases h.account pid p hp with ⟨unread, hunread, haccount⟩
      refine ⟨unread ++ [stamp], ?_, ?_⟩
      · rw [hsockets, hchannel, Std.ExtTreeMap.getElem?_modify_self, hunread]
        rfl
      · have hlast : [Child.Event.send stamp true].countP Child.Event.stamps = 1 := rfl
        rw [hpast, List.countP_append, haccount, hlast, List.length_append,
          List.length_singleton]
        omega
    case isFalse hne =>
      rcases h.account pid' q hq with ⟨unread, hunread, haccount⟩
      refine ⟨unread, ?_, haccount⟩
      have hother : p.channel ≠ q.channel := by
        intro heq
        exact hne (Std.LawfulEqCmp.compare_eq_iff_eq.mpr (h.distinct pid pid' p q hp hq heq))
      rw [hsockets, Std.ExtTreeMap.getElem?_modify, if_neg (by simpa using hother)]
      exact hunread
  · intro parent child hphase
    rw [hmanager] at hphase
    rcases h.pair parent child hphase with ⟨hempty, hne⟩
    refine ⟨?_, hne⟩
    have hother : p.channel ≠ parent :=
      h.loose parent (by rw [hphase]; exact List.mem_cons_self) pid p hp
    rw [hsockets, Std.ExtTreeMap.getElem?_modify, if_neg (by simpa using hother)]
    exact hempty

end Links

/-! ## The calls of the manager -/

section Calls

variable {config : Config} {signals : RawFd} {s t : State} {m : Manager.State}
  {k : Manager.Kernel}

/-- Two new descriptors stand for a socket that nobody has yet. -/
theorem linked_paired {parent child : RawFd} (h : Linked s)
    (hanswer : s.answer signals (.socketpair (.ok (parent, child))) = some t)
    (hchildren : k.children = s.kernel.children) :
    Linked { t with manager := { s.manager with phase := .fork parent child }, kernel := k } := by
  simp only [State.answer] at hanswer
  split at hanswer
  · cases hanswer
  case isFalse hfree =>
    cases hanswer
    simp only [not_or] at hfree
    exact h.paired hfree.1 hfree.2.1 hfree.2.2 rfl rfl rfl hchildren

/-- The process that is forked holds the other end of the newest socket. -/
theorem linked_forked {pid : Pid} {parent child : RawFd} (h : Linked s)
    (htracks : Manager.Tracks config s.manager s.kernel)
    (hphase : s.manager.phase = .fork parent child)
    (hanswer : s.answer signals (.fork (.ok pid)) = some t)
    (hk : s.kernel.step (.fork (.ok pid)) = some k) :
    Linked
      { t with
        manager := { s.manager with phase := .closeChild pid parent child }
        kernel := k } := by
  simp only [State.answer, hphase] at hanswer
  cases hanswer
  obtain ⟨hnew, rfl⟩ : pid ∉ s.kernel.children ∧
      { s.kernel with children := insert pid s.kernel.children } = k := by
    simpa [Manager.Kernel.step] using hk
  have hunknown : pid ∉ s.manager.workers := fun hmem =>
    hnew ((htracks.children pid).mpr (Or.inl hmem))
  exact h.forked hphase hnew (Std.ExtTreeMap.getElem?_eq_none hunknown) rfl rfl rfl rfl

/-- A descriptor is closed that belongs to no process. -/
theorem linked_closed {fd : RawFd} (h : Linked s) (hfd : fd ∈ loose s.manager.phase)
    (hanswer : s.answer signals (.close fd) = some t) (hworkers : m.workers = s.manager.workers)
    (hchildren : k.children = s.kernel.children)
    (hloose : ∀ fd ∈ loose m.phase, fd ∈ loose s.manager.phase)
    (hnewborn : ∀ x, newborn m.phase = some x → newborn s.manager.phase = some x)
    (hpair : ∀ parent child, m.phase ≠ .fork parent child) :
    Linked { t with manager := m, kernel := k } := by
  cases hanswer
  exact h.closed hfd rfl rfl hworkers hchildren hloose hnewborn hpair

/-- A stamp that waits in the socket is noted in the table. -/
theorem linked_stampRead {pid : Pid} {todo : List Pid} {w : Manager.Worker} {value : Nat}
    (h : Linked s) (hphase : s.manager.phase = .stamps (pid :: todo))
    (hw : s.manager.workers[pid]? = some w)
    (hanswer : s.answer signals (.recv pid w.events (some value)) = some t)
    (hchildren : k.children = s.kernel.children) :
    Linked
      { t with
        manager :=
          { s.manager with
            workers := s.manager.workers.modify pid (Manager.Worker.noteStamp value) }
        kernel := k } := by
  simp only [State.answer] at hanswer
  split at hanswer
  case h_1 hunread hvalue =>
    cases hvalue
    split at hanswer
    case isTrue heq =>
      subst heq
      cases hanswer
      exact h.stampRead hphase hw hunread rfl rfl rfl hchildren
    case isFalse => cases hanswer
  case h_2 hvalue => cases hvalue
  case h_3 => cases hanswer

/-- An empty socket is left as it is. -/
theorem linked_stampsDrained {pid : Pid} {todo : List Pid} {fd : RawFd} (h : Linked s)
    (hphase : s.manager.phase = .stamps (pid :: todo))
    (hanswer : s.answer signals (.recv pid fd none) = some t)
    (hchildren : k.children = s.kernel.children) :
    Linked { t with manager := { s.manager with phase := .stamps todo }, kernel := k } := by
  simp only [State.answer] at hanswer
  split at hanswer
  case h_1 hvalue => cases hvalue
  case h_2 =>
    cases hanswer
    refine h.quiet rfl rfl rfl hchildren ?_ ?_ ?_
    all_goals simp [hphase, loose, newborn]
  case h_3 => cases hanswer

/-- A signal is sent, and at most the mark that the worker is killed is set. -/
theorem linked_signalled {pid : Pid} {signal : Signal} (h : Linked s)
    (hanswer : s.answer signals (.kill pid signal) = some t)
    (hworker : ∀ (pid : Pid) (w : Manager.Worker), m.workers[pid]? = some w →
      ∃ w₀, s.manager.workers[pid]? = some w₀ ∧ w₀.events = w.events)
    (hnoted : ∀ pid, m.workers[pid]?.bind Manager.Worker.started = s.noted pid)
    (hchildren : k.children = s.kernel.children) (hloose : loose m.phase = [])
    (hnewborn : newborn m.phase = none) (hpair : ∀ parent child, m.phase ≠ .fork parent child) :
    Linked { t with manager := m, kernel := k } := by
  cases hanswer
  refine h.replaced (SameProcs.raised rfl) rfl hworker hnoted hchildren ?_ ?_ ?_
  · intro fd hfd
    rw [hloose] at hfd
    cases hfd
  · intro x hx
    rw [hnewborn] at hx
    cases hx
  · exact fun parent child hphase => absurd hphase (hpair parent child)

/-- To mark a worker as killed changes neither its socket nor its stamp. -/
theorem noted_markKilled (s : State) (pid pid' : Pid) :
    (s.manager.workers.modify pid Manager.Worker.markKilled)[pid']?.bind Manager.Worker.started =
      s.noted pid' := by
  rw [State.noted, Std.ExtTreeMap.getElem?_modify]
  split
  case isTrue heq =>
    rw [Std.LawfulEqCmp.eq_of_compare heq]
    cases s.manager.workers[pid']? <;> rfl
  case isFalse => rfl

/-- Killing a worker keeps manager and children linked. -/
theorem linked_terminated {now : Nat} {pid : Pid} {todo : List Pid} (h : Linked s)
    (hanswer : s.answer signals (.kill pid .sigkill) = some t)
    (hchildren : k.children = s.kernel.children) :
    Linked
      { t with
        manager :=
          { s.manager with
            workers := s.manager.workers.modify pid Manager.Worker.markKilled
            phase := .enforce now todo }
        kernel := k } := by
  refine linked_signalled h hanswer ?_ (noted_markKilled s pid) hchildren rfl rfl (by simp)
  intro pid' w hw
  rw [Std.ExtTreeMap.getElem?_modify] at hw
  split at hw
  case isTrue heq =>
    rcases Option.map_eq_some_iff.mp hw with ⟨w₀, hw₀, rfl⟩
    exact ⟨w₀, Std.LawfulEqCmp.eq_of_compare heq ▸ hw₀, rfl⟩
  case isFalse => exact ⟨w, hw, rfl⟩

/-- A process that has ended leaves the table. -/
theorem linked_reaped {pid : Pid} {status : WaitStatus} {w : Manager.Worker} (h : Linked s)
    (hw : s.manager.workers[pid]? = some w)
    (hanswer : s.answer signals (.waitpid (some (pid, status))) = some t)
    (hk : s.kernel.step (.waitpid (some (pid, status))) = some k) :
    Linked
      { t with
        manager :=
          { s.manager with workers := s.manager.workers.erase pid }.classify w status
        kernel := k } := by
  obtain ⟨-, rfl⟩ : pid ∈ s.kernel.children ∧
      { s.kernel with children := s.kernel.children.erase pid } = k := by
    simpa [Manager.Kernel.step] using hk
  simp only [State.answer] at hanswer
  split at hanswer
  · cases hanswer
  · split at hanswer
    · cases hanswer
      exact h.reaped hw rfl rfl rfl rfl
    · cases hanswer

/-- The examination of a worker changes no more than the place in the loop. -/
theorem linked_enforced (h : Linked s) (now : Nat) (pid : Pid) (todo : List Pid)
    (drainExpired : Bool) (hchildren : k.children = s.kernel.children) :
    Linked
      { s with
        manager := s.manager.enforceNext config now pid todo drainExpired
        kernel := k } := by
  refine h.quiet rfl rfl (by simp) hchildren ?_ ?_ ?_
  all_goals
    rw [Manager.State.enforceNext_phase]
    split <;> simp [loose, newborn]

/-- Every call of the manager keeps the table, the processes and the sockets together. -/
theorem linked_manager {e : Manager.Event} {m : Manager.State × Manager.Kernel} (h : Linked s)
    (htracks : Manager.Tracks config s.manager s.kernel) (hanswer : s.answer signals e = some t)
    (hs : Manager.Step config s.manager e m.1) (hk : s.kernel.step e = some m.2) :
    Linked { t with manager := m.1, kernel := m.2 } := by
  rcases m with ⟨manager, kernel⟩
  dsimp only at hs hk ⊢
  have hchildren : (∀ pid, e ≠ .fork (.ok pid)) → (∀ reply, e ≠ .waitpid (some reply)) →
      kernel.children = s.kernel.children := Manager.Kernel.children_of_step hk
  cases hs
  case paired parent child hphase =>
    exact linked_paired h hanswer (hchildren (by simp) (by simp))
  case forked pid parent child hphase => exact linked_forked h htracks hphase hanswer hk
  case inserted pid parent time hphase =>
    have hfresh : pid ∉ s.manager.workers := htracks.fresh pid (by rw [hphase]; rfl)
    cases hanswer
    exact h.inserted hphase (Std.ExtTreeMap.getElem?_eq_none hfresh) rfl rfl rfl
      (hchildren (by simp) (by simp))
  case unwindClose hphase =>
    refine linked_closed h (by simp [hphase, loose]) hanswer rfl (hchildren (by simp) (by simp))
      ?_ ?_ ?_
    all_goals simp +contextual [hphase, loose, newborn]
  case childClosed hphase =>
    refine linked_closed h (by simp [hphase, loose]) hanswer rfl (hchildren (by simp) (by simp))
      ?_ ?_ ?_
    all_goals simp [hphase, loose, newborn]
  case workerDropped hphase =>
    refine linked_closed h (by simp [hphase, loose]) hanswer rfl (hchildren (by simp) (by simp))
      ?_ ?_ ?_
    all_goals simp [loose, newborn]
  case stampRead pid todo w value hphase hw =>
    exact linked_stampRead h hphase hw hanswer (hchildren (by simp) (by simp))
  case stampsDrained hphase hw =>
    exact linked_stampsDrained h hphase hanswer (hchildren (by simp) (by simp))
  case notified hphase =>
    exact linked_signalled h hanswer (fun pid w hw => ⟨w, hw, rfl⟩) (fun _ => rfl)
      (hchildren (by simp) (by simp)) rfl rfl (by simp)
  case terminated now pid todo hphase =>
    exact linked_terminated h hanswer (hchildren (by simp) (by simp))
  case reaped pid status w hphase hw => exact linked_reaped h hw hanswer hk
  case reapUnknown pid status hphase hw =>
    have hmem := htracks.known hphase hk
    simp [hmem] at hw
  case enforceCalm now pid todo hphase _ =>
    cases hanswer
    exact linked_enforced h now pid todo false (hchildren (by simp) (by simp))
  case enforceDraining now pid todo time deadline hphase _ =>
    cases hanswer
    exact linked_enforced h now pid todo _ (hchildren (by simp) (by simp))
  all_goals
    cases hanswer
    refine h.quiet rfl rfl ?_ (hchildren (by simp) (by simp)) ?_ ?_ ?_
    all_goals simp_all [loose, newborn]

end Calls

/-- A child's step keeps manager and children linked. -/
theorem linked_child {s s' : State} {pid : Pid} {e : Child.Event} (h : Linked s)
    (hstep : s.childStep pid e = some s') : Linked s' := by
  unfold State.childStep at hstep
  split at hstep
  · cases hstep
  case h_2 p hp =>
    split at hstep
    · cases hstep
    case h_2 p' hp' =>
      split at hstep
      case h_1 stamp =>
        split at hstep
        · cases hstep
          exact h.sent hp hp' rfl rfl rfl rfl
        · cases hstep
      case h_2 hother =>
        cases hstep
        have he : e.stamps = false := by
          cases e
          case send stamp sent =>
            cases sent with
            | false => rfl
            | true => exact absurd rfl (hother stamp)
          all_goals rfl
        exact h.replaced (SameProcs.stepped hp hp' he rfl) rfl (fun _ w hw => ⟨w, hw, rfl⟩)
          (fun _ => rfl) rfl (fun _ hfd => hfd) (fun _ hx => hx) fun _ _ hphase => hphase

/-- Every step keeps manager and children linked. -/
theorem linked_step {config : Config} {signals : RawFd} {s s' : State} {e : Event} (h : Linked s)
    (htracks : Manager.Tracks config s.manager s.kernel)
    (hstep : step config signals s e = some s') : Linked s' := by
  cases e with
  | manager e =>
      simp only [step, Option.bind_eq_some_iff, Option.map_eq_some_iff] at hstep
      rcases hstep with ⟨t, hanswer, m, hsupervised, rfl⟩
      rcases LabelledMachine.sync_eq_some_iff.mp hsupervised with ⟨hs, hk⟩
      exact linked_manager h htracks hanswer (Manager.step_cases hs) hk
  | child pid e => exact linked_child h hstep

/-- Workers, processes and sockets belong together after every run. -/
theorem run_linked {config : Config} {signals : RawFd} {t : Instant} {es : List Event} {s : State}
    (hrun : LabelledMachine.exec (step config signals) (initial t) es = some s) : Linked s := by
  refine LabelledMachine.exec_history_induction (P := fun _ s => Linked s) ?_ ?_ hrun
  · constructor <;> simp [initial, Manager.initial, Manager.start, loose, newborn]
  · intro es s e s' hprefix h hstep
    exact linked_step h (Manager.run_tracks (manager_run hprefix)) hstep

end System

end Polychrome

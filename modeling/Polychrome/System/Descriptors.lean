import Polychrome.Library.MapEntries
import Polychrome.System.Links

/-!
# Who holds which descriptor

The kernel's descriptor tables are laid over the system: one for the manager and
one for each child, which begins as a copy of the manager's.  A table says what
a descriptor refers to, so that a number that is closed and handed out again is
not mistaken for the earlier one.  Only the listener, the signalfd and the event
sockets are followed.

Main results:

- Definition {lit}`step`: the system together with its descriptor tables.
- Theorem {lit}`slots_of_step`: what one step of the manager opens and closes.
- Inductive {lit}`Turn` and theorem {lit}`turn_of_step`: what one step does to the
  tables.
-/

namespace Polychrome

namespace System

namespace Descriptors

open MapEntries

/-! ## Descriptor tables -/

/-- What a descriptor refers to.  An event socket is known by its number in the
order of the pairs that were opened. -/
inductive OpenFile
  | listener
  | signalfd
  | managerEnd (pair : Nat)
  | childEnd (pair : Nat)
deriving DecidableEq, Repr

/-- A descriptor table of the kernel. -/
abbrev FdTable := Std.ExtTreeMap RawFd OpenFile

/-- The descriptors that {lit}`supervise` is called with. -/
structure Fixed where
  listener : RawFd
  signals : RawFd
  distinct : listener ≠ signals

/-- What is open when the loop begins. -/
def Fixed.table (fixed : Fixed) : FdTable :=
  ((∅ : FdTable).insert fixed.signals .signalfd).insert fixed.listener .listener

/-- The table of a child; {lit}`own` is the end that it passes to
{lit}`poly_serve_one`, of the pair that was opened for it. -/
structure ChildTable where
  pair : Nat
  own : RawFd
  held : FdTable

/-- What a step of the child does to its table. -/
def ChildTable.after (fixed : Fixed) (e : Child.Event) (table : ChildTable) : ChildTable :=
  match e with
  | .close fd => { table with held := table.held.erase fd }
  | .closeListener => { table with held := table.held.erase fixed.listener }
  | _ => table

/-- The system, the manager's table, the number of pairs opened so far and the
tables of the children. -/
structure State where
  system : System.State
  held : FdTable
  pairs : Nat
  tables : Std.ExtTreeMap Pid ChildTable

/-- What a step does to the tables.  {lit}`socketpair` returns two descriptors that
are not open, and {lit}`fork` copies the table. -/
def State.answer (fixed : Fixed) (s : State) : System.Event → Option State
  | .manager (.socketpair (.ok (parent, child))) =>
      if parent ∈ s.held ∨ child ∈ s.held ∨ parent = child then none
      else some { s with
        held := (s.held.insert parent (.managerEnd (s.pairs + 1))).insert child
          (.childEnd (s.pairs + 1))
        pairs := s.pairs + 1 }
  | .manager (.fork (.ok pid)) =>
      match s.system.manager.phase with
      | .fork _ child =>
          some { s with
            tables := s.tables.insert pid { pair := s.pairs, own := child, held := s.held } }
      | _ => none
  | .manager (.close fd) => some { s with held := s.held.erase fd }
  | .manager (.waitpid (some (pid, _))) => some { s with tables := s.tables.erase pid }
  | .child pid e => some { s with tables := s.tables.modify pid (ChildTable.after fixed e) }
  | _ => some s

/-- One step of the system with its tables. -/
def step (config : Config) (fixed : Fixed) : LabelledMachine.Machine State System.Event :=
  fun s e =>
    (s.answer fixed e).bind fun t =>
      (System.step config fixed.signals s.system e).map fun system => { t with system := system }

/-- The system before its loop. -/
def initial (fixed : Fixed) (t : Instant) : State where
  system := System.initial t
  held := fixed.table
  pairs := 0
  tables := ∅

/-! ## What the manager has in hand -/

/-- The event ends in the worker table. -/
def events (workers : Manager.Workers) : Multiset RawFd :=
  (entries workers).map fun x => x.2.events

/-- The event ends that a spawn or a reap under way has in hand. -/
def inHand (phase : Manager.Phase) : List RawFd :=
  (newborn phase).toList.map Prod.snd ++ loose phase

/-- All event ends the manager is answerable for. -/
def slots (m : Manager.State) : Multiset RawFd := ↑(inHand m.phase) + events m.workers

/-- Neither a spawn nor a reap is under way. -/
def settled : Manager.Phase → Bool
  | .fork _ _ | .unwind _ | .closeChild _ _ _ | .born _ _ => false
  | .elapsed _ | .startupFailed _ | .dropWorker _ => false
  | _ => true

/-- Outside a spawn nothing is in hand. -/
theorem inHand_of_settled {phase : Manager.Phase} (h : settled phase = true) :
    inHand phase = [] := by
  cases phase <;> first | rfl | cases h

/-- A pass over the deadlines has nothing in hand. -/
theorem inHand_enforceNext (config : Config) (m : Manager.State) (now : Nat) (pid : Pid)
    (todo : List Pid) (drainExpired : Bool) :
    inHand (m.enforceNext config now pid todo drainExpired).phase = [] := by
  rw [Manager.State.enforceNext_phase]
  split <;> rfl

/-- A reaped worker leaves its descriptor in hand. -/
theorem inHand_classify (m : Manager.State) (w : Manager.Worker) (status : WaitStatus) :
    inHand (m.classify w status).phase = [w.events] := by
  rw [Manager.State.classify_phase]
  split <;> rfl

/-- What keeps the entries' descriptors keeps the table's. -/
theorem events_modify (workers : Manager.Workers) (pid : Pid)
    {f : Manager.Worker → Manager.Worker} (hf : ∀ w, (f w).events = w.events) :
    events (workers.modify pid f) = events workers :=
  map_entries_modify workers hf

/-- A pair brings two event ends, {lit}`close` takes one, and nothing else brings or
takes any. -/
def Balanced (m m' : Manager.State) : Manager.Event → Prop
  | .socketpair (.ok (parent, child)) => slots m' = parent ::ₘ child ::ₘ slots m
  | .close fd => slots m = fd ::ₘ slots m'
  | _ => slots m' = slots m

/-- What one step of the manager does to the event ends it is answerable for. -/
theorem slots_of_step {config : Config} {m m' : Manager.State} {e : Manager.Event}
    (hs : Manager.Step config m e m')
    (hfresh : ∀ pid, m.phase.spawning = some pid → pid ∉ m.workers) : Balanced m m' e := by
  unfold Balanced
  cases hs
  case paired parent child hphase =>
    simp [slots, hphase, inHand, newborn, loose, ← Multiset.cons_coe]
  case unwindClose hphase =>
    simp [slots, hphase, inHand, newborn, loose, ← Multiset.cons_coe]
  case childClosed hphase =>
    simp [slots, hphase, inHand, newborn, loose, ← Multiset.cons_coe, Multiset.cons_swap]
  case workerDropped hphase =>
    simp [slots, hphase, inHand, newborn, loose, ← Multiset.cons_coe]
  case forkFailed hphase =>
    simp [slots, hphase, inHand, newborn, loose, ← Multiset.cons_coe, Multiset.cons_swap]
  case inserted pid parent time hphase =>
    have hnew := hfresh pid (by rw [hphase]; rfl)
    simp [slots, hphase, inHand, newborn, loose, Manager.State.insertWorker, events,
      entries_insert _ hnew, ← Multiset.cons_coe]
  case reaped pid status w hphase hw =>
    have hevents : events m.workers = w.events ::ₘ events (m.workers.erase pid) := by
      rw [events, entries_erase _ hw, Multiset.map_cons, events]
    have hbefore : inHand m.phase = [] := by rw [hphase]; rfl
    simp [slots, hbefore, inHand_classify, hevents, ← Multiset.cons_coe]
  case stampRead hphase hw =>
    simp [slots, hphase, events_modify _ _ (f := Manager.Worker.noteStamp _) fun _ => rfl]
  case terminated hphase =>
    simp [slots, hphase, inHand, newborn, loose,
      events_modify _ _ (f := Manager.Worker.markKilled) fun _ => rfl]
  case enforceCalm hphase _ =>
    have hbefore : inHand m.phase = [] := by rw [hphase]; rfl
    simp [slots, hbefore, inHand_enforceNext]
  case enforceDraining hphase _ =>
    have hbefore : inHand m.phase = [] := by rw [hphase]; rfl
    simp [slots, hbefore, inHand_enforceNext]
  all_goals simp_all [slots, inHand, newborn, loose]

/-! ## The manager's table -/

section Steps

variable {config : Config} {fixed : Fixed} {s s' : State} {e : System.Event}

/-- A step with descriptors is a step of the system. -/
theorem step_system (h : step config fixed s e = some s') :
    System.step config fixed.signals s.system e = some s'.system := by
  simp only [step, Option.bind_eq_some_iff, Option.map_eq_some_iff] at h
  rcases h with ⟨t, -, system, hsystem, rfl⟩
  exact hsystem

/-- A step of the manager is answered by the tables, the system and the kernel. -/
theorem step_manager {e : Manager.Event} (h : step config fixed s (.manager e) = some s') :
    ∃ t u manager kernel, s.answer fixed (.manager e) = some t ∧
      s.system.answer fixed.signals e = some u ∧ Manager.Step config s.system.manager e manager ∧
      s.system.kernel.step e = some kernel ∧
      s' = { t with system := { u with manager := manager, kernel := kernel } } := by
  simp only [step, System.step, Option.bind_eq_some_iff, Option.map_eq_some_iff] at h
  rcases h with ⟨t, ht, -, ⟨u, hu, m, hsupervised, rfl⟩, rfl⟩
  rcases LabelledMachine.sync_eq_some_iff.mp hsupervised with ⟨hs, hk⟩
  exact ⟨t, u, m.1, m.2, ht, hu, Manager.step_cases hs, hk, rfl⟩

/-- A step with descriptors answers the call, then follows the system. -/
theorem step_answer (h : step config fixed s e = some s') :
    ∃ t, s.answer fixed e = some t ∧ s' = { t with system := s'.system } := by
  simp only [step, Option.bind_eq_some_iff, Option.map_eq_some_iff] at h
  rcases h with ⟨t, ht, system, -, rfl⟩
  exact ⟨t, ht, rfl⟩

end Steps

/-! ## The children's tables -/

/-- What a child has still to close of its inheritance, up to the signal
dispositions of {lit}`poly_serve_one`. -/
def toClose : Child.Phase → Option (List RawFd)
  | .closeInherited todo => some todo
  | .prctl | .getppid | .dispositions _ => some []
  | _ => none

/-- Besides what it has still to close, the child holds the listener and its own
event end. -/
def ChildTable.Inherits (fixed : Fixed) (table : ChildTable) (phase : Child.Phase) : Prop :=
  ∀ todo, toClose phase = some todo →
    domain table.held = fixed.listener ::ₘ table.own ::ₘ ↑todo ∧
      table.held[fixed.listener]? = some .listener ∧
      table.held[table.own]? = some (.childEnd table.pair)

/-- A child keeps the pair it was forked with. -/
@[simp]
theorem ChildTable.after_pair (fixed : Fixed) (e : Child.Event) (table : ChildTable) :
    (table.after fixed e).pair = table.pair := by
  unfold ChildTable.after
  split <;> rfl

section Inherits

variable {fixed : Fixed} {table : ChildTable}

/-- Closing the next inherited descriptor goes on with the rest. -/
theorem ChildTable.Inherits.closed {fd : RawFd} {todo : List RawFd}
    (h : table.Inherits fixed (.closeInherited (fd :: todo))) :
    (table.after fixed (.close fd)).Inherits fixed (.closeInherited todo) := by
  rintro _ ⟨⟩
  rcases h _ rfl with ⟨hdomain, hlistener, hown⟩
  have hfront : domain table.held = fd ::ₘ fixed.listener ::ₘ table.own ::ₘ ↑todo := by
    rw [hdomain, ← Multiset.cons_coe, Multiset.cons_swap table.own fd,
      Multiset.cons_swap fixed.listener fd]
  have hnodup := hfront ▸ nodup_domain table.held
  simp only [Multiset.nodup_cons, Multiset.mem_cons, not_or] at hnodup
  refine ⟨domain_erase_of_cons _ hfront, ?_, ?_⟩
  · rw [← hlistener]
    exact Std.ExtTreeMap.getElem?_erase.trans (if_neg (by simpa using hnodup.1.1))
  · refine Eq.trans ?_ hown
    exact Std.ExtTreeMap.getElem?_erase.trans (if_neg (by simpa [after] using hnodup.1.2.1))

/-- Every call of a child goes on with what it inherits. -/
theorem ChildTable.Inherits.next {stop : Bool} {p p' : Child.Phase} {e : Child.Event}
    (h : table.Inherits fixed p) (hn : Child.Next stop p e p') :
    (table.after fixed e).Inherits fixed p' := by
  cases hn
  case inheritedClosed => exact h.closed
  case inheritedDone => exact fun todo htodo => h todo htodo
  case deathSignalSet => exact fun todo htodo => h todo htodo
  case parentThere => exact fun todo htodo => h todo htodo
  case dispositionSet => exact fun todo htodo => h todo htodo
  -- The other moves lead behind the dispositions.
  all_goals
    intro todo htodo
    cases htodo

/-- Before {lit}`poly_serve_one` a child does nothing but close what it is to close. -/
theorem ChildTable.Inherits.step {c c' : Child.State} {e : Child.Event}
    (h : table.Inherits fixed c.phase) (hs : Child.Step c e c') :
    (table.after fixed e).Inherits fixed c'.phase := by
  cases hs
  case raised signal => exact (Child.State.post_phase c signal).symm ▸ h
  case delivered => exact h
  case requested => exact h
  case resumed => exact h
  case moved hnext => exact h.next hnext
  all_goals
    intro todo htodo
    cases htodo

end Inherits


/-! ## What a step does to the tables -/

/-- The children go on with the pairs they have. -/
structure SameSeats (fixed : Fixed) (s s' : State) : Prop where
  table : ∀ (pid : Pid) (table' : ChildTable), s'.tables[pid]? = some table' →
    ∃ table, s.tables[pid]? = some table ∧ table.pair = table'.pair
  process : ∀ (pid : Pid) (p' : Process), s'.system.procs[pid]? = some p' →
    ∃ p, s.system.procs[pid]? = some p ∧ p.channel = p'.channel ∧
      ∀ table, s.tables[pid]? = some table → table.Inherits fixed p.state.phase →
        ∃ table', s'.tables[pid]? = some table' ∧ table'.pair = table.pair ∧
          table'.Inherits fixed p'.state.phase

section Seats

variable {fixed : Fixed} {s s' : State}

/-- Nobody's seat changes if neither children nor tables do. -/
theorem SameSeats.untouched (hprocs : s'.system.procs = s.system.procs)
    (htables : s'.tables = s.tables) : SameSeats fixed s s' where
  table _ table' htable := ⟨table', htables ▸ htable, rfl⟩
  process _ p' hp' :=
    ⟨p', hprocs ▸ hp', rfl, fun table htable h => ⟨table, htables.symm ▸ htable, rfl, h⟩⟩

/-- A signal changes nobody's seat. -/
theorem SameSeats.raised {pid : Pid} {signal : Signal}
    (hprocs : s'.system.procs = s.system.procs.modify pid fun p => p.raise signal)
    (htables : s'.tables = s.tables) : SameSeats fixed s s' where
  table _ table' htable := ⟨table', htables ▸ htable, rfl⟩
  process pid' p' hp' := by
    rw [hprocs, Std.ExtTreeMap.getElem?_modify] at hp'
    split at hp'
    case isTrue heq =>
      rcases Option.map_eq_some_iff.mp hp' with ⟨p, hp, rfl⟩
      rw [Std.LawfulEqCmp.eq_of_compare heq] at hp
      refine ⟨p, hp, rfl, fun table htable h => ⟨table, htables.symm ▸ htable, rfl, ?_⟩⟩
      exact (Child.State.post_phase p.state signal).symm ▸ h
    case isFalse =>
      exact ⟨p', hp', rfl, fun table htable h => ⟨table, htables.symm ▸ htable, rfl, h⟩⟩

/-- A child's step keeps every seat. -/
theorem SameSeats.stepped {pid : Pid} {p p' : Process} {e : Child.Event}
    (hp : s.system.procs[pid]? = some p) (hstep : p.step e = some p')
    (hprocs : s'.system.procs = s.system.procs.insert pid p')
    (htables : s'.tables = s.tables.modify pid (ChildTable.after fixed e)) :
    SameSeats fixed s s' where
  table pid' table' htable := by
    rw [htables, Std.ExtTreeMap.getElem?_modify] at htable
    split at htable
    case isTrue heq =>
      rcases Option.map_eq_some_iff.mp htable with ⟨table, hold, rfl⟩
      exact ⟨table, Std.LawfulEqCmp.eq_of_compare heq ▸ hold, by simp⟩
    case isFalse => exact ⟨table', htable, rfl⟩
  process pid' q hq := by
    rcases Process.step_eq_some hstep with ⟨-, hchannel, -, hstate⟩
    rw [hprocs, Std.ExtTreeMap.getElem?_insert] at hq
    rw [htables]
    split at hq
    case isTrue heq =>
      cases hq
      rw [Std.LawfulEqCmp.eq_of_compare heq] at hp
      refine ⟨p, hp, hchannel.symm, fun table htable h => ⟨table.after fixed e, ?_, by simp, ?_⟩⟩
      · rw [Std.ExtTreeMap.getElem?_modify, if_pos heq, Std.LawfulEqCmp.eq_of_compare heq, htable]
        rfl
      · exact h.step (Child.step_cases hstate)
    case isFalse hne =>
      refine ⟨q, hq, rfl, fun table htable h => ⟨table, ?_, rfl, h⟩⟩
      rw [Std.ExtTreeMap.getElem?_modify, if_neg hne]
      exact htable

end Seats

/-- The ways a step changes the tables, with what becomes of the event ends. -/
inductive Turn (fixed : Fixed) (s s' : State) : Prop
  | paired (parent child : RawFd) (hparent : parent ∉ s.held) (hchild : child ∉ s.held)
      (hne : parent ≠ child) (hphase : s'.system.manager.phase = .fork parent child)
      (hheld : s'.held = (s.held.insert parent (.managerEnd (s.pairs + 1))).insert child
        (.childEnd (s.pairs + 1)))
      (hpairs : s'.pairs = s.pairs + 1) (hseats : SameSeats fixed s s')
      (hslots : slots s'.system.manager = parent ::ₘ child ::ₘ slots s.system.manager)
  | forked (pid : Pid) (parent child : RawFd)
      (hphase : s.system.manager.phase = .fork parent child)
      (hphase' : s'.system.manager.phase = .closeChild pid parent child)
      (hheld : s'.held = s.held) (hpairs : s'.pairs = s.pairs)
      (htables : s'.tables =
        s.tables.insert pid { pair := s.pairs, own := child, held := s.held })
      (hprocs : s'.system.procs = s.system.procs.insert pid (Process.fork (parent ::
        fixed.signals :: s.system.manager.workers.values.map Manager.Worker.events) parent))
      (hslots : slots s'.system.manager = slots s.system.manager)
  | closed (fd : RawFd) (hfd : fd ∈ loose s.system.manager.phase)
      (hphase : ∀ parent child, s'.system.manager.phase ≠ .fork parent child)
      (hheld : s'.held = s.held.erase fd) (hpairs : s'.pairs = s.pairs)
      (hseats : SameSeats fixed s s')
      (hslots : slots s.system.manager = fd ::ₘ slots s'.system.manager)
  | reaped (pid : Pid) (hphase : ∀ parent child, s'.system.manager.phase ≠ .fork parent child)
      (hheld : s'.held = s.held) (hpairs : s'.pairs = s.pairs)
      (htables : s'.tables = s.tables.erase pid)
      (hprocs : s'.system.procs = s.system.procs.erase pid)
      (hslots : slots s'.system.manager = slots s.system.manager)
  | calm (hphase : ∀ parent child, s'.system.manager.phase = .fork parent child →
        s.system.manager.phase = .fork parent child)
      (hheld : s'.held = s.held) (hpairs : s'.pairs = s.pairs) (hseats : SameSeats fixed s s')
      (hslots : slots s'.system.manager = slots s.system.manager)

/-- A step of a child moves its process on. -/
theorem childStep_procs {s s' : System.State} {pid : Pid} {e : Child.Event}
    (h : s.childStep pid e = some s') :
    ∃ p p', s.procs[pid]? = some p ∧ p.step e = some p' ∧ s'.procs = s.procs.insert pid p' := by
  unfold System.State.childStep at h
  split at h
  · cases h
  case h_2 p hp =>
    split at h
    · cases h
    case h_2 p' hp' =>
      refine ⟨p, p', hp, hp', ?_⟩
      repeat' split at h
      all_goals first | (cases h; rfl) | cases h

section Turns

variable {config : Config} {fixed : Fixed} {s s' : State}

/-- A pair of sockets is new, and changes no process. -/
theorem turn_paired {t : State} {u : System.State} {manager : Manager.State}
    {kernel : Manager.Kernel} {parent child : RawFd}
    (hanswer : s.answer fixed (.manager (.socketpair (.ok (parent, child)))) = some t)
    (hreply : s.system.answer fixed.signals (.socketpair (.ok (parent, child))) = some u)
    (hphase : manager.phase = .fork parent child)
    (hslots : slots manager = parent ::ₘ child ::ₘ slots s.system.manager) :
    Turn fixed s { t with system := { u with manager := manager, kernel := kernel } } := by
  simp only [State.answer] at hanswer
  split at hanswer
  · cases hanswer
  case isFalse hfree =>
    cases hanswer
    simp only [not_or] at hfree
    simp only [System.State.answer] at hreply
    split at hreply
    · cases hreply
    · cases hreply
      exact .paired parent child hfree.1 hfree.2.1 hfree.2.2 hphase rfl rfl (.untouched rfl rfl)
        hslots

/-- A reaped child is a process no more. -/
theorem procs_of_waitpid {x t : System.State} {signals : RawFd} {pid : Pid} {status : WaitStatus}
    (h : x.answer signals (.waitpid (some (pid, status))) = some t) :
    t.procs = x.procs.erase pid := by
  simp only [System.State.answer] at h
  split at h
  · cases h
  · split at h
    · cases h
      rfl
    · cases h

/-- Reading a stamp changes no process. -/
theorem procs_of_recv {x t : System.State} {signals fd : RawFd} {pid : Pid} {stamp : Option Nat}
    (h : x.answer signals (.recv pid fd stamp) = some t) : t.procs = x.procs := by
  simp only [System.State.answer] at h
  split at h
  · split at h
    · cases h
      rfl
    · cases h
  · cases h
    rfl
  · cases h

/-- What a call of the manager does to the descriptors. -/
theorem turn_manager {e : Manager.Event}
    (htracks : Manager.Tracks config s.system.manager s.system.kernel)
    (h : step config fixed s (.manager e) = some s') : Turn fixed s s' := by
  rcases step_manager h with ⟨t, u, manager, kernel, hanswer, hreply, hs, hk, rfl⟩
  have hslots := slots_of_step hs htracks.fresh
  cases hs
  case paired parent child hphase => exact turn_paired hanswer hreply rfl hslots
  case forked pid parent child hphase =>
    simp only [State.answer, hphase] at hanswer
    cases hanswer
    simp only [System.State.answer, hphase] at hreply
    cases hreply
    exact .forked pid parent child hphase rfl rfl rfl rfl rfl hslots
  case unwindClose hphase =>
    cases hanswer
    cases hreply
    exact .closed _ (by simp [hphase, loose]) (by simp) rfl rfl (.untouched rfl rfl) hslots
  case childClosed hphase =>
    cases hanswer
    cases hreply
    exact .closed _ (by simp [hphase, loose]) (by simp) rfl rfl (.untouched rfl rfl) hslots
  case workerDropped hphase =>
    cases hanswer
    cases hreply
    exact .closed _ (by simp [hphase, loose]) (by simp) rfl rfl (.untouched rfl rfl) hslots
  case reaped pid status w hphase hw =>
    cases hanswer
    have hprocs := procs_of_waitpid hreply
    refine .reaped pid ?_ rfl rfl rfl hprocs hslots
    dsimp only
    rw [Manager.State.classify_phase]
    split <;> simp
  case reapUnknown pid status hphase hw =>
    have hmem := htracks.known hphase hk
    simp [hmem] at hw
  case notified hphase =>
    cases hanswer
    cases hreply
    exact .calm (by simp) rfl rfl (.raised rfl rfl) hslots
  case terminated hphase =>
    cases hanswer
    cases hreply
    exact .calm (by simp) rfl rfl (.raised rfl rfl) hslots
  case stampRead hphase hw =>
    cases hanswer
    have hprocs := procs_of_recv hreply
    exact .calm (by simp [hphase]) rfl rfl (.untouched hprocs rfl) hslots
  case stampsDrained hphase hw =>
    cases hanswer
    have hprocs := procs_of_recv hreply
    exact .calm (by simp) rfl rfl (.untouched hprocs rfl) hslots
  case enforceCalm hphase _ =>
    cases hanswer
    cases hreply
    refine .calm ?_ rfl rfl (.untouched rfl rfl) hslots
    dsimp only
    rw [Manager.State.enforceNext_phase]
    split <;> simp
  case enforceDraining hphase _ =>
    cases hanswer
    cases hreply
    refine .calm ?_ rfl rfl (.untouched rfl rfl) hslots
    dsimp only
    rw [Manager.State.enforceNext_phase]
    split <;> simp
  all_goals
    cases hanswer
    cases hreply
    exact .calm (by simp) rfl rfl (.untouched rfl rfl) hslots

/-- What a call of a child does to the descriptors. -/
theorem turn_child {pid : Pid} {e : Child.Event}
    (h : step config fixed s (.child pid e) = some s') : Turn fixed s s' := by
  rcases step_answer h with ⟨t, hanswer, hs'⟩
  have hsystem := step_system h
  cases hanswer
  simp only [System.step] at hsystem
  rcases childStep_manager hsystem with ⟨hmanager, -⟩
  rcases childStep_procs hsystem with ⟨p, p', hp, hstep, hprocs⟩
  refine .calm ?_ (by rw [hs']) (by rw [hs']) (.stepped hp hstep hprocs (by rw [hs'])) ?_
  · rw [hmanager]
    exact fun parent child hphase => hphase
  · rw [hmanager]

/-- What a step does to the descriptors. -/
theorem turn_of_step {e : System.Event}
    (htracks : Manager.Tracks config s.system.manager s.system.kernel)
    (h : step config fixed s e = some s') : Turn fixed s s' := by
  cases e with
  | manager e => exact turn_manager htracks h
  | child pid e => exact turn_child h

end Turns

end Descriptors

end System

end Polychrome

import Polychrome.System.Descriptors

/-!
# The account of the descriptors

What the manager holds is one equation of multisets: the listener, the signalfd,
one event end for each worker and what a spawn or a reap under way has in hand.
What a child holds before {lit}`poly_serve_one` is another: the listener, its own
event end and what it has still to close.

Main results:

- Definition {lit}`Accounted` and theorem {lit}`run_accounted`: both equations in
  every state of a run.
- Theorem {lit}`descriptors_exact`: the manager between spawns and reaps, a spawn
  that fails and a child that enters {lit}`poly_serve_one`.
-/

namespace Polychrome

namespace System

namespace Descriptors

open MapEntries

/-! ## The account -/

/-- What the manager and its children hold.  The keys of a table are distinct, so
{lit}`held` also says that no descriptor is held twice. -/
structure Accounted (fixed : Fixed) (s : State) : Prop where
  held : domain s.held = fixed.listener ::ₘ fixed.signals ::ₘ slots s.system.manager
  listener : s.held[fixed.listener]? = some .listener
  signals : s.held[fixed.signals]? = some .signalfd
  pair : ∀ parent child, s.system.manager.phase = .fork parent child →
    s.held[parent]? = some (.managerEnd s.pairs) ∧ s.held[child]? = some (.childEnd s.pairs)
  bounded : ∀ (pid : Pid) (table : ChildTable), s.tables[pid]? = some table →
    table.pair ≤ s.pairs ∧
      ∀ parent child, s.system.manager.phase = .fork parent child → table.pair < s.pairs
  distinct : ∀ (pid pid' : Pid) (table table' : ChildTable), s.tables[pid]? = some table →
    s.tables[pid']? = some table' → table.pair = table'.pair → pid = pid'
  seated : ∀ (pid : Pid) (p : Process), s.system.procs[pid]? = some p →
    ∃ table, s.tables[pid]? = some table ∧ s.held[p.channel]? = some (.managerEnd table.pair) ∧
      table.Inherits fixed p.state.phase

section Accounts

variable {config : Config} {fixed : Fixed} {s s' : State}

/-- A new descriptor is not one that is open. -/
theorem not_mem_of_ne {t : FdTable} {fd : RawFd} {file : OpenFile} (hold : t[fd]? = some file)
    {fd' : RawFd} (hnew : fd' ∉ t) : fd' ≠ fd := by
  rintro rfl
  rw [Std.ExtTreeMap.getElem?_eq_none hnew] at hold
  cases hold

/-- Two new descriptors do not touch the old ones. -/
theorem getElem?_paired {t : FdTable} {parent child fd : RawFd} {file file₁ file₂ : OpenFile}
    (hparent : parent ∉ t) (hchild : child ∉ t) (hold : t[fd]? = some file) :
    ((t.insert parent file₁).insert child file₂)[fd]? = some file := by
  have hne₁ := not_mem_of_ne hold hparent
  have hne₂ := not_mem_of_ne hold hchild
  simp [Std.ExtTreeMap.getElem?_insert, hne₁, hne₂, hold]

/-- Closing one descriptor leaves the others. -/
theorem getElem?_closed {t : FdTable} {fd fd' : RawFd} {file : OpenFile} (hne : fd' ≠ fd)
    (hold : t[fd]? = some file) : (t.erase fd')[fd]? = some file := by
  simp [Std.ExtTreeMap.getElem?_erase, hne, hold]

/-- The children go on while the manager's table keeps what they rely on. -/
theorem Accounted.seats (h : Accounted fixed s) (hseats : SameSeats fixed s s')
    (hkept : ∀ (pid : Pid) (p : Process), s.system.procs[pid]? = some p → ∀ file,
      s.held[p.channel]? = some file → s'.held[p.channel]? = some file) :
    ∀ (pid : Pid) (p : Process), s'.system.procs[pid]? = some p →
      ∃ table, s'.tables[pid]? = some table ∧
        s'.held[p.channel]? = some (.managerEnd table.pair) ∧
        table.Inherits fixed p.state.phase := by
  intro pid p' hp'
  rcases hseats.process pid p' hp' with ⟨p, hp, hchannel, hinherits⟩
  rcases h.seated pid p hp with ⟨table, htable, hfile, hpast⟩
  rcases hinherits table htable hpast with ⟨table', htable', hpair, hnow⟩
  refine ⟨table', htable', ?_, hnow⟩
  rw [← hchannel, hpair]
  exact hkept pid p hp _ hfile

/-- No two children share a pair of sockets. -/
theorem Accounted.separate (h : Accounted fixed s) (hseats : SameSeats fixed s s') :
    ∀ (pid pid' : Pid) (table table' : ChildTable), s'.tables[pid]? = some table →
      s'.tables[pid']? = some table' → table.pair = table'.pair → pid = pid' := by
  intro pid pid' table table' htable htable' heq
  rcases hseats.table pid table htable with ⟨old, hold, hpair⟩
  rcases hseats.table pid' table' htable' with ⟨old', hold', hpair'⟩
  exact h.distinct pid pid' old old' hold hold' (by omega)

/-- A new pair of event ends. -/
theorem Accounted.paired (h : Accounted fixed s) {parent child : RawFd}
    (hparent : parent ∉ s.held) (hchild : child ∉ s.held) (hne : parent ≠ child)
    (hphase : s'.system.manager.phase = .fork parent child)
    (hheld : s'.held = (s.held.insert parent (.managerEnd (s.pairs + 1))).insert child
      (.childEnd (s.pairs + 1)))
    (hpairs : s'.pairs = s.pairs + 1) (hseats : SameSeats fixed s s')
    (hslots : slots s'.system.manager = parent ::ₘ child ::ₘ slots s.system.manager) :
    Accounted fixed s' where
  held := by
    have hchild' : child ∉ s.held.insert parent (.managerEnd (s.pairs + 1)) := by
      simp [hne, hchild]
    rw [hheld, domain_insert _ hchild', domain_insert _ hparent, h.held, hslots]
    rw [Multiset.cons_swap child parent, Multiset.cons_swap child fixed.listener,
      Multiset.cons_swap child fixed.signals, Multiset.cons_swap parent fixed.listener,
      Multiset.cons_swap parent fixed.signals]
  listener := by
    rw [hheld]
    exact getElem?_paired hparent hchild h.listener
  signals := by
    rw [hheld]
    exact getElem?_paired hparent hchild h.signals
  pair parent' child' hphase' := by
    cases hphase.symm.trans hphase'
    rw [hheld, hpairs]
    refine ⟨?_, Std.ExtTreeMap.getElem?_insert_self⟩
    rw [Std.ExtTreeMap.getElem?_insert, if_neg (by simpa using Ne.symm hne)]
    exact Std.ExtTreeMap.getElem?_insert_self
  bounded pid table htable := by
    rcases hseats.table pid table htable with ⟨old, hold, hpair⟩
    have hle := (h.bounded pid old hold).1
    refine ⟨by omega, fun _ _ _ => by omega⟩
  distinct := h.separate hseats
  seated := h.seats hseats fun pid p hp file hfile => by
    rw [hheld]
    exact getElem?_paired hparent hchild hfile

/-- A descriptor that no child is tied to is closed. -/
theorem Accounted.closed (h : Accounted fixed s) (hlinked : Linked s.system) {fd : RawFd}
    (hfd : fd ∈ loose s.system.manager.phase)
    (hphase : ∀ parent child, s'.system.manager.phase ≠ .fork parent child)
    (hheld : s'.held = s.held.erase fd) (hpairs : s'.pairs = s.pairs)
    (hseats : SameSeats fixed s s')
    (hslots : slots s.system.manager = fd ::ₘ slots s'.system.manager) :
    Accounted fixed s' := by
  have hfront : domain s.held =
      fd ::ₘ fixed.listener ::ₘ fixed.signals ::ₘ slots s'.system.manager := by
    rw [h.held, hslots, Multiset.cons_swap fixed.signals fd, Multiset.cons_swap fixed.listener fd]
  have hnodup := hfront ▸ nodup_domain s.held
  simp only [Multiset.nodup_cons, Multiset.mem_cons, not_or] at hnodup
  exact {
    held := by
      rw [hheld]
      exact domain_erase_of_cons _ hfront
    listener := by
      rw [hheld]
      exact getElem?_closed hnodup.1.1 h.listener
    signals := by
      rw [hheld]
      exact getElem?_closed hnodup.1.2.1 h.signals
    pair := fun parent child hfork => absurd hfork (hphase parent child)
    bounded := by
      intro pid table htable
      rcases hseats.table pid table htable with ⟨old, hold, hpair⟩
      have hle := (h.bounded pid old hold).1
      exact ⟨by omega, fun parent child hfork => absurd hfork (hphase parent child)⟩
    distinct := h.separate hseats
    seated := h.seats hseats fun pid p hp file hfile => by
      rw [hheld]
      exact getElem?_closed (Ne.symm (hlinked.loose fd hfd pid p hp)) hfile }

/-- The new child starts with a copy of the manager's table. -/
theorem Accounted.inherited (h : Accounted fixed s) {parent child : RawFd}
    (hphase : s.system.manager.phase = .fork parent child) :
    ChildTable.Inherits fixed { pair := s.pairs, own := child, held := s.held }
      (.closeInherited (parent :: fixed.signals ::
        s.system.manager.workers.values.map Manager.Worker.events)) := by
  rintro _ ⟨⟩
  refine ⟨?_, h.listener, (h.pair parent child hphase).2⟩
  have hevents : (↑(s.system.manager.workers.values.map Manager.Worker.events) : Multiset RawFd) =
      events s.system.manager.workers := by
    rw [← Multiset.map_coe, coe_values, Multiset.map_map]
    rfl
  have hslots : slots s.system.manager =
      parent ::ₘ child ::ₘ events s.system.manager.workers := by
    rw [slots, hphase]
    rfl
  rw [h.held, hslots, ← Multiset.cons_coe, ← Multiset.cons_coe, hevents,
    Multiset.cons_swap child parent, Multiset.cons_swap child fixed.signals,
    Multiset.cons_swap parent fixed.signals]

/-- The account behind a fork. -/
theorem Accounted.forked (h : Accounted fixed s) {pid : Pid} {parent child : RawFd}
    (hphase : s.system.manager.phase = .fork parent child)
    (hphase' : s'.system.manager.phase = .closeChild pid parent child)
    (hheld : s'.held = s.held) (hpairs : s'.pairs = s.pairs)
    (htables : s'.tables =
      s.tables.insert pid { pair := s.pairs, own := child, held := s.held })
    (hprocs : s'.system.procs = s.system.procs.insert pid (Process.fork (parent ::
      fixed.signals :: s.system.manager.workers.values.map Manager.Worker.events) parent))
    (hslots : slots s'.system.manager = slots s.system.manager) : Accounted fixed s' := by
  have hback : ∀ {pid' : Pid} {table : ChildTable}, s'.tables[pid']? = some table →
      (pid = pid' ∧ table.pair = s.pairs) ∨
        (pid ≠ pid' ∧ s.tables[pid']? = some table ∧ table.pair < s.pairs) := by
    intro pid' table htable
    rw [htables, Std.ExtTreeMap.getElem?_insert] at htable
    split at htable
    case isTrue heq =>
      cases htable
      exact Or.inl ⟨Std.LawfulEqCmp.eq_of_compare heq, rfl⟩
    case isFalse hne =>
      exact Or.inr ⟨by simpa using hne, htable, (h.bounded pid' table htable).2 _ _ hphase⟩
  exact {
    held := by rw [hheld, h.held, hslots]
    listener := hheld ▸ h.listener
    signals := hheld ▸ h.signals
    pair := fun _ _ hfork => by
      rw [hphase'] at hfork
      cases hfork
    bounded := by
      intro pid' table htable
      refine ⟨?_, fun _ _ hfork => ?_⟩
      · rcases hback htable with ⟨-, hpair⟩ | ⟨-, -, hlt⟩ <;> omega
      · rw [hphase'] at hfork
        cases hfork
    distinct := by
      intro pid₁ pid₂ table₁ table₂ htable₁ htable₂ heq
      rcases hback htable₁ with ⟨rfl, hpair₁⟩ | ⟨-, hold₁, hlt₁⟩
      · rcases hback htable₂ with ⟨rfl, -⟩ | ⟨-, -, hlt₂⟩
        · rfl
        · omega
      · rcases hback htable₂ with ⟨rfl, hpair₂⟩ | ⟨-, hold₂, -⟩
        · omega
        · exact h.distinct pid₁ pid₂ table₁ table₂ hold₁ hold₂ heq
    seated := by
      intro pid' p hp
      rw [hprocs, Std.ExtTreeMap.getElem?_insert] at hp
      rw [htables, hheld]
      split at hp
      case isTrue heq =>
        cases hp
        rw [← Std.LawfulEqCmp.eq_of_compare heq]
        exact ⟨_, Std.ExtTreeMap.getElem?_insert_self, (h.pair parent child hphase).1,
          h.inherited hphase⟩
      case isFalse hne =>
        rcases h.seated pid' p hp with ⟨table, htable, hfile, hinherits⟩
        refine ⟨table, ?_, hfile, hinherits⟩
        rw [Std.ExtTreeMap.getElem?_insert, if_neg hne]
        exact htable }

/-- The account behind a reaped child. -/
theorem Accounted.reaped (h : Accounted fixed s) {pid : Pid}
    (hphase : ∀ parent child, s'.system.manager.phase ≠ .fork parent child)
    (hheld : s'.held = s.held) (hpairs : s'.pairs = s.pairs)
    (htables : s'.tables = s.tables.erase pid)
    (hprocs : s'.system.procs = s.system.procs.erase pid)
    (hslots : slots s'.system.manager = slots s.system.manager) : Accounted fixed s' := by
  have hback : ∀ {pid' : Pid} {table : ChildTable}, s'.tables[pid']? = some table →
      s.tables[pid']? = some table := by
    intro pid' table htable
    rw [htables, Std.ExtTreeMap.getElem?_erase] at htable
    split at htable
    case isTrue => cases htable
    case isFalse => exact htable
  exact {
    held := by rw [hheld, h.held, hslots]
    listener := hheld ▸ h.listener
    signals := hheld ▸ h.signals
    pair := fun parent child hfork => absurd hfork (hphase parent child)
    bounded := by
      intro pid' table htable
      have hle := (h.bounded pid' table (hback htable)).1
      exact ⟨by omega, fun parent child hfork => absurd hfork (hphase parent child)⟩
    distinct := fun pid₁ pid₂ table₁ table₂ htable₁ htable₂ =>
      h.distinct pid₁ pid₂ table₁ table₂ (hback htable₁) (hback htable₂)
    seated := by
      intro pid' p hp
      rw [hprocs, Std.ExtTreeMap.getElem?_erase] at hp
      rw [htables, hheld, Std.ExtTreeMap.getElem?_erase]
      split at hp
      case isTrue => cases hp
      case isFalse hne =>
        rw [if_neg hne]
        exact h.seated pid' p hp }

/-- The account behind a step that moves no descriptor. -/
theorem Accounted.calm (h : Accounted fixed s)
    (hphase : ∀ parent child, s'.system.manager.phase = .fork parent child →
      s.system.manager.phase = .fork parent child)
    (hheld : s'.held = s.held) (hpairs : s'.pairs = s.pairs) (hseats : SameSeats fixed s s')
    (hslots : slots s'.system.manager = slots s.system.manager) : Accounted fixed s' where
  held := by rw [hheld, h.held, hslots]
  listener := hheld ▸ h.listener
  signals := hheld ▸ h.signals
  pair parent child hfork := by
    rw [hheld, hpairs]
    exact h.pair parent child (hphase parent child hfork)
  bounded pid table htable := by
    rcases hseats.table pid table htable with ⟨old, hold, hpair⟩
    rw [← hpair, hpairs]
    rcases h.bounded pid old hold with ⟨hle, hlt⟩
    exact ⟨hle, fun parent child hfork => hlt parent child (hphase parent child hfork)⟩
  distinct := h.separate hseats
  seated := h.seats hseats fun _ _ _ _ hfile => hheld.symm ▸ hfile

/-- Every step keeps the account. -/
theorem Accounted.turn (h : Accounted fixed s) (hlinked : Linked s.system)
    (hturn : Turn fixed s s') : Accounted fixed s' := by
  cases hturn with
  | paired parent child hparent hchild hne hphase hheld hpairs hseats hslots =>
      exact h.paired hparent hchild hne hphase hheld hpairs hseats hslots
  | forked pid parent child hphase hphase' hheld hpairs htables hprocs hslots =>
      exact h.forked hphase hphase' hheld hpairs htables hprocs hslots
  | closed fd hfd hphase hheld hpairs hseats hslots =>
      exact h.closed hlinked hfd hphase hheld hpairs hseats hslots
  | reaped pid hphase hheld hpairs htables hprocs hslots =>
      exact h.reaped hphase hheld hpairs htables hprocs hslots
  | calm hphase hheld hpairs hseats hslots => exact h.calm hphase hheld hpairs hseats hslots

/-- At the start the manager holds what it was given. -/
theorem initial_accounted (fixed : Fixed) (t : Instant) : Accounted fixed (initial fixed t) := by
  have hsignals : fixed.signals ∉ (∅ : FdTable) := by simp
  have hlistener : fixed.listener ∉ (∅ : FdTable).insert fixed.signals .signalfd := by
    simp [Ne.symm fixed.distinct]
  constructor
  · change domain (((∅ : FdTable).insert fixed.signals .signalfd).insert fixed.listener
      .listener) = _
    rw [domain_insert _ hlistener, domain_insert _ hsignals]
    simp [initial, System.initial, Manager.initial, Manager.start, slots, inHand, newborn, loose,
      events, entries_empty, domain]
  · exact Std.ExtTreeMap.getElem?_insert_self
  · exact (Std.ExtTreeMap.getElem?_insert.trans (if_neg (by simpa using fixed.distinct))).trans
      Std.ExtTreeMap.getElem?_insert_self
  all_goals simp [initial, System.initial, Manager.initial, Manager.start]

/-- A run with tables is a run of the system. -/
theorem system_run {t : Instant} {es : List System.Event}
    (hrun : LabelledMachine.exec (step config fixed) (initial fixed t) es = some s) :
    LabelledMachine.exec (System.step config fixed.signals) (System.initial t) es =
      some s.system := by
  refine LabelledMachine.exec_history_induction
    (P := fun es s => LabelledMachine.exec (System.step config fixed.signals) (System.initial t)
      es = some s.system) rfl ?_ hrun
  intro es s e s' _ h hstep
  exact LabelledMachine.exec_concat h (step_system hstep)

/-- The account is right after every run. -/
theorem run_accounted {t : Instant} {es : List System.Event}
    (hrun : LabelledMachine.exec (step config fixed) (initial fixed t) es = some s) :
    Accounted fixed s := by
  refine LabelledMachine.exec_history_induction (P := fun _ s => Accounted fixed s)
    (initial_accounted fixed t) ?_ hrun
  intro es s e s' hbefore h hstep
  have hsystem := system_run hbefore
  exact h.turn (run_linked hsystem)
    (turn_of_step (Manager.run_tracks (manager_run hsystem)) hstep)

end Accounts

/-! ## A spawn that fails -/

/-- What a call of {lit}`spawn` has still to close, to be back at the table it began
with. -/
def GivesBack (before : FdTable) (s : State) : Prop :=
  match s.system.manager.phase with
  | .socketpair | .spawnFailed => s.held = before
  | .fork parent child => (s.held.erase child).erase parent = before
  | .unwind fds => fds.foldl (fun table fd => table.erase fd) s.held = before
  | _ => True

section FailedSpawn

variable {config : Config} {fixed : Fixed} {s s' : State} {before : FdTable}

/-- To close a new pair undoes its opening. -/
theorem erase_paired {t : FdTable} {parent child : RawFd} {file₁ file₂ : OpenFile}
    (hparent : parent ∉ t) (hchild : child ∉ t) :
    (((t.insert parent file₁).insert child file₂).erase child).erase parent = t := by
  ext fd file
  by_cases hfd : parent = fd
  · subst hfd
    simp [Std.ExtTreeMap.getElem?_eq_none hparent]
  · by_cases hfd' : child = fd
    · subst hfd'
      simp [Std.ExtTreeMap.getElem?_eq_none hchild]
    · simp [Std.ExtTreeMap.getElem?_erase, Std.ExtTreeMap.getElem?_insert, hfd, hfd']

/-- A call inside {lit}`spawn` keeps what was held before it. -/
theorem GivesBack.step {e : System.Event} (h : GivesBack before s)
    (hinside : s.system.manager.phase.hasRoom = true) (hstep : step config fixed s e = some s') :
    GivesBack before s' := by
  cases e with
  | child pid e =>
      rcases step_answer hstep with ⟨t, hanswer, hs'⟩
      have hsystem := step_system hstep
      cases hanswer
      rcases childStep_manager hsystem with ⟨hmanager, -⟩
      rw [hs']
      unfold GivesBack at h ⊢
      rw [hmanager]
      exact h
  | manager e =>
      rcases step_manager hstep with ⟨t, u, manager, kernel, hanswer, -, hs, -, rfl⟩
      unfold GivesBack at h ⊢
      cases hs
      case paired parent child hphase =>
        simp only [hphase] at h
        simp only [State.answer] at hanswer
        split at hanswer
        · cases hanswer
        case isFalse hfree =>
          cases hanswer
          simp only [not_or] at hfree
          exact (erase_paired hfree.1 hfree.2.1).trans h
      case pairFailed hphase =>
        cases hanswer
        simp only [hphase] at h
        exact h
      case forkFailed hphase =>
        cases hanswer
        simp only [hphase] at h
        exact h
      case unwindClose hphase =>
        cases hanswer
        simp only [hphase] at h
        exact h
      case unwound hphase =>
        cases hanswer
        simp only [hphase] at h
        exact h
      case forked => trivial
      case childClosed => trivial
      case inserted => trivial
      -- The other steps are not made inside the call.
      all_goals simp_all [Manager.Phase.hasRoom]

/-- A spawn that fails holds what was held before it. -/
theorem failed_spawn_held {call : List System.Event}
    (hrun : LabelledMachine.exec (step config fixed) s call = some s')
    (hstart : s.system.manager.phase = .socketpair)
    (hend : s'.system.manager.phase = .spawnFailed)
    (hinside : ∀ part u, part <+: call → part ≠ call →
      LabelledMachine.exec (step config fixed) s part = some u →
      u.system.manager.phase.hasRoom = true) : s'.held = s.held := by
  have hgives : call <+: call → GivesBack s.held s' := by
    refine LabelledMachine.exec_history_induction
      (P := fun part u => part <+: call → GivesBack s.held u) ?_ ?_ hrun
    · intro _
      simp [GivesBack, hstart]
    · intro part u e u' hpart ih hstep hbelow
      have hshort : part <+: call := (List.prefix_append part [e]).trans hbelow
      have hne : part ≠ call := by
        rintro rfl
        exact absurd hbelow.length_le (by simp)
      exact (ih hshort).step (hinside part u hshort hne hpart) hstep
  simpa [GivesBack, hend] using hgives List.prefix_rfl

end FailedSpawn

/-! ## Manager and children -/

/-- A child enters {lit}`poly_serve_one`. -/
def serveOneEntry : Child.Phase := .dispositions [.sigusr1, .sigterm, .sigint, .sigchld]

/-- The child holds the listener and its own event end and nothing else.  Its pair
is the one whose other end is the manager's socket of this child, and no other
child's. -/
structure Confined (fixed : Fixed) (s : State) (pid : Pid) (p : Process)
    (table : ChildTable) : Prop where
  seat : s.tables[pid]? = some table
  held_iff : ∀ fd file, table.held[fd]? = some file ↔
    (fd = fixed.listener ∧ file = .listener) ∨ (fd = table.own ∧ file = .childEnd table.pair)
  partner : s.held[p.channel]? = some (.managerEnd table.pair)
  unshared : ∀ (pid' : Pid) (table' : ChildTable), pid' ≠ pid →
    s.tables[pid']? = some table' → table'.pair ≠ table.pair

section Claims

variable {config : Config} {fixed : Fixed} {s : State}

/-- A child that serves holds its own end and what it was given, and nothing else. -/
theorem Accounted.confined (h : Accounted fixed s) {pid : Pid} {p : Process}
    (hp : s.system.procs[pid]? = some p) (hphase : p.state.phase = serveOneEntry) :
    ∃ table, Confined fixed s pid p table := by
  rcases h.seated pid p hp with ⟨table, htable, hfile, hinherits⟩
  rcases hinherits [] (by rw [hphase]; rfl) with ⟨hdomain, hlistener, hown⟩
  refine ⟨table, htable, fun fd file => ⟨fun hfd => ?_, ?_⟩, hfile, ?_⟩
  · have hmem : fd ∈ domain table.held := by
      rw [mem_domain, Std.ExtTreeMap.mem_iff_isSome_getElem?, hfd]
      rfl
    rw [hdomain] at hmem
    simp only [Multiset.coe_nil, Multiset.mem_cons, Multiset.notMem_zero, or_false] at hmem
    rcases hmem with rfl | rfl
    · exact Or.inl ⟨rfl, Option.some.inj (hfd.symm.trans hlistener)⟩
    · exact Or.inr ⟨rfl, Option.some.inj (hfd.symm.trans hown)⟩
  · rintro (⟨rfl, rfl⟩ | ⟨rfl, rfl⟩)
    · exact hlistener
    · exact hown
  · intro pid' table' hne htable' heq
    exact hne (h.distinct pid' pid table' table htable' htable heq)

/-- Each worker's event socket is the manager's end of the pair that was opened for
that child. -/
theorem Accounted.worker (h : Accounted fixed s) (hlinked : Linked s.system) {pid : Pid}
    {w : Manager.Worker} (hw : s.system.manager.workers[pid]? = some w) :
    ∃ table, s.tables[pid]? = some table ∧
      s.held[w.events]? = some (.managerEnd table.pair) := by
  rcases hlinked.worker pid w hw with ⟨p, hp, hchannel⟩
  rcases h.seated pid p hp with ⟨table, htable, hfile, -⟩
  exact ⟨table, htable, hchannel ▸ hfile⟩

/-- Between spawns and reaps the manager holds the listener, the signalfd and one
event end for each worker; a spawn that fails leaves the table as it was; and a
child enters {lit}`poly_serve_one` with the listener and its own event end. -/
theorem descriptors_exact {t : Instant} {es : List System.Event}
    (hrun : LabelledMachine.exec (step config fixed) (initial fixed t) es = some s) :
    (settled s.system.manager.phase = true →
      domain s.held = fixed.listener ::ₘ fixed.signals ::ₘ events s.system.manager.workers) ∧
    (s.held[fixed.listener]? = some .listener ∧ s.held[fixed.signals]? = some .signalfd ∧
      ∀ (pid : Pid) (w : Manager.Worker), s.system.manager.workers[pid]? = some w →
        ∃ table, s.tables[pid]? = some table ∧
          s.held[w.events]? = some (.managerEnd table.pair)) ∧
    (∀ (call : List System.Event) (s' : State),
      LabelledMachine.exec (step config fixed) s call = some s' →
      s.system.manager.phase = .socketpair → s'.system.manager.phase = .spawnFailed →
      (∀ part u, part <+: call → part ≠ call →
        LabelledMachine.exec (step config fixed) s part = some u →
        u.system.manager.phase.hasRoom = true) → s'.held = s.held) ∧
    ∀ (pid : Pid) (p : Process), s.system.procs[pid]? = some p →
      p.state.phase = serveOneEntry → ∃ table, Confined fixed s pid p table := by
  have haccounted := run_accounted hrun
  refine ⟨fun hsettled => ?_, ⟨haccounted.listener, haccounted.signals, ?_⟩, ?_, ?_⟩
  · rw [haccounted.held, slots, inHand_of_settled hsettled, Multiset.coe_nil, Multiset.zero_add]
  · exact fun pid w hw => haccounted.worker (run_linked (system_run hrun)) hw
  · exact fun call s' hcall hstart hend hinside => failed_spawn_held hcall hstart hend hinside
  · exact fun pid p hp hphase => haccounted.confined hp hphase

end Claims

/-- Two workers, the listener on 4 and the signalfd on 3. -/
def twoWorkers : Config := { Manager.sampleConfig with workers := 2 }

/-- The descriptors of the sample. -/
def sampleFixed : Fixed := { listener := 4, signals := 3, distinct := by decide }

/-- There is no process for the first child. -/
def forkFails : List System.Event :=
  [.manager (.socketpair (.ok (5, 6))), .manager (.fork (.error 11)), .manager (.close 6),
    .manager (.close 5), .manager .tau]

/-- After the pause two children are started, and the second closes what it is not
to have; the descriptor 6 is used again. -/
def bothForked : List System.Event :=
  [.manager (.now 1), .manager (.poll (.ok 0)), .manager .tau, .manager (.read none),
    .manager (.clockGettime 2), .manager .tau, .manager (.waitpid none), .manager .tau,
    .manager (.now 300000000), .manager .tau, .manager (.socketpair (.ok (5, 6))),
    .manager (.fork (.ok 7)), .manager (.close 6), .manager (.now 300000001), .manager .tau,
    .manager (.socketpair (.ok (6, 8))), .manager (.fork (.ok 9)), .manager (.close 8),
    .manager (.now 300000002), .manager .tau, .child 9 (.close 6), .child 9 (.close 3),
    .child 9 (.close 5), .child 9 .tau, .child 9 .prctl, .child 9 (.getppid true)]

/-- The manager is about to call {lit}`spawn`. -/
def firstCall : List System.Event := [.manager (.now 0), .manager .tau]

/-- A spawn fails, two succeed, and one child enters {lit}`poly_serve_one`. -/
theorem descriptors_exact_sample :
    ∃ s u v p, LabelledMachine.exec (step twoWorkers sampleFixed) (initial sampleFixed 0)
        firstCall = some s ∧
      LabelledMachine.exec (step twoWorkers sampleFixed) s forkFails = some u ∧
      u.held = s.held ∧
      LabelledMachine.exec (step twoWorkers sampleFixed) (initial sampleFixed 0)
        (firstCall ++ forkFails ++ bothForked) = some v ∧
      domain v.held = 4 ::ₘ 3 ::ₘ events v.system.manager.workers ∧
      v.system.manager.workers.keys = [7, 9] ∧ v.system.procs[9]? = some p ∧
      ∃ table, Confined sampleFixed v 9 p table := by
  refine ⟨_, _, _, _, rfl, rfl, ?_, rfl, ?_, rfl, rfl, ?_⟩
  · refine (@descriptors_exact twoWorkers sampleFixed _ 0 firstCall rfl).2.2.1 forkFails _ rfl
      rfl rfl ?_
    intro part u hpart hne hrun
    rw [← List.mem_inits] at hpart
    simp only [forkFails, List.inits, List.map_cons, List.map_nil,
      List.mem_cons, List.not_mem_nil, or_false] at hpart
    rcases hpart with rfl | rfl | rfl | rfl | rfl | rfl
    all_goals first | exact absurd rfl hne | (cases hrun; rfl)
  · exact (@descriptors_exact twoWorkers sampleFixed _ 0 (firstCall ++ forkFails ++ bothForked)
      rfl).1 rfl
  · exact (@descriptors_exact twoWorkers sampleFixed _ 0 (firstCall ++ forkFails ++ bothForked)
      rfl).2.2.2 9 _ rfl rfl

end Descriptors

end System

end Polychrome

import Polychrome.Manager.Supervise

/-!
# The worker table and the manager's children

The kernel gets a new child in {lit}`fork` and loses one in {lit}`waitpid`; the
table follows with {lit}`insert` and {lit}`remove`.  Between {lit}`fork` and
{lit}`insert` lies the one place in the loop at which a child is not recorded.

Main results:

- Theorem {lit}`tracks_step` and theorem {lit}`run_tracks`: the table records the
  children, whatever the kernel answers.
- Theorem {lit}`Tracks.card_le`: there are never more children than workers to run.
- Theorem {lit}`supervise_tracks_children`: the laws of the table in every state of
  a run, and the full table behind a spawn phase without errors.
-/

namespace Polychrome

namespace Manager

/-! ## Where the loop stands -/

/-- The child that {lit}`fork` has returned and {lit}`insert` has not recorded yet. -/
def Phase.spawning : Phase → Option Pid
  | .closeChild pid _ _ => some pid
  | .born pid _ => some pid
  | _ => none

/-- The spawn phase, from its first test to the poll. -/
def Phase.inSpawn : Phase → Bool
  | .spawnTest | .socketpair | .fork _ _ | .unwind _ | .closeChild _ _ _ | .born _ _
  | .spawnFailed => true
  | _ => false

/-- The part of the spawn phase behind the test for a free place. -/
def Phase.hasRoom : Phase → Bool
  | .socketpair | .fork _ _ | .unwind _ | .closeChild _ _ _ | .born _ _ => true
  | _ => false

/-- The workers that a pass over the table has still to visit. -/
def Phase.todo : Phase → List Pid
  | .stamps todo | .notify todo | .enforce _ todo => todo
  | .terminate _ pid todo => pid :: todo
  | _ => []

/-- Outside the spawn phase every child is recorded, and no place is claimed. -/
theorem settled_of_not_inSpawn {p : Phase} (h : p.inSpawn = false) :
    p.spawning = none ∧ p.hasRoom = false := by
  cases p <;> first | exact ⟨rfl, rfl⟩ | cases h

/-- The pass over the table goes on with the worker it examines, or behind it. -/
theorem enforceNext_place (config : Config) (s : State) (now : Nat) (pid : Pid) (todo : List Pid)
    (drainExpired : Bool) :
    (s.enforceNext config now pid todo drainExpired).phase.inSpawn = false ∧
      (∀ p ∈ (s.enforceNext config now pid todo drainExpired).phase.todo, p ∈ pid :: todo) ∧
      (s.enforceNext config now pid todo drainExpired).phase ≠ .finished := by
  rw [State.enforceNext_phase]
  split
  · exact ⟨rfl, fun p hp => hp, by simp⟩
  · exact ⟨rfl, fun p hp => List.mem_cons_of_mem pid hp, by simp⟩

/-- Classifying a reaped worker is outside the spawn phase, and finishes nothing. -/
theorem classify_place (s : State) (worker : Worker) (status : WaitStatus) :
    (s.classify worker status).phase.inSpawn = false ∧
      (s.classify worker status).phase.todo = [] ∧
      (s.classify worker status).phase ≠ .finished := by
  rw [State.classify_phase]
  split
  · exact ⟨rfl, rfl, by simp⟩
  · exact ⟨rfl, rfl, by simp⟩

/-- The worker table records the manager's children. -/
structure Tracks (config : Config) (s : State) (k : Kernel) : Prop where
  children : ∀ pid, pid ∈ k.children ↔ pid ∈ s.workers ∨ s.phase.spawning = some pid
  fresh : ∀ pid, s.phase.spawning = some pid → pid ∉ s.workers
  size_le : s.workers.size ≤ config.workers
  room : s.phase.hasRoom → s.workers.size < config.workers
  undrained : s.phase.inSpawn → s.draining = none
  todo : ∀ pid ∈ s.phase.todo, pid ∈ s.workers
  finished : s.phase = .finished → s.workers.isEmpty

/-- Only a successful fork and a successful wait change the set of children. -/
theorem Kernel.children_of_step {k k' : Kernel} {e : Event} (hk : k.step e = some k')
    (hfork : ∀ pid, e ≠ .fork (.ok pid)) (hwait : ∀ reply, e ≠ .waitpid (some reply)) :
    k'.children = k.children := by
  unfold Kernel.step at hk
  split at hk
  case h_1 pid => exact absurd rfl (hfork pid)
  case h_2 pid status => exact absurd rfl (hwait (pid, status))
  case h_3 =>
    split at hk
    case isTrue => cases hk; rfl
    case isFalse => cases hk
  case h_4 => cases hk; rfl

/-- A step inside the spawn phase that keeps the table. -/
theorem Tracks.inside {config : Config} {s s' : State} {k k' : Kernel} (h : Tracks config s k)
    (hchildren : k'.children = k.children) (hworkers : s'.workers = s.workers)
    (hspawning : s'.phase.spawning = s.phase.spawning) (hdraining : s'.draining = none)
    (hroom : s'.phase.hasRoom → s.workers.size < config.workers) (htodo : s'.phase.todo = [])
    (hfinished : s'.phase ≠ .finished) : Tracks config s' k' where
  children := by rw [hchildren, hworkers, hspawning]; exact h.children
  fresh := by rw [hworkers, hspawning]; exact h.fresh
  size_le := by rw [hworkers]; exact h.size_le
  room := by rw [hworkers]; exact hroom
  undrained _ := hdraining
  todo p hp := by rw [htodo] at hp; cases hp
  finished hphase := absurd hphase hfinished

/-- A step from one place in the spawn phase to another that keeps the table. -/
theorem Tracks.along {config : Config} {s s' : State} {k k' : Kernel} (h : Tracks config s k)
    {p : Phase} (hphase : s.phase = p) (hin : p.inSpawn) (hchildren : k'.children = k.children)
    (hworkers : s'.workers = s.workers) (hdraining : s'.draining = s.draining)
    (hspawning : s'.phase.spawning = p.spawning) (hroom : s'.phase.hasRoom → p.hasRoom)
    (htodo : s'.phase.todo = []) (hfinished : s'.phase ≠ .finished) : Tracks config s' k' := by
  subst hphase
  have hundrained : s'.draining = none := hdraining.trans (h.undrained hin)
  exact h.inside hchildren hworkers hspawning hundrained (fun hroom' => h.room (hroom hroom'))
    htodo hfinished

/-- A step outside the spawn phase that keeps the table. -/
theorem Tracks.outside {config : Config} {s s' : State} {k k' : Kernel} (h : Tracks config s k)
    (hchildren : k'.children = k.children) (hworkers : s'.workers = s.workers)
    (hspawning : s.phase.spawning = none) (hin : s'.phase.inSpawn = false)
    (htodo : ∀ pid ∈ s'.phase.todo, pid ∈ s.workers)
    (hfinished : s'.phase = .finished → s.workers.isEmpty) : Tracks config s' k' where
  children := by
    rw [hchildren, hworkers, (settled_of_not_inSpawn hin).1, ← hspawning]
    exact h.children
  fresh pid hpid := by
    rw [(settled_of_not_inSpawn hin).1] at hpid
    cases hpid
  size_le := by rw [hworkers]; exact h.size_le
  room hroom := by
    rw [(settled_of_not_inSpawn hin).2] at hroom
    cases hroom
  undrained hspawn := by
    rw [hin] at hspawn
    cases hspawn
  todo := by rw [hworkers]; exact htodo
  finished := by rw [hworkers]; exact hfinished

/-- Rewriting one worker in place keeps the record. -/
theorem Tracks.modify {config : Config} {s s' : State} {k : Kernel} (h : Tracks config s k)
    {pid : Pid} {f : Worker → Worker} (hworkers : s'.workers = s.workers.modify pid f)
    (hspawning : s.phase.spawning = none) (hin : s'.phase.inSpawn = false)
    (htodo : ∀ p ∈ s'.phase.todo, p ∈ s.phase.todo) (hfinished : s'.phase ≠ .finished) :
    Tracks config s' k where
  children p := by
    rw [hworkers, (settled_of_not_inSpawn hin).1, ← hspawning, Std.ExtTreeMap.mem_modify]
    exact h.children p
  fresh p hp := by
    rw [(settled_of_not_inSpawn hin).1] at hp
    cases hp
  size_le := by
    rw [hworkers, Std.ExtTreeMap.size_modify]
    exact h.size_le
  room hroom := by
    rw [(settled_of_not_inSpawn hin).2] at hroom
    cases hroom
  undrained hspawn := absurd (hin ▸ hspawn) Bool.false_ne_true
  todo p hp := by
    rw [hworkers, Std.ExtTreeMap.mem_modify]
    exact h.todo p (htodo p hp)
  finished hphase := absurd hphase hfinished

/-- A fresh child is recorded by the kernel first. -/
theorem Tracks.forked {config : Config} {s : State} {k k' : Kernel} (h : Tracks config s k)
    {pid : Pid} {parent child : RawFd} (hphase : s.phase = .fork parent child)
    (hk : k.step (.fork (.ok pid)) = some k') :
    Tracks config { s with phase := .closeChild pid parent child } k' := by
  obtain ⟨hnew, rfl⟩ : pid ∉ k.children ∧ { k with children := insert pid k.children } = k' := by
    simpa [Kernel.step] using hk
  have hspawning : s.phase.spawning = none := by rw [hphase]; rfl
  have hchildren : ∀ p, p ∈ k.children ↔ p ∈ s.workers := by
    simpa [hspawning] using h.children
  have hroom : s.workers.size < config.workers := h.room (by rw [hphase]; rfl)
  exact {
    children := by
      intro p
      simp only [Finset.mem_insert, hchildren, Phase.spawning, Option.some.injEq]
      rw [or_comm, eq_comm]
    fresh := by
      intro p hp
      simp only [Phase.spawning, Option.some.injEq] at hp
      rwa [← hp, ← hchildren]
    size_le := h.size_le
    room := fun _ => hroom
    undrained := fun _ => h.undrained (by rw [hphase]; rfl)
    todo := by simp [Phase.todo]
    finished := by simp }

/-- Then the table takes it over, in a place of its own. -/
theorem Tracks.inserted {config : Config} {s : State} {k : Kernel} (h : Tracks config s k)
    {pid : Pid} {parent : RawFd} {t : Instant} (hphase : s.phase = .born pid parent) :
    Tracks config { s.insertWorker pid parent t with phase := .spawnTest } k := by
  have hfresh : pid ∉ s.workers := h.fresh pid (by rw [hphase]; rfl)
  have hroom : s.workers.size < config.workers := h.room (by rw [hphase]; rfl)
  exact {
    children := by
      intro p
      have hp := h.children p
      simp only [hphase, Phase.spawning, Option.some.injEq] at hp
      simp [hp, State.insertWorker, Phase.spawning, Std.ExtTreeMap.mem_insert, or_comm]
    fresh := by simp [Phase.spawning]
    size_le := by
      simp only [State.insertWorker, Std.ExtTreeMap.size_insert]
      rw [if_neg (by simpa using hfresh)]
      exact hroom
    room := by simp [Phase.hasRoom]
    undrained := fun _ => h.undrained (by rw [hphase]; rfl)
    todo := by simp [Phase.todo]
    finished := by simp }

/-- A reaped child leaves the kernel and the table together. -/
theorem Tracks.reaped {config : Config} {s : State} {k k' : Kernel} (h : Tracks config s k)
    {pid : Pid} {status : WaitStatus} {w : Worker} (hphase : s.phase = .reap)
    (hk : k.step (.waitpid (some (pid, status))) = some k') :
    Tracks config ({ s with workers := s.workers.erase pid }.classify w status) k' := by
  obtain ⟨hmem, rfl⟩ : pid ∈ k.children ∧ { k with children := k.children.erase pid } = k' := by
    simpa [Kernel.step] using hk
  have hchildren : ∀ p, p ∈ k.children ↔ p ∈ s.workers := by
    simpa [hphase, Phase.spawning] using h.children
  have hsize : (s.workers.erase pid).size ≤ s.workers.size := by
    rw [Std.ExtTreeMap.size_erase]
    split <;> omega
  rcases classify_place { s with workers := s.workers.erase pid } w status with
    ⟨hin, htodo, hfinished⟩
  exact {
    children := by
      intro p
      have hkey : compare pid p = .eq ↔ p = pid := by
        rw [Std.LawfulEqCmp.compare_eq_iff_eq, eq_comm]
      rw [(State.classify_fields ..).1, Std.ExtTreeMap.mem_erase, Finset.mem_erase, hchildren,
        (settled_of_not_inSpawn hin).1, ne_eq, ne_eq, hkey]
      simp
    fresh := by
      rw [(settled_of_not_inSpawn hin).1]
      simp
    size_le := by simpa using hsize.trans h.size_le
    room := by
      rw [(settled_of_not_inSpawn hin).2]
      simp
    undrained := by
      rw [hin]
      simp
    todo := by
      rw [htodo]
      simp
    finished := fun hphase => absurd hphase hfinished }

/-- There are never more children than the table has places. -/
theorem Tracks.card_le {config : Config} {s : State} {k : Kernel} (h : Tracks config s k) :
    k.children.card ≤ config.workers := by
  have hkeys : s.workers.keys.toFinset.card = s.workers.size := by
    rw [List.toFinset_card_of_nodup Std.ExtTreeMap.nodup_keys, Std.ExtTreeMap.length_keys]
  cases hspawning : s.phase.spawning with
  | none =>
      have hsub : k.children ⊆ s.workers.keys.toFinset := by
        intro pid hpid
        have hmem := (h.children pid).mp hpid
        rw [hspawning] at hmem
        simpa [Std.ExtTreeMap.mem_keys] using hmem
      calc k.children.card ≤ s.workers.keys.toFinset.card := Finset.card_le_card hsub
        _ = s.workers.size := hkeys
        _ ≤ config.workers := h.size_le
  | some newborn =>
      -- The child that is not recorded yet has a free place waiting for it.
      have hroom : s.workers.size < config.workers := by
        apply h.room
        cases hphase : s.phase <;> rw [hphase] at hspawning <;> first | rfl | cases hspawning
      have hsub : k.children ⊆ insert newborn s.workers.keys.toFinset := by
        intro pid hpid
        have hmem := (h.children pid).mp hpid
        rw [hspawning, Option.some.injEq] at hmem
        simpa [Std.ExtTreeMap.mem_keys, eq_comm, or_comm] using hmem
      calc k.children.card ≤ (insert newborn s.workers.keys.toFinset).card :=
            Finset.card_le_card hsub
        _ ≤ s.workers.keys.toFinset.card + 1 := Finset.card_insert_le _ _
        _ = s.workers.size + 1 := by rw [hkeys]
        _ ≤ config.workers := hroom

/-- Every child the kernel hands over is in the table. -/
theorem Tracks.known {config : Config} {s : State} {k k' : Kernel} (h : Tracks config s k)
    {pid : Pid} {status : WaitStatus} (hphase : s.phase = .reap)
    (hk : k.step (.waitpid (some (pid, status))) = some k') : pid ∈ s.workers := by
  have hmem : pid ∈ k.children := by
    by_contra hnot
    simp [Kernel.step, hnot] at hk
  simpa [hphase, Phase.spawning] using (h.children pid).mp hmem

/-- Every call keeps the table in step with the children. -/
theorem tracks_step {config : Config} {s s' : State} {k k' : Kernel} {e : Event}
    (h : Tracks config s k) (hs : Step config s e s') (hk : k.step e = some k') :
    Tracks config s' k' := by
  have hundrained : s.phase.inSpawn → s.draining = none := h.undrained
  have htodo := h.todo
  have hkeys : ∀ pid ∈ s.workers.keys, pid ∈ s.workers := fun pid hpid =>
    Std.ExtTreeMap.mem_of_mem_keys hpid
  cases hs
  case forked hphase => exact h.forked hphase hk
  case inserted pid parent t hphase =>
    have h' : Tracks config s k' := by
      have hchildren := Kernel.children_of_step hk (by simp) (by simp)
      exact { h with children := hchildren ▸ h.children }
    exact h'.inserted hphase
  case reaped hphase hw => exact h.reaped hphase hk
  case reapUnknown hphase hw =>
    have hmem := h.known hphase hk
    simp [hmem] at hw
  case stampRead hphase hw =>
    obtain rfl : k = k' := by simpa [Kernel.step] using hk
    exact h.modify rfl (by rw [hphase]; rfl) (by rw [hphase]; rfl) (fun _ hp => hp)
      (by simp [hphase])
  case terminated hphase =>
    obtain rfl : k = k' := by simpa [Kernel.step] using hk
    refine h.modify rfl (by rw [hphase]; rfl) rfl ?_ (by simp)
    intro p hp
    rw [hphase]
    exact List.mem_cons_of_mem _ hp
  -- Every other branch keeps the table and moves to its next place in the loop.
  all_goals have hchildren := Kernel.children_of_step hk (by simp) (by simp)
  case retryDue hphase hdraining _ =>
    exact h.inside hchildren rfl (by rw [hphase]; rfl) hdraining (by simp [Phase.hasRoom]) rfl
      (by simp)
  case spawnMore hphase hroom =>
    exact h.inside hchildren rfl (by rw [hphase]; rfl) (hundrained (by rw [hphase]; rfl))
      (fun _ => hroom) rfl (by simp)
  case paired hphase =>
    exact h.along hphase rfl hchildren rfl rfl rfl (fun _ => rfl) rfl (by simp)
  case pairFailed hphase =>
    exact h.along hphase rfl hchildren rfl rfl rfl (by simp [Phase.hasRoom]) rfl (by simp)
  case forkFailed hphase =>
    exact h.along hphase rfl hchildren rfl rfl rfl (fun _ => rfl) rfl (by simp)
  case unwindClose hphase =>
    exact h.along hphase rfl hchildren rfl rfl rfl (fun _ => rfl) rfl (by simp)
  case unwound hphase =>
    exact h.along hphase rfl hchildren rfl rfl rfl (by simp [Phase.hasRoom]) rfl (by simp)
  case childClosed hphase =>
    exact h.along hphase rfl hchildren rfl rfl rfl (fun _ => rfl) rfl (by simp)
  -- The passes over the table start with its keys and go down their lists.
  case polled hphase => exact h.outside hchildren rfl (by rw [hphase]; rfl) rfl hkeys (by simp)
  case pollInterrupted hphase =>
    exact h.outside hchildren rfl (by rw [hphase]; rfl) rfl hkeys (by simp)
  case pollFailureDated hphase =>
    exact h.outside hchildren rfl (by rw [hphase]; rfl) rfl hkeys (by simp)
  case drainFirstDated hphase =>
    exact h.outside hchildren rfl (by rw [hphase]; rfl) rfl hkeys (by simp)
  case enforceStarted hphase =>
    exact h.outside hchildren rfl (by rw [hphase]; rfl) rfl hkeys (by simp)
  case stampsDrained hphase _ =>
    refine h.outside hchildren rfl (by rw [hphase]; rfl) rfl ?_ (by simp)
    exact fun p hp => htodo p (by rw [hphase]; exact List.mem_cons_of_mem _ hp)
  case notified hphase =>
    refine h.outside hchildren rfl (by rw [hphase]; rfl) rfl ?_ (by simp)
    exact fun p hp => htodo p (by rw [hphase]; exact List.mem_cons_of_mem _ hp)
  case enforceCalm now pid todo hphase _ =>
    rcases enforceNext_place config s now pid todo false with ⟨hin, hrest, hfinished⟩
    refine h.outside hchildren (by simp) (by rw [hphase]; rfl) hin ?_
      (fun hend => absurd hend hfinished)
    exact fun p hp => htodo p (by rw [hphase]; exact hrest p hp)
  case enforceDraining now pid todo t deadline hphase _ =>
    rcases enforceNext_place config s now pid todo (decide (deadline ≤ t)) with
      ⟨hin, hrest, hfinished⟩
    refine h.outside hchildren (by simp) (by rw [hphase]; rfl) hin ?_
      (fun hend => absurd hend hfinished)
    exact fun p hp => htodo p (by rw [hphase]; exact hrest p hp)
  case loopReturned hphase _ hempty =>
    exact h.outside hchildren rfl (by rw [hphase]; rfl) rfl (by simp [Phase.todo])
      (fun _ => hempty)
  case signalIgnored hphase _ =>
    exact h.outside hchildren rfl (by rw [hphase]; rfl) (by rw [hphase]; rfl) htodo
      (by simp [hphase])
  all_goals
    exact h.outside hchildren rfl (by rw [‹s.phase = _›]; rfl) rfl (by simp [Phase.todo])
      (by simp)

/-- At the start there are neither workers nor children. -/
theorem initial_tracks (config : Config) (t : Instant) :
    Tracks config (start t) { children := ∅, clock := t } where
  children := by simp [start, Phase.spawning]
  fresh := by simp [start, Phase.spawning]
  size_le := by simp [start]
  room := by simp [start, Phase.hasRoom]
  undrained := by simp [start]
  todo := by simp [start, Phase.todo]
  finished := by simp [start]

/-- The table records the children after every run. -/
theorem run_tracks {config : Config} {t : Instant} {es : List Event} {s : State} {k : Kernel}
    (hrun : LabelledMachine.exec (supervised config) (initial t) es = some (s, k)) :
    Tracks config s k := by
  refine LabelledMachine.exec_invariant (I := fun x => Tracks config x.1 x.2) ?_
    (initial_tracks config t) hrun
  intro x e x' hx hstep
  obtain ⟨hs, hk⟩ := LabelledMachine.sync_eq_some_iff.mp hstep
  exact tracks_step hx (step_cases hs) hk

/-! ## The spawn phase fills the table -/

/-- The system calls that can fail in {lit}`spawn` did not, and the phase is not left. -/
def Event.undisturbed : Event → Bool
  | .socketpair (.error _) | .fork (.error _) | .poll _ => false
  | _ => true

/-- Inside a spawn phase without errors, or just behind it with a full table. -/
def Filling (config : Config) (s : State) : Prop :=
  match s.phase with
  | .spawnTest | .socketpair | .fork _ _ | .closeChild _ _ _ | .born _ _ => True
  | .poll => config.workers ≤ s.workers.size
  | _ => False

/-- An undisturbed call keeps the spawn phase filling. -/
theorem filling_step {config : Config} {s s' : State} {e : Event} (he : e.undisturbed)
    (h : Filling config s) (hs : Step config s e s') : Filling config s' := by
  cases hs <;> simp_all [Filling, Event.undisturbed]

/-! ## The laws of the table -/

/-- What a run has established about the table when it stands at {lit}`s`.

The keys are the unreaped children everywhere but between {lit}`fork` and
{lit}`insert`, so at the boundary of every phase; a signal is never sent from
there.  {lit}`returned` speaks of the manager that has left its loop. -/
structure TableLaws (config : Config) (s : State) (k : Kernel) : Prop where
  keys_eq : s.phase.spawning = none → ∀ pid, pid ∈ s.workers ↔ pid ∈ k.children
  size_le : s.workers.size ≤ config.workers
  insert_fresh : ∀ pid parent, s.phase = .born pid parent → pid ∉ s.workers
  signalled : ∀ pid signal, (step config s (.kill pid signal)).isSome →
    s.phase.spawning = none ∧ pid ∈ k.children
  fork_undrained : ∀ reply, (step config s (.fork reply)).isSome → s.draining = none
  returned : s.phase = .finished → k.children = ∅

/-- The laws of the table, read off the invariant. -/
theorem Tracks.laws {config : Config} {s : State} {k : Kernel} (h : Tracks config s k) :
    TableLaws config s k where
  keys_eq hspawning pid := by simpa [hspawning] using (h.children pid).symm
  size_le := h.size_le
  insert_fresh pid parent hphase := h.fresh pid (by rw [hphase]; rfl)
  signalled pid signal hsome := by
    obtain ⟨s', hs⟩ := Option.isSome_iff_exists.mp hsome
    -- Only the two passes over the table send a signal.
    have hnext : s.phase.spawning = none ∧ pid ∈ s.phase.todo := by
      cases step_cases hs with
      | notified hphase => rw [hphase]; exact ⟨rfl, List.mem_cons_self⟩
      | terminated hphase => rw [hphase]; exact ⟨rfl, List.mem_cons_self⟩
    exact ⟨hnext.1, (h.children pid).mpr (Or.inl (h.todo pid hnext.2))⟩
  fork_undrained reply hsome := by
    obtain ⟨s', hs⟩ := Option.isSome_iff_exists.mp hsome
    have hspawn : s.phase.inSpawn := by
      cases step_cases hs with
      | forked hphase => rw [hphase]; rfl
      | forkFailed hphase => rw [hphase]; rfl
    exact h.undrained hspawn
  returned hphase := by
    have hempty : ∀ pid, pid ∉ s.workers := by
      intro pid
      simp [Std.ExtTreeMap.isEmpty_iff.mp (h.finished hphase)]
    ext pid
    simp [h.children pid, hempty pid, hphase, Phase.spawning]

/-- Every run of {lit}`supervise` keeps the laws of the table, and a spawn phase
that runs without an error ends with a full one. -/
theorem supervise_tracks_children (config : Config) (t : Instant) (es : List Event)
    (s : State) (k : Kernel)
    (hrun : LabelledMachine.exec (supervised config) (initial t) es = some (s, k)) :
    TableLaws config s k ∧
      ∀ begun now spawning s₁ k₁, es = begun ++ .now now :: spawning →
        LabelledMachine.exec (supervised config) (initial t) begun = some (s₁, k₁) →
        s₁.phase = .loopHead → s₁.retryAt ≤ now →
        (∀ e ∈ spawning, e.undisturbed) → s.phase = .poll →
        s.workers.size = config.workers := by
  refine ⟨(run_tracks hrun).laws, ?_⟩
  intro begun now spawning s₁ k₁ hes hbegun hhead hdue hspawning hpoll
  have hsplit : LabelledMachine.exec (supervised config) (s₁, k₁) (.now now :: spawning) =
      some (s, k) := by
    rw [hes, LabelledMachine.exec_append, hbegun] at hrun
    simpa using hrun
  simp only [LabelledMachine.exec_cons, Option.bind_eq_some_iff] at hsplit
  obtain ⟨⟨s₂, k₂⟩, hfirst, hrest⟩ := hsplit
  have hs : Step config s₁ (.now now) s₂ :=
    step_cases (LabelledMachine.sync_eq_some_iff.mp hfirst).1
  -- The clock reading opens the spawn phase, because no back-off is pending.
  have hopened : Filling config s₂ := by
    cases hs
    case retryDue => simp [Filling]
    case retryPending _ _ hpending => exact absurd hdue (Nat.not_le.mpr hpending)
    all_goals simp_all
  have hfilled : Filling config s :=
    LabelledMachine.exec_invariant_on (I := fun y => Filling config y.1)
      (fun _ _ _ he hy hstep =>
        filling_step he hy (step_cases (LabelledMachine.sync_eq_some_iff.mp hstep).1))
      hspawning hopened hrest
  have hfull : config.workers ≤ s.workers.size := by simpa [Filling, hpoll] using hfilled
  exact le_antisymm (run_tracks hrun).size_le hfull

/-- One worker, forked, told to drain and reaped. -/
def sampleConfig : Config where
  root := bytes "/srv"
  listen := bytes "127.0.0.1:9000"
  workers := 1
  timeout := 30
  preload := false
  ini := none
  defines := []

/-- The life of that worker as the manager sees it. -/
def sampleRun : List Event :=
  [.now 0, .tau, .socketpair (.ok (5, 6)), .fork (.ok 7), .close 6, .now 1, .tau,
    .poll (.ok 1), .recv 7 5 none, .tau, .read (some .sigterm), .now 2, .kill 7 .sigusr1,
    .tau, .read none, .clockGettime 2, .now 3, .tau, .waitpid (some (7, .exited 0)),
    .close 5, .waitpid none, .tau]

/-- A service that forks one worker and is terminated leaves no child behind. -/
theorem supervise_tracks_children_sample :
    ∃ s k, LabelledMachine.exec (supervised sampleConfig) (initial 0) sampleRun = some (s, k) ∧
      s.phase = .finished ∧ k.children = ∅ := by
  refine ⟨_, _, rfl, rfl, ?_⟩
  exact (supervise_tracks_children sampleConfig 0 sampleRun _ _ rfl).1.returned rfl

end Manager

end Polychrome

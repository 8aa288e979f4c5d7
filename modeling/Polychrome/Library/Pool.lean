import Mathlib.Data.Finset.Card
import Polychrome.Library.LabelledMachine

/-!
# Pools that close

A pool has room for so many members.  Members join and leave, and in one stay a member
gets each mark once at most; once the pool is closing nobody joins, and the members that
are left may be told.  This is what a supervisor of short-lived workers is for, whatever
it does to get there.

Main results:

- Theorem {lit}`laws_of_run`: the members are never too many, every one that joins
  leaves or is there, no mark is given more often than its member joins, and nobody
  joins a closing pool.
- Theorem {lit}`over_run`: a pool that is closing and empty stays so.
-/

namespace Pool

open LabelledMachine

variable {α τ : Type*}

/-- The members, those of them that have a mark, and whether the pool is closing. -/
structure State (α τ : Type*) where
  live : Finset α
  marked : τ → Finset α
  closing : Bool

/-- What happens to a pool. -/
inductive Event (α τ : Type*)
  | join (a : α)
  | tell (a : α)
  | mark (m : τ) (a : α)
  | leave (a : α)
  | close
deriving DecidableEq, Repr

/-- A pool before its first member. -/
def empty : State α τ where
  live := ∅
  marked := fun _ => ∅
  closing := false

variable [DecidableEq α] [DecidableEq τ]

/-- What a pool with room for {lit}`capacity` members allows. -/
def step (capacity : Nat) : Machine (State α τ) (Event α τ) := fun s e =>
  match e with
  | .join a =>
      if s.closing = false ∧ a ∉ s.live ∧ s.live.card < capacity then
        some { s with live := insert a s.live }
      else none
  | .tell a => if s.closing = true ∧ a ∈ s.live then some s else none
  | .mark m a =>
      if a ∈ s.live ∧ a ∉ s.marked m then
        some { s with marked := Function.update s.marked m (insert a (s.marked m)) }
      else none
  | .leave a =>
      if a ∈ s.live then
        some { s with live := s.live.erase a, marked := fun m => (s.marked m).erase a }
      else none
  | .close => some { s with closing := true }

/-- The branches of {lit}`step`, one case each. -/
inductive Step (capacity : Nat) (s : State α τ) : Event α τ → State α τ → Prop
  | joined {a : α} (hopen : s.closing = false) (hnew : a ∉ s.live)
      (hroom : s.live.card < capacity) :
      Step capacity s (.join a) { s with live := insert a s.live }
  | told {a : α} (hclosing : s.closing = true) (hlive : a ∈ s.live) : Step capacity s (.tell a) s
  | marked {m : τ} {a : α} (hlive : a ∈ s.live) (hunmarked : a ∉ s.marked m) :
      Step capacity s (.mark m a)
        { s with marked := Function.update s.marked m (insert a (s.marked m)) }
  | left {a : α} (hlive : a ∈ s.live) :
      Step capacity s (.leave a)
        { s with live := s.live.erase a, marked := fun m => (s.marked m).erase a }
  | closed : Step capacity s .close { s with closing := true }

section Steps

variable {capacity : Nat} {s s' : State α τ} {e : Event α τ}

/-- Every step is one of the branches. -/
theorem step_cases (h : step capacity s e = some s') : Step capacity s e s' := by
  unfold step at h
  split at h
  case h_1 =>
    split at h
    case isTrue hguard =>
      cases h
      exact .joined hguard.1 hguard.2.1 hguard.2.2
    case isFalse => cases h
  case h_2 =>
    split at h
    case isTrue hguard =>
      cases h
      exact .told hguard.1 hguard.2
    case isFalse => cases h
  case h_3 =>
    split at h
    case isTrue hguard =>
      cases h
      exact .marked hguard.1 hguard.2
    case isFalse => cases h
  case h_4 =>
    split at h
    case isTrue hguard =>
      cases h
      exact .left hguard
    case isFalse => cases h
  case h_5 =>
    cases h
    exact .closed

/-- A member that gets a mark is in the set of that mark, and in no other new one. -/
theorem mem_update_insert {marks : τ → Finset α} {m m' : τ} {a b : α} :
    b ∈ Function.update marks m (insert a (marks m)) m' ↔ m' = m ∧ b = a ∨ b ∈ marks m' := by
  by_cases hm : m' = m
  · subst hm
    simp
  · simp [hm]

/-- A mark is lost by leaving only. -/
theorem marked_step (hs : Step capacity s e s') {m : τ} (hmark : ∀ a, e ≠ .mark m a) (a : α) :
    a ∈ s'.marked m ↔ a ∈ s.marked m ∧ e ≠ .leave a := by
  cases hs
  case marked m' b _ _ =>
    have hm : m ≠ m' := by
      rintro rfl
      exact hmark b rfl
    simp [hm]
  case left b _ => simp [and_comm, eq_comm]
  all_goals simp

/-- The marked are members, and the members have found room. -/
structure Sound (capacity : Nat) (s : State α τ) : Prop where
  card_le : s.live.card ≤ capacity
  marked_subset : ∀ m, s.marked m ⊆ s.live

/-- A step keeps the pool sound. -/
theorem sound_step (h : Sound capacity s) (hs : Step capacity s e s') : Sound capacity s' := by
  cases hs with
  | joined _ hnew hroom =>
      refine ⟨?_, fun m => (h.marked_subset m).trans (Finset.subset_insert _ _)⟩
      dsimp only
      rw [Finset.card_insert_of_notMem hnew]
      omega
  | told => exact h
  | marked hlive _ =>
      refine ⟨h.card_le, fun m b hb => ?_⟩
      rcases mem_update_insert.mp hb with ⟨-, rfl⟩ | hb
      · exact hlive
      · exact h.marked_subset m hb
  | left =>
      refine ⟨(Finset.card_erase_le).trans h.card_le, fun m => ?_⟩
      exact Finset.erase_subset_erase _ (h.marked_subset m)
  | closed => exact ⟨h.card_le, h.marked_subset⟩

/-- A closing pool does not open again. -/
theorem closing_step (h : s.closing = true) (hs : Step capacity s e s') :
    s'.closing = true ∧ ∀ a, e ≠ .join a := by
  cases hs with
  | joined hopen =>
      rw [h] at hopen
      cases hopen
  | told | marked | left => exact ⟨h, fun a he => by cases he⟩
  | closed => exact ⟨rfl, fun a he => by cases he⟩

/-- Nothing happens any more to a pool that is closing and empty. -/
theorem over_step (hclosing : s.closing = true) (hempty : s.live = ∅)
    (hs : Step capacity s e s') : e = .close ∧ s' = s := by
  cases hs with
  | joined hopen =>
      rw [hclosing] at hopen
      cases hopen
  | told _ hlive | marked hlive | left hlive =>
      rw [hempty] at hlive
      exact absurd hlive (Finset.notMem_empty _)
  | closed => exact ⟨rfl, by rw [← hclosing]⟩

end Steps

/-! ## Whole runs -/

/-- What the run {lit}`es` of a pool has established. -/
structure Laws (capacity : Nat) (es : List (Event α τ)) (s : State α τ) : Prop where
  sound : Sound capacity s
  balanced : ∀ a, es.count (.join a) = es.count (.leave a) + if a ∈ s.live then 1 else 0
  marked_le : ∀ m a, es.count (.mark m a) ≤ es.count (.join a)
  closing_iff : s.closing = true ↔ .close ∈ es
  closed : ∀ earlier later, es = earlier ++ .close :: later → ∀ a, .join a ∉ later
  told : ∀ a earlier later, es = earlier ++ .tell a :: later →
    .close ∈ earlier ∧ earlier.count (.leave a) < earlier.count (.join a)

section Runs

variable {capacity : Nat} {s s' : State α τ} {es : List (Event α τ)}

/-- Every run of a pool is sound. -/
theorem sound_run (hrun : exec (step capacity) empty es = some s) : Sound capacity s := by
  have hempty : Sound capacity (empty : State α τ) :=
    ⟨Finset.card_empty.trans_le (Nat.zero_le capacity), fun m => Finset.Subset.refl ∅⟩
  exact exec_invariant (I := Sound capacity) (fun _ _ _ h hs => sound_step h (step_cases hs))
    hempty hrun

/-- Whoever has joined has left, or is a member. -/
theorem balanced_run (hrun : exec (step capacity) empty es = some s) (a : α) :
    es.count (.join a) = es.count (.leave a) + if a ∈ s.live then 1 else 0 := by
  refine exec_history_induction
    (P := fun es s => es.count (.join a) = es.count (.leave a) + if a ∈ s.live then 1 else 0)
    rfl ?_ hrun
  intro es s e s' _ hbefore hstep
  rw [List.count_append, List.count_append, hbefore]
  cases step_cases hstep
  case joined b _ hnew _ =>
    by_cases hb : b = a
    · subst hb
      simp [hnew]
    · simp [hb, Ne.symm hb]
  case left b hlive =>
    by_cases hb : b = a
    · subst hb
      simp [hlive]
    · simp [hb, Ne.symm hb]
  all_goals simp

/-- Whoever has been marked has left, or has the mark. -/
theorem marked_run (hrun : exec (step capacity) empty es = some s) (m : τ) (a : α) :
    es.count (.mark m a) ≤ es.count (.leave a) + if a ∈ s.marked m then 1 else 0 := by
  refine exec_history_induction
    (P := fun es s =>
      es.count (.mark m a) ≤ es.count (.leave a) + if a ∈ s.marked m then 1 else 0)
    (Nat.zero_le _) ?_ hrun
  intro es s e s' _ hbefore hstep
  rw [List.count_append, List.count_append]
  cases step_cases hstep
  case marked m' b _ hunmarked =>
    by_cases hb : m = m' ∧ a = b
    · obtain ⟨rfl, rfl⟩ := hb
      rw [if_neg hunmarked] at hbefore
      simpa [mem_update_insert] using hbefore
    · have hne : Event.mark m' b ≠ Event.mark m a := by
        rintro ⟨⟩
        exact hb ⟨rfl, rfl⟩
      simpa [mem_update_insert, hb, hne] using hbefore
  case left b _ =>
    by_cases hb : b = a
    · subst hb
      split at hbefore <;> simp <;> omega
    · simpa [hb, Ne.symm hb] using hbefore
  all_goals simpa using hbefore

/-- A pool is closing exactly if it has been closed. -/
theorem closing_run (hrun : exec (step capacity) empty es = some s) :
    s.closing = true ↔ .close ∈ es := by
  refine exec_history_induction (P := fun es s => s.closing = true ↔ .close ∈ es)
    (by simp [empty]) ?_ hrun
  intro es s e s' _ hbefore hstep
  rw [List.mem_append, List.mem_singleton, ← hbefore]
  cases step_cases hstep <;> simp

/-- Nobody joins behind the point at which the pool is closing. -/
theorem no_join_of_closing (h : s.closing = true) (hrun : exec (step capacity) s es = some s') :
    ∀ a, .join a ∉ es := by
  induction es generalizing s with
  | nil => exact fun a => List.not_mem_nil
  | cons e es ih =>
      obtain ⟨t, hstep, hrest⟩ := Option.bind_eq_some_iff.mp hrun
      obtain ⟨hclosing, hne⟩ := closing_step h (step_cases hstep)
      intro a hmem
      rcases List.mem_cons.mp hmem with heq | hmem
      · exact hne a heq.symm
      · exact ih hclosing hrest a hmem

/-- The laws of a pool hold in every run. -/
theorem laws_of_run (hrun : exec (step capacity) empty es = some s) : Laws capacity es s where
  sound := sound_run hrun
  balanced := balanced_run hrun
  marked_le m a := by
    have hmarked := marked_run hrun m a
    have hbalanced := balanced_run hrun a
    by_cases hmem : a ∈ s.marked m
    · rw [if_pos hmem] at hmarked
      rw [if_pos ((sound_run hrun).marked_subset m hmem)] at hbalanced
      omega
    · rw [if_neg hmem] at hmarked
      omega
  closing_iff := closing_run hrun
  closed earlier later hes a := by
    rw [hes] at hrun
    obtain ⟨t, -, hrest⟩ := exec_append_eq_some_iff.mp hrun
    obtain ⟨u, hclose, hlater⟩ := Option.bind_eq_some_iff.mp hrest
    cases step_cases hclose
    exact no_join_of_closing rfl hlater a
  told a earlier later hes := by
    rw [hes] at hrun
    obtain ⟨t, hearlier, hrest⟩ := exec_append_eq_some_iff.mp hrun
    obtain ⟨u, htell, -⟩ := Option.bind_eq_some_iff.mp hrest
    cases step_cases htell with
    | told hclosing hlive =>
        refine ⟨(closing_run hearlier).mp hclosing, ?_⟩
        rw [balanced_run hearlier a, if_pos hlive]
        exact Nat.lt_succ_self _

/-- A closed pool without workers stays as it is. -/
theorem over_run (hclosing : s.closing = true) (hempty : s.live = ∅)
    (hrun : exec (step capacity) s es = some s') : (∀ e ∈ es, e = .close) ∧ s' = s := by
  induction es with
  | nil =>
      cases hrun
      exact ⟨fun e he => absurd he List.not_mem_nil, rfl⟩
  | cons e es ih =>
      obtain ⟨t, hstep, hrest⟩ := Option.bind_eq_some_iff.mp hrun
      obtain ⟨rfl, rfl⟩ := over_step hclosing hempty (step_cases hstep)
      obtain ⟨hall, hs⟩ := ih hrest
      exact ⟨List.forall_mem_cons.mpr ⟨rfl, hall⟩, hs⟩

end Runs

end Pool

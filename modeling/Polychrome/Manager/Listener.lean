import Polychrome.Library.LabelledMachine

/-!
# The listener's socket file

A Unix {lit}`Listener` owns the directory entry that its {lit}`bind` has made.  It
reads the entry's device and inode after binding, and when it is dropped it unlinks
the path if they are still the same.  Other processes may act on the path between
any two of its system calls, and each of these may fail.

Main results:

- Theorem {lit}`owning_step`: what an undisturbed step keeps.
- Theorem {lit}`listener_removes_own`: an undisturbed listener removes its own entry
  and no other.

Current gaps:

- The path stays in one directory, and a socket on an IP address has no entry.
-/

namespace Polychrome

namespace Manager

namespace SocketFile

open LabelledMachine

/-- {lit}`dev()` and {lit}`ino()`.  The numbers of the listener's own file are not
given to another one while its socket is open. -/
abbrev Inode := Nat × Nat

/-- What the listener does next.  {lit}`recorded` is what {lit}`Self` holds. -/
inductive Phase
  | opening
  | binding
  | listening
  | examining
  | securing (recorded : Inode)
  | serving (recorded : Inode)
  | dropping (recorded : Inode)
  | removing (recorded : Inode)
  /-- {lit}`left`: the listener's own entry stands at the path. -/
  | finished (left : Bool)
deriving DecidableEq, Repr

/-- The listener and the path. -/
structure State where
  phase : Phase
  /-- what stands at the path -/
  entry : Option Inode
  /-- what {lit}`bind` has made -/
  own : Option Inode
  /-- what the listener has unlinked -/
  removed : List Inode
deriving DecidableEq, Repr

/-- Before {lit}`Listener::bind`. -/
def State.initial (entry : Option Inode) : State :=
  { phase := .opening, entry := entry, own := none, removed := [] }

/-- A system call of the listener with its result, or a step of another process. -/
inductive Event
  | socket (ok : Bool)
  | bind (made : Option Inode)
  | listen (ok : Bool)
  | lstat (found : Option Inode)
  | chmod (ok : Bool)
  | drop
  | unlink (ok : Bool)
  | create (inode : Inode)
  | remove
  | renameOnto (inode : Inode)
  | renameAway
deriving DecidableEq, Repr

/-- The listener makes the call itself. -/
def Event.own : Event → Bool
  | .create _ | .remove | .renameOnto _ | .renameAway => false
  | _ => true

/-- {lit}`bind` has returned an error, or {lit}`drop` has returned. -/
def State.finish (s : State) : State :=
  { s with phase := .finished (s.entry.isSome && s.entry == s.own) }

/-- One step.  {lit}`bind` makes an entry only where there is none, and
{lit}`lstat` finds what is there. -/
def step : Machine State Event := fun s e =>
  match e with
  | .socket ok =>
      if s.phase = .opening then some (if ok then { s with phase := .binding } else s.finish)
      else none
  | .bind made =>
      if s.phase = .binding then
        match made with
        | none => some s.finish
        | some inode =>
            if s.entry = none then
              some { s with phase := .listening, entry := some inode, own := some inode }
            else none
      else none
  | .listen ok =>
      if s.phase = .listening then some (if ok then { s with phase := .examining } else s.finish)
      else none
  | .lstat found =>
      if found = none ∨ found = s.entry then
        match s.phase with
        | .examining =>
            match found with
            | none => some s.finish
            | some inode => some { s with phase := .securing inode }
        | .dropping recorded =>
            some (if found = some recorded then { s with phase := .removing recorded }
              else s.finish)
        | _ => none
      else none
  | .chmod ok =>
      match s.phase with
      | .securing recorded =>
          -- The value is built before the mode is set, so a failure drops it.
          some { s with phase := if ok then .serving recorded else .dropping recorded }
      | _ => none
  | .drop =>
      match s.phase with
      | .serving recorded => some { s with phase := .dropping recorded }
      | _ => none
  | .unlink ok =>
      match s.phase, s.entry with
      | .removing _, some inode =>
          some (if ok then State.finish { s with entry := none, removed := inode :: s.removed }
            else s.finish)
      | .removing _, none => if ok then none else some s.finish
      | _, _ => none
  | .create inode =>
      if s.entry = none ∧ s.own ≠ some inode then some { s with entry := some inode } else none
  | .remove => if s.entry = none then none else some { s with entry := none }
  | .renameOnto inode => some { s with entry := some inode }
  | .renameAway => if s.entry = none then none else some { s with entry := none }

/-! ## The claim on the path -/

/-- The listener has unlinked nothing but its own entry, and it has not finished with
its own entry at the path. -/
structure Exact (s : State) : Prop where
  own_only : ∀ inode ∈ s.removed, s.own = some inode
  not_left : s.phase ≠ .finished true

/-- Between {lit}`bind` and the {lit}`lstat` behind it, or between the {lit}`lstat` of
{lit}`drop` and its {lit}`unlink`. -/
def Phase.exposed : Phase → Bool
  | .listening | .examining | .removing _ => true
  | _ => false

/-- The call does not fail while the listener's own entry stands at the path, and no
other process puts an entry of its own there in between two calls. -/
def Undisturbed (s : State) : Event → Prop
  | .listen false | .lstat none | .unlink false => s.entry ≠ s.own
  | .create inode | .renameOnto inode => s.phase.exposed = true → s.own = some inode
  | _ => True

/-! ## The invariant -/

/-- Nothing stands at the path, or the listener's own entry. -/
def State.clear (s : State) (own : Inode) : Prop := s.entry = none ∨ s.entry = some own

/-- What the listener knows of its own entry. -/
def Owning (s : State) : Prop :=
  match s.phase with
  | .opening | .binding => s.own = none ∧ s.removed = []
  | .listening | .examining => ∃ own, s.own = some own ∧ s.clear own ∧ s.removed = []
  | .securing recorded | .serving recorded | .dropping recorded =>
      s.own = some recorded ∧ s.removed = []
  | .removing recorded => s.own = some recorded ∧ s.clear recorded ∧ s.removed = []
  | .finished left => left = false ∧ ∀ inode ∈ s.removed, s.own = some inode

/-- The listener ends well if its entry is gone and it removed no other. -/
theorem owning_finish {s : State} (hentry : s.own = none ∨ s.entry ≠ s.own)
    (hremoved : ∀ inode ∈ s.removed, s.own = some inode) : Owning s.finish := by
  refine ⟨?_, hremoved⟩
  rw [Bool.and_eq_false_iff]
  rcases hentry with hnone | hother
  · cases hthere : s.entry with
    | none => exact Or.inl rfl
    | some inode =>
        rw [hnone]
        exact Or.inr rfl
  · exact Or.inr (beq_eq_false_iff_ne.mpr hother)

/-- Another process changes what stands at the path. -/
theorem owning_elsewhere {s : State} {entry : Option Inode} (h : Owning s)
    (hentry : s.phase.exposed = true → entry = none ∨ entry = s.own) :
    Owning { s with entry := entry } := by
  unfold Owning at h ⊢
  dsimp only
  cases hphase : s.phase with
  | opening => rwa [hphase] at h
  | binding => rwa [hphase] at h
  | listening =>
      rw [hphase] at h hentry
      rcases h with ⟨own, hown, -, hremoved⟩
      rw [hown] at hentry
      exact ⟨own, hown, hentry rfl, hremoved⟩
  | examining =>
      rw [hphase] at h hentry
      rcases h with ⟨own, hown, -, hremoved⟩
      rw [hown] at hentry
      exact ⟨own, hown, hentry rfl, hremoved⟩
  | securing recorded => rwa [hphase] at h
  | serving recorded => rwa [hphase] at h
  | dropping recorded => rwa [hphase] at h
  | removing recorded =>
      rw [hphase] at h hentry
      rcases h with ⟨hown, -, hremoved⟩
      rw [hown] at hentry
      exact ⟨hown, hentry rfl, hremoved⟩
  | finished left => rwa [hphase] at h

/-! ## The calls one by one -/

/-- Opening the socket owns nothing yet. -/
theorem owning_socket {s s' : State} {ok : Bool} (h : Owning s)
    (hs : step s (.socket ok) = some s') : Owning s' := by
  simp only [step] at hs
  split at hs
  case isFalse => cases hs
  case isTrue hphase =>
    rw [Owning, hphase] at h
    cases hs
    cases ok with
    | true => exact h
    | false => exact owning_finish (Or.inl h.1) (by simp [h.2])

/-- {lit}`bind` makes an entry where there is none, and it is the listener's own. -/
theorem owning_bind {s s' : State} {made : Option Inode} (h : Owning s)
    (hs : step s (.bind made) = some s') : Owning s' := by
  simp only [step] at hs
  split at hs
  case isFalse => cases hs
  case isTrue hphase =>
    rw [Owning, hphase] at h
    cases made with
    | none =>
        cases hs
        exact owning_finish (Or.inl h.1) (by simp [h.2])
    | some inode =>
        dsimp only at hs
        split at hs
        case isFalse => cases hs
        case isTrue =>
          cases hs
          exact ⟨inode, rfl, Or.inr rfl, h.2⟩

/-- A {lit}`listen` that fails is harmless where the entry is not its own any more. -/
theorem owning_listen {s s' : State} {ok : Bool} (h : Owning s)
    (hundisturbed : Undisturbed s (.listen ok)) (hs : step s (.listen ok) = some s') :
    Owning s' := by
  simp only [step] at hs
  split at hs
  case isFalse => cases hs
  case isTrue hphase =>
    rw [Owning, hphase] at h
    rcases h with ⟨own, hown, hclear, hremoved⟩
    cases hs
    cases ok with
    | true => exact ⟨own, hown, hclear, hremoved⟩
    | false => exact owning_finish (Or.inr hundisturbed) (by simp [hremoved])

/-- What {lit}`bind` records is the listener's own entry: nothing else can stand there. -/
theorem owning_examine {s : State} {found : Option Inode} (h : Owning s)
    (hphase : s.phase = .examining) (hundisturbed : Undisturbed s (.lstat found))
    (hfound : found = none ∨ found = s.entry) :
    Owning (match found with
      | none => s.finish
      | some inode => { s with phase := .securing inode }) := by
  rw [Owning, hphase] at h
  rcases h with ⟨own, hown, hclear, hremoved⟩
  cases found with
  | none => exact owning_finish (Or.inr hundisturbed) (by simp [hremoved])
  | some inode =>
      have hthere : s.entry = some inode := (hfound.resolve_left (by simp)).symm
      have hsame : some inode = some own := hthere ▸ hclear.resolve_left (by simp [hthere])
      exact ⟨hown.trans hsame.symm, hremoved⟩

/-- {lit}`drop` goes on only if it finds what {lit}`bind` has recorded. -/
theorem owning_verify {s : State} {found : Option Inode} {recorded : Inode} (h : Owning s)
    (hphase : s.phase = .dropping recorded) (hundisturbed : Undisturbed s (.lstat found))
    (hfound : found = none ∨ found = s.entry) :
    Owning (if found = some recorded then { s with phase := .removing recorded }
      else s.finish) := by
  rw [Owning, hphase] at h
  split
  case isTrue hsame =>
    have hthere : s.entry = some recorded :=
      hsame ▸ (hfound.resolve_left (by simp [hsame])).symm
    exact ⟨h.1, Or.inr hthere, h.2⟩
  case isFalse hother =>
    refine owning_finish (Or.inr ?_) (by simp [h.2])
    cases found with
    | none => exact hundisturbed
    | some inode =>
        rw [← hfound.resolve_left (by simp), h.1]
        exact hother

/-- Behind {lit}`bind` the entry found is recorded, in {lit}`drop` it is compared. -/
theorem owning_lstat {s s' : State} {found : Option Inode} (h : Owning s)
    (hundisturbed : Undisturbed s (.lstat found)) (hs : step s (.lstat found) = some s') :
    Owning s' := by
  simp only [step] at hs
  split at hs
  case isFalse => cases hs
  case isTrue hfound =>
    split at hs
    case h_1 hphase =>
      have howning := owning_examine h hphase hundisturbed hfound
      cases found <;> cases hs <;> exact howning
    case h_2 recorded hphase =>
      cases hs
      exact owning_verify h hphase hundisturbed hfound
    case h_3 => cases hs

/-- Setting the mode, or failing to, leaves the entry alone. -/
theorem owning_chmod {s s' : State} {ok : Bool} (h : Owning s)
    (hs : step s (.chmod ok) = some s') : Owning s' := by
  simp only [step] at hs
  split at hs
  case h_1 recorded hphase =>
    rw [Owning, hphase] at h
    cases hs
    cases ok <;> exact h
  case h_2 => cases hs

/-- {lit}`drop` begins by removing nothing. -/
theorem owning_drop {s s' : State} (h : Owning s) (hs : step s .drop = some s') : Owning s' := by
  simp only [step] at hs
  split at hs
  case h_1 recorded hphase =>
    rw [Owning, hphase] at h
    cases hs
    exact h
  case h_2 => cases hs

/-- What is unlinked is what has been verified: nothing else can stand there. -/
theorem owning_unlink {s s' : State} {ok : Bool} (h : Owning s)
    (hundisturbed : Undisturbed s (.unlink ok)) (hs : step s (.unlink ok) = some s') :
    Owning s' := by
  simp only [step] at hs
  split at hs
  case h_1 recorded inode hphase hthere =>
    rw [Owning, hphase] at h
    rcases h with ⟨hown, hclear, hremoved⟩
    cases hs
    cases ok with
    | false => exact owning_finish (Or.inr hundisturbed) (by simp [hremoved])
    | true =>
        have hsame : some inode = some recorded := hthere ▸ hclear.resolve_left (by simp [hthere])
        refine owning_finish (Or.inr (by simp [hown])) ?_
        intro other hother
        rw [hremoved, List.mem_singleton] at hother
        rw [hother]
        exact hown.trans hsame.symm
  case h_2 recorded hphase hthere =>
    rw [Owning, hphase] at h
    rcases h with ⟨hown, hclear, hremoved⟩
    cases ok with
    | true => cases hs
    | false =>
        cases hs
        exact owning_finish (Or.inr hundisturbed) (by simp [hremoved])
  case h_3 => cases hs

/-- The steps of other processes leave the listener what it knows. -/
theorem owning_others {s s' : State} {e : Event} (h : Owning s) (hundisturbed : Undisturbed s e)
    (hothers : e.own = false) (hs : step s e = some s') : Owning s' := by
  cases e with
  | create inode =>
      simp only [step] at hs
      split at hs
      case isFalse => cases hs
      case isTrue hfresh =>
        cases hs
        exact owning_elsewhere h fun hexposed => absurd (hundisturbed hexposed) hfresh.2
  | renameOnto inode =>
      cases hs
      exact owning_elsewhere h fun hexposed => Or.inr (hundisturbed hexposed).symm
  | remove | renameAway =>
      simp only [step] at hs
      split at hs
      case isTrue => cases hs
      case isFalse =>
        cases hs
        exact owning_elsewhere h fun _ => Or.inl rfl
  | socket | bind | listen | lstat | chmod | drop | unlink => cases hothers

/-- A step that does not disturb the listener leaves it what it knows. -/
theorem owning_step {s s' : State} {e : Event} (h : Owning s) (hundisturbed : Undisturbed s e)
    (hs : step s e = some s') : Owning s' := by
  cases e with
  | socket ok => exact owning_socket h hs
  | bind made => exact owning_bind h hs
  | listen ok => exact owning_listen h hundisturbed hs
  | lstat found => exact owning_lstat h hundisturbed hs
  | chmod ok => exact owning_chmod h hs
  | drop => exact owning_drop h hs
  | unlink ok => exact owning_unlink h hundisturbed hs
  | create | remove | renameOnto | renameAway => exact owning_others h hundisturbed rfl hs

/-- Whoever knows its own entry removes it and no other. -/
theorem exact_of_owning {s : State} (h : Owning s) : Exact s := by
  have hremoved : s.removed = [] ∨ ∀ inode ∈ s.removed, s.own = some inode := by
    unfold Owning at h
    cases hphase : s.phase <;> rw [hphase] at h
    case finished left => exact Or.inr h.2
    case opening => exact Or.inl h.2
    case binding => exact Or.inl h.2
    case securing => exact Or.inl h.2
    case serving => exact Or.inl h.2
    case dropping => exact Or.inl h.2
    case removing => exact Or.inl h.2.2
    case listening =>
      rcases h with ⟨own, -, -, hremoved⟩
      exact Or.inl hremoved
    case examining =>
      rcases h with ⟨own, -, -, hremoved⟩
      exact Or.inl hremoved
  constructor
  · intro inode hinode
    rcases hremoved with hnil | hown
    · rw [hnil] at hinode
      cases hinode
    · exact hown inode hinode
  · intro hphase
    rw [Owning, hphase] at h
    cases h.1

/-- In every run in which nothing disturbs the listener it removes its own entry and
no other. -/
theorem listener_removes_own (entry : Option Inode) (events : List Event) (s : State)
    (hrun : exec step (State.initial entry) events = some s)
    (hundisturbed : ∀ before e after t, events = before ++ e :: after →
      exec step (State.initial entry) before = some t → Undisturbed t e) : Exact s := by
  have howning : (∀ before e after t, events = before ++ e :: after →
      exec step (State.initial entry) before = some t → Undisturbed t e) → Owning s := by
    refine exec_history_induction (P := fun events s => (∀ before e after t,
      events = before ++ e :: after → exec step (State.initial entry) before = some t →
        Undisturbed t e) → Owning s) ?_ ?_ hrun
    · intro _
      exact ⟨rfl, rfl⟩
    · intro events t e t' hrun ih hs hundisturbed
      refine owning_step (ih ?_) (hundisturbed events e [] t rfl hrun) hs
      intro before e' after u heq hbefore
      exact hundisturbed before e' (after ++ [e]) u (by rw [heq]; simp) hbefore
  exact exact_of_owning (howning hundisturbed)

/-- Three disturbed runs.  {lit}`listen` fails and the entry stays; another server takes
the path over before the {lit}`lstat` of {lit}`bind`, or between the two calls of
{lit}`drop`, and loses its entry. -/
theorem disturbed_listener_inexact :
    (∃ s, exec step (State.initial none) [.socket true, .bind (some (1, 7)), .listen false] =
        some s ∧ s.entry = s.own ∧ ¬ Exact s) ∧
    (∃ s, exec step (State.initial none)
        [.socket true, .bind (some (1, 7)), .listen true, .renameOnto (1, 8),
          .lstat (some (1, 8)), .chmod true, .drop, .lstat (some (1, 8)), .unlink true] =
        some s ∧ ¬ Exact s) ∧
    ∃ s, exec step (State.initial none)
        [.socket true, .bind (some (1, 7)), .listen true, .lstat (some (1, 7)), .chmod true,
          .drop, .lstat (some (1, 7)), .renameOnto (1, 8), .unlink true] =
        some s ∧ ¬ Exact s := by
  refine ⟨⟨_, rfl, rfl, ?_⟩, ⟨_, rfl, ?_⟩, ⟨_, rfl, ?_⟩⟩
  · intro h
    exact h.not_left rfl
  · intro h
    have hown := h.own_only (1, 8) List.mem_cons_self
    cases hown
  · intro h
    have hown := h.own_only (1, 8) List.mem_cons_self
    cases hown

instance (s : State) : DecidablePred (Undisturbed s) := fun e =>
  match e with
  | .listen false | .lstat none | .unlink false => inferInstanceAs (Decidable (s.entry ≠ s.own))
  | .create inode | .renameOnto inode =>
      inferInstanceAs (Decidable (s.phase.exposed = true → s.own = some inode))
  | .socket _ | .bind _ | .listen true | .lstat (some _) | .chmod _ | .drop | .unlink true
  | .remove | .renameAway => inferInstanceAs (Decidable True)

/-- Another process clears the path and later moves the entry away and back; the mode cannot
be set, so the listener is dropped at once. -/
def lifeEvents : List Event :=
  [.remove, .socket true, .bind (some (1, 7)), .listen true, .lstat (some (1, 7)), .chmod false,
    .renameAway, .renameOnto (1, 7), .lstat (some (1, 7)), .unlink true]

/-- Another server takes the path over while the listener serves. -/
def takenOver : List Event :=
  [.remove, .socket true, .bind (some (1, 7)), .listen true, .lstat (some (1, 7)), .chmod true,
    .renameOnto (1, 8), .drop, .lstat (some (1, 8))]

/-- A stale socket is replaced and the new one removed; one that another server has taken over
stays. -/
theorem listener_removes_own_sample :
    (∃ s, exec step (State.initial (some (1, 5))) lifeEvents = some s ∧ s.removed = [(1, 7)] ∧
      s.own = some (1, 7) ∧ Exact s) ∧
    ∃ s, exec step (State.initial (some (1, 5))) takenOver = some s ∧ s.removed = [] ∧
      s.entry = some (1, 8) ∧ Exact s := by
  have hlife : allAlong step (fun s e => decide (Undisturbed s e)) (State.initial (some (1, 5)))
      lifeEvents = true := by decide
  have htaken : allAlong step (fun s e => decide (Undisturbed s e)) (State.initial (some (1, 5)))
      takenOver = true := by decide
  refine ⟨⟨_, rfl, rfl, rfl, listener_removes_own (some (1, 5)) lifeEvents _ rfl ?_⟩,
    ⟨_, rfl, rfl, rfl, listener_removes_own (some (1, 5)) takenOver _ rfl ?_⟩⟩
  · exact fun _ _ _ _ hes hrun => of_decide_eq_true (of_allAlong hlife hes hrun)
  · exact fun _ _ _ _ hes hrun => of_decide_eq_true (of_allAlong htaken hes hrun)

end SocketFile

end Manager

end Polychrome

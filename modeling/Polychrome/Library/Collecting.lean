import Mathlib.Data.List.Basic

/-!
# Loops that collect

A loop over a list carries a state.  If one turn adds to what the state holds
exactly what its item contributes, the whole loop adds what the items contribute.
The turn may fail, and then the loop fails.

Main results:

- Theorem {lit}`Except.bind_eq_ok`: how a sequence succeeds.
- Theorem {lit}`foldlM_collects`: what a loop that has succeeded has collected.
- Theorem {lit}`foldlM_keeps`: what every turn keeps, a loop that has succeeded keeps.
- Theorem {lit}`foldlM_turns`: in a loop that has succeeded, every turn has.
- Theorem {lit}`mem_of_mapM`: what a map that has succeeded holds.
- Theorem {lit}`foldlM_flatten`: a loop that only enters what its items come to.
-/

namespace Except

variable {ε α β : Type}

/-- Two computations succeed one after the other. -/
theorem bind_eq_ok {x : Except ε α} {f : α → Except ε β} {b : β} :
    x >>= f = .ok b ↔ ∃ a, x = .ok a ∧ f a = .ok b := by
  cases x with
  | error e => simp [bind, Except.bind]
  | ok a => simp [bind, Except.bind]

/-- A value succeeds with itself. -/
theorem pure_eq_ok {a b : α} : (pure a : Except ε α) = .ok b ↔ a = b := by
  simp [pure, Except.pure]

end Except

namespace Collecting

section Collects

variable {ε σ α β : Type} (holds : σ → β → Prop) (adds : α → β → Prop)

/-- A loop without failure. -/
theorem foldl_collects {turn : σ → α → σ}
    (hturn : ∀ s a b, holds (turn s a) b ↔ holds s b ∨ adds a b) (items : List α) (s : σ) (b : β) :
    holds (items.foldl turn s) b ↔ holds s b ∨ ∃ a ∈ items, adds a b := by
  induction items generalizing s with
  | nil => simp
  | cons a items ih =>
      rw [List.foldl_cons, ih, hturn, or_assoc]
      simp

/-- A loop that has succeeded. -/
theorem foldlM_collects {turn : σ → α → Except ε σ}
    (hturn : ∀ s a s', turn s a = .ok s' → ∀ b, holds s' b ↔ holds s b ∨ adds a b)
    {items : List α} {s s' : σ} (h : items.foldlM turn s = .ok s') (b : β) :
    holds s' b ↔ holds s b ∨ ∃ a ∈ items, adds a b := by
  induction items generalizing s with
  | nil =>
      rw [List.foldlM_nil, Except.pure_eq_ok] at h
      rw [h]
      simp
  | cons a items ih =>
      rw [List.foldlM_cons, Except.bind_eq_ok] at h
      rcases h with ⟨t, hfirst, hrest⟩
      rw [ih hrest, hturn s a t hfirst, or_assoc]
      simp

end Collects

section Keeps

variable {ε σ α : Type} (holds : σ → Prop)

/-- What every turn keeps is kept by the loop. -/
theorem foldl_keeps {turn : σ → α → σ} (hturn : ∀ s a, holds s → holds (turn s a))
    (items : List α) {s : σ} (hs : holds s) : holds (items.foldl turn s) := by
  induction items generalizing s with
  | nil => exact hs
  | cons a items ih =>
      rw [List.foldl_cons]
      exact ih (hturn s a hs)

/-- A loop of turns that can fail keeps what every turn keeps. -/
theorem foldlM_keeps {turn : σ → α → Except ε σ}
    (hturn : ∀ s a s', turn s a = .ok s' → holds s → holds s') {items : List α} {s s' : σ}
    (h : items.foldlM turn s = .ok s') (hs : holds s) : holds s' := by
  induction items generalizing s with
  | nil =>
      rw [List.foldlM_nil, Except.pure_eq_ok] at h
      rwa [← h]
  | cons a items ih =>
      rw [List.foldlM_cons, Except.bind_eq_ok] at h
      rcases h with ⟨t, hfirst, hrest⟩
      exact ih hrest (hturn s a t hfirst hs)

/-- In a loop that succeeds every item has had a turn that succeeds. -/
theorem foldlM_turns {turn : σ → α → Except ε σ} {items : List α} {s s' : σ}
    (h : items.foldlM turn s = .ok s') {a : α} (ha : a ∈ items) :
    ∃ t t', turn t a = .ok t' := by
  induction items generalizing s with
  | nil => cases ha
  | cons b items ih =>
      rw [List.foldlM_cons, Except.bind_eq_ok] at h
      rcases h with ⟨t, hfirst, hrest⟩
      rcases List.mem_cons.mp ha with rfl | hmem
      · exact ⟨s, t, hfirst⟩
      · exact ih hrest hmem

end Keeps

/-- A map that has succeeded holds the results of its items. -/
theorem mem_of_mapM {ε α β : Type} {f : α → Except ε β} {items : List α} {results : List β}
    (h : items.mapM f = .ok results) {b : β} : b ∈ results ↔ ∃ a ∈ items, f a = .ok b := by
  induction items generalizing results with
  | nil =>
      rw [List.mapM_nil, Except.pure_eq_ok] at h
      rw [← h]
      simp
  | cons a items ih =>
      rw [List.mapM_cons, Except.bind_eq_ok] at h
      rcases h with ⟨c, hfirst, h⟩
      rw [Except.bind_eq_ok] at h
      rcases h with ⟨rest, hrest, h⟩
      rw [Except.pure_eq_ok] at h
      rw [← h, List.mem_cons, ih hrest]
      simp [hfirst, eq_comm]

/-! ## Loops over what their items come to -/

/-- A loop whose turns do nothing but enter what their items come to, one thing after the
other, enters what all items come to. -/
theorem foldlM_flatten {m : Type → Type} [Monad m] [LawfulMonad m] {σ α β : Type}
    {turn : σ → α → m σ} {gather : α → m (List β)} {enter : σ → β → σ}
    (hturn : ∀ s a, turn s a = do return (← gather a).foldl enter s) (items : List α) (s : σ) :
    items.foldlM turn s = do return (← items.mapM gather).flatten.foldl enter s := by
  induction items generalizing s with
  | nil => simp
  | cons a items ih =>
      rw [List.foldlM_cons, hturn, List.mapM_cons]
      simp only [bind_assoc, pure_bind, List.flatten_cons, List.foldl_append]
      refine bind_congr ?_
      intro things
      exact ih (things.foldl enter s)

/-- Something holds of everything if every item comes to nothing else. -/
theorem forall_mem_flatten_mapM {ε α β : Type} {f : α → Except ε (List β)} (holds : β → Prop)
    {good : α → Prop}
    (hgood : ∀ a things, f a = .ok things → ((∀ b ∈ things, holds b) ↔ good a)) {items : List α}
    {results : List β} (h : (do return (← items.mapM f).flatten) = .ok results) :
    (∀ b ∈ results, holds b) ↔ ∀ a ∈ items, good a := by
  induction items generalizing results with
  | nil =>
      rw [List.mapM_nil, pure_bind, Except.pure_eq_ok] at h
      rw [← h]
      simp
  | cons a items ih =>
      rw [List.mapM_cons] at h
      simp only [bind_assoc, pure_bind, List.flatten_cons, Except.bind_eq_ok,
        Except.pure_eq_ok] at h
      rcases h with ⟨things, hfirst, rest, hrest, rfl⟩
      have hrest' : (do return (← items.mapM f).flatten) = Except.ok rest.flatten := by
        rw [hrest]
        rfl
      rw [List.forall_mem_append, List.forall_mem_cons, ih hrest', hgood a things hfirst]

end Collecting

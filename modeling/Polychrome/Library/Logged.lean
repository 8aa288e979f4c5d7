import Polychrome.Library.Collecting

/-!
# Computations that leave a log

A computation that may fail writes a log, also as far as it came before it failed.
Without the log it is the plain computation, and what a loop has logged was logged by
one of its turns.

Main results:

- Theorem {lit}`result_bind` and theorem {lit}`result_foldlM`: the log does not matter
  for the result.
- Theorem {lit}`mem_log_bind` and theorem {lit}`mem_log_foldlM`: where an entry of the
  log comes from.
-/

/-- A result, and what was logged on the way to it. -/
structure Logged (ε ω α : Type) where
  result : Except ε α
  log : List ω

namespace Logged

variable {ε ω α β σ : Type}

instance : Monad (Logged ε ω) where
  pure a := { result := .ok a, log := [] }
  bind x f :=
    match x.result with
    | .error e => { result := .error e, log := x.log }
    | .ok a => { result := (f a).result, log := x.log ++ (f a).log }

/-- Nothing is logged. -/
instance : MonadLift (Except ε) (Logged ε ω) where
  monadLift x := { result := x, log := [] }

/-- One more entry. -/
def note (entry : ω) : Logged ε ω Unit := { result := .ok (), log := [entry] }

/-- The computation fails. -/
def fail (e : ε) : Logged ε ω α := { result := .error e, log := [] }

/-- A computation without a log has the result it had. -/
@[simp]
theorem result_lift (x : Except ε α) : (liftM x : Logged ε ω α).result = x :=
  rfl

/-- A note succeeds. -/
@[simp]
theorem result_note (entry : ω) : (note entry : Logged ε ω Unit).result = .ok () :=
  rfl

/-- Its entry is the log. -/
@[simp]
theorem log_note (entry : ω) : (note entry : Logged ε ω Unit).log = [entry] :=
  rfl

/-- The log has no influence on the result. -/
@[simp]
theorem result_bind (x : Logged ε ω α) (f : α → Logged ε ω β) :
    (x >>= f).result = x.result >>= fun a => (f a).result := by
  change (match x.result with
    | .error e => ({ result := .error e, log := x.log } : Logged ε ω β)
    | .ok a => { result := (f a).result, log := x.log ++ (f a).log }).result = _
  cases x.result <;> rfl

/-- An entry was logged first, or by what follows a success. -/
theorem mem_log_bind {x : Logged ε ω α} {f : α → Logged ε ω β} {entry : ω} :
    entry ∈ (x >>= f).log ↔
      entry ∈ x.log ∨ ∃ a, x.result = .ok a ∧ entry ∈ (f a).log := by
  change entry ∈ (match x.result with
    | .error e => ({ result := .error e, log := x.log } : Logged ε ω β)
    | .ok a => { result := (f a).result, log := x.log ++ (f a).log }).log ↔ _
  cases x.result with
  | error e => simp
  | ok a => simp

/-- A loop of turns that log is the loop of their results. -/
theorem result_foldlM (turn : σ → α → Logged ε ω σ) (items : List α) (s : σ) :
    (items.foldlM turn s).result = items.foldlM (fun s a => (turn s a).result) s := by
  induction items generalizing s with
  | nil => rfl
  | cons a items ih =>
      rw [List.foldlM_cons, List.foldlM_cons, result_bind]
      exact bind_congr ih

/-- What a loop has logged was logged by one of its turns. -/
theorem mem_log_foldlM {turn : σ → α → Logged ε ω σ} {items : List α} {s : σ} {entry : ω}
    (h : entry ∈ (items.foldlM turn s).log) : ∃ s', ∃ a ∈ items, entry ∈ (turn s' a).log := by
  induction items generalizing s with
  | nil => cases h
  | cons a items ih =>
      rw [List.foldlM_cons, mem_log_bind] at h
      rcases h with hfirst | ⟨t, -, hrest⟩
      · exact ⟨s, a, List.mem_cons_self, hfirst⟩
      · rcases ih hrest with ⟨s', b, hb, hentry⟩
        exact ⟨s', b, List.mem_cons_of_mem a hb, hentry⟩

end Logged

import Mathlib.Algebra.BigOperators.Group.List.Basic
import Mathlib.Data.List.Perm.Basic
import Mathlib.Data.List.ReduceOption
import Polychrome.Library.Collecting

/-!
# Loops whose order does not matter

Two computations agree if both fail, or both succeed with related results.  A loop
that gains from every item what does not depend on its state gains the same in any
order.

Main results:

- Theorem {lit}`Agree.bind`: sequences of computations that agree.
- Theorem {lit}`Agree.mapM`: a map over permuted items.
- Theorem {lit}`foldlM_gains`: what a loop gains is the total of its items.
- Theorem {lit}`total_eq`: the total does not depend on the order.
-/

namespace Reordering

/-! ## Agreement -/

/-- Both computations fail, or both succeed with related results. -/
inductive Agree {ε α β : Type} (r : α → β → Prop) : Except ε α → Except ε β → Prop
  | ok {a : α} {b : β} (h : r a b) : Agree r (.ok a) (.ok b)
  | error {e e' : ε} : Agree r (.error e) (.error e')

/-- The lists are permutations of each other, up to related items. -/
def PermWith {α β : Type} (r : α → β → Prop) (l : List α) (l' : List β) : Prop :=
  ∃ middle, l.Perm middle ∧ List.Forall₂ r middle l'

section Agreement

variable {ε α β γ δ : Type} {r : α → β → Prop} {s : γ → δ → Prop}

/-- Computations that agree are continued by such that agree. -/
theorem Agree.bind {x : Except ε α} {y : Except ε β} {f : α → Except ε γ} {g : β → Except ε δ}
    (h : Agree r x y) (hfg : ∀ a b, r a b → Agree s (f a) (g b)) :
    Agree s (x >>= f) (y >>= g) := by
  cases h with
  | ok hab => exact hfg _ _ hab
  | error => exact .error

/-- Agreement is handed on. -/
theorem Agree.comp {t : β → γ → Prop} {u : α → γ → Prop} {x : Except ε α} {y : Except ε β}
    {z : Except ε γ} (h : Agree r x y) (h' : Agree t y z)
    (hu : ∀ a b c, r a b → t b c → u a c) : Agree u x z := by
  cases h with
  | ok hab =>
      cases h' with
      | ok hbc => exact .ok (hu _ _ _ hab hbc)
  | error =>
      cases h' with
      | error => exact .error

/-- A computation agrees with itself. -/
theorem Agree.refl {r : α → α → Prop} (hr : ∀ a, r a a) (x : Except ε α) : Agree r x x := by
  cases x with
  | error e => exact .error
  | ok a => exact .ok (hr a)

/-- Where results are equal, success is the same. -/
theorem Agree.eq_ok_iff {x y : Except ε α} (h : Agree Eq x y) {a : α} :
    x = .ok a ↔ y = .ok a := by
  cases h with
  | ok hab => rw [hab]
  | error => simp

/-- A permutation relates equal items. -/
theorem PermWith.perm {l l' : List α} (h : l.Perm l') : PermWith Eq l l' :=
  ⟨l', h, List.forall₂_refl l'⟩

/-- One more pair of related items. -/
theorem PermWith.cons {a : α} {b : β} {l : List α} {l' : List β} (hab : r a b)
    (h : PermWith r l l') : PermWith r (a :: l) (b :: l') := by
  rcases h with ⟨middle, hperm, hrel⟩
  exact ⟨a :: middle, hperm.cons a, .cons hab hrel⟩

/-- Two lists of related items in a row. -/
theorem PermWith.append {l m : List α} {l' m' : List β} (h : PermWith r l l')
    (h' : PermWith r m m') : PermWith r (l ++ m) (l' ++ m') := by
  rcases h with ⟨middle, hperm, hrel⟩
  rcases h' with ⟨middle', hperm', hrel'⟩
  exact ⟨middle ++ middle', hperm.append hperm', List.rel_append hrel hrel'⟩

/-- A list is its own permutation. -/
theorem PermWith.refl {r : α → α → Prop} (hr : ∀ a, r a a) (l : List α) : PermWith r l l :=
  ⟨l, List.Perm.refl l, List.forall₂_same.mpr fun a _ => hr a⟩

/-- Related items with equal images. -/
theorem PermWith.map {l : List α} {l' : List β} {f : α → γ} {g : β → γ} (h : PermWith r l l')
    (hfg : ∀ a b, r a b → f a = g b) : (l.map f).Perm (l'.map g) := by
  rcases h with ⟨middle, hperm, hrel⟩
  have heq : middle.map f = l'.map g := by
    clear hperm
    induction hrel with
    | nil => rfl
    | cons hab hrel ih => rw [List.map_cons, List.map_cons, hfg _ _ hab, ih]
  rw [← heq]
  exact hperm.map f

/-- Both lists are of one length. -/
theorem PermWith.length_eq {l : List α} {l' : List β} (h : PermWith r l l') :
    l.length = l'.length := by
  rcases h with ⟨middle, hperm, hrel⟩
  rw [hperm.length_eq, hrel.length_eq]

/-- What related items share, the lists share. -/
theorem PermWith.forall_iff {l : List α} {l' : List β} {P : α → Prop} {Q : β → Prop}
    (h : PermWith r l l') (hPQ : ∀ a b, r a b → (P a ↔ Q b)) :
    (∀ a ∈ l, P a) ↔ ∀ b ∈ l', Q b := by
  rcases h with ⟨middle, hperm, hrel⟩
  have hmiddle : (∀ a ∈ middle, P a) ↔ ∀ b ∈ l', Q b := by
    clear hperm
    induction hrel with
    | nil => simp
    | cons hab hrel ih => rw [List.forall_mem_cons, List.forall_mem_cons, hPQ _ _ hab, ih]
  rw [← hmiddle]
  exact ⟨fun hall a ha => hall a (hperm.mem_iff.mpr ha),
    fun hall a ha => hall a (hperm.mem_iff.mp ha)⟩

/-- Related items may be replaced by permutations. -/
theorem PermWith.flatMap {l : List α} {l' : List β} {f : α → List γ} {g : β → List γ}
    (h : PermWith r l l') (hfg : ∀ a b, r a b → (f a).Perm (g b)) :
    (l.flatMap f).Perm (l'.flatMap g) := by
  rcases h with ⟨middle, hperm, hrel⟩
  refine (hperm.flatMap_right f).trans ?_
  clear hperm
  induction hrel with
  | nil => exact List.Perm.refl []
  | cons hab hrel ih =>
      rw [List.flatMap_cons, List.flatMap_cons]
      exact (hfg _ _ hab).append ih

/-- The related options that are there. -/
theorem PermWith.reduceOption {l : List (Option α)} {l' : List (Option β)}
    (h : PermWith (Option.Rel r) l l') : PermWith r l.reduceOption l'.reduceOption := by
  rcases h with ⟨middle, hperm, hrel⟩
  refine ⟨middle.reduceOption, hperm.filterMap id, ?_⟩
  clear hperm
  induction hrel with
  | nil => exact .nil
  | cons hab hrel ih =>
      cases hab with
      | none => exact ih
      | some hab => exact .cons hab ih

/-- The order of the items is that of the results, and no more. -/
theorem Agree.mapM_perm {f : α → Except ε γ} {l l' : List α} (h : l.Perm l') :
    Agree List.Perm (l.mapM f) (l'.mapM f) := by
  induction h with
  | nil => exact .ok (List.Perm.refl [])
  | cons a h ih =>
      rw [List.mapM_cons, List.mapM_cons]
      cases f a with
      | error e => exact .error
      | ok c => exact ih.bind fun cs cs' hperm => .ok (hperm.cons c)
  | swap a b l =>
      simp only [List.mapM_cons]
      cases f a with
      | error e =>
          cases f b with
          | error e' => exact .error
          | ok d => exact .error
      | ok c =>
          cases f b with
          | error e => exact .error
          | ok d =>
              cases l.mapM f with
              | error e => exact .error
              | ok cs => exact .ok (List.Perm.swap c d cs)
  | trans h h' ih ih' => exact ih.comp ih' fun _ _ _ hperm hperm' => hperm.trans hperm'

/-- Related items have related results. -/
theorem Agree.mapM_rel {f : α → Except ε γ} {g : β → Except ε δ} {l : List α} {l' : List β}
    (h : List.Forall₂ r l l') (hfg : ∀ a b, r a b → Agree s (f a) (g b)) :
    Agree (List.Forall₂ s) (l.mapM f) (l'.mapM g) := by
  induction h with
  | nil => exact .ok .nil
  | cons hab h ih =>
      rw [List.mapM_cons, List.mapM_cons]
      exact (hfg _ _ hab).bind fun c d hcd => ih.bind fun cs ds hrel => .ok (.cons hcd hrel)

/-- A map over permuted items gives permuted images, or fails in both orders. -/
theorem Agree.mapM {f : α → Except ε γ} {g : β → Except ε δ} {l : List α} {l' : List β}
    (h : PermWith r l l') (hfg : ∀ a b, r a b → Agree s (f a) (g b)) :
    Agree (PermWith s) (l.mapM f) (l'.mapM g) := by
  rcases h with ⟨middle, hperm, hrel⟩
  have hfirst : Agree List.Perm (l.mapM f) (middle.mapM f) := Agree.mapM_perm hperm
  have hsecond : Agree (List.Forall₂ s) (middle.mapM f) (l'.mapM g) := Agree.mapM_rel hrel hfg
  exact hfirst.comp hsecond fun _ cs _ hcs hds => ⟨cs, hcs, hds⟩

end Agreement

/-! ## Gains -/

section Gains

variable {ε σ α β M : Type} [AddCommMonoid M]

/-- The sum, if no summand is missing. -/
def total : List (Option M) → Option M
  | [] => some 0
  | gain :: gains => gain.bind fun m => (total gains).map (m + ·)

/-- The order of the gains does not matter to the total. -/
theorem total_perm {gains gains' : List (Option M)} (h : gains.Perm gains') :
    total gains = total gains' := by
  induction h with
  | nil => rfl
  | cons gain h ih => rw [total, total, ih]
  | swap gain gain' gains =>
      rw [total, total, total, total]
      cases gain with
      | none => cases gain' <;> rfl
      | some m =>
          cases gain' with
          | none => rfl
          | some m' =>
              cases total gains with
              | none => rfl
              | some m'' => exact congrArg some (add_left_comm m' m m'')
  | trans h h' ih ih' => exact ih.trans ih'

/-- The total does not depend on the order. -/
theorem total_eq {r : α → β → Prop} {l : List α} {l' : List β} {gain : α → Option M}
    {gain' : β → Option M} (h : PermWith r l l') (hgain : ∀ a b, r a b → gain a = gain' b) :
    total (l.map gain) = total (l'.map gain') :=
  total_perm (h.map hgain)

variable {measure : σ → M}

/-- What a loop without failure gains. -/
theorem foldl_gains {turn : σ → α → σ} {gain : α → M}
    (hturn : ∀ s a, measure (turn s a) = measure s + gain a) (items : List α) (s : σ) :
    measure (items.foldl turn s) = measure s + (items.map gain).sum := by
  induction items generalizing s with
  | nil => simp
  | cons a items ih => rw [List.foldl_cons, ih, hturn, List.map_cons, List.sum_cons, add_assoc]

/-- What a loop gains, if it succeeds. -/
theorem foldlM_gains {turn : σ → α → Except ε σ} {gain : α → Option M}
    (hturn : ∀ s a, (turn s a).toOption.map measure = (gain a).map (measure s + ·))
    (items : List α) (s : σ) :
    (items.foldlM turn s).toOption.map measure =
      (total (items.map gain)).map (measure s + ·) := by
  induction items generalizing s with
  | nil => simp [total, pure, Except.pure, Except.toOption]
  | cons a items ih =>
      rw [List.foldlM_cons, List.map_cons, total]
      have hfirst := hturn s a
      cases hresult : turn s a with
      | error e =>
          rw [hresult] at hfirst
          cases hgain : gain a with
          | none => rfl
          | some m =>
              rw [hgain] at hfirst
              cases hfirst
      | ok t =>
          rw [hresult] at hfirst
          cases hgain : gain a with
          | none =>
              rw [hgain] at hfirst
              cases hfirst
          | some m =>
              rw [hgain] at hfirst
              have hmeasure : measure t = measure s + m := Option.some.inj hfirst
              change (items.foldlM turn t).toOption.map measure = _
              rw [ih, hmeasure, Option.bind_some, Option.map_map]
              congr 1
              funext m'
              exact add_assoc _ _ _

/-- The loop gains from an item what it gains from it at the start. -/
def Uniform (measure : σ → M) (start : σ) (turn : σ → α → Except ε σ) : Prop :=
  ∀ s a, (turn s a).toOption.map measure =
    ((turn start a).toOption.map measure).map (measure s + ·)

/-- A loop of uniform turns gains the total of its turns. -/
theorem Uniform.foldlM_eq {start : σ} {turn : σ → α → Except ε σ}
    (hturn : Uniform measure start turn) (hstart : measure start = 0) (items : List α) :
    (items.foldlM turn start).toOption.map measure =
      total (items.map fun a => (turn start a).toOption.map measure) := by
  rw [foldlM_gains hturn, hstart]
  simp

/-- A loop of uniform turns is a uniform turn. -/
theorem Uniform.foldlM {start : σ} {turn : σ → α → Except ε σ}
    (hturn : Uniform measure start turn) (hstart : measure start = 0) :
    Uniform measure start fun s items => List.foldlM turn s items := by
  intro s items
  rw [hturn.foldlM_eq hstart, foldlM_gains hturn]

end Gains

end Reordering

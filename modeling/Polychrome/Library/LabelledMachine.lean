import Mathlib.Algebra.Order.Ring.Nat
import Mathlib.Data.List.Induction
import Mathlib.Data.Option.Basic

/-!
# Deterministic labelled machines

A labelled machine is a partial step function: the label names the action that
is taken together with everything the environment answers, so one label leads
from one state to at most one other.  A run is a list of labels.  This module
has the run lemmas that a safety argument needs and nothing about any
particular machine.

Main results:

- Theorem {lit}`exec_append`: a run splits at any of its points.
- Theorem {lit}`exec_history_induction`: induction over runs, growing at their
  end, with the labels seen so far available to the property.
- Theorem {lit}`exec_invariant`: what one step keeps is kept by every run.
- Theorem {lit}`exec_amortized`: a potential bounds the length of a run.
- Theorem {lit}`outputs_concat`: what a run writes, it writes step by step.
- Theorem {lit}`of_allAlong`: a test of every step of a run, by evaluation.
- Theorem {lit}`exec_sync_iff`: a run of the synchronous product is a common run
  of its two components.
- Theorem {lit}`Simulation.exec`: a step simulation carries whole runs over,
  with the labels projected.
-/

namespace LabelledMachine

variable {σ τ ε δ : Type*}

/-- A partial step function: {lit}`step s e` is the state after the action
{lit}`e` when {lit}`e` is possible in {lit}`s`. -/
abbrev Machine (σ ε : Type*) := σ → ε → Option σ

/-- Follow a list of labels; {lean}`none` as soon as one is not possible. -/
def exec (step : Machine σ ε) (s : σ) : List ε → Option σ
  | [] => some s
  | e :: es => (step s e).bind fun s' => exec step s' es

/-- The empty run leads nowhere. -/
@[simp]
theorem exec_nil (step : Machine σ ε) (s : σ) : exec step s [] = some s :=
  rfl

/-- A run is its first action and what follows. -/
@[simp]
theorem exec_cons (step : Machine σ ε) (s : σ) (e : ε) (es : List ε) :
    exec step s (e :: es) = (step s e).bind fun s' => exec step s' es :=
  rfl

/-- Split a run after its first part. -/
theorem exec_append (step : Machine σ ε) (s : σ) (es fs : List ε) :
    exec step s (es ++ fs) = (exec step s es).bind fun t => exec step t fs := by
  induction es generalizing s with
  | nil => simp
  | cons e es ih =>
      cases hstep : step s e with
      | none => simp [hstep]
      | some s' => simpa [hstep] using ih s'

/-- A run is possible if both of its parts are. -/
theorem exec_append_eq_some_iff {step : Machine σ ε} {s u : σ} {es fs : List ε} :
    exec step s (es ++ fs) = some u ↔
      ∃ t, exec step s es = some t ∧ exec step t fs = some u := by
  rw [exec_append, Option.bind_eq_some_iff]

/-- Expose the last action of a nonempty run. -/
theorem exec_concat_eq_some_iff {step : Machine σ ε} {s u : σ} {es : List ε} {e : ε} :
    exec step s (es ++ [e]) = some u ↔
      ∃ t, exec step s es = some t ∧ step t e = some u := by
  rw [exec_append_eq_some_iff]
  simp

/-- Extend a run by one action. -/
theorem exec_concat {step : Machine σ ε} {s t u : σ} {es : List ε} {e : ε}
    (hrun : exec step s es = some t) (hstep : step t e = some u) :
    exec step s (es ++ [e]) = some u :=
  exec_concat_eq_some_iff.mpr ⟨t, hrun, hstep⟩

/-- Induction over runs.  The property may speak about the labels seen so far,
which is what history variables need. -/
theorem exec_history_induction {step : Machine σ ε} {s₀ : σ} {P : List ε → σ → Prop}
    (hnil : P [] s₀)
    (hstep : ∀ es s e s', exec step s₀ es = some s → P es s → step s e = some s' →
      P (es ++ [e]) s') :
    ∀ {es s}, exec step s₀ es = some s → P es s := by
  intro es
  induction es using List.reverseRecOn with
  | nil =>
      intro s hrun
      simp only [exec_nil, Option.some.injEq] at hrun
      exact hrun ▸ hnil
  | append_singleton es e ih =>
      intro s hrun
      obtain ⟨t, hprefix, hlast⟩ := exec_concat_eq_some_iff.mp hrun
      exact hstep es t e s hprefix (ih hprefix) hlast

/-- An invariant of the single step is an invariant of every run. -/
theorem exec_invariant {step : Machine σ ε} {I : σ → Prop}
    (hstep : ∀ s e s', I s → step s e = some s' → I s')
    {s₀ s : σ} {es : List ε} (h₀ : I s₀) (hrun : exec step s₀ es = some s) : I s :=
  exec_history_induction (P := fun _ s => I s) h₀
    (fun _ s e s' _ hI hs => hstep s e s' hI hs) hrun

/-- An invariant of the runs that use only some of the labels. -/
theorem exec_invariant_on {step : Machine σ ε} {I : σ → Prop} {p : ε → Prop}
    (hstep : ∀ s e s', p e → I s → step s e = some s' → I s')
    {s₀ s : σ} {es : List ε} (hes : ∀ e ∈ es, p e) (h₀ : I s₀)
    (hrun : exec step s₀ es = some s) : I s := by
  induction es generalizing s₀ with
  | nil =>
      simp only [exec_nil, Option.some.injEq] at hrun
      exact hrun ▸ h₀
  | cons e es ih =>
      simp only [exec_cons, Option.bind_eq_some_iff] at hrun
      obtain ⟨t, hfirst, hrest⟩ := hrun
      rw [List.forall_mem_cons] at hes
      exact ih hes.2 (hstep s₀ e t hes.1 h₀ hfirst) hrest

/-- Amortised accounting.  A potential that pays for every step, but for what the
label is charged, bounds the length of a run. -/
theorem exec_amortized {step : Machine σ ε} {I : σ → Prop} {potential : σ → Nat}
    {charge : ε → Nat} (hkeep : ∀ s e s', I s → step s e = some s' → I s')
    (hpay : ∀ s e s', I s → step s e = some s' → potential s' + 1 ≤ potential s + charge e)
    {s₀ s : σ} {es : List ε} (h₀ : I s₀) (hrun : exec step s₀ es = some s) :
    es.length + potential s ≤ potential s₀ + (es.map charge).sum := by
  induction es generalizing s₀ with
  | nil =>
      simp only [exec_nil, Option.some.injEq] at hrun
      simp [hrun]
  | cons e es ih =>
      simp only [exec_cons, Option.bind_eq_some_iff] at hrun
      obtain ⟨t, hfirst, hrest⟩ := hrun
      have hlater := ih (hkeep s₀ e t h₀ hfirst) hrest
      have hnow := hpay s₀ e t h₀ hfirst
      simp only [List.length_cons, List.map_cons, List.sum_cons]
      omega

/-! ## What a run writes -/

/-- The output of a run.  Every step contributes what it writes in the state it starts
from. -/
def outputs {ω : Type*} (step : Machine σ ε) (write : σ → ε → List ω) (s : σ) : List ε → List ω
  | [] => []
  | e :: es =>
      write s e ++
        match step s e with
        | none => []
        | some s' => outputs step write s' es

section Outputs

variable {ω : Type*} {step : Machine σ ε} {write : σ → ε → List ω}

/-- The output of a run continues the output of its first part. -/
theorem outputs_append {s t : σ} {es : List ε} (hrun : exec step s es = some t) (fs : List ε) :
    outputs step write s (es ++ fs) = outputs step write s es ++ outputs step write t fs := by
  induction es generalizing s with
  | nil =>
      simp only [exec_nil, Option.some.injEq] at hrun
      rw [hrun]
      rfl
  | cons e es ih =>
      simp only [exec_cons, Option.bind_eq_some_iff] at hrun
      obtain ⟨s', hstep, hrest⟩ := hrun
      simp only [List.cons_append, outputs, hstep, ih hrest, List.append_assoc]

/-- One more step adds what it writes. -/
theorem outputs_concat {s t u : σ} {es : List ε} {e : ε} (hrun : exec step s es = some t)
    (hstep : step t e = some u) :
    outputs step write s (es ++ [e]) = outputs step write s es ++ write t e := by
  rw [outputs_append hrun]
  simp only [outputs, hstep, List.append_nil]

end Outputs

/-- A test passes at every step of a run. -/
def allAlong (step : Machine σ ε) (test : σ → ε → Bool) (s : σ) : List ε → Bool
  | [] => true
  | e :: es =>
      test s e &&
        match step s e with
        | none => true
        | some s' => allAlong step test s' es

/-- What is tested along a run holds wherever the run is split. -/
theorem of_allAlong {step : Machine σ ε} {test : σ → ε → Bool} {s : σ} {es : List ε}
    (h : allAlong step test s es = true) {before after : List ε} {e : ε} {t : σ}
    (hes : es = before ++ e :: after) (hrun : exec step s before = some t) :
    test t e = true := by
  induction before generalizing s es with
  | nil =>
      simp only [exec_nil, Option.some.injEq] at hrun
      rw [hes, hrun, List.nil_append, allAlong, Bool.and_eq_true] at h
      exact h.1
  | cons e' before ih =>
      simp only [exec_cons, Option.bind_eq_some_iff] at hrun
      obtain ⟨s', hstep, hrest⟩ := hrun
      rw [hes, List.cons_append, allAlong, hstep, Bool.and_eq_true] at h
      exact ih h.2 rfl hrest

/-! ## Synchronous products -/

/-- Two machines that take every action together.  A component that merely
answers the other one, such as an operating system, restricts its runs. -/
def sync (A : Machine σ ε) (B : Machine τ ε) : Machine (σ × τ) ε := fun s e =>
  (A s.1 e).bind fun a => (B s.2 e).map fun b => (a, b)

/-- A product takes an action if both components do. -/
theorem sync_eq_some_iff {A : Machine σ ε} {B : Machine τ ε} {s s' : σ × τ} {e : ε} :
    sync A B s e = some s' ↔ A s.1 e = some s'.1 ∧ B s.2 e = some s'.2 := by
  cases s'
  simp [sync, Option.bind_eq_some_iff]

/-- A run of the product is one of each component. -/
theorem exec_sync_iff {A : Machine σ ε} {B : Machine τ ε} {s s' : σ × τ} {es : List ε} :
    exec (sync A B) s es = some s' ↔
      exec A s.1 es = some s'.1 ∧ exec B s.2 es = some s'.2 := by
  induction es generalizing s with
  | nil => simp [Prod.ext_iff]
  | cons e es ih =>
      simp only [exec_cons, Option.bind_eq_some_iff]
      constructor
      · rintro ⟨t, hstep, hrest⟩
        obtain ⟨hA, hB⟩ := sync_eq_some_iff.mp hstep
        exact ⟨⟨t.1, hA, (ih.mp hrest).1⟩, ⟨t.2, hB, (ih.mp hrest).2⟩⟩
      · rintro ⟨⟨a, hA, hrestA⟩, ⟨b, hB, hrestB⟩⟩
        exact ⟨(a, b), sync_eq_some_iff.mpr ⟨hA, hB⟩, ih.mpr ⟨hrestA, hrestB⟩⟩

/-! ## Step simulations -/

/-- A relation between the states of two machines such that every step of the
first is matched by the projected step of the second, or by no step where the
label projects to nothing. -/
structure Simulation (A : Machine σ ε) (B : Machine τ δ) (proj : ε → Option δ)
    (R : σ → τ → Prop) : Prop where
  silent : ∀ {s e s' t}, R s t → A s e = some s' → proj e = none → R s' t
  visible : ∀ {s e s' t d}, R s t → A s e = some s' → proj e = some d →
    ∃ t', B t d = some t' ∧ R s' t'

/-- A simulated run is matched by the run of the projected labels. -/
theorem Simulation.exec {A : Machine σ ε} {B : Machine τ δ} {proj : ε → Option δ}
    {R : σ → τ → Prop} (sim : Simulation A B proj R) {s s' : σ} {t : τ} {es : List ε}
    (hR : R s t) (hrun : exec A s es = some s') :
    ∃ t', LabelledMachine.exec B t (es.filterMap proj) = some t' ∧ R s' t' := by
  induction es generalizing s t with
  | nil =>
      simp only [exec_nil, Option.some.injEq] at hrun
      exact ⟨t, rfl, hrun ▸ hR⟩
  | cons e es ih =>
      simp only [exec_cons, Option.bind_eq_some_iff] at hrun
      obtain ⟨u, hstep, hrest⟩ := hrun
      cases hproj : proj e with
      | none =>
          obtain ⟨t', ht', hR'⟩ := ih (sim.silent hR hstep hproj) hrest
          exact ⟨t', by simpa [List.filterMap_cons, hproj] using ht', hR'⟩
      | some d =>
          obtain ⟨v, hv, hRv⟩ := sim.visible hR hstep hproj
          obtain ⟨t', ht', hR'⟩ := ih hRv hrest
          exact ⟨t', by simpa [List.filterMap_cons, hproj, hv] using ht', hR'⟩

end LabelledMachine

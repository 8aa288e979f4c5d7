import Mathlib.Computability.Language

/-!
# Globs

A glob is a row of items: a letter stands for itself, a segment for every word
without the separator, and the third item for every word.  In the text of a glob a
star is a segment and two stars are the third item, taken in pairs from the left.

Main results:

- Definition {lit}`language` and definition {lit}`read`.
- Theorem {lit}`mem_letters_append` and theorem {lit}`mem_append_anything`: letters in
  front of a glob are a common prefix, and the item for every word at its end lets any
  suffix follow.
-/

namespace Glob

variable {α : Type*}

/-- An item of a glob. -/
inductive Item (α : Type*)
  | anything
  | segment
  | letter (a : α)
deriving DecidableEq, Repr

/-- The words that an item stands for. -/
def Item.language (separator : α) : Item α → Language α
  | .anything => ⊤
  | .segment => {x | separator ∉ x}
  | .letter a => {[a]}

/-- The words that a glob matches. -/
def language (separator : α) (items : List (Item α)) : Language α :=
  (items.map (Item.language separator)).prod

section Language

variable {separator : α}

/-- No items, no more than the empty word. -/
@[simp] theorem language_nil : language separator [] = 1 := rfl

/-- The words of an item, and behind them those of the others. -/
@[simp] theorem language_cons (item : Item α) (items : List (Item α)) :
    language separator (item :: items) = item.language separator * language separator items :=
  rfl

/-- Globs are joined item by item. -/
theorem language_append (items items' : List (Item α)) :
    language separator (items ++ items') =
      language separator items * language separator items' := by
  rw [language, List.map_append, List.prod_append]
  rfl

/-- With the item for every word at its end, a glob matches what begins with a word. -/
theorem mem_append_anything {s : List α} {items : List (Item α)} :
    s ∈ language separator (items ++ [.anything]) ↔
      ∃ x ∈ language separator items, ∃ y, s = x ++ y := by
  rw [language_append, language_cons, language_nil, mul_one, Language.mem_mul]
  constructor
  · rintro ⟨x, hx, y, -, rfl⟩
    exact ⟨x, hx, y, rfl⟩
  · rintro ⟨x, hx, y, rfl⟩
    exact ⟨x, hx, y, trivial, rfl⟩

/-- Letters in front of a glob are a common prefix. -/
theorem mem_letters_append {letters s : List α} {items : List (Item α)} :
    s ∈ language separator (letters.map .letter ++ items) ↔
      ∃ x, s = letters ++ x ∧ x ∈ language separator items := by
  induction letters generalizing s with
  | nil => simp
  | cons a letters ih =>
      rw [List.map_cons, List.cons_append, language_cons, Language.mem_mul]
      constructor
      · rintro ⟨_, rfl, y, hy, rfl⟩
        rcases ih.mp hy with ⟨x, rfl, hx⟩
        exact ⟨x, rfl, hx⟩
      · rintro ⟨x, rfl, hx⟩
        exact ⟨[a], rfl, letters ++ x, ih.mpr ⟨x, rfl, hx⟩, rfl⟩

end Language

/-! ## The text of a glob -/

section Text

variable [DecidableEq α] (star : α)

/-- A character that is not one of a pair of stars. -/
def single (a : α) : Item α := if a = star then .segment else .letter a

/-- Read the text of a glob. -/
def read : List α → List (Item α)
  | [] => []
  | [a] => [single star a]
  | a :: b :: s =>
      if a = star ∧ b = star then .anything :: read s else single star a :: read (b :: s)

/-- A letter of a glob is a character of its text, and no star. -/
theorem letter_mem_read {a : α} {s : List α} (h : .letter a ∈ read star s) :
    a ∈ s ∧ a ≠ star := by
  have hsingle : ∀ b, .letter a = single star b → a = b ∧ a ≠ star := by
    intro b hb
    unfold single at hb
    split at hb
    case isTrue => cases hb
    case isFalse hne =>
      cases hb
      exact ⟨rfl, hne⟩
  induction s using read.induct star with
  | case1 => cases h
  | case2 b =>
      rw [read, List.mem_singleton] at h
      rw [List.mem_singleton]
      exact hsingle b h
  | case3 b c s hpair ih =>
      rw [read, if_pos hpair, List.mem_cons] at h
      rcases h with hitem | hrest
      · cases hitem
      · exact ⟨List.mem_cons_of_mem b (List.mem_cons_of_mem c (ih hrest).1), (ih hrest).2⟩
  | case4 b c s hpair ih =>
      rw [read, if_neg hpair, List.mem_cons] at h
      rcases h with hitem | hrest
      · rw [(hsingle b hitem).1]
        exact ⟨List.mem_cons_self, (hsingle b hitem).1 ▸ (hsingle b hitem).2⟩
      · exact ⟨List.mem_cons_of_mem b (ih hrest).1, (ih hrest).2⟩

end Text

end Glob

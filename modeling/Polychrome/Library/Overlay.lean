import Mathlib.Data.List.Induction
import Mathlib.Logic.Function.Basic

/-!
# Tables that are written over

Settings and environments are tables that several sources write into one after
the other.  What a key reads in the end is what the last source that names it has
written, or what stood there before.

Main results:

- Theorem {lit}`overlay_apply`: the last entry for a key decides.
- Theorem {lit}`lastOf_of_mem`: an entry decides if no other one has its key.
- Theorem {lit}`lastOf_eq_none_iff`: a key that no entry names is left alone.
-/

namespace Overlay

variable {κ υ : Type*} [DecidableEq κ]

/-- Write the entries into the table in order. -/
def overlay (table : κ → Option υ) (entries : List (κ × υ)) : κ → Option υ :=
  entries.foldl (fun table entry => Function.update table entry.1 (some entry.2)) table

/-- The value of the last entry for the key. -/
def lastOf (entries : List (κ × υ)) (key : κ) : Option υ :=
  (entries.reverse.find? fun entry => entry.1 = key).map Prod.snd

section Entries

variable (table : κ → Option υ) (entries entries' : List (κ × υ)) (key key' : κ) (value : υ)

/-- Two lists of entries are written one after the other. -/
theorem overlay_append :
    overlay table (entries ++ entries') = overlay (overlay table entries) entries' := by
  rw [overlay, List.foldl_append]
  rfl

/-- The last entry is written last. -/
@[simp]
theorem overlay_concat :
    overlay table (entries ++ [(key, value)]) =
      Function.update (overlay table entries) key (some value) := by
  rw [overlay_append]
  rfl

/-- The last entry for a key is the one behind all others. -/
theorem lastOf_concat_self : lastOf (entries ++ [(key, value)]) key = some value := by
  simp [lastOf]

/-- An entry for another key does not count. -/
theorem lastOf_concat_ne (h : key' ≠ key) :
    lastOf (entries ++ [(key', value)]) key = lastOf entries key := by
  simp [lastOf, h]

/-- What a key reads is decided by the last entry for it. -/
theorem overlay_apply : overlay table entries key = (lastOf entries key).or (table key) := by
  induction entries using List.reverseRecOn with
  | nil => rfl
  | append_singleton entries entry ih =>
      obtain ⟨key', value⟩ := entry
      rw [overlay_concat]
      by_cases h : key' = key
      · subst h
        rw [Function.update_self, lastOf_concat_self]
        rfl
      · rw [Function.update_of_ne (Ne.symm h), ih, lastOf_concat_ne entries key key' value h]

variable {entries key}

/-- A key has no last entry if it has none. -/
theorem lastOf_eq_none_iff : lastOf entries key = none ↔ ∀ entry ∈ entries, entry.1 ≠ key := by
  simp [lastOf]

/-- If no two entries are for the same key, every one of them counts. -/
theorem lastOf_of_mem {value : υ} (hdistinct : (entries.map Prod.fst).Nodup)
    (hmem : (key, value) ∈ entries) : lastOf entries key = some value := by
  induction entries using List.reverseRecOn with
  | nil => cases hmem
  | append_singleton entries entry ih =>
      obtain ⟨key', value'⟩ := entry
      rw [List.map_append, List.nodup_append] at hdistinct
      obtain ⟨hbefore, -, hdisjoint⟩ := hdistinct
      rcases List.mem_append.mp hmem with hmem | hmem
      · have hne : key' ≠ key := fun h =>
          hdisjoint key (List.mem_map_of_mem hmem) key' List.mem_cons_self h.symm
        rw [lastOf_concat_ne entries key key' value' hne]
        exact ih hbefore hmem
      · cases List.mem_singleton.mp hmem
        exact lastOf_concat_self entries key value

end Entries

end Overlay

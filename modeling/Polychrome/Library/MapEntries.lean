import Mathlib.Data.Multiset.ZeroCons
import Mathlib.Data.Multiset.MapFold
import Mathlib.Data.Multiset.UnionInter
import Std.Data.ExtTreeMap

/-!
# The entries of a map as a multiset

An ordered map is read as the multiset of its entries.  An insertion under a
fresh key puts one element in, an erasure takes one out, and the keys are
distinct; so a statement that several maps and lists add up can be kept as one
equation of multisets.

Main results:

- Definitions {lit}`entries` and {lit}`domain`: the entries and the keys of a map.
- Theorems {lit}`entries_insert`, {lit}`entries_erase` and
  {lit}`entries_modify`: what the operations do with them.
- Theorem {lit}`coe_values`: the values in the order of their keys are the values
  of the entries.
-/

namespace Polychrome

namespace MapEntries

variable {α β : Type} {cmp : α → α → Ordering} [Std.TransCmp cmp]

/-- The entries of a map. -/
def entries (t : Std.ExtTreeMap α β cmp) : Multiset (α × β) := ↑t.toList

/-- The keys of a map. -/
def domain (t : Std.ExtTreeMap α β cmp) : Multiset α := (entries t).map Prod.fst

/-- The empty table has no entries. -/
theorem entries_empty : entries (∅ : Std.ExtTreeMap α β cmp) = 0 := by
  simp [entries]

/-- The values in the order of their keys. -/
theorem coe_values (t : Std.ExtTreeMap α β cmp) :
    (↑t.values : Multiset β) = (entries t).map Prod.snd := by
  rw [entries, Multiset.map_coe]
  congr 1
  rcases t with ⟨⟨q⟩⟩
  induction q using Quotient.ind
  case a m =>
    change m.inner.values = (Std.DTreeMap.Internal.Impl.Const.toList m.inner).map Prod.snd
    rw [Std.DTreeMap.Internal.Impl.values_eq_map_snd,
      Std.DTreeMap.Internal.Impl.Const.toList_eq_toListModel_map, List.map_map]
    rfl

/-- There is one value for each key. -/
theorem length_values (t : Std.ExtTreeMap α β cmp) : t.values.length = t.size := by
  have hcard := congrArg Multiset.card (coe_values t)
  rw [Multiset.coe_card, Multiset.card_map, entries, Multiset.coe_card] at hcard
  rw [hcard, Std.ExtTreeMap.length_toList]

section Entries

variable [Std.LawfulEqCmp cmp] (t : Std.ExtTreeMap α β cmp) {k : α} {v : β}

/-- An entry is what its key leads to. -/
@[simp]
theorem mem_entries {x : α × β} : x ∈ entries t ↔ t[x.1]? = some x.2 := by
  rw [entries, Multiset.mem_coe]
  exact Std.ExtTreeMap.mem_toList_iff_getElem?_eq_some

/-- The domain holds the keys. -/
theorem mem_domain : k ∈ domain t ↔ k ∈ t := by
  rw [domain, Multiset.mem_map, Std.ExtTreeMap.mem_iff_isSome_getElem?,
    Option.isSome_iff_exists]
  constructor
  · rintro ⟨⟨k, v⟩, hv, rfl⟩
    exact ⟨v, (mem_entries t).mp hv⟩
  · rintro ⟨v, hv⟩
    exact ⟨(k, v), (mem_entries t).mpr hv, rfl⟩

/-- Every key is there once. -/
theorem nodup_domain : (domain t).Nodup := by
  rw [domain, entries, Multiset.map_coe, Multiset.coe_nodup, List.Nodup, List.pairwise_map]
  refine t.distinct_keys_toList.imp ?_
  rintro ⟨k, v⟩ ⟨k', v'⟩ hne heq
  exact hne (heq ▸ Std.ReflCmp.compare_self)

/-- Every entry is there once. -/
theorem nodup_entries : (entries t).Nodup :=
  Multiset.Nodup.of_map Prod.fst (nodup_domain t)

/-- A new key brings one entry. -/
theorem entries_insert (h : k ∉ t) : entries (t.insert k v) = (k, v) ::ₘ entries t := by
  have hnew : (k, v) ∉ entries t := by
    rw [mem_entries, Std.ExtTreeMap.getElem?_eq_none h]
    simp
  refine (Multiset.Nodup.ext (nodup_entries _) (Multiset.nodup_cons.mpr
    ⟨hnew, nodup_entries t⟩)).mpr fun x => ?_
  rw [Multiset.mem_cons, mem_entries, mem_entries, Std.ExtTreeMap.getElem?_insert]
  rcases x with ⟨k', v'⟩
  by_cases heq : k = k'
  · subst heq
    simp [Std.ExtTreeMap.getElem?_eq_none h, Std.ReflCmp.compare_self, eq_comm]
  · simp [heq, Ne.symm heq]

/-- An entry is erased with its key. -/
theorem entries_erase (h : t[k]? = some v) : entries t = (k, v) ::ₘ entries (t.erase k) := by
  have hnew : (k, v) ∉ entries (t.erase k) := by simp
  refine (Multiset.Nodup.ext (nodup_entries t) (Multiset.nodup_cons.mpr
    ⟨hnew, nodup_entries _⟩)).mpr fun x => ?_
  rw [Multiset.mem_cons, mem_entries, mem_entries, Std.ExtTreeMap.getElem?_erase]
  rcases x with ⟨k', v'⟩
  by_cases heq : k = k'
  · subst heq
    simp [h, eq_comm]
  · simp [heq, Ne.symm heq]

/-- An entry that is changed takes its place. -/
theorem entries_modify {f : β → β} (h : t[k]? = some v) :
    entries (t.modify k f) = (k, f v) ::ₘ entries (t.erase k) := by
  have hmap : t.modify k f = (t.erase k).insert k (f v) := by
    ext k' v'
    rw [Std.ExtTreeMap.getElem?_modify, Std.ExtTreeMap.getElem?_insert,
      Std.ExtTreeMap.getElem?_erase]
    by_cases heq : k = k'
    · subst heq
      simp [h]
    · simp [heq]
  rw [hmap, entries_insert]
  simp

/-- A modification that a function of the entries does not see. -/
theorem map_entries_modify {γ : Type} {f : β → β} {g : α × β → γ}
    (hg : ∀ v, g (k, f v) = g (k, v)) :
    (entries (t.modify k f)).map g = (entries t).map g := by
  cases hv : t[k]? with
  | some v =>
      rw [entries_modify t hv, entries_erase t hv, Multiset.map_cons, Multiset.map_cons, hg]
  | none =>
      have hmap : t.modify k f = t := by
        ext k' v'
        rw [Std.ExtTreeMap.getElem?_modify]
        by_cases heq : k = k'
        · subst heq
          simp [hv]
        · simp [heq]
      rw [hmap]

/-- A new key joins the domain. -/
theorem domain_insert (h : k ∉ t) : domain (t.insert k v) = k ::ₘ domain t := by
  rw [domain, entries_insert t h, Multiset.map_cons, domain]

/-- A key that is erased leaves it. -/
theorem domain_erase (h : k ∈ t) : domain t = k ::ₘ domain (t.erase k) := by
  rw [Std.ExtTreeMap.mem_iff_isSome_getElem?, Option.isSome_iff_exists] at h
  rcases h with ⟨v, hv⟩
  rw [domain, entries_erase t hv, Multiset.map_cons, domain]

/-- An erasure takes the key out of the keys. -/
theorem domain_erase_of_cons {m : Multiset α} (h : domain t = k ::ₘ m) :
    domain (t.erase k) = m := by
  have hk : k ∈ t := by
    rw [← mem_domain, h]
    exact Multiset.mem_cons_self k m
  exact (Multiset.cons_inj_right k).mp ((domain_erase t hk).symm.trans h)

end Entries

end MapEntries

end Polychrome

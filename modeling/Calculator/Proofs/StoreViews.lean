/-
Module: Calculator.Proofs.StoreViews
Purpose: The views of a store beside the value of each name: the pairs in order of name, and the names alone. Both hold
  what the store holds and nothing else, in an order without repetition, so that two stores with the same values
  are listed alike, however they came to them.
Main exports: lookup_eq_some_iff_mem, Store.mem_items_iff, Store.mem_names_iff, Store.pairwise_lt_names,
  Store.items_of_pairwise, Store.items_eq_of_get?_eq
-/
import Mathlib.Data.List.Nodup
import Calculator.Store

namespace Calculator

/-- In a list that gives each key once, a key is looked up as the value it stands with. -/
theorem lookup_eq_some_iff_mem {entries : List (String × Int)} (apart : (entries.map Prod.fst).Nodup)
    {name : String} {value : Int} : entries.lookup name = some value ↔ (name, value) ∈ entries := by
  induction entries with
  | nil => simp
  | cons entry rest ih =>
      obtain ⟨first, old⟩ := entry
      rw [List.map_cons, List.nodup_cons] at apart
      by_cases same : name = first
      · subst same
        have notLater : (name, value) ∉ rest := fun later => apart.1 (List.mem_map.mpr ⟨_, later, rfl⟩)
        simp [notLater, eq_comm]
      · have differs : (name == first) = false := beq_false_of_ne same
        simp [List.lookup_cons, differs, same, ih apart.2]

namespace Store

variable {store other : Store} {name : String} {value : Int}

theorem mem_entries_iff : (name, value) ∈ store.entries ↔ store.get? name = some value :=
  (lookup_eq_some_iff_mem store.nodup_names).symm

/-- The sorted pairs are the names with their values. -/
theorem mem_items_iff : (name, value) ∈ store.items ↔ store.get? name = some value := by
  rw [store.items_perm.mem_iff, mem_entries_iff]

theorem mem_names_iff : name ∈ store.names ↔ store.contains name = true := by
  simp [names, contains, mem_items_iff, Option.isSome_iff_exists]

theorem nodup_map_fst_items (store : Store) : (store.items.map Prod.fst).Nodup :=
  (store.items_perm.map Prod.fst).nodup_iff.mpr store.nodup_names

/-- The pairs are in order of name. -/
theorem pairwise_le_items (store : Store) : store.items.Pairwise fun a b => a.1 ≤ b.1 := by
  have sorted : store.items.Pairwise fun a b => decide (a.1 ≤ b.1) = true := by
    apply List.pairwise_mergeSort
    · intro a b c first second
      exact decide_eq_true (String.le_trans (of_decide_eq_true first) (of_decide_eq_true second))
    · intro a b
      simpa using String.le_total a.1 b.1
  exact sorted.imp of_decide_eq_true

/-- Pairs that were given in order are listed as they are. -/
theorem items_of_pairwise (sorted : store.entries.Pairwise fun a b => a.1 ≤ b.1) : store.items = store.entries :=
  List.mergeSort_of_pairwise (sorted.imp decide_eq_true)

/-- No name comes twice, and each is less than those behind it. -/
theorem pairwise_lt_names (store : Store) : store.names.Pairwise (· < ·) := by
  have sorted : store.names.Pairwise (· ≤ ·) := List.pairwise_map.mpr store.pairwise_le_items
  refine (sorted.and store.nodup_map_fst_items).imp ?_
  rintro a b ⟨le, differs⟩
  apply String.not_le.mp
  intro ge
  exact differs (String.le_antisymm le ge)

/-- Stores with the same values are listed alike. -/
theorem items_eq_of_get?_eq (same : ∀ name, store.get? name = other.get? name) : store.items = other.items := by
  have permuted : store.items.Perm other.items := by
    rw [List.perm_ext_iff_of_nodup store.nodup_map_fst_items.of_map other.nodup_map_fst_items.of_map]
    rintro ⟨name, value⟩
    rw [mem_items_iff, mem_items_iff, same]
  refine permuted.eq_of_pairwise ?_ store.pairwise_le_items other.pairwise_le_items
  intro a b first second le ge
  -- a name stands in the list with one value only
  have name : a.1 = b.1 := String.le_antisymm le ge
  have value : store.get? a.1 = some a.2 := mem_items_iff.mp first
  have value' : store.get? b.1 = some b.2 := mem_items_iff.mp (permuted.mem_iff.mpr second)
  rw [name, value'] at value
  exact Prod.ext name (Option.some.inj value).symm

end Store

end Calculator

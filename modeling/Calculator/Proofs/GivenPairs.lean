/-
Module: Calculator.Proofs.GivenPairs
Purpose: A store as the finite map of the pairs it was given, whether at its start or by later writes. The last pair
  of a name decides its value and the first its place, so that the sorted view depends on the values alone, while the
  written form tells in which order the names came. A write to a name that is there leaves every place as it is.
Main exports: LastGiven, listing, lastWrite?_eq_some_iff, Store.map_fst_entries_given, Store.entries_given,
  Store.entries_set_of_contains, Store.size_given, Store.render_eq, store_maps_given_pairs
-/
import Mathlib.Data.Finset.Card
import Calculator.Proofs.DefiniteAssignment
import Calculator.Proofs.Noninterference
import Calculator.Proofs.StoreViews

namespace Calculator

/-! ### Given pairs -/

/-- The last of the given pairs with this name has this value. -/
def LastGiven (given : List (String × Int)) (name : String) (value : Int) : Prop :=
  ∃ before after, given = before ++ (name, value) :: after ∧ name ∉ after.map Prod.fst

/-- The names in the order in which they were first given, each with the value that it was last given. -/
def listing (given : List (String × Int)) : List (String × Int) :=
  (given.map Prod.fst).eraseDups.filterMap fun name => (lastWrite? given name).map fun value => (name, value)

theorem lastWrite?_eq_some_iff {given : List (String × Int)} {name : String} {value : Int} :
    lastWrite? given name = some value ↔ LastGiven given name value := by
  rw [lastWrite?, List.lookup_eq_some_iff]
  constructor
  · rintro ⟨after, before, split, apart⟩
    refine ⟨before.reverse, after.reverse, ?_, ?_⟩
    · rw [← List.reverse_reverse given, split]
      simp
    · simpa using fun other among => bne_iff_ne.mp (apart (name, other) among)
  · rintro ⟨before, after, rfl, apart⟩
    refine ⟨after.reverse, before.reverse, by simp, ?_⟩
    intro pair among
    refine bne_iff_ne.mpr fun same => apart ?_
    exact List.mem_map.mpr ⟨pair, List.mem_reverse.mp among, same.symm⟩

namespace Store

variable {store : Store} {given : List (String × Int)} {name : String} {value : Int}

theorem overwrite_ofList (initial later : List (String × Int)) :
    (ofList initial).overwrite later = empty.overwrite (initial ++ later) :=
  (overwrite_append empty initial later).symm

theorem get?_given : (empty.overwrite given).get? name = some value ↔ LastGiven given name value := by
  rw [get?_overwrite, get?_empty, Option.or_none, lastWrite?_eq_some_iff]

theorem contains_given : (empty.overwrite given).contains name = true ↔ name ∈ given.map Prod.fst := by
  have nothing : ¬empty.contains name = true := by simp [contains]
  rw [contains_overwrite_iff, or_iff_right nothing]

/-! ### Places -/

/-- Each name has the place at which it came first. -/
theorem map_fst_entries_given (given : List (String × Int)) :
    (empty.overwrite given).entries.map Prod.fst = (given.map Prod.fst).eraseDups := by
  -- one more pair at the end is one more write to the store
  induction given using List.reverseRecOn with
  | nil => rfl
  | append_singleton given pair ih =>
      have step : (empty.overwrite (given ++ [pair])).entries =
          setEntry pair.1 pair.2 (empty.overwrite given).entries := by
        rw [overwrite_append]
        rfl
      rw [step, map_fst_setEntry, ih, List.map_append, List.eraseDups_append]
      by_cases present : pair.1 ∈ given.map Prod.fst
      · simp [List.mem_eraseDups, present, List.removeAll]
      · simp [List.mem_eraseDups, present, List.removeAll, List.eraseDups_cons]

/-- The entries are the names with their values. -/
theorem filterMap_names (store : Store) :
    (store.entries.map Prod.fst).filterMap (fun name => (store.get? name).map fun value => (name, value)) =
      store.entries := by
  have each : ∀ entry ∈ store.entries, (store.get? entry.1).map (fun value => (entry.1, value)) = some entry := by
    intro entry among
    rw [mem_entries_iff.mp among]
    rfl
  rw [List.filterMap_map]
  exact (List.filterMap_congr each).trans List.filterMap_some

theorem entries_given (given : List (String × Int)) : (empty.overwrite given).entries = listing given := by
  have values : (empty.overwrite given).get? = lastWrite? given := by
    funext name
    rw [get?_overwrite, get?_empty, Option.or_none]
  rw [← filterMap_names, map_fst_entries_given, values, listing]

theorem setEntry_of_mem {entries : List (String × Int)} (apart : (entries.map Prod.fst).Nodup)
    (present : name ∈ entries.map Prod.fst) :
    setEntry name value entries = entries.map fun entry => if entry.1 = name then (name, value) else entry := by
  induction entries with
  | nil => cases present
  | cons entry rest ih =>
      rw [List.map_cons, List.nodup_cons] at apart
      by_cases same : entry.1 = name
      · -- the names differ, so the write passes over the rest
        have others : ∀ other ∈ rest, (if other.1 = name then (name, value) else other) = other := by
          intro other among
          rw [if_neg]
          intro again
          exact apart.1 (List.mem_map.mpr ⟨other, among, again.trans same.symm⟩)
        rw [setEntry, if_pos same, List.map_cons, if_pos same, List.map_congr_left others, List.map_id']
      · have later : name ∈ rest.map Prod.fst := by
          rcases List.mem_cons.mp present with first | later
          · exact absurd first.symm same
          · exact later
        rw [setEntry, if_neg same, List.map_cons, if_neg same, ih apart.2 later]

/-- A write to a name that is there changes its value where it stands. -/
theorem entries_set_of_contains (present : store.contains name = true) :
    (store.set name value).entries =
      store.entries.map fun entry => if entry.1 = name then (name, value) else entry := by
  apply setEntry_of_mem store.nodup_names
  obtain ⟨old, held⟩ := Option.isSome_iff_exists.mp present
  exact List.mem_map_of_mem (mem_entries_iff.mpr held)

theorem size_given (given : List (String × Int)) :
    (empty.overwrite given).size = (given.map Prod.fst).toFinset.card := by
  have same : (given.map Prod.fst).toFinset = ((empty.overwrite given).entries.map Prod.fst).toFinset := by
    ext name
    rw [map_fst_entries_given, List.mem_toFinset, List.mem_toFinset, List.mem_eraseDups]
  rw [same, List.toFinset_card_of_nodup (nodup_names _), List.length_map, size]

end Store

/-- The written form of a store, all of whose values must be short enough for it. -/
theorem Store.render_eq (store : Store) (limits : Limits) :
    store.render limits =
      if limits.CanWriteAll store.entries then
        .ok ("VariableStore(\x7b" ++
          ", ".intercalate (store.entries.map fun entry => s!"{Text.quote entry.1}: {entry.2}") ++ "\x7d)")
      else .error .tooManyDigits := by
  rw [render, Limits.writeEntries_eq]
  split <;> rfl

/-- **Finite map.** A store that was given some pairs at its start and others by later writes holds for each name
    the value of its last pair, and nothing for other names; it counts each name once. The sorted view lists the
    names with these values, each name before the greater ones, whatever else was given and in whatever order. The
    written form lists them in the order in which the names came first, and there is none if one of the values is too
    long to be written out; a further write to a name that is there leaves all places and all other values as they
    are. -/
theorem store_maps_given_pairs (initial later : List (String × Int)) :
    let store : Store := (Store.ofList initial).overwrite later
    let given := initial ++ later
    (∀ name,
      (∀ value, store.get? name = some value ↔ LastGiven given name value) ∧
      (store.get? name = none ↔ name ∉ given.map Prod.fst) ∧
      (store.contains name = false ↔ name ∉ given.map Prod.fst)) ∧
    store.size = (given.map Prod.fst).toFinset.card ∧
    (∀ name value, (name, value) ∈ store.items ↔ LastGiven given name value) ∧
    store.items.Pairwise (fun one other => one.1 < other.1) ∧
    (∀ otherInitial otherLater,
      (∀ name value, LastGiven (otherInitial ++ otherLater) name value ↔ LastGiven given name value) →
      ((Store.ofList otherInitial).overwrite otherLater).items = store.items) ∧
    store.entries = listing given ∧ store.entries.Perm store.items ∧
    (∀ limits : Limits,
      (limits.CanWriteAll (listing given) → store.render limits = .ok ("VariableStore(\x7b" ++
        ", ".intercalate ((listing given).map fun entry => s!"{Text.quote entry.1}: {entry.2}") ++ "\x7d)")) ∧
      (¬limits.CanWriteAll (listing given) → store.render limits = .error .tooManyDigits)) ∧
    ∀ name value, name ∈ given.map Prod.fst →
      (store.set name value).entries =
        store.entries.map fun entry => if entry.1 = name then (name, value) else entry := by
  intro store given
  have whole : store = Store.empty.overwrite given := Store.overwrite_ofList initial later
  have contained : ∀ name, store.contains name = true ↔ name ∈ given.map Prod.fst := by
    intro name
    rw [whole, Store.contains_given]
  have absent : ∀ name, store.contains name = false ↔ name ∉ given.map Prod.fst := by
    intro name
    rw [← contained, Bool.not_eq_true]
  have values : ∀ name value, store.get? name = some value ↔ LastGiven given name value := by
    intro name value
    rw [whole, Store.get?_given]
  have entries : store.entries = listing given := by rw [whole, Store.entries_given]
  refine ⟨?_, ?_, ?_, ?_, ?_, entries, store.items_perm.symm, ?_, ?_⟩
  · intro name
    refine ⟨values name, ?_, absent name⟩
    rw [← absent, Store.contains, Option.isSome_eq_false_iff, Option.isNone_iff_eq_none]
  · rw [whole, Store.size_given]
  · intro name value
    rw [Store.mem_items_iff, values]
  · exact List.pairwise_map.mp store.pairwise_lt_names
  · intro otherInitial otherLater same
    apply Store.items_eq_of_get?_eq
    intro name
    ext value
    rw [Store.overwrite_ofList, Store.get?_given, same, values]
  · intro limits
    rw [← entries, Store.render_eq]
    exact ⟨fun fit => if_pos fit, fun tooLong => if_neg tooLong⟩
  · intro name value among
    exact Store.entries_set_of_contains ((contained name).mpr among)

/-- The same last values come about in another way, with the names the other way round: the sorted views are alike
    and the written forms are not. -/
theorem store_maps_given_pairs_order :
    let limits : Limits := ⟨20, 640, Or.inr (Nat.le_refl 640)⟩
    let store := (Store.ofList [("b", 2), ("a", 1)]).overwrite [("c d", -7), ("b", 5)]
    let other := (Store.ofList [("a", 9), ("b", 5)]).overwrite [("c d", -7), ("a", 1)]
    (∀ name value, LastGiven [("a", 9), ("b", 5), ("c d", -7), ("a", 1)] name value ↔
        LastGiven [("b", 2), ("a", 1), ("c d", -7), ("b", 5)] name value) ∧
      other.items = store.items ∧ store.size = 3 ∧
      store.render limits = .ok "VariableStore(\x7b'b': 5, 'a': 1, 'c d': -7\x7d)" ∧
      other.render limits = .ok "VariableStore(\x7b'a': 1, 'b': 5, 'c d': -7\x7d)" ∧
      (store.set "a" 0).entries = [("b", 5), ("a", 0), ("c d", -7)] := by
  intro limits store other
  have same : ∀ name value, LastGiven [("a", 9), ("b", 5), ("c d", -7), ("a", 1)] name value ↔
      LastGiven [("b", 2), ("a", 1), ("c d", -7), ("b", 5)] name value := by
    intro name value
    simp only [← lastWrite?_eq_some_iff, lastWrite?, List.reverse_cons, List.reverse_nil, List.nil_append,
      List.cons_append, List.lookup_cons, List.lookup_nil]
    grind
  obtain ⟨-, counted, -, -, canonical, -, -, written, inPlace⟩ :=
    store_maps_given_pairs [("b", 2), ("a", 1)] [("c d", -7), ("b", 5)]
  obtain ⟨-, -, -, -, -, -, -, writtenOther, -⟩ :=
    store_maps_given_pairs [("a", 9), ("b", 5)] [("c d", -7), ("a", 1)]
  refine ⟨same, canonical _ _ same, counted, ?_, ?_, inPlace "a" 0 (by decide)⟩
  · exact ((written limits).1 (by decide +kernel)).trans (by decide +kernel)
  · exact ((writtenOther limits).1 (by decide +kernel)).trans (by decide +kernel)

/-- Not every store has a written form: one value that is too long is enough. -/
theorem long_value_without_written_form :
    ¬∀ (limits : Limits) (initial later : List (String × Int)),
      ((Store.ofList initial).overwrite later).render limits = .ok ("VariableStore(\x7b" ++
        ", ".intercalate ((listing (initial ++ later)).map fun entry => s!"{Text.quote entry.1}: {entry.2}") ++
        "\x7d)") := by
  intro claim
  let limits : Limits := ⟨988, 4300, Or.inr (by decide)⟩
  have claimed := claim limits [("x", limits.leastTooLong)] []
  have tooLong : ¬limits.CanWriteAll ((Store.ofList [("x", limits.leastTooLong)]).overwrite []).entries := by
    intro fit
    exact limits.not_canWrite_leastTooLong (by decide) (fit ("x", limits.leastTooLong) List.mem_cons_self)
  rw [Store.render_eq, if_neg tooLong] at claimed
  cases claimed

end Calculator

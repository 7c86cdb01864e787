/-
Module: Calculator.Store
Purpose: The variables of a session. A store maps each name to its last value and remembers the order in
  which the names were first given; a name, once given, stays.
Main exports: Store, Store.empty, Store.ofList, Store.get?, Store.set, Store.items, Store.names, Store.render
-/
import Calculator.Limits
import Calculator.Text.Quoted

namespace Calculator

/-- Write a value into a list of entries: over the entry of that name, or after the last entry. -/
def setEntry (name : String) (value : Int) : List (String × Int) → List (String × Int)
  | [] => [(name, value)]
  | entry :: rest =>
    if entry.1 = name then (name, value) :: rest else entry :: setEntry name value rest

/-- The names after a write: the same, with a new name at the end. -/
theorem map_fst_setEntry (name : String) (value : Int) (entries : List (String × Int)) :
    (setEntry name value entries).map Prod.fst =
      if name ∈ entries.map Prod.fst then entries.map Prod.fst
      else entries.map Prod.fst ++ [name] := by
  induction entries with
  | nil => rfl
  | cons entry rest ih =>
    unfold setEntry
    by_cases h : entry.1 = name
    · simp [h]
    · have h' : ¬name = entry.1 := fun e => h e.symm
      rw [if_neg h, List.map_cons, ih]
      by_cases hm : name ∈ rest.map Prod.fst
      · rw [if_pos hm, if_pos (by rw [List.map_cons]; exact List.mem_cons_of_mem _ hm), List.map_cons]
      · rw [if_neg hm, if_neg (by rw [List.map_cons, List.mem_cons]; exact fun o => o.elim h' hm)]
        rfl

/-- A write keeps the names apart. -/
theorem nodup_setEntry {name : String} {value : Int} {entries : List (String × Int)}
    (h : (entries.map Prod.fst).Nodup) : ((setEntry name value entries).map Prod.fst).Nodup := by
  rw [map_fst_setEntry]
  split
  · exact h
  · rename_i hm
    rw [List.nodup_append]
    refine ⟨h, by simp, ?_⟩
    intro a ha b hb hab
    rw [List.mem_singleton] at hb
    exact hm (by rw [← hb, ← hab]; exact ha)

/-- The variables of a session, in the order in which they were first given. -/
structure Store where
  entries : List (String × Int)
  nodup_names : (entries.map Prod.fst).Nodup

namespace Store

/-- No variables. -/
def empty : Store :=
  ⟨[], List.nodup_nil⟩

instance : Inhabited Store := ⟨empty⟩

/-- The value of a name, if it has been given one. -/
def get? (store : Store) (name : String) : Option Int :=
  store.entries.lookup name

/-- Whether a name has been given a value. -/
def contains (store : Store) (name : String) : Bool :=
  (store.get? name).isSome

/-- Give a name a value. A new name comes last; an old one keeps its place. -/
def set (store : Store) (name : String) (value : Int) : Store :=
  ⟨setEntry name value store.entries, nodup_setEntry store.nodup_names⟩

/-- The store that a list of pairs gives, pair by pair. -/
def ofList (pairs : List (String × Int)) : Store :=
  pairs.foldl (fun store pair => store.set pair.1 pair.2) empty

/-- How many names have a value. -/
def size (store : Store) : Nat :=
  store.entries.length

/-- The names and values, sorted by name. Names compare by code points. -/
def items (store : Store) : List (String × Int) :=
  store.entries.mergeSort fun a b => a.1 ≤ b.1

/-- The names in sorted order. -/
def names (store : Store) : List String :=
  store.items.map Prod.fst

/-- The written form, if all values can be written out: the entries in the order of first insertion. -/
def render (limits : Limits) (store : Store) : Except Failure String :=
  (limits.writeEntries (fun name written => s!"{Text.quote name}: {written}") store.entries).map fun shown =>
    "VariableStore(\x7b" ++ ", ".intercalate shown ++ "\x7d)"

/-! ### The store as a map -/

@[simp] theorem get?_empty (name : String) : empty.get? name = none := rfl

theorem lookup_setEntry (name other : String) (value : Int) (entries : List (String × Int)) :
    (setEntry name value entries).lookup other =
      if other = name then some value else entries.lookup other := by
  induction entries with
  | nil =>
    by_cases h : other = name
    · simp [setEntry, h]
    · have hb : (other == name) = false := beq_false_of_ne h
      simp [setEntry, List.lookup_cons, h, hb]
  | cons entry rest ih =>
    obtain ⟨key, old⟩ := entry
    by_cases hk : key = name
    · subst hk
      by_cases h : other = key
      · simp [setEntry, h]
      · have hb : (other == key) = false := beq_false_of_ne h
        simp [setEntry, List.lookup_cons, h, hb]
    · by_cases h : other = key
      · subst h
        simp [setEntry, hk]
      · have hb : (other == key) = false := beq_false_of_ne h
        simp [setEntry, List.lookup_cons, hk, hb, ih]

/-- A write shows at its own name and nowhere else. -/
@[simp] theorem get?_set (store : Store) (name other : String) (value : Int) :
    (store.set name value).get? other = if other = name then some value else store.get? other :=
  lookup_setEntry name other value store.entries

/-- The sorted view holds the same entries. -/
theorem items_perm (store : Store) : store.items.Perm store.entries :=
  List.mergeSort_perm _ _

end Store

end Calculator

import Mathlib.Data.List.Nodup
import Mathlib.Data.List.Pairwise

/-!
# Insertion-ordered dictionaries

A `Dict` is a finite map whose entries keep the order of their first
insertion, as the dictionaries of the source language do.  That keys are
distinct is a field.  Lookup after each operation is given by one equation;
iteration is `entries`, and `mem_entries_iff` connects it to lookup.
-/

namespace ShadowDataPlane.Foundation

variable {κ ν ω : Type*} [DecidableEq κ]

/-- Bind `key` in an entry list, in place when it is already bound. -/
def setEntry (key : κ) (value : ν) : List (κ × ν) → List (κ × ν)
  | [] => [(key, value)]
  | head :: tail =>
      if head.1 = key then (key, value) :: tail
      else head :: setEntry key value tail

/-- The value bound to `key` in an entry list. -/
def getEntry (key : κ) : List (κ × ν) → Option ν
  | [] => none
  | head :: tail => if head.1 = key then some head.2 else getEntry key tail

theorem map_fst_setEntry
    (key : κ) (value : ν) (entries : List (κ × ν)) :
    (setEntry key value entries).map Prod.fst =
      if key ∈ entries.map Prod.fst then entries.map Prod.fst
      else entries.map Prod.fst ++ [key] := by
  induction entries with
  | nil => simp [setEntry]
  | cons head tail induction =>
      by_cases same : head.1 = key
      · simp [setEntry, same]
      · have different : key ≠ head.1 := Ne.symm same
        simp only [setEntry, if_neg same, List.map_cons, induction,
          List.mem_cons, different, false_or]
        split <;> simp

theorem setEntry_of_not_mem
    {key : κ} {value : ν} {entries : List (κ × ν)}
    (absent : key ∉ entries.map Prod.fst) :
    setEntry key value entries = entries ++ [(key, value)] := by
  induction entries with
  | nil => rfl
  | cons head tail induction =>
      rw [List.map_cons, List.mem_cons, not_or] at absent
      rw [setEntry, if_neg (Ne.symm absent.1), induction absent.2,
        List.cons_append]

theorem getEntry_setEntry
    (key other : κ) (value : ν) (entries : List (κ × ν)) :
    getEntry other (setEntry key value entries) =
      if other = key then some value else getEntry other entries := by
  induction entries with
  | nil =>
      simp only [setEntry, getEntry, eq_comm]
  | cons head tail induction =>
      by_cases same : head.1 = key
      · by_cases asked : other = key
        · simp [setEntry, getEntry, same, asked]
        · have apart : ¬ key = other := Ne.symm asked
          simp [setEntry, getEntry, same, asked, apart]
      · simp only [setEntry, if_neg same, getEntry, induction]
        by_cases asked : other = key
        · subst asked
          simp [same]
        · simp [asked]

theorem mem_of_getEntry_eq_some
    {key : κ} {value : ν} {entries : List (κ × ν)}
    (bound : getEntry key entries = some value) :
    (key, value) ∈ entries := by
  induction entries with
  | nil => simp [getEntry] at bound
  | cons head tail induction =>
      simp only [getEntry] at bound
      split at bound
      next same =>
        rw [← same, ← Option.some.inj bound]
        exact List.mem_cons_self
      next => exact List.mem_cons_of_mem _ (induction bound)

theorem getEntry_eq_none_iff
    {key : κ} {entries : List (κ × ν)} :
    getEntry key entries = none ↔ key ∉ entries.map Prod.fst := by
  induction entries with
  | nil => simp [getEntry]
  | cons head tail induction =>
      simp only [getEntry, List.map_cons, List.mem_cons, not_or]
      split
      next same => simp [same]
      next different =>
        rw [induction]
        exact ⟨fun absent => ⟨Ne.symm different, absent⟩, And.right⟩

theorem getEntry_of_mem
    {key : κ} {value : ν} {entries : List (κ × ν)}
    (distinct : (entries.map Prod.fst).Nodup)
    (member : (key, value) ∈ entries) :
    getEntry key entries = some value := by
  induction entries with
  | nil => simp at member
  | cons head tail induction =>
      rw [List.map_cons, List.nodup_cons] at distinct
      rcases List.mem_cons.mp member with rfl | inTail
      · simp [getEntry]
      · have different : head.1 ≠ key := by
          intro same
          exact distinct.1 (same ▸ List.mem_map_of_mem (f := Prod.fst) inTail)
        simp [getEntry, different, induction distinct.2 inTail]

/-- A finite map in insertion order. -/
structure Dict (κ ν : Type*) where
  entries : List (κ × ν)
  distinct : (entries.map Prod.fst).Nodup

namespace Dict

instance [DecidableEq ν] : DecidableEq (Dict κ ν) := fun left right =>
  decidable_of_iff (left.entries = right.entries)
    ⟨fun equal => by cases left; cases right; cases equal; rfl,
      fun equal => congrArg Dict.entries equal⟩

def empty : Dict κ ν := ⟨[], List.nodup_nil⟩

def get? (dict : Dict κ ν) (key : κ) : Option ν := getEntry key dict.entries

/-- Bind a key, keeping the position of an earlier binding. -/
def set (dict : Dict κ ν) (key : κ) (value : ν) : Dict κ ν :=
  ⟨setEntry key value dict.entries, by
    rw [map_fst_setEntry]
    split
    · exact dict.distinct
    next absent =>
      rw [List.nodup_append]
      refine ⟨dict.distinct, List.nodup_singleton _, ?_⟩
      intro old oldMember new newMember same
      rw [List.mem_singleton.mp newMember] at same
      exact absent (same ▸ oldMember)⟩

/-- Remove a key. -/
def erase (dict : Dict κ ν) (key : κ) : Dict κ ν :=
  ⟨dict.entries.filter fun entry => entry.1 ≠ key,
    dict.distinct.sublist (List.filter_sublist.map Prod.fst)⟩

/-- Keep the keys which pass a test. -/
def filterKey (dict : Dict κ ν) (keep : κ → Bool) : Dict κ ν :=
  ⟨dict.entries.filter fun entry => keep entry.1,
    dict.distinct.sublist (List.filter_sublist.map Prod.fst)⟩

/-- Apply a function to every value. -/
def map (dict : Dict κ ν) (change : ν → ω) : Dict κ ω :=
  ⟨dict.entries.map fun entry => (entry.1, change entry.2), by
    simpa [List.map_map, Function.comp_def] using dict.distinct⟩

/-- The values in insertion order. -/
def values (dict : Dict κ ν) : List ν := dict.entries.map Prod.snd

@[simp]
theorem get?_empty (key : κ) : (empty : Dict κ ν).get? key = none := rfl

/-- A new key comes last. -/
theorem entries_set_of_not_mem
    {dict : Dict κ ν} {key : κ} (value : ν)
    (absent : key ∉ dict.entries.map Prod.fst) :
    (dict.set key value).entries = dict.entries ++ [(key, value)] :=
  setEntry_of_not_mem absent

theorem get?_set (dict : Dict κ ν) (key other : κ) (value : ν) :
    (dict.set key value).get? other =
      if other = key then some value else dict.get? other :=
  getEntry_setEntry key other value dict.entries

@[simp]
theorem get?_set_self (dict : Dict κ ν) (key : κ) (value : ν) :
    (dict.set key value).get? key = some value := by
  simp [get?_set]

theorem get?_erase (dict : Dict κ ν) (key other : κ) :
    (dict.erase key).get? other =
      if other = key then none else dict.get? other := by
  obtain ⟨entries, distinct⟩ := dict
  simp only [get?, erase]
  clear distinct
  induction entries with
  | nil => simp [getEntry]
  | cons head tail induction =>
      by_cases removed : head.1 = key
      · rw [List.filter_cons_of_neg (by simpa using removed), induction]
        by_cases asked : other = key
        · simp [asked]
        · have apart : ¬ key = other := Ne.symm asked
          simp [asked, getEntry, removed, apart]
      · rw [List.filter_cons_of_pos (by simpa using removed)]
        simp only [getEntry, induction]
        by_cases asked : other = key
        · subst asked
          simp [removed]
        · simp [asked]

theorem get?_filterKey (dict : Dict κ ν) (keep : κ → Bool) (key : κ) :
    (dict.filterKey keep).get? key =
      if keep key then dict.get? key else none := by
  rcases dict with ⟨entries, distinct⟩
  simp only [get?, filterKey]
  clear distinct
  induction entries with
  | nil => simp [getEntry]
  | cons head tail induction =>
      by_cases kept : keep head.1
      · rw [List.filter_cons_of_pos (by simpa using kept)]
        simp only [getEntry, induction]
        split
        next same => simp [← same, kept]
        next => rfl
      · rw [List.filter_cons_of_neg (by simpa using kept), induction]
        by_cases same : head.1 = key
        · simp [← same, kept]
        · simp [getEntry, same]

theorem get?_map (dict : Dict κ ν) (change : ν → ω) (key : κ) :
    (dict.map change).get? key = (dict.get? key).map change := by
  obtain ⟨entries, distinct⟩ := dict
  simp only [get?, map]
  clear distinct
  induction entries with
  | nil => rfl
  | cons head tail induction =>
      simp only [List.map_cons, getEntry]
      split
      · rfl
      · exact induction

/--
A fold which rebinds one key after another, each to a value which a second
rebinding leaves alone.
-/
theorem get?_foldl_rebind
    (rebind : Dict κ ν → κ → Dict κ ν) (value : κ → Option ν → ν)
    (once : ∀ dict head key, (rebind dict head).get? key =
      if key = head then some (value key (dict.get? key))
      else dict.get? key)
    (again : ∀ key old, value key (some (value key old)) = value key old)
    (keys : List κ) (dict : Dict κ ν) (key : κ) :
    (keys.foldl rebind dict).get? key =
      if key ∈ keys then some (value key (dict.get? key))
      else dict.get? key := by
  induction keys generalizing dict with
  | nil => simp
  | cons head rest induction =>
      rw [List.foldl_cons, induction, once]
      by_cases same : key = head
      · simp [same, again]
      · simp [same]

/-- Binding keys one after another to the same value. -/
theorem get?_foldl_set
    (keys : List κ) (value : ν) (dict : Dict κ ν) (key : κ) :
    (keys.foldl (fun dict key => dict.set key value) dict).get? key =
      if key ∈ keys then some value else dict.get? key :=
  get?_foldl_rebind _ (fun _ _ => value)
    (fun dict head key => get?_set dict head key value) (fun _ _ => rfl)
    keys dict key

/-- Iteration and lookup see the same bindings. -/
theorem mem_entries_iff (dict : Dict κ ν) {key : κ} {value : ν} :
    (key, value) ∈ dict.entries ↔ dict.get? key = some value :=
  ⟨getEntry_of_mem dict.distinct, mem_of_getEntry_eq_some⟩

theorem mem_values_iff (dict : Dict κ ν) {value : ν} :
    value ∈ dict.values ↔ ∃ key, dict.get? key = some value := by
  simp only [values, List.mem_map, Prod.exists, exists_eq_right,
    mem_entries_iff]

end Dict

end ShadowDataPlane.Foundation

import Mathlib.Data.List.Nodup

/-! # Hash maps with an unspecified iteration order

A map is the list of its entries in the order in which an iteration meets
them. That order is not specified: a fresh key lands wherever the table's
hasher puts it, and the table may be laid out anew on the way. A `Hasher` is
one such behaviour, so a statement about every hasher is a statement about
every iteration order. Replacing the value of a present key, or removing a
key, moves no other entry. -/

namespace RustyDhcp

/-- How a table lays out its entries when its `count`-th fresh key arrives.
Counting the fresh keys lets the layout depend on the history of the table. -/
structure Hasher (κ ν : Type) where
  arrange : (count : Nat) → List (κ × ν) → κ × ν → List (κ × ν)
  perm : ∀ count entries entry,
    (arrange count entries entry).Perm (entry :: entries)

/-- The hasher whose newest key is met first. -/
def Hasher.newestFirst : Hasher κ ν where
  arrange := fun _ entries entry => entry :: entries
  perm := fun _ _ _ => List.Perm.refl _

structure HashMap (κ ν : Type) where
  hasher : Hasher κ ν
  inserted : Nat
  entries : List (κ × ν)
  nodup : (entries.map Prod.fst).Nodup

namespace HashMap

def new (hasher : Hasher κ ν) : HashMap κ ν where
  hasher := hasher
  inserted := 0
  entries := []
  nodup := by simp

def keys (map : HashMap κ ν) : List κ := map.entries.map Prod.fst

def size (map : HashMap κ ν) : Nat := map.entries.length

def isEmpty (map : HashMap κ ν) : Bool := map.entries.isEmpty

/-- The first key, in iteration order, whose value satisfies the test. -/
def findKey? (map : HashMap κ ν) (test : ν → Bool) : Option κ :=
  (map.entries.find? fun entry => test entry.2).map Prod.fst

theorem keys_nodup (map : HashMap κ ν) : map.keys.Nodup := map.nodup

@[simp] theorem length_keys (map : HashMap κ ν) : map.keys.length = map.size := by
  simp [keys, size]

theorem isEmpty_iff_size {map : HashMap κ ν} :
    map.isEmpty = true ↔ map.size = 0 := by
  simp [isEmpty, size]

section

variable [DecidableEq κ]

def get? (map : HashMap κ ν) (key : κ) : Option ν :=
  (map.entries.find? fun entry => entry.1 = key).map Prod.snd

/-- Apply a change to the value of `key`, if the key is present. -/
def modify (map : HashMap κ ν) (key : κ) (change : ν → ν) : HashMap κ ν where
  hasher := map.hasher
  inserted := map.inserted
  entries := map.entries.map fun entry =>
    if entry.1 = key then (entry.1, change entry.2) else entry
  nodup := by
    have sameKeys : (map.entries.map fun entry =>
        if entry.1 = key then (entry.1, change entry.2) else entry).map Prod.fst =
          map.entries.map Prod.fst := by
      rw [List.map_map]
      apply List.map_congr_left
      intro entry _
      by_cases equal : entry.1 = key <;> simp [equal]
    rw [sameKeys]
    exact map.nodup

def insert (map : HashMap κ ν) (key : κ) (value : ν) : HashMap κ ν :=
  if present : key ∈ map.keys then
    map.modify key fun _ => value
  else
    { hasher := map.hasher
      inserted := map.inserted + 1
      entries := map.hasher.arrange map.inserted map.entries (key, value)
      nodup := by
        have arranged := (map.hasher.perm map.inserted map.entries
          (key, value)).map Prod.fst
        exact arranged.nodup_iff.mpr (List.nodup_cons.mpr ⟨present, map.nodup⟩) }

def remove (map : HashMap κ ν) (key : κ) : HashMap κ ν where
  hasher := map.hasher
  inserted := map.inserted
  entries := map.entries.filter fun entry => entry.1 ≠ key
  nodup := map.nodup.sublist (List.filter_sublist.map Prod.fst)

/-! ## Reading a map -/

theorem get?_eq_some_iff {map : HashMap κ ν} {key : κ} {value : ν} :
    map.get? key = some value ↔ (key, value) ∈ map.entries := by
  rw [get?, Option.map_eq_some_iff]
  constructor
  · intro holds
    rcases holds with ⟨⟨foundKey, foundValue⟩, found, rfl⟩
    have equal : foundKey = key := by simpa using List.find?_some found
    exact equal ▸ List.mem_of_find?_eq_some found
  · intro member
    cases found : map.entries.find? fun entry => entry.1 = key with
    | none =>
        have absent := List.find?_eq_none.mp found _ member
        simp at absent
    | some entry =>
        have equal : entry.1 = key := by simpa using List.find?_some found
        have entryMem := List.mem_of_find?_eq_some found
        exact ⟨entry, rfl, congrArg Prod.snd
          (List.inj_on_of_nodup_map map.nodup entryMem member equal)⟩

theorem mem_keys_iff {map : HashMap κ ν} {key : κ} :
    key ∈ map.keys ↔ (map.get? key).isSome := by
  rw [keys, List.mem_map, Option.isSome_iff_exists]
  constructor
  · intro found
    rcases found with ⟨⟨_, value⟩, member, rfl⟩
    exact ⟨value, get?_eq_some_iff.mpr member⟩
  · intro holds
    rcases holds with ⟨value, found⟩
    exact ⟨(key, value), get?_eq_some_iff.mp found, rfl⟩

theorem isEmpty_iff {map : HashMap κ ν} :
    map.isEmpty = true ↔ ∀ key, map.get? key = none := by
  rw [isEmpty, List.isEmpty_iff]
  constructor
  · intro empty key
    simp [get?, empty]
  · intro absent
    apply List.eq_nil_iff_forall_not_mem.mpr
    intro entry member
    have found := get?_eq_some_iff.mpr (show (entry.1, entry.2) ∈ map.entries from member)
    rw [absent entry.1] at found
    cases found

theorem findKey?_some {map : HashMap κ ν} {test : ν → Bool} {key : κ}
    (found : map.findKey? test = some key) :
    ∃ value, map.get? key = some value ∧ test value := by
  rw [findKey?, Option.map_eq_some_iff] at found
  rcases found with ⟨⟨_, value⟩, found, rfl⟩
  have passes := List.find?_some found
  exact ⟨value, get?_eq_some_iff.mpr (List.mem_of_find?_eq_some found), passes⟩

theorem findKey?_eq_none_iff {map : HashMap κ ν} {test : ν → Bool} :
    map.findKey? test = none ↔
      ∀ key value, map.get? key = some value → test value = false := by
  rw [findKey?, Option.map_eq_none_iff, List.find?_eq_none]
  constructor
  · intro fails key value found
    simpa using fails (key, value) (get?_eq_some_iff.mp found)
  · intro fails entry member
    simpa using fails entry.1 entry.2 (get?_eq_some_iff.mpr member)

/-! ## What each operation does to the reads -/

@[simp] theorem get?_new (hasher : Hasher κ ν) (key : κ) :
    (new hasher).get? key = none := rfl

@[simp] theorem get?_modify (map : HashMap κ ν) (key other : κ) (change : ν → ν) :
    (map.modify key change).get? other =
      if other = key then (map.get? other).map change else map.get? other := by
  apply Option.ext
  intro value
  have image : (map.modify key change).get? other = some value ↔
      ∃ old, map.get? other = some old ∧
        value = if other = key then change old else old := by
    rw [get?_eq_some_iff, modify, List.mem_map]
    constructor
    · intro found
      rcases found with ⟨entry, member, equal⟩
      refine ⟨entry.2, ?_⟩
      by_cases same : entry.1 = key
      · rw [if_pos same] at equal
        cases equal
        exact ⟨get?_eq_some_iff.mpr member, by rw [if_pos same]⟩
      · rw [if_neg same] at equal
        cases equal
        exact ⟨get?_eq_some_iff.mpr member, by rw [if_neg same]⟩
    · intro holds
      rcases holds with ⟨old, found, rfl⟩
      refine ⟨(other, old), get?_eq_some_iff.mp found, ?_⟩
      by_cases same : other = key <;> simp [same]
  rw [image]
  by_cases same : other = key
  · simp only [same, if_true, Option.map_eq_some_iff]
    exact exists_congr fun old => and_congr_right fun _ => eq_comm
  · simp [same]

/-- A change that a test does not notice leaves what the test finds. -/
theorem findKey?_modify {map : HashMap κ ν} {key : κ} {change : ν → ν} {test : ν → Bool}
    (kept : ∀ value, test (change value) = test value) :
    (map.modify key change).findKey? test = map.findKey? test := by
  have sameTest : ∀ entry : κ × ν,
      test (if entry.1 = key then (entry.1, change entry.2) else entry).2 = test entry.2 := by
    intro entry
    split
    · exact kept entry.2
    · rfl
  have sameKey : ∀ entry : κ × ν,
      (if entry.1 = key then (entry.1, change entry.2) else entry).1 = entry.1 := by
    intro entry
    split <;> rfl
  simp only [findKey?, modify, List.find?_map, Function.comp_def, sameTest, Option.map_map,
    sameKey]

/-- A change that leaves the value of the key as it is changes nothing. -/
theorem modify_eq_self {map : HashMap κ ν} {key : κ} {change : ν → ν}
    (fixed : ∀ value, map.get? key = some value → change value = value) :
    map.modify key change = map := by
  have same : (map.entries.map fun entry =>
      if entry.1 = key then (entry.1, change entry.2) else entry) = map.entries := by
    refine (List.map_congr_left ?_).trans (List.map_id _)
    intro entry member
    by_cases here : entry.1 = key
    · have value : map.get? key = some entry.2 := get?_eq_some_iff.mpr (here ▸ member)
      rw [if_pos here, fixed entry.2 value]
      rfl
    · rw [if_neg here]
      rfl
  simp only [modify, same]

@[simp] theorem isEmpty_modify (map : HashMap κ ν) (key : κ) (change : ν → ν) :
    (map.modify key change).isEmpty = map.isEmpty := by
  simp [isEmpty, modify]

@[simp] theorem get?_insert (map : HashMap κ ν) (key other : κ) (value : ν) :
    (map.insert key value).get? other =
      if other = key then some value else map.get? other := by
  by_cases present : key ∈ map.keys
  · rw [insert, dif_pos present, get?_modify]
    by_cases same : other = key
    · rcases Option.isSome_iff_exists.mp (mem_keys_iff.mp present) with ⟨old, found⟩
      simp [same, found]
    · simp [same]
  · rw [insert, dif_neg present]
    apply Option.ext
    intro read
    rw [get?_eq_some_iff, (map.hasher.perm _ _ _).mem_iff, List.mem_cons,
      Prod.mk.injEq]
    by_cases same : other = key
    · subst same
      have absent : ∀ old, (other, old) ∉ map.entries := fun old member =>
        present (List.mem_map_of_mem (f := Prod.fst) member)
      simp [absent, eq_comm]
    · simp [same, get?_eq_some_iff]

/-- A key that is not there yet takes a place of its own. -/
theorem size_insert_of_new {map : HashMap κ ν} {key : κ} (new : map.get? key = none)
    (value : ν) : (map.insert key value).size = map.size + 1 := by
  have absent : key ∉ map.keys := by
    rw [mem_keys_iff, new]
    simp
  rw [insert, dif_neg absent]
  exact (map.hasher.perm map.inserted map.entries (key, value)).length_eq

@[simp] theorem get?_remove (map : HashMap κ ν) (key other : κ) :
    (map.remove key).get? other =
      if other = key then none else map.get? other := by
  apply Option.ext
  intro value
  rw [get?_eq_some_iff, remove, List.mem_filter]
  by_cases same : other = key <;> simp [same, get?_eq_some_iff]

end

end HashMap

end RustyDhcp

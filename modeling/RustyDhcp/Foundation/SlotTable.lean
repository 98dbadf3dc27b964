import Mathlib.Data.Set.Card
import RustyDhcp.Foundation.Checked
import RustyDhcp.Foundation.HashMap

/-! # Tables with a dense part

A table from addresses to entries that keeps one range of addresses in a dense
array of slots and every other address in a hash map. It counts its occupied
slots and carries a reverse index from the owner of an entry to one of the
addresses that hold it. The reverse index is only a hint: the operations of
this file do not touch it.

Every read and write goes through a `SlotLayout`, which says what the slots
stand for. -/

namespace RustyDhcp

/-- The addresses that live in slots, the address of each slot, and who owns
an entry. -/
structure SlotLayout (Addr Owner Entry : Type) where
  size : Nat
  idx : Addr → Option Nat
  addr : Nat → Addr
  owner : Entry → Owner
  idx_lt : ∀ {address position}, idx address = some position → position < size
  addr_idx : ∀ {address position}, idx address = some position → addr position = address

theorem SlotLayout.idx_injective (layout : SlotLayout Addr Owner Entry)
    {left right : Addr} {position : Nat} (atLeft : layout.idx left = some position)
    (atRight : layout.idx right = some position) : left = right :=
  (layout.addr_idx atLeft).symm.trans (layout.addr_idx atRight)

structure SlotTable (Addr Owner Entry : Type) where
  slots : List (Option Entry)
  filled : Nat
  overflow : HashMap Addr Entry
  hints : HashMap Owner Addr

namespace SlotTable

section

variable [DecidableEq Addr]

def lookup (layout : SlotLayout Addr Owner Entry) (table : SlotTable Addr Owner Entry)
    (address : Addr) : Option Entry :=
  match layout.idx address with
  | some position => table.slots[position]?.join
  | none => table.overflow.get? address

/-- The entry at `address` belongs to `id`. -/
def HeldBy (layout : SlotLayout Addr Owner Entry) (table : SlotTable Addr Owner Entry)
    (address : Addr) (id : Owner) : Prop :=
  ∃ entry, table.lookup layout address = some entry ∧ layout.owner entry = id

/-- The dense part has its full length and an exact count, an occupied slot is
the slot of its address, and the overflow holds no address that has a slot. -/
structure Valid (layout : SlotLayout Addr Owner Entry)
    (table : SlotTable Addr Owner Entry) : Prop where
  slots_length : table.slots.length = layout.size
  filled_eq : table.filled = table.slots.countP Option.isSome
  slots_addressed : ∀ {position entry}, table.slots[position]? = some (some entry) →
    layout.idx (layout.addr position) = some position
  overflow_outside : ∀ {address entry}, table.overflow.get? address = some entry →
    layout.idx address = none

/-- The number of occupied slots once a slot goes from `old` to `content`. -/
def recount (filled : Nat) (old content : Option Entry) : Nat :=
  match old, content with
  | none, some _ => filled + 1
  | some _, none => filled - 1
  | _, _ => filled

/-- Set the content of the place of an address: an entry, or nothing. -/
def store (layout : SlotLayout Addr Owner Entry) (table : SlotTable Addr Owner Entry)
    (address : Addr) (content : Option Entry) : SlotTable Addr Owner Entry :=
  match layout.idx address with
  | some position =>
      { table with
        slots := table.slots.set position content
        filled := recount table.filled table.slots[position]?.join content }
  | none =>
      { table with
        overflow :=
          match content with
          | some entry => table.overflow.insert address entry
          | none => table.overflow.remove address }

/-- Change the entry of an address in place. -/
def amend (layout : SlotLayout Addr Owner Entry) (table : SlotTable Addr Owner Entry)
    (address : Addr) (change : Entry → Entry) : SlotTable Addr Owner Entry :=
  match layout.idx address with
  | some position =>
      { table with slots := table.slots.modify position (Option.map change) }
  | none => { table with overflow := table.overflow.modify address change }

def empty (layout : SlotLayout Addr Owner Entry) (hasher : Hasher Addr Entry)
    (hintHasher : Hasher Owner Addr) : SlotTable Addr Owner Entry where
  slots := List.replicate layout.size none
  filled := 0
  overflow := HashMap.new hasher
  hints := HashMap.new hintHasher

variable {layout : SlotLayout Addr Owner Entry} {table : SlotTable Addr Owner Entry}
variable {address other : Addr} {entry : Entry} {position : Nat}

theorem lookup_of_idx (slot : layout.idx address = some position) :
    table.lookup layout address = table.slots[position]?.join := by
  rw [lookup, slot]

theorem lookup_of_no_idx (slot : layout.idx address = none) :
    table.lookup layout address = table.overflow.get? address := by
  rw [lookup, slot]

/-! ## Where the entries of a valid table are -/

theorem index_slots (valid : table.Valid layout) (slot : layout.idx address = some position) :
    Checked.index table.slots position = .ok (table.lookup layout address) := by
  have bound : position < table.slots.length := valid.slots_length ▸ layout.idx_lt slot
  rw [lookup_of_idx slot, List.getElem?_eq_getElem bound]
  exact Checked.index_eq_ok (List.getElem?_eq_getElem bound)

theorem lookup_slot (valid : table.Valid layout)
    (occupied : table.slots[position]? = some (some entry)) :
    table.lookup layout (layout.addr position) = some entry := by
  rw [lookup_of_idx (valid.slots_addressed occupied), occupied]
  rfl

theorem lookup_overflow (valid : table.Valid layout)
    (found : table.overflow.get? address = some entry) :
    table.lookup layout address = some entry := by
  rw [lookup_of_no_idx (valid.overflow_outside found), found]

theorem lookup_eq_some_cases (found : table.lookup layout address = some entry) :
    (∃ position, layout.addr position = address ∧
        table.slots[position]? = some (some entry)) ∨
      table.overflow.get? address = some entry := by
  cases slot : layout.idx address with
  | some position =>
      rw [lookup_of_idx slot, Option.join_eq_some_iff] at found
      exact .inl ⟨position, layout.addr_idx slot, found⟩
  | none =>
      rw [lookup_of_no_idx slot] at found
      exact .inr found

theorem lookup_empty (hasher : Hasher Addr Entry) (hintHasher : Hasher Owner Addr) :
    (empty layout hasher hintHasher).lookup layout address = none := by
  cases slot : layout.idx address with
  | some position =>
      simp [lookup, slot, empty, layout.idx_lt slot]
  | none => simp [lookup, slot, empty]

theorem valid_empty (hasher : Hasher Addr Entry) (hintHasher : Hasher Owner Addr) :
    (empty layout hasher hintHasher : SlotTable Addr Owner Entry).Valid layout where
  slots_length := by simp [empty]
  filled_eq := by simp [empty, List.countP_replicate]
  slots_addressed occupied := by simp [empty, List.getElem?_replicate] at occupied
  overflow_outside found := by simp [empty] at found

/-! ## Setting the content of a place -/

theorem lookup_store (valid : table.Valid layout) (content : Option Entry) :
    (table.store layout address content).lookup layout other =
      if other = address then content else table.lookup layout other := by
  cases slot : layout.idx address with
  | some position =>
      have bound : position < table.slots.length :=
        valid.slots_length ▸ layout.idx_lt slot
      by_cases same : other = address
      · simp [same, store, lookup, slot, bound]
      · cases otherSlot : layout.idx other with
        | some otherPosition =>
            have different : position ≠ otherPosition := fun equal =>
              same (layout.idx_injective otherSlot (equal ▸ slot))
            simp [same, store, lookup, slot, otherSlot, different]
        | none => simp [same, store, lookup, slot, otherSlot]
  | none =>
      by_cases same : other = address
      · cases content <;> simp [same, store, lookup, slot]
      · cases otherSlot : layout.idx other <;> cases content <;>
          simp [same, store, lookup, slot, otherSlot]

/-- A new entry counts if the slot was empty. -/
theorem recount_some (filled : Nat) (old : Option Entry) (entry : Entry) :
    recount filled old (some entry) = if old.isNone then filled + 1 else filled := by
  cases old <;> rfl

theorem countP_set_recount {slots : List (Option Entry)} (bound : position < slots.length)
    (content : Option Entry) :
    (slots.set position content).countP Option.isSome =
      recount (slots.countP Option.isSome) slots[position]?.join content := by
  rw [List.countP_set bound, List.getElem?_eq_getElem bound]
  cases old : slots[position] with
  | none => cases content <;> simp [recount]
  | some entry =>
      have positive : 0 < slots.countP Option.isSome :=
        List.countP_pos_iff.mpr ⟨_, List.getElem_mem bound, by rw [old]; rfl⟩
      cases content <;> simp [recount]
      omega

theorem valid_store (valid : table.Valid layout) (content : Option Entry) :
    (table.store layout address content).Valid layout := by
  cases slot : layout.idx address with
  | some position =>
      have bound : position < table.slots.length :=
        valid.slots_length ▸ layout.idx_lt slot
      refine ⟨?_, ?_, ?_, ?_⟩
      · simp [store, slot, valid.slots_length]
      · simp only [store, slot]
        rw [countP_set_recount bound, valid.filled_eq]
      · intro index entry occupied
        simp only [store, slot, List.getElem?_set] at occupied
        by_cases same : position = index
        · subst same
          rw [layout.addr_idx slot, slot]
        · rw [if_neg same] at occupied
          exact valid.slots_addressed occupied
      · simp only [store, slot]
        exact valid.overflow_outside
  | none =>
      refine ⟨?_, ?_, ?_, ?_⟩
      · simp [store, slot, valid.slots_length]
      · simp [store, slot, valid.filled_eq]
      · simp only [store, slot]
        exact valid.slots_addressed
      · intro index entry found
        by_cases same : index = address
        · rw [same, slot]
        · cases content <;> simp [store, slot, same] at found <;>
            exact valid.overflow_outside found

/-- An occupied slot keeps the count positive, so emptying it cannot take the
count below zero. -/
theorem filled_pos (valid : table.Valid layout) (slot : layout.idx address = some position)
    (found : table.lookup layout address = some entry) : 0 < table.filled := by
  rw [lookup_of_idx slot, Option.join_eq_some_iff] at found
  rw [valid.filled_eq]
  exact List.countP_pos_iff.mpr ⟨some entry, List.mem_of_getElem? found, rfl⟩

/-! ## Changing an entry in place -/

theorem lookup_amend (change : Entry → Entry) :
    (table.amend layout address change).lookup layout other =
      if other = address then (table.lookup layout other).map change
      else table.lookup layout other := by
  cases slot : layout.idx address with
  | some position =>
      by_cases same : other = address
      · subst same
        rw [if_pos rfl, lookup_of_idx slot, lookup_of_idx slot]
        cases old : table.slots[position]? with
        | none => simp [amend, slot, old]
        | some content => cases content <;> simp [amend, slot, old]
      · cases otherSlot : layout.idx other with
        | some otherPosition =>
            have different : position ≠ otherPosition := fun equal =>
              same (layout.idx_injective otherSlot (equal ▸ slot))
            simp [same, amend, lookup, slot, otherSlot, different]
        | none => simp [same, amend, lookup, slot, otherSlot]
  | none =>
      cases otherSlot : layout.idx other with
      | some otherPosition =>
          have different : other ≠ address := fun equal => by
            rw [equal, slot] at otherSlot
            cases otherSlot
          simp [different, amend, lookup, slot, otherSlot]
      | none => simp [amend, lookup, slot, otherSlot]

/-- A change that a view does not notice leaves the view of a list. -/
theorem map_modify {values : List α} {change : α → α} {view : α → β}
    (kept : ∀ value, view (change value) = view value) :
    (values.modify position change).map view = values.map view := by
  apply List.ext_getElem?
  intro index
  simp only [List.getElem?_map, List.getElem?_modify]
  cases values[index]? with
  | none => rfl
  | some value => by_cases same : position = index <;> simp [same, kept]

theorem valid_amend (valid : table.Valid layout) (change : Entry → Entry) :
    (table.amend layout address change).Valid layout := by
  cases slot : layout.idx address with
  | some position =>
      refine ⟨?_, ?_, ?_, ?_⟩
      · simp [amend, slot, valid.slots_length]
      · have sameCount : (table.slots.modify position (Option.map change)).map
            Option.isSome = table.slots.map Option.isSome :=
          map_modify fun content => Option.isSome_map
        have counted := congrArg (List.countP id) sameCount
        simp only [List.countP_map, Function.id_comp] at counted
        simp only [amend, slot]
        rw [counted]
        exact valid.filled_eq
      · intro index value occupied
        simp only [amend, slot, List.getElem?_modify] at occupied
        cases old : table.slots[index]? with
        | none => simp [old] at occupied
        | some content =>
            cases content with
            | none => by_cases same : position = index <;> simp [old, same] at occupied
            | some before => exact valid.slots_addressed old
      · simp only [amend, slot]
        exact valid.overflow_outside
  | none =>
      refine ⟨?_, ?_, ?_, ?_⟩
      · simp [amend, slot, valid.slots_length]
      · simp [amend, slot, valid.filled_eq]
      · simp only [amend, slot]
        exact valid.slots_addressed
      · intro index value
        simp only [amend, slot, HashMap.get?_modify]
        by_cases same : index = address
        · intro _
          rw [same, slot]
        · rw [if_neg same]
          exact valid.overflow_outside

/-! ## Tables with the same entries -/

section

variable {left right : SlotTable Addr Owner Entry}

theorem slot_of_lookup_eq (leftValid : left.Valid layout)
    (same : ∀ address, left.lookup layout address = right.lookup layout address)
    (occupied : left.slots[position]? = some (some entry)) :
    right.slots[position]? = some (some entry) := by
  have slot := leftValid.slots_addressed occupied
  have found := lookup_slot leftValid occupied
  rwa [same, lookup_of_idx slot, Option.join_eq_some_iff] at found

theorem slots_eq_of_lookup_eq (leftValid : left.Valid layout) (rightValid : right.Valid layout)
    (same : ∀ address, left.lookup layout address = right.lookup layout address) :
    left.slots = right.slots := by
  apply List.ext_getElem
  · rw [leftValid.slots_length, rightValid.slots_length]
  · intro position leftBound rightBound
    cases leftSlot : left.slots[position] with
    | some entry =>
        have occupied := slot_of_lookup_eq leftValid same
          (List.getElem?_eq_some_iff.mpr ⟨leftBound, leftSlot⟩)
        exact (List.getElem?_eq_some_iff.mp occupied).2.symm
    | none =>
        cases rightSlot : right.slots[position] with
        | none => rfl
        | some entry =>
            have occupied := slot_of_lookup_eq rightValid (fun address => (same address).symm)
              (List.getElem?_eq_some_iff.mpr ⟨rightBound, rightSlot⟩)
            rw [List.getElem?_eq_getElem leftBound, leftSlot] at occupied
            cases occupied

theorem filled_eq_of_lookup_eq (leftValid : left.Valid layout) (rightValid : right.Valid layout)
    (same : ∀ address, left.lookup layout address = right.lookup layout address) :
    left.filled = right.filled := by
  rw [leftValid.filled_eq, rightValid.filled_eq,
    slots_eq_of_lookup_eq leftValid rightValid same]

theorem overflow_eq_of_lookup_eq (leftValid : left.Valid layout) (rightValid : right.Valid layout)
    (same : ∀ address, left.lookup layout address = right.lookup layout address)
    (address : Addr) : left.overflow.get? address = right.overflow.get? address := by
  cases slot : layout.idx address with
  | none => rw [← lookup_of_no_idx slot, same, lookup_of_no_idx slot]
  | some position =>
      have outside : ∀ {table : SlotTable Addr Owner Entry}, table.Valid layout →
          table.overflow.get? address = none := by
        intro table valid
        cases found : table.overflow.get? address with
        | none => rfl
        | some entry =>
            have absent := valid.overflow_outside found
            rw [slot] at absent
            cases absent
      rw [outside leftValid, outside rightValid]

end

end

end SlotTable

end RustyDhcp

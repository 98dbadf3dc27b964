import RustyDhcp.Foundation.SlotIndex

/-! # The reverse index of a table with a dense part

The writing operations together with their upkeep of the reverse index, and
what each does to the correctness of the hints. -/

namespace RustyDhcp.SlotTable

variable {layout : SlotLayout Addr Owner Entry} {table : SlotTable Addr Owner Entry}
variable {address other : Addr} {entry : Entry} {owner : Owner}

/-! ## Replacing the hints alone -/

def withHints (table : SlotTable Addr Owner Entry) (hints : HashMap Owner Addr) :
    SlotTable Addr Owner Entry :=
  { table with hints := hints }

@[simp] theorem hints_withHints (table : SlotTable Addr Owner Entry)
    (hints : HashMap Owner Addr) : (table.withHints hints).hints = hints := rfl

section

variable [DecidableEq Addr]

@[simp] theorem lookup_withHints (table : SlotTable Addr Owner Entry)
    (hints : HashMap Owner Addr) :
    (table.withHints hints).lookup layout address = table.lookup layout address := rfl

@[simp] theorem heldBy_withHints (table : SlotTable Addr Owner Entry)
    (hints : HashMap Owner Addr) :
    (table.withHints hints).HeldBy layout address owner ↔
      table.HeldBy layout address owner := Iff.rfl

theorem valid_withHints (valid : table.Valid layout) (hints : HashMap Owner Addr) :
    (table.withHints hints).Valid layout :=
  ⟨valid.slots_length, valid.filled_eq, valid.slots_addressed, valid.overflow_outside⟩

@[simp] theorem hints_store (content : Option Entry) :
    (table.store layout address content).hints = table.hints := by
  unfold store
  split <;> rfl

@[simp] theorem hints_amend (change : Entry → Entry) :
    (table.amend layout address change).hints = table.hints := by
  unfold amend
  split <;> rfl

end

variable [DecidableEq Addr] [DecidableEq Owner]

/-- Every hint points at an address that its owner holds. -/
def HintsValid (layout : SlotLayout Addr Owner Entry)
    (table : SlotTable Addr Owner Entry) : Prop :=
  ∀ {owner address}, table.hints.get? owner = some address →
    table.HeldBy layout address owner

/-- Correct hints are never more than the entries: each owner with a hint
holds an entry of its own. -/
theorem size_hints_le (valid : table.Valid layout) (hints : table.HintsValid layout) :
    table.hints.size ≤ table.filled + table.overflow.size := by
  have targetsNodup : (table.hints.entries.map Prod.snd).Nodup := by
    apply List.Nodup.map_on _ (List.Nodup.of_map Prod.fst table.hints.nodup)
    intro left leftMem right rightMem equal
    rcases hints (HashMap.get?_eq_some_iff.mpr leftMem) with ⟨entry, found, leftOwner⟩
    rcases hints (HashMap.get?_eq_some_iff.mpr rightMem) with ⟨_, rightFound, rightOwner⟩
    rw [← equal, found] at rightFound
    cases rightFound
    exact Prod.ext (leftOwner.symm.trans rightOwner) equal
  have targetsHeld : table.hints.entries.map Prod.snd ⊆ table.addresses layout := by
    intro target member
    rcases List.mem_map.mp member with ⟨⟨owner, _⟩, entryMem, rfl⟩
    rcases hints (HashMap.get?_eq_some_iff.mpr entryMem) with ⟨entry, found, _⟩
    exact (mem_addresses_iff valid).mpr (Option.isSome_iff_exists.mpr ⟨entry, found⟩)
  have bound := (targetsNodup.subperm targetsHeld).length_le
  rwa [List.length_map, length_addresses valid] at bound

/-! ## Changing an entry in place

A change that keeps the owner disturbs no hint. -/

omit [DecidableEq Owner] in
theorem heldBy_amend_iff {change : Entry → Entry}
    (kept : ∀ entry, layout.owner (change entry) = layout.owner entry) :
    (table.amend layout address change).HeldBy layout other owner ↔
      table.HeldBy layout other owner := by
  simp only [HeldBy, lookup_amend]
  by_cases same : other = address
  · simp [same, kept]
  · simp [same]

theorem hintsValid_amend (hints : table.HintsValid layout) {change : Entry → Entry}
    (kept : ∀ entry, layout.owner (change entry) = layout.owner entry) :
    (table.amend layout address change).HintsValid layout := by
  intro owner target pointed
  rw [hints_amend] at pointed
  exact (heldBy_amend_iff kept).mpr (hints pointed)

/-- A search does not notice a change that keeps the owner. -/
theorem scan_amend {change : Entry → Entry}
    (kept : ∀ entry, layout.owner (change entry) = layout.owner entry) :
    (table.amend layout address change).scan layout owner = table.scan layout owner := by
  rw [scan, scan]
  cases slot : layout.idx address with
  | some position =>
      have sameTest : ∀ content : Option Entry,
          ((content.map change).any fun entry => layout.owner entry = owner) =
            content.any fun entry => layout.owner entry = owner := by
        intro content
        cases content <;> simp [kept]
      have searched : ∀ slots : List (Option Entry),
          (slots.findIdx? fun content => content.any fun entry => layout.owner entry = owner) =
            (slots.map fun content =>
              content.any fun entry => layout.owner entry = owner).findIdx? id := by
        intro slots
        rw [List.findIdx?_map]
        rfl
      simp only [amend, slot]
      rw [searched, map_modify sameTest, ← searched]
  | none =>
      simp only [amend, slot]
      rw [HashMap.findKey?_modify]
      intro entry
      rw [kept]

theorem current_amend {change : Entry → Entry}
    (kept : ∀ entry, layout.owner (change entry) = layout.owner entry) :
    (table.amend layout address change).current layout owner = table.current layout owner := by
  have sameEmpty : (table.amend layout address change).isEmpty = table.isEmpty := by
    cases slot : layout.idx address <;> simp [amend, slot, isEmpty]
  rw [current, current, sameEmpty, hints_amend]
  simp only [scan_amend kept, lookup_amend]
  split
  · rfl
  · split
    · rename_i target _
      by_cases same : target = address
      · cases found : table.lookup layout target <;> simp [same, kept]
      · simp [same]
    · rfl

omit [DecidableEq Owner] in
/-- A change that leaves the entry of the address as it is changes nothing. -/
theorem amend_eq_self {change : Entry → Entry}
    (fixed : ∀ entry, table.lookup layout address = some entry → change entry = entry) :
    table.amend layout address change = table := by
  cases slot : layout.idx address with
  | some position =>
      have same : table.slots.modify position (Option.map change) = table.slots := by
        apply List.ext_getElem?
        intro index
        rw [List.getElem?_modify]
        by_cases here : position = index
        · subst here
          cases content : table.slots[position]? with
          | none => rfl
          | some occupied =>
              cases occupied with
              | none => simp
              | some entry =>
                  have found : table.lookup layout address = some entry := by
                    rw [lookup_of_idx slot, content]
                    rfl
                  simp [fixed entry found]
        · simp [here]
      simp only [amend, slot, same]
  | none =>
      have same : table.overflow.modify address change = table.overflow := by
        apply HashMap.modify_eq_self
        intro entry found
        exact fixed entry ((lookup_of_no_idx slot).trans found)
      simp only [amend, slot, same]

/-! ## Settling an entry

Write an entry and point its owner's hint at it. -/

def settle (layout : SlotLayout Addr Owner Entry) (table : SlotTable Addr Owner Entry)
    (address : Addr) (entry : Entry) : SlotTable Addr Owner Entry :=
  (table.store layout address (some entry)).withHints
    (table.hints.insert (layout.owner entry) address)

theorem valid_settle (valid : table.Valid layout) :
    (table.settle layout address entry).Valid layout :=
  valid_withHints (valid_store valid (some entry)) _

theorem lookup_settle (valid : table.Valid layout) :
    (table.settle layout address entry).lookup layout other =
      if other = address then some entry else table.lookup layout other := by
  rw [settle, lookup_withHints, lookup_store valid]

/-- Settling keeps the hints correct exactly when nobody else's hint points at
the address that is overwritten. -/
theorem hintsValid_settle_iff (valid : table.Valid layout)
    (hints : table.HintsValid layout) :
    (table.settle layout address entry).HintsValid layout ↔
      ∀ owner, table.hints.get? owner = some address → owner = layout.owner entry := by
  constructor
  · intro after owner pointed
    by_cases same : owner = layout.owner entry
    · exact same
    · have kept : (table.settle layout address entry).hints.get? owner = some address := by
        simp [settle, same, pointed]
      rcases after kept with ⟨found, read, owned⟩
      rw [lookup_settle valid, if_pos rfl] at read
      cases read
      exact owned.symm
  · intro nobody owner target pointed
    rw [settle, hints_withHints, HashMap.get?_insert] at pointed
    by_cases same : owner = layout.owner entry
    · rw [if_pos same] at pointed
      cases pointed
      exact ⟨entry, by rw [lookup_settle valid, if_pos rfl], same.symm⟩
    · rw [if_neg same] at pointed
      rcases hints pointed with ⟨found, read, owned⟩
      refine ⟨found, ?_, owned⟩
      rw [lookup_settle valid, if_neg, read]
      intro equal
      subst equal
      exact same (nobody owner pointed)

/-! ## Inserting an entry

As settling, after dropping the hint of an owner who loses the address. -/

def displace (layout : SlotLayout Addr Owner Entry) (table : SlotTable Addr Owner Entry)
    (address : Addr) (owner : Owner) : HashMap Owner Addr :=
  match table.lookup layout address with
  | some old =>
      if layout.owner old ≠ owner ∧ table.hints.get? (layout.owner old) = some address then
        table.hints.remove (layout.owner old)
      else table.hints
  | none => table.hints

def insert (layout : SlotLayout Addr Owner Entry) (table : SlotTable Addr Owner Entry)
    (address : Addr) (entry : Entry) : SlotTable Addr Owner Entry :=
  (table.withHints (table.displace layout address (layout.owner entry))).settle
    layout address entry

theorem valid_insert (valid : table.Valid layout) :
    (table.insert layout address entry).Valid layout :=
  valid_settle (valid_withHints valid _)

theorem lookup_insert (valid : table.Valid layout) :
    (table.insert layout address entry).lookup layout other =
      if other = address then some entry else table.lookup layout other := by
  rw [insert, lookup_settle (valid_withHints valid _), lookup_withHints]

/-- Dropping a hint never adds one. -/
theorem get?_of_get?_displace {displaced : Owner} {target : Addr}
    (pointed : (table.displace layout address owner).get? displaced = some target) :
    table.hints.get? displaced = some target := by
  rw [displace] at pointed
  split at pointed
  · split at pointed
    · rw [HashMap.get?_remove] at pointed
      split at pointed
      · cases pointed
      · exact pointed
    · exact pointed
  · exact pointed

/-- What the hints are once an entry is inserted: that of its owner leads to it
and nobody else's does. -/
theorem get?_hints_insert (hints : table.HintsValid layout) (owner : Owner) :
    (table.insert layout address entry).hints.get? owner =
      if owner = layout.owner entry then some address
      else if table.hints.get? owner = some address then none
      else table.hints.get? owner := by
  rw [insert, settle, hints_withHints, HashMap.get?_insert]
  by_cases own : owner = layout.owner entry
  · rw [if_pos own, if_pos own]
  · rw [if_neg own, if_neg own, hints_withHints, displace]
    by_cases pointed : table.hints.get? owner = some address
    · rcases hints pointed with ⟨old, found, rfl⟩
      rw [if_pos pointed, found]
      simp [own, pointed]
    · rw [if_neg pointed]
      cases found : table.lookup layout address with
      | none => rfl
      | some old =>
          by_cases loser : layout.owner old = owner
          · simp [loser, pointed]
          · dsimp only
            split
            · rw [HashMap.get?_remove, if_neg fun same => loser same.symm]
            · rfl

theorem hintsValid_insert (valid : table.Valid layout) (hints : table.HintsValid layout) :
    (table.insert layout address entry).HintsValid layout := by
  have dropped : (table.withHints
      (table.displace layout address (layout.owner entry))).HintsValid layout :=
    fun pointed => hints (get?_of_get?_displace pointed)
  apply (hintsValid_settle_iff (valid_withHints valid _) dropped).mpr
  intro owner pointed
  rw [hints_withHints] at pointed
  have before := get?_of_get?_displace pointed
  rcases hints before with ⟨old, found, rfl⟩
  by_contra different
  simp [displace, found, different, before] at pointed

/-! ## Releasing an address

Empty the place, and point a hint that led there at another address of the
owner, if it holds one. -/

def release (layout : SlotLayout Addr Owner Entry) (table : SlotTable Addr Owner Entry)
    (owner : Owner) (address : Addr) : SlotTable Addr Owner Entry :=
  let cleared := table.store layout address none
  cleared.withHints <|
    if table.hints.get? owner = some address then
      match cleared.scan layout owner with
      | some survivor => (table.hints.remove owner).insert owner survivor
      | none => table.hints.remove owner
    else table.hints

theorem valid_release (valid : table.Valid layout) :
    (table.release layout owner address).Valid layout :=
  valid_withHints (valid_store valid none) _

theorem lookup_release (valid : table.Valid layout) :
    (table.release layout owner address).lookup layout other =
      if other = address then none else table.lookup layout other := by
  rw [release, lookup_withHints, lookup_store valid]

theorem heldBy_release_iff (valid : table.Valid layout) {holder : Owner} :
    (table.release layout owner address).HeldBy layout other holder ↔
      other ≠ address ∧ table.HeldBy layout other holder := by
  simp only [HeldBy, lookup_release valid]
  by_cases same : other = address <;> simp [same]

theorem hintsValid_release (valid : table.Valid layout) (hints : table.HintsValid layout)
    (held : table.HeldBy layout address owner) :
    (table.release layout owner address).HintsValid layout := by
  have others : ∀ {holder target}, table.hints.get? holder = some target →
      (holder = owner → target ≠ address) →
        (table.release layout owner address).HeldBy layout target holder := by
    intro holder target pointed elsewhere
    refine (heldBy_release_iff valid).mpr ⟨?_, hints pointed⟩
    intro equal
    subst equal
    rcases held with ⟨entry, found, rfl⟩
    rcases hints pointed with ⟨_, same, rfl⟩
    rw [found] at same
    cases same
    exact elsewhere rfl rfl
  intro holder target pointed
  rw [release, hints_withHints] at pointed
  split at pointed
  · rename_i led
    by_cases same : holder = owner
    · subst same
      split at pointed
      · rename_i survivor survives
        rw [HashMap.get?_insert, if_pos rfl] at pointed
        cases pointed
        rw [release, heldBy_withHints]
        exact heldBy_of_scan (valid_store valid none) survives
      · simp at pointed
    · have kept : table.hints.get? holder = some target := by
        split at pointed <;> simpa [same] using pointed
      exact others kept fun equal => absurd equal same
  · rename_i ledElsewhere
    refine others pointed ?_
    intro equal same
    subst equal
    subst same
    exact ledElsewhere pointed

end RustyDhcp.SlotTable

import RustyDhcp.Foundation.SlotTable

/-! # Counting and searching a table with a dense part

How many addresses hold an entry, and which address an owner holds. The search
trusts the reverse index only after checking it against the table, and falls
back to a scan of the slots and then of the overflow. -/

namespace RustyDhcp.SlotTable

variable [DecidableEq Addr]
variable {layout : SlotLayout Addr Owner Entry} {table : SlotTable Addr Owner Entry}
variable {address other : Addr} {entry : Entry}

/-! ## Counting -/

/-- The addresses that hold an entry: those of the occupied slots, then those
of the overflow. -/
def addresses (layout : SlotLayout Addr Owner Entry)
    (table : SlotTable Addr Owner Entry) : List Addr :=
  ((List.range table.slots.length).filter fun position =>
    table.slots[position]?.join.isSome).map layout.addr ++ table.overflow.keys

theorem mem_addresses_iff (valid : table.Valid layout) :
    address ∈ table.addresses layout ↔ (table.lookup layout address).isSome := by
  simp only [addresses, List.mem_append, List.mem_map, List.mem_filter, List.mem_range,
    HashMap.mem_keys_iff, Option.isSome_iff_exists, Option.join_eq_some_iff]
  constructor
  · intro holds
    rcases holds with ⟨position, ⟨_, entry, occupied⟩, rfl⟩ | ⟨entry, found⟩
    · exact ⟨entry, lookup_slot valid occupied⟩
    · exact ⟨entry, lookup_overflow valid found⟩
  · intro holds
    rcases holds with ⟨entry, found⟩
    rcases lookup_eq_some_cases found with ⟨position, same, occupied⟩ | inOverflow
    · exact .inl ⟨position, ⟨(List.getElem?_eq_some_iff.mp occupied).1, entry, occupied⟩, same⟩
    · exact .inr ⟨entry, inOverflow⟩

theorem addresses_nodup (valid : table.Valid layout) :
    (table.addresses layout).Nodup := by
  have slotOf : ∀ position, position ∈ (List.range table.slots.length).filter (fun position =>
      table.slots[position]?.join.isSome) →
      layout.idx (layout.addr position) = some position := by
    intro position member
    rw [List.mem_filter, Option.isSome_iff_exists] at member
    rcases member with ⟨_, entry, occupied⟩
    exact valid.slots_addressed (Option.join_eq_some_iff.mp occupied)
  apply List.nodup_append.mpr
  refine ⟨?_, table.overflow.keys_nodup, ?_⟩
  · apply List.Nodup.map_on _ (List.nodup_range.filter _)
    intro left leftMem right rightMem equal
    have atLeft := slotOf left leftMem
    rw [equal, slotOf right rightMem] at atLeft
    exact (Option.some.inj atLeft).symm
  · intro slotAddress slotMem overflowAddress overflowMem equal
    rcases List.mem_map.mp slotMem with ⟨position, positionMem, rfl⟩
    rcases Option.isSome_iff_exists.mp (HashMap.mem_keys_iff.mp overflowMem) with
      ⟨entry, found⟩
    have outside := valid.overflow_outside found
    rw [← equal, slotOf position positionMem] at outside
    cases outside

theorem length_addresses (valid : table.Valid layout) :
    (table.addresses layout).length = table.filled + table.overflow.size := by
  have readSlots : (List.range table.slots.length).map (fun position =>
      table.slots[position]?.join) = table.slots := by
    apply List.ext_getElem <;> simp +contextual
  have counted : ((List.range table.slots.length).filter fun position =>
      table.slots[position]?.join.isSome).length = table.slots.countP Option.isSome := by
    rw [← List.countP_eq_length_filter]
    conv_rhs => rw [← readSlots, List.countP_map]
    rfl
  rw [addresses, List.length_append, List.length_map, counted, valid.filled_eq,
    HashMap.length_keys]

/-- The two counters together count the addresses that hold an entry. -/
theorem ncard_held (valid : table.Valid layout) :
    {address | (table.lookup layout address).isSome}.ncard =
      table.filled + table.overflow.size := by
  have listed : {address | (table.lookup layout address).isSome} =
      ((table.addresses layout).toFinset : Set Addr) := by
    ext address
    simp [mem_addresses_iff valid]
  rw [listed, Set.ncard_coe_finset,
    List.toFinset_card_of_nodup (addresses_nodup valid), length_addresses valid]

/-- Addresses among which no entry is missing are as many as the entries. -/
theorem filled_add_size_le (valid : table.Valid layout) {cover : List Addr}
    (covered : ∀ {address}, (table.lookup layout address).isSome → address ∈ cover) :
    table.filled + table.overflow.size ≤ cover.length := by
  rw [← length_addresses valid]
  apply (List.subperm_of_subset (addresses_nodup valid) _).length_le
  intro address listed
  exact covered ((mem_addresses_iff valid).mp listed)

/-- Different addresses with an entry are no more than the entries. -/
theorem length_le_filled_add_size (valid : table.Valid layout) {occupied : List Addr}
    (once : occupied.Nodup)
    (found : ∀ address ∈ occupied, (table.lookup layout address).isSome) :
    occupied.length ≤ table.filled + table.overflow.size := by
  rw [← length_addresses valid]
  apply (List.subperm_of_subset once _).length_le
  intro address listed
  exact (mem_addresses_iff valid).mpr (found address listed)

/-- The entries with their addresses, those in the slots first. -/
def entries (layout : SlotLayout Addr Owner Entry)
    (table : SlotTable Addr Owner Entry) : List (Addr × Entry) :=
  table.slots.zipIdx.filterMap (fun slot =>
    slot.1.map fun entry => (layout.addr slot.2, entry)) ++ table.overflow.entries

theorem mem_entries_iff (valid : table.Valid layout) :
    (address, entry) ∈ table.entries layout ↔ table.lookup layout address = some entry := by
  rw [entries, List.mem_append, List.mem_filterMap, ← HashMap.get?_eq_some_iff]
  constructor
  · intro member
    rcases member with ⟨⟨content, position⟩, placed, listed⟩ | inOverflow
    · rcases Option.map_eq_some_iff.mp listed with ⟨_, occupied, same⟩
      cases same
      have read := List.mk_mem_zipIdx_iff_getElem?.mp placed
      dsimp only at occupied
      rw [occupied] at read
      exact lookup_slot valid read
    · exact lookup_overflow valid inOverflow
  · intro found
    rcases lookup_eq_some_cases found with ⟨position, same, occupied⟩ | inOverflow
    · refine .inl ⟨(some entry, position), List.mk_mem_zipIdx_iff_getElem?.mpr occupied, ?_⟩
      exact congrArg (fun place => some (place, entry)) same
    · exact .inr inOverflow

/-- No address is listed twice. -/
theorem entries_nodup (valid : table.Valid layout) : (table.entries layout).Nodup := by
  have addressed : ∀ slot ∈ table.slots.zipIdx, ∀ lease,
      (slot.1.map fun entry => (layout.addr slot.2, entry)) = some lease →
        layout.idx lease.1 = some slot.2 := by
    intro slot placed lease listed
    rcases Option.map_eq_some_iff.mp listed with ⟨_, occupied, same⟩
    subst same
    have read := List.mem_zipIdx_iff_getElem?.mp placed
    rw [occupied] at read
    exact valid.slots_addressed read
  have positions : table.slots.zipIdx.Pairwise fun left right => left.2 ≠ right.2 := by
    rw [← List.pairwise_map (f := Prod.snd), List.zipIdx_map_snd]
    exact List.nodup_range'
  apply List.nodup_append.mpr
  refine ⟨?_, List.Nodup.of_map Prod.fst table.overflow.keys_nodup, ?_⟩
  · apply List.pairwise_filterMap.mpr
    apply positions.imp_of_mem
    intro left right leftPlaced rightPlaced different lease leftListed other rightListed same
    rw [← same] at rightListed
    have atLeft := addressed left leftPlaced lease leftListed
    rw [addressed right rightPlaced lease rightListed] at atLeft
    exact different (Option.some.inj atLeft).symm
  · intro lease slotMem other overflowMem same
    rcases List.mem_filterMap.mp slotMem with ⟨slot, placed, listed⟩
    have inside := addressed slot placed lease listed
    rw [same, valid.overflow_outside (HashMap.get?_eq_some_iff.mpr overflowMem)] at inside
    cases inside

def isEmpty (table : SlotTable Addr Owner Entry) : Bool :=
  table.filled = 0 && table.overflow.isEmpty

theorem isEmpty_iff (valid : table.Valid layout) :
    table.isEmpty = true ↔ ∀ address, table.lookup layout address = none := by
  have noAddresses : table.isEmpty = true ↔ table.addresses layout = [] := by
    rw [← List.length_eq_zero_iff, length_addresses valid, isEmpty, Bool.and_eq_true,
      decide_eq_true_eq, HashMap.isEmpty_iff_size]
    omega
  rw [noAddresses, List.eq_nil_iff_forall_not_mem]
  simp [mem_addresses_iff valid]

/-! ## Searching -/

variable [DecidableEq Owner]

def scan (layout : SlotLayout Addr Owner Entry) (table : SlotTable Addr Owner Entry)
    (owner : Owner) : Option Addr :=
  match table.slots.findIdx? fun slot => slot.any fun entry => layout.owner entry = owner with
  | some position => some (layout.addr position)
  | none => table.overflow.findKey? fun entry => layout.owner entry = owner

/-- An address that `owner` holds, if it holds any: the hinted one where the
hint is right, else the first that a scan meets. -/
def current (layout : SlotLayout Addr Owner Entry) (table : SlotTable Addr Owner Entry)
    (owner : Owner) : Option Addr :=
  if table.isEmpty then none
  else
    match table.hints.get? owner with
    | some address =>
        match table.lookup layout address with
        | some entry =>
            if layout.owner entry = owner then some address else table.scan layout owner
        | none => table.scan layout owner
    | none => table.scan layout owner

variable {owner : Owner}

theorem heldBy_of_scan (valid : table.Valid layout)
    (found : table.scan layout owner = some address) :
    table.HeldBy layout address owner := by
  rw [scan] at found
  cases slot : table.slots.findIdx? fun slot =>
      slot.any fun entry => layout.owner entry = owner with
  | some position =>
      rw [slot] at found
      cases found
      rcases List.findIdx?_eq_some_iff_getElem.mp slot with ⟨bound, test, _⟩
      cases occupied : table.slots[position] with
      | none => simp [occupied] at test
      | some entry =>
          exact ⟨entry, lookup_slot valid (List.getElem?_eq_some_iff.mpr ⟨bound, occupied⟩),
            by simpa [occupied] using test⟩
  | none =>
      rw [slot] at found
      rcases HashMap.findKey?_some found with ⟨entry, read, test⟩
      exact ⟨entry, lookup_overflow valid read, by simpa using test⟩

theorem not_heldBy_of_scan_none (missing : table.scan layout owner = none) :
    ¬table.HeldBy layout address owner := by
  intro holds
  rcases holds with ⟨entry, found, owned⟩
  rw [scan] at missing
  cases slot : table.slots.findIdx? fun slot =>
      slot.any fun entry => layout.owner entry = owner with
  | some position => simp [slot] at missing
  | none =>
      rw [slot] at missing
      rcases lookup_eq_some_cases found with ⟨position, _, occupied⟩ | inOverflow
      · have fails := List.findIdx?_eq_none_iff.mp slot _ (List.mem_of_getElem? occupied)
        simp [owned] at fails
      · have fails := HashMap.findKey?_eq_none_iff.mp missing _ _ inOverflow
        simp [owned] at fails

theorem heldBy_of_current (valid : table.Valid layout)
    (found : table.current layout owner = some address) :
    table.HeldBy layout address owner := by
  rw [current] at found
  split at found
  · cases found
  · split at found
    · split at found
      · split at found
        · rename_i entry read owned
          cases found
          exact ⟨entry, read, owned⟩
        · exact heldBy_of_scan valid found
      · exact heldBy_of_scan valid found
    · exact heldBy_of_scan valid found

theorem current_eq_none_iff (valid : table.Valid layout) :
    table.current layout owner = none ↔
      ∀ address, ¬table.HeldBy layout address owner := by
  constructor
  · intro missing address
    rw [current] at missing
    split at missing
    · rename_i empty
      intro holds
      rcases holds with ⟨entry, found, _⟩
      rw [(isEmpty_iff valid).mp empty address] at found
      cases found
    · split at missing
      · split at missing
        · split at missing
          · cases missing
          · exact not_heldBy_of_scan_none missing
        · exact not_heldBy_of_scan_none missing
      · exact not_heldBy_of_scan_none missing
  · intro nothing
    cases found : table.current layout owner with
    | none => rfl
    | some address => exact absurd (heldBy_of_current valid found) (nothing address)

/-- A hint that is right is what the search finds. -/
theorem current_of_hint (valid : table.Valid layout)
    (hint : table.hints.get? owner = some address)
    (held : table.HeldBy layout address owner) :
    table.current layout owner = some address := by
  rcases held with ⟨entry, found, owned⟩
  have occupied : ¬table.isEmpty = true := by
    intro empty
    rw [(isEmpty_iff valid).mp empty address] at found
    cases found
  simp only [current, if_neg occupied, hint, found, if_pos owned]

/-- Every owner holds at most one address. -/
def SingleHolding (layout : SlotLayout Addr Owner Entry)
    (table : SlotTable Addr Owner Entry) : Prop :=
  ∀ {left right owner}, table.HeldBy layout left owner → table.HeldBy layout right owner →
    left = right

/-- Where nobody holds two addresses the search is determined by the table
alone: neither the hints nor the iteration order can be told from the result. -/
theorem current_eq_some_iff (valid : table.Valid layout)
    (single : table.SingleHolding layout) :
    table.current layout owner = some address ↔ table.HeldBy layout address owner := by
  constructor
  · exact heldBy_of_current valid
  · intro held
    cases found : table.current layout owner with
    | none => exact absurd held ((current_eq_none_iff valid).mp found address)
    | some other => rw [single (heldBy_of_current valid found) held]

end RustyDhcp.SlotTable

import RustyDhcp.Foundation.RoundRobin
import RustyDhcp.Dhcpv6.PoolTable

/-! # The round-robin loops of the DHCPv6 pool -/

namespace RustyDhcp.Dhcpv6.V6Pool

variable {pool : V6Pool} {addr : Ipv6Addr} {duid : Duid} {now : Instant}

/-- The pool with its cursor at an offset. -/
def atOffset (pool : V6Pool) (offset : Nat) : V6Pool :=
  { pool with last := .ofNat 64 offset }

@[simp] theorem atOffset_last : pool.atOffset pool.last.toNat = pool := by
  rw [atOffset, BitVec.ofNat_toNat, BitVec.setWidth_eq]

/-- The pool and the address that a scan over the offsets ends with. -/
def afterScan (pool : V6Pool) (scanned : Nat × Option Nat) : V6Pool × Option Ipv6Addr :=
  (pool.atOffset scanned.1, scanned.2.map pool.address)

theorem atOffset_toNat {offset : Nat} (bound : offset < pool.count.toNat) :
    (pool.atOffset offset).last.toNat = offset := by
  have size := pool.count.isLt
  rw [atOffset, BitVec.toNat_ofNat, Nat.mod_eq_of_lt (by omega)]

theorem Valid.atOffset {offset : Nat} (valid : pool.Valid)
    (bound : offset < pool.count.toNat) : (pool.atOffset offset).Valid := by
  refine ⟨valid.table, valid.range, .inl ?_⟩
  rw [atOffset_toNat bound]
  exact bound

theorem advance_eq (valid : pool.Valid) (nonempty : 0 < pool.count.toNat) :
    pool.advance =
      .ok (pool.atOffset ((pool.last.toNat + 1) % pool.count.toNat)) := by
  have cursor : pool.last.toNat < pool.count.toNat := by
    rcases valid.cursor with below | empty
    · exact below
    · rw [empty.2] at nonempty
      exact absurd nonempty (by decide)
  exact Checked.advance_eq cursor fun last => .ok { pool with last := last }

/-- The address under a cursor is skipped where the range overflows. -/
theorem cursorAddress_eq (valid : pool.Valid) {offset : Nat}
    (bound : offset < pool.count.toNat) :
    (pool.atOffset offset).cursorAddress =
      if pool.inRange (pool.address offset) then some (pool.address offset) else none := by
  have size := pool.count.isLt
  have widened : ((BitVec.ofNat 64 offset).setWidth 128 : U128) = .ofNat 128 offset := by
    apply BitVec.eq_of_toNat_eq
    rw [BitVec.toNat_setWidth_of_le (by omega), BitVec.toNat_ofNat, BitVec.toNat_ofNat,
      Nat.mod_eq_of_lt (by omega), Nat.mod_eq_of_lt (by omega)]
  have small : (BitVec.ofNat 128 offset).toNat = offset := by
    rw [BitVec.toNat_ofNat, Nat.mod_eq_of_lt (by omega)]
  have unfolded : (pool.atOffset offset).cursorAddress =
      (checkedAdd pool.start (.ofNat 128 offset)).bind fun pos =>
        if pool.rangeEnd.any fun limit => pos.toNat < limit.toNat then some ⟨pos⟩
        else none := by
    rw [← widened]
    rfl
  rw [unfolded]
  cases found : pool.rangeEnd with
  | none =>
      have outside : pool.inRange (pool.address offset) = false := by
        rw [inRange, found]
        simp
      simp [outside]
  | some limit =>
      have sum := valid.rangeEnd_toNat found
      have bounded := limit.isLt
      have fits : pool.start.toNat + offset < 2 ^ 128 := by omega
      have inside : pool.inRange (pool.address offset) = true := by
        rw [valid.inRange_iff, address_toNat fits, found]
        exact ⟨rfl, by omega, by omega⟩
      have added : checkedAdd pool.start (.ofNat 128 offset) =
          some (pool.address offset).bits := by
        rw [checkedAdd, if_pos (by omega)]
        rfl
      have below : (pool.address offset).bits.toNat < limit.toNat := by
        rw [address_toNat fits]
        omega
      simp [added, inside, below]

/-- The loop of a hash-only pool is a scan over the offsets. -/
theorem scanHashed_eq (valid : pool.Valid) (nonempty : 0 < pool.count.toNat) (rounds : Nat) :
    scanHashed duid now rounds pool =
      .ok (pool.afterScan (RoundRobin.scan pool.count.toNat
        (fun offset => pool.available duid (pool.address offset) now) rounds
        pool.last.toNat)) := by
  induction rounds generalizing pool with
  | zero => simp [scanHashed, RoundRobin.scan, afterScan]
  | succ rounds induction =>
      have size := pool.count.isLt
      have below := Nat.mod_lt (pool.last.toNat + 1) nonempty
      rw [scanHashed, advance_eq valid nonempty, Checked.bind_ok, RoundRobin.scan]
      generalize (pool.last.toNat + 1) % pool.count.toNat = offset at *
      have next : (pool.atOffset offset).Valid := valid.atOffset below
      have here : (pool.atOffset offset).last.toNat = offset := atOffset_toNat below
      have rest := induction next nonempty
      rw [here] at rest
      have probe : (pool.atOffset offset).availableAt duid (pool.address offset) now =
          .ok (pool.available duid (pool.address offset) now) := availableAt_eq next
      rw [cursorAddress_eq valid below]
      cases inside : pool.inRange (pool.address offset) with
      | false =>
          have rejected : pool.available duid (pool.address offset) now = false := by
            rw [available, inside]
            rfl
          simp only [rejected, Bool.false_eq_true, if_false]
          exact rest
      | true =>
          simp only [if_true, probe, Checked.bind_ok]
          cases pool.available duid (pool.address offset) now with
          | true => rfl
          | false => exact rest

theorem idx_address (valid : pool.Valid) (slots : pool.useSlots = true) {offset : Nat}
    (bound : offset < pool.count.toNat) (inside : pool.inRange (pool.address offset) = true) :
    pool.idx (pool.address offset) = some offset := by
  have ends := (valid.inRange_iff.mp inside).1
  rcases Option.isSome_iff_exists.mp ends with ⟨limit, found⟩
  have sum := valid.rangeEnd_toNat found
  have bounded := limit.isLt
  exact idx_eq_some_iff.mpr ⟨slots, ends, address_toNat (by omega), bound⟩

/-- The loop of a pool with slots does the same. -/
theorem scanSlots_eq_scanHashed (valid : pool.Valid) (slots : pool.useSlots = true)
    (nonempty : 0 < pool.count.toNat) (rounds : Nat) :
    scanSlots duid now rounds pool = scanHashed duid now rounds pool := by
  induction rounds generalizing pool with
  | zero => rfl
  | succ rounds induction =>
      have size := pool.count.isLt
      have below := Nat.mod_lt (pool.last.toNat + 1) nonempty
      rw [scanSlots, scanHashed, advance_eq valid nonempty, Checked.bind_ok, Checked.bind_ok]
      generalize (pool.last.toNat + 1) % pool.count.toNat = offset at *
      have next : (pool.atOffset offset).Valid := valid.atOffset below
      have here : (pool.atOffset offset).last.toNat = offset := atOffset_toNat below
      rw [cursorAddress_eq valid below, induction next slots nonempty]
      cases inside : pool.inRange (pool.address offset) with
      | false => rfl
      | true =>
          have slot : (pool.atOffset offset).idx (pool.address offset) = some offset :=
            idx_address valid slots below inside
          simp only [if_true, availableAt, slot, here]

/-- `offset` is the first one, in the cyclic order behind the cursor, whose
address is available. -/
def FirstFree (pool : V6Pool) (duid : Duid) (now : Instant) (offset : Nat) : Prop :=
  RoundRobin.IsFirst pool.count.toNat
    (fun offset => pool.available duid (pool.address offset) now)
    pool.count.toNat pool.last.toNat offset

theorem FirstFree.lt {offset : Nat} (first : pool.FirstFree duid now offset) :
    offset < pool.count.toNat :=
  RoundRobin.IsFirst.lt first

theorem FirstFree.available {offset : Nat} (first : pool.FirstFree duid now offset) :
    pool.available duid (pool.address offset) now = true := by
  have accepted := RoundRobin.IsFirst.accepted first
  exact accepted

theorem discover_held (valid : pool.Valid) (current : pool.current duid = some addr) :
    pool.discover duid now = .ok (pool, some addr) := by
  rw [discover, currentLease_eq valid, current]
  rfl

/-- Without a current lease, `discover` is one scan over the whole pool. -/
theorem discover_scan (valid : pool.Valid) (nothing : pool.current duid = none) :
    pool.discover duid now =
      .ok (pool.afterScan (RoundRobin.scan pool.count.toNat
        (fun offset => pool.available duid (pool.address offset) now) pool.count.toNat
        pool.last.toNat)) := by
  simp only [discover, currentLease_eq valid, nothing, Checked.bind_ok]
  by_cases empty : pool.count = 0
  · have zero : pool.count.toNat = 0 := by rw [empty]; rfl
    rw [if_pos empty, zero, RoundRobin.scan, afterScan, atOffset_last]
    rfl
  · have nonempty : 0 < pool.count.toNat := by
      apply Nat.pos_of_ne_zero
      intro zero
      exact empty (BitVec.eq_of_toNat_eq zero)
    rw [if_neg empty]
    cases slots : pool.useSlots with
    | false => exact scanHashed_eq valid nonempty pool.count.toNat
    | true =>
        simp only [Bool.not_true, Bool.false_eq_true, if_false]
        rw [scanSlots_eq_scanHashed valid slots nonempty]
        exact scanHashed_eq valid nonempty pool.count.toNat

theorem Valid.cursor_or_empty (valid : pool.Valid) :
    pool.last.toNat < pool.count.toNat ∨ pool.count.toNat = 0 := by
  rcases valid.cursor with below | empty
  · exact .inl below
  · exact .inr (by rw [empty.2]; rfl)

theorem discover_first {offset : Nat} (valid : pool.Valid) (nothing : pool.current duid = none)
    (first : pool.FirstFree duid now offset) :
    pool.discover duid now = .ok (pool.atOffset offset, some (pool.address offset)) := by
  rw [discover_scan valid nothing, RoundRobin.scan_of_isFirst first]
  rfl

theorem discover_exhausted (valid : pool.Valid) (nothing : pool.current duid = none)
    (full : ∀ addr, pool.available duid addr now = false) :
    pool.discover duid now = .ok (pool, none) := by
  rw [discover_scan valid nothing,
    RoundRobin.scan_of_rejected valid.cursor_or_empty fun offset _ => full _, afterScan,
    atOffset_last, Option.map_none]

/-- An offset is the first free one, or no address is available. -/
theorem firstFree_or_full (valid : pool.Valid) (duid : Duid) (now : Instant) :
    (∃ offset, pool.FirstFree duid now offset) ∨
      ∀ addr, pool.available duid addr now = false := by
  rcases RoundRobin.scan_turn valid.cursor_or_empty with ⟨offset, first, _⟩ | ⟨rejected, _⟩
  · exact .inl ⟨offset, first⟩
  · right
    intro addr
    cases inside : pool.inRange addr with
    | false =>
        rw [available, inside]
        rfl
    | true =>
        rw [valid.inRange_iff] at inside
        have located : pool.address (addr.bits.toNat - pool.start.toNat) = addr :=
          address_eq_of_toNat (by omega)
        have free := rejected (addr.bits.toNat - pool.start.toNat) (by omega)
        rwa [located] at free

/-- It finds the first free offset, or nothing is free and the cursor is back
where it was. -/
theorem discover_free (valid : pool.Valid) (nothing : pool.current duid = none)
    (now : Instant) :
    (∃ offset, pool.FirstFree duid now offset ∧
      pool.discover duid now = .ok (pool.atOffset offset, some (pool.address offset))) ∨
    (∀ addr, pool.available duid addr now = false) ∧
      pool.discover duid now = .ok (pool, none) := by
  rcases firstFree_or_full valid duid now with ⟨offset, first⟩ | full
  · exact .inl ⟨offset, first, discover_first valid nothing first⟩
  · exact .inr ⟨full, discover_exhausted valid nothing full⟩

end RustyDhcp.Dhcpv6.V6Pool

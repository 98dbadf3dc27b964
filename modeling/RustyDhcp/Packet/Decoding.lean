import Mathlib.Tactic.IntervalCases
import RustyDhcp.Packet.RoundTrip

/-! # The DHCPv4 decoder, specified

Which datagrams are refused, and what is read from the others: the header, and
the options up to END or up to the first that cannot be decoded. -/

namespace RustyDhcp

open Fallible

variable {bytes other input rest tail : List UInt8} {packet : Packet}
variable {fields others : List Field} {options otherOptions : List DhcpOption}

/-- Too short, not for Ethernet, or without the cookie. -/
def Malformed (bytes : List UInt8) : Prop :=
  bytes.length < 236 ∨ bytes[2]? ≠ some 6 ∨ (bytes.drop 236).take 4 ≠ cookie

/-- The fields of the header at their offsets, the most significant byte first.
The broadcast flag is left out. -/
structure HeaderOf (bytes : List UInt8) (packet : Packet) : Prop where
  reply : packet.reply = true ↔ bytes[0]? = some 2
  hops : bytes[3]? = some packet.hops
  xid : (bytes.drop 4).take 4 = toBeBytes packet.xid
  secs : (bytes.drop 8).take 2 = toBeBytes packet.secs
  ciaddr : (bytes.drop 12).take 4 = packet.ciaddr.octets
  yiaddr : (bytes.drop 16).take 4 = packet.yiaddr.octets
  siaddr : (bytes.drop 20).take 4 = packet.siaddr.octets
  giaddr : (bytes.drop 24).take 4 = packet.giaddr.octets
  chaddr : (bytes.drop 28).take 6 = packet.chaddr.toList

/-- The options behind the cookie: as many as can be decoded one after the other,
up to END or to something that is no option. -/
structure OptionArea (area : List UInt8) (options : List DhcpOption) (fields : List Field)
    (rest : List UInt8) : Prop where
  splits : area = Field.join 1 fields ++ rest
  reads : List.Forall₂ ReadsAs fields options
  ended : rest.head? = some endByte ∨ Stuck rest
  longest : ∀ others otherOptions, List.Forall₂ ReadsAs others otherOptions →
    Field.join 1 others <+: area → otherOptions <+: options

/-- What a datagram decodes to, and what has no influence on that: the bytes
behind END, the type of the hardware address, the names of the server and of the
boot file. -/
structure Decoded (bytes : List UInt8) (packet : Packet) : Prop where
  header : HeaderOf bytes packet
  options : ∃ fields rest, OptionArea (bytes.drop 240) packet.options fields rest ∧
    (rest.head? = some endByte → ∀ tail,
      Packet.fromBytes (bytes.take (240 + (Field.join 1 fields).length + 1) ++ tail) = .ok packet)
  unused : ∀ other : List UInt8,
    (∀ position, position ≠ 1 → ¬(34 ≤ position ∧ position < 236) →
      other[position]? = bytes[position]?) → Packet.fromBytes other = .ok packet

theorem malformed_iff : Malformed bytes ↔ ¬ValidHeader bytes := by
  constructor
  · intro malformed valid
    rcases malformed with short | hardware | untagged
    · exact Nat.not_lt.mpr valid.long short
    · exact hardware valid.hlen
    · exact untagged valid.cookie
  · intro invalid
    by_contra readable
    rw [Malformed, not_or, not_or, not_not, not_not] at readable
    exact invalid ⟨Nat.not_lt.mp readable.1, readable.2.1, readable.2.2⟩

/-! ## The header -/

theorem getElem?_getD {position : Nat} (inside : position < bytes.length) :
    bytes[position]? = some (bytes.getD position 0) := by
  rw [List.getD_eq_getElem?_getD, List.getElem?_eq_getElem inside]
  rfl

theorem octets_ofBeBytes (long : 236 ≤ bytes.length) {start : Nat} (inside : start + 4 ≤ 236) :
    (bytes.drop start).take 4 = Ipv4Addr.octets ⟨ofBeBytes 32 ((bytes.drop start).take 4)⟩ := by
  rw [Ipv4Addr.octets_eq, toBeBytes_ofBeBytes rfl]
  rw [List.length_take, List.length_drop]
  omega

theorem headerOf_ofHeader (valid : ValidHeader bytes) (options : List DhcpOption) :
    HeaderOf bytes (.ofHeader bytes options) := by
  have long := valid.long
  have four : ∀ start, start + 4 ≤ 236 → ((bytes.drop start).take 4).length = 4 := by
    intro start inside
    rw [List.length_take, List.length_drop]
    omega
  have two : ((bytes.drop 8).take 2).length = 2 := by
    rw [List.length_take, List.length_drop]
    omega
  refine ⟨?_, getElem?_getD (by omega), (toBeBytes_ofBeBytes rfl (four 4 (by decide))).symm,
    (toBeBytes_ofBeBytes rfl two).symm, octets_ofBeBytes long (by decide),
    octets_ofBeBytes long (by decide), octets_ofBeBytes long (by decide),
    octets_ofBeBytes long (by decide), ?_⟩
  · have first : bytes[0]? = some (bytes.getD 0 0) := getElem?_getD (by omega)
    rw [first, Option.some.injEq]
    exact decide_eq_true_iff
  · apply List.ext_getElem?
    intro index
    rw [List.getElem?_take, List.getElem?_drop]
    by_cases inside : index < 6
    · rw [if_pos inside, getElem?_getD (by omega)]
      interval_cases index <;> rfl
    · have length : (Packet.ofHeader bytes options).chaddr.toList.length = 6 :=
        Vector.length_toList
      rw [if_neg inside, List.getElem?_eq_none (by omega)]

/-- Bytes that agree at some positions have the same segment there. -/
theorem segment_eq {start count : Nat}
    (agree : ∀ position, start ≤ position → position < start + count →
      other[position]? = bytes[position]?) :
    (other.drop start).take count = (bytes.drop start).take count := by
  apply List.ext_getElem?
  intro index
  rw [List.getElem?_take, List.getElem?_take, List.getElem?_drop, List.getElem?_drop]
  by_cases inside : index < count
  · rw [if_pos inside, if_pos inside, agree _ (by omega) (by omega)]
  · rw [if_neg inside, if_neg inside]

/-- The header is read from the bytes before the host name and the cookie. -/
theorem validHeader_of_agree (valid : ValidHeader bytes)
    (hlen : other[2]? = bytes[2]?)
    (cookie : ∀ position, 236 ≤ position → position < 240 → other[position]? = bytes[position]?) :
    ValidHeader other where
  long := by
    have tagged := congrArg List.length
      ((segment_eq fun position above below => cookie position above below).trans valid.cookie)
    rw [List.length_take, List.length_drop] at tagged
    simp only [RustyDhcp.cookie, List.length_cons, List.length_nil] at tagged
    omega
  hlen := hlen.trans valid.hlen
  cookie := (segment_eq fun position above below => cookie position above below).trans valid.cookie

theorem ofHeader_of_agree (options : List DhcpOption)
    (agree : ∀ position, position < 34 → position ≠ 1 → other[position]? = bytes[position]?) :
    Packet.ofHeader other options = .ofHeader bytes options := by
  have byte : ∀ position, position < 34 → position ≠ 1 →
      other.getD position 0 = bytes.getD position 0 := by
    intro position below used
    rw [List.getD_eq_getElem?_getD, List.getD_eq_getElem?_getD, agree position below used]
  have segment : ∀ start count, 1 < start → start + count ≤ 34 →
      (other.drop start).take count = (bytes.drop start).take count := by
    intro start count above below
    apply segment_eq
    intro position first last
    exact agree position (by omega) (by omega)
  simp only [Packet.ofHeader, byte 0 (by decide) (by decide), byte 3 (by decide) (by decide),
    byte 28 (by decide) (by decide), byte 29 (by decide) (by decide),
    byte 30 (by decide) (by decide), byte 31 (by decide) (by decide),
    byte 32 (by decide) (by decide), byte 33 (by decide) (by decide),
    segment 4 4 (by decide) (by decide), segment 8 2 (by decide) (by decide),
    segment 10 2 (by decide) (by decide), segment 12 4 (by decide) (by decide),
    segment 16 4 (by decide) (by decide), segment 20 4 (by decide) (by decide),
    segment 24 4 (by decide) (by decide)]

/-! ## The options -/

theorem Denotes.unique {code : UInt8} {data : List UInt8} {left right : DhcpOption}
    (first : Denotes code data left) (second : Denotes code data right) : left = right := by
  have decoded := decodeData_of_denotes first
  rw [decodeData_of_denotes second] at decoded
  cases decoded
  rfl

/-- Options are decoded in one way only, and not beyond where the walk ends. -/
theorem prefix_of_reads (reads : List.Forall₂ ReadsAs fields options)
    (ended : rest.head? = some endByte ∨ Stuck rest)
    (otherReads : List.Forall₂ ReadsAs others otherOptions)
    (equal : Field.join 1 fields ++ rest = Field.join 1 others ++ tail) :
    otherOptions <+: options := by
  induction otherReads generalizing fields options with
  | nil => exact List.nil_prefix
  | @cons other otherOption others otherOptions here _ induction =>
      rw [Field.join_cons, List.append_assoc] at equal
      cases reads with
      | nil =>
          rw [Field.join_nil, List.nil_append] at equal
          rcases ended with ends | stuck
          · rw [equal, head?_bytes here.fits] at ends
            exact absurd ends here.notEnd
          · exact absurd equal (stuck.noField _ _ _ here)
      | @cons field option fields options reads moreReads =>
          have front : Field.split 1 (other.bytes 1 ++ (Field.join 1 others ++ tail)) =
              some (other, Field.join 1 others ++ tail) := Field.split_bytes here.fits
          rw [← equal, Field.join_cons, List.append_assoc, Field.split_bytes reads.fits,
            Option.some.injEq, Prod.mk.injEq] at front
          rcases front with ⟨rfl, remaining⟩
          rw [reads.denotes.unique here.denotes, List.prefix_cons_inj]
          exact induction moreReads remaining

theorem ended_of_walk (walk : Walk input rest options) :
    rest.head? = some endByte ∨ Stuck rest := by
  induction walk with
  | stuck stuck => exact .inr stuck
  | last _ ends => exact .inl ends
  | more _ _ _ induction => exact induction

theorem optionArea_of_walk (walk : Walk input rest options) :
    ∃ fields, OptionArea input options fields rest := by
  rcases fields_of_walk walk with ⟨fields, reads, splits⟩
  refine ⟨fields, splits, reads, ended_of_walk walk, ?_⟩
  intro others otherOptions otherReads begins
  rcases begins with ⟨tail, equal⟩
  exact prefix_of_reads reads (ended_of_walk walk) otherReads (splits.symm.trans equal.symm)

/-! ## Whole packets -/

theorem fromBytes_unused (accepted : Packet.fromBytes bytes = .ok packet)
    (agree : ∀ position, position ≠ 1 → ¬(34 ≤ position ∧ position < 236) →
      other[position]? = bytes[position]?) : Packet.fromBytes other = .ok packet := by
  rcases fromBytes_eq_ok_iff.mp accepted with ⟨valid, options, skippable, equal⟩
  have area : other.drop 240 = bytes.drop 240 := by
    apply List.ext_getElem?
    intro index
    rw [List.getElem?_drop, List.getElem?_drop]
    exact agree _ (by omega) (by omega)
  rw [fromBytes_eq_ok_iff, area]
  refine ⟨?_, options, skippable, equal.trans (ofHeader_of_agree options ?_).symm⟩
  · apply validHeader_of_agree valid (agree 2 (by decide) (by decide))
    intro position above _
    exact agree position (by omega) (by omega)
  · intro position below used
    exact agree position used (by omega)

theorem fromBytes_behind_end (accepted : Packet.fromBytes bytes = .ok packet)
    (area : OptionArea (bytes.drop 240) packet.options fields rest)
    (ends : rest.head? = some endByte) (tail : List UInt8) :
    Packet.fromBytes (bytes.take (240 + (Field.join 1 fields).length + 1) ++ tail) =
      .ok packet := by
  rcases fromBytes_eq_ok_iff.mp accepted with ⟨valid, options, ⟨starts, _⟩, rfl⟩
  rcases List.head?_eq_some_iff.mp ends with ⟨behind, rfl⟩
  have more : options ≠ [] := by
    intro none
    subst none
    cases area.reads with
    | nil => exact starts (by rw [area.splits]; rfl)
  have length : (bytes.take 240).length = 240 := by
    have total := congrArg List.length area.splits
    rw [List.length_drop, List.length_append, List.length_cons] at total
    rw [List.length_take]
    omega
  have kept : bytes.take (240 + (Field.join 1 fields).length + 1) ++ tail =
      bytes.take 240 ++ (Field.join 1 fields ++ endByte :: tail) := by
    rw [Nat.add_assoc, List.take_add, area.splits, List.take_length_add_append]
    simp
  have agree : ∀ position, position < 240 →
      (bytes.take 240 ++ (Field.join 1 fields ++ endByte :: tail))[position]? =
        bytes[position]? := by
    intro position below
    rw [List.getElem?_append_left (by omega), List.getElem?_take, if_pos below]
  rw [kept, fromBytes_eq_ok_iff, List.drop_left' length]
  refine ⟨?_, options, ⟨head?_join_append area.reads more, endByte :: tail,
    List.cons_ne_nil _ _, walk_join_end area.reads more rfl⟩, ?_⟩
  · apply validHeader_of_agree valid (agree 2 (by decide))
    intro position _ below
    exact agree position below
  · symm
    apply ofHeader_of_agree
    intro position below _
    exact agree position (by omega)

theorem decoded_of_accepted (accepted : Packet.fromBytes bytes = .ok packet) :
    Decoded bytes packet := by
  rcases fromBytes_eq_ok_iff.mp accepted with ⟨valid, options, ⟨_, rest, _, walk⟩, rfl⟩
  rcases optionArea_of_walk walk with ⟨fields, area⟩
  exact ⟨headerOf_ofHeader valid options,
    ⟨fields, rest, area, fun ends tail => fromBytes_behind_end accepted area ends tail⟩,
    fun other agree => fromBytes_unused accepted agree⟩

/-- A datagram on which the decoder does not panic is refused exactly if it is
malformed, and otherwise decoded as specified. -/
theorem fromBytes_exact (bytes : List UInt8) (returns : ¬(Packet.fromBytes bytes).Panics) :
    ((∃ error, Packet.fromBytes bytes = refuse error) ↔ Malformed bytes) ∧
      (¬Malformed bytes → ∃ packet, Packet.fromBytes bytes = .ok packet ∧
        Decoded bytes packet) := by
  by_cases valid : ValidHeader bytes
  · have found : ∃ options, Skippable (bytes.drop 240) options := by
      by_contra none
      exact returns (fromBytes_panics valid (not_exists.mp none))
    rcases found with ⟨options, skippable⟩
    have accepted := fromBytes_of_skippable valid skippable
    have wellFormed : ¬Malformed bytes := fun malformed => malformed_iff.mp malformed valid
    refine ⟨iff_of_false ?_ wellFormed, fun _ => ⟨_, accepted, decoded_of_accepted accepted⟩⟩
    intro refused
    rcases refused with ⟨error, equal⟩
    rw [accepted] at equal
    cases equal
  · have malformed := malformed_iff.mpr valid
    exact ⟨iff_of_true (fromBytes_of_invalid valid) malformed,
      fun wellFormed => absurd malformed wellFormed⟩

/-- A Discover with a byte behind its END. -/
def trailedDiscover : List UInt8 :=
  [1, 9, 6, 0] ++ List.replicate 232 0 ++ cookie ++ [53, 1, 1, endByte, 7]

set_option maxRecDepth 4000 in
theorem fromBytes_exact_trailed : ∃ packet,
    Packet.fromBytes trailedDiscover = .ok packet ∧ Decoded trailedDiscover packet := by
  have accepted : (Packet.fromBytes trailedDiscover).isOk = true := by decide
  have returns : ¬(Packet.fromBytes trailedDiscover).Panics := by
    intro panics
    rcases panics with ⟨reason, equal⟩
    rw [equal] at accepted
    cases accepted
  apply (fromBytes_exact trailedDiscover returns).2
  rw [malformed_iff, not_not]
  exact ⟨by decide, by decide, by decide⟩

end RustyDhcp

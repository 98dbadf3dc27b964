import RustyDhcp.Dhcpv6.Format

/-! # Which datagrams the DHCPv6 decoder accepts -/

namespace RustyDhcp.Dhcpv6

open Fallible

/-- At least 12 bytes, then complete sub-options, those for addresses of at
least 24 bytes. -/
def ValidIana (data : List UInt8) : Prop :=
  12 ≤ data.length ∧ ∃ subOptions : List Field,
    (∀ field ∈ subOptions, field.Fits 2 ∧ (field.code = 5 → 24 ≤ field.data.length)) ∧
      data.drop 12 = Field.join 2 subOptions

/-- The data of an option is valid for its code. -/
structure ValidOption (field : Field) : Prop where
  fits : field.Fits 2
  iaNa : field.code = 3 → ValidIana field.data
  dnsServers : field.code = 23 → 16 ∣ field.data.length
  statusCode : field.code = 13 →
    2 ≤ field.data.length ∧ ∃ message, asBytes message = field.data.drop 2

structure ValidDatagram (bytes : List UInt8) : Prop where
  header : 4 ≤ bytes.length
  msgType : ∃ value, bytes[0]? = some value ∧ 1 ≤ value.toNat ∧ value.toNat ≤ 13
  options : ∃ fields, (∀ field ∈ fields, ValidOption field) ∧ bytes.drop 4 = Field.join 2 fields

/-- The position is behind the header and between complete options. -/
def Boundary (bytes : List UInt8) (position : Nat) : Prop :=
  ∃ before after, (∀ field ∈ before ++ after, Field.Fits 2 field) ∧
    bytes.drop 4 = Field.join 2 before ++ Field.join 2 after ∧
    position = 4 + (Field.join 2 before).length

def Accepted (bytes : List UInt8) : Prop := ∃ packet, Packet.fromBytes bytes = .ok packet

/-! ## Values exist for valid data -/

theorem MsgType.exists_number_iff {value : UInt8} :
    (∃ msgType : MsgType, value = msgType.number) ↔ 1 ≤ value.toNat ∧ value.toNat ≤ 13 := by
  have numbers : ∀ number : Fin 14, 0 < number.val →
      (fromByte (.ofNat number.val)).toOption.isSome = true := by decide
  constructor
  · intro found
    rcases found with ⟨msgType, rfl⟩
    cases msgType <;> decide
  · intro found
    rcases found with ⟨positive, small⟩
    have known := numbers ⟨value.toNat, by omega⟩ positive
    rw [UInt8.ofNat_toNat] at known
    cases found : fromByte value with
    | error failure =>
        rw [found] at known
        cases known
    | ok msgType => exact ⟨msgType, fromByte_eq_ok_iff.mp found⟩

theorem code_eq_iff {field : Field} (fits : field.Fits 2) (code : U16) :
    BitVec.ofNat 16 field.code = code ↔ field.code = code.toNat := by
  have small : field.code < 2 ^ 16 := fits.code
  rw [← BitVec.toNat_inj, BitVec.toNat_ofNat, Nat.mod_eq_of_lt small]

theorem exists_announces_iff {field : Field} (fits : field.Fits 2) :
    (∃ found, Announces (.ofNat 16 field.code) field.data found) ↔
      (field.code = 5 → 24 ≤ field.data.length) := by
  constructor
  · intro holds isAddress
    rcases holds with ⟨found, announced⟩
    rw [(code_eq_iff fits optIaaddr).mpr isAddress] at announced
    rcases announced.of_address with ⟨ia, extra, body, _⟩
    rw [body, List.length_append, IaAddr.length_body]
    exact Nat.le_add_right _ _
  · intro long
    by_cases isAddress : field.code = 5
    · have announced := Announces.address (.ofBody field.data) (field.data.drop 24)
      rw [IaAddr.body_ofBody (long isAddress)] at announced
      rw [(code_eq_iff fits optIaaddr).mpr isAddress]
      exact ⟨_, announced⟩
    · exact ⟨none, .other (fun equal => isAddress ((code_eq_iff fits optIaaddr).mp equal)) _⟩

theorem validIana_iff {data : List UInt8} :
    ValidIana data ↔ ∃ ia, Denotes optIaNa data (.iaNa ia) := by
  constructor
  · intro found
    rcases found with ⟨long, fields, valid, rest⟩
    have each : ∀ field ∈ fields, ∃ found, Announces (.ofNat 16 field.code) field.data found :=
      fun field member => (exists_announces_iff (valid field member).1).mpr (valid field member).2
    rcases Field.exists_forall₂_iff.mpr each with ⟨found, announced⟩
    have denoted := Denotes.iaNa (.ofHeader data found.reduceOption)
      (fun field member => (valid field member).1) announced rfl
    rw [← rest, IaNa.header_ofHeader long] at denoted
    exact ⟨_, denoted⟩
  · intro found
    rcases found with ⟨ia, denoted⟩
    cases denoted with
    | @iaNa _ fields found fits announced addrs =>
        have rest : (ia.header ++ Field.join 2 fields).drop 12 = Field.join 2 fields := by
          rw [← ia.length_header, List.drop_left]
        have each := Field.exists_forall₂_iff.mp ⟨found, announced⟩
        refine ⟨?_, fields, ?_, rest⟩
        · rw [List.length_append, IaNa.length_header]
          exact Nat.le_add_right _ _
        · intro field member
          have fieldFits := fits field member
          exact ⟨fieldFits, (exists_announces_iff fieldFits).mp (each field member)⟩

theorem validOption_iff {field : Field} (fits : field.Fits 2) :
    ValidOption field ↔ ∃ option, Denotes (.ofNat 16 field.code) field.data option := by
  have code := code_eq_iff fits
  constructor
  · intro valid
    rcases typedCodes_cases (.ofNat 16 field.code) with
      typed | typed | typed | typed | typed | untyped
    · rw [typed]
      exact ⟨_, .clientId _⟩
    · rw [typed]
      exact ⟨_, .serverId _⟩
    · rcases validIana_iff.mp (valid.iaNa ((code _).mp typed)) with ⟨ia, denoted⟩
      rw [typed]
      exact ⟨_, denoted⟩
    · have whole := Nat.mod_eq_zero_of_dvd (valid.dnsServers ((code _).mp typed))
      have denoted := Denotes.dnsServers ((chunksExact 16 field.data).map Ipv6Addr.ofOctets)
      rw [flatMap_octets_chunksExact whole] at denoted
      rw [typed]
      exact ⟨_, denoted⟩
    · rcases valid.statusCode ((code _).mp typed) with ⟨long, message, text⟩
      have status : (field.data.take 2).length = 2 := by
        rw [List.length_take]
        omega
      have denoted := Denotes.statusCode (ofBeBytes 16 (field.data.take 2)) message
      rw [toBeBytes_ofBeBytes rfl status, text, List.take_append_drop] at denoted
      rw [typed]
      exact ⟨_, denoted⟩
    · exact ⟨_, .unrecognized untyped _⟩
  · intro found
    rcases found with ⟨option, denoted⟩
    refine ⟨fits, ?_, ?_, ?_⟩
    · intro typed
      rw [(code optIaNa).mpr typed] at denoted
      generalize field.data = data at denoted
      cases denoted with
      | iaNa ia fits announced addrs =>
          exact validIana_iff.mpr ⟨ia, .iaNa ia fits announced addrs⟩
      | unrecognized untyped => exact absurd (by decide) untyped
    · intro typed
      rw [(code optDnsServers).mpr typed] at denoted
      generalize field.data = data at denoted
      cases denoted with
      | dnsServers addrs =>
          rw [List.flatMap_def, length_flatten_of_sizes (length_of_mem_octets addrs)]
          exact Nat.dvd_mul_left _ _
      | unrecognized untyped => exact absurd (by decide) untyped
    · intro typed
      rw [(code optStatusCode).mpr typed] at denoted
      generalize field.data = data at denoted
      cases denoted with
      | statusCode code message => exact ⟨by simp, message, by simp⟩
      | unrecognized untyped => exact absurd (by decide) untyped

theorem accepted_iff {bytes : List UInt8} : Accepted bytes ↔ ValidDatagram bytes := by
  constructor
  · intro found
    rcases found with ⟨packet, accepted⟩
    rcases fromBytes_eq_ok_iff.mp accepted with ⟨_, fields, fits, denoted, rfl⟩
    have each := Field.exists_forall₂_iff.mp ⟨_, denoted⟩
    have known := MsgType.exists_number_iff.mp ⟨packet.msgType, rfl⟩
    refine ⟨?_, ⟨packet.msgType.number, rfl, known⟩, fields, ?_, rfl⟩
    · rw [List.length_append]
      exact Nat.le_add_right 4 _
    · intro field member
      exact (validOption_iff (fits field member)).mpr (each field member)
  · intro holds
    rcases holds with ⟨long, ⟨value, found, small⟩, fields, valid, rest⟩
    rcases exists_header (Nat.not_lt.mpr long) with ⟨first, high, middle, low, remaining, rfl⟩
    cases found
    rcases MsgType.exists_number_iff.mpr small with ⟨msgType, number⟩
    have each : ∀ field ∈ fields, ∃ option, Denotes (.ofNat 16 field.code) field.data option :=
      fun field member => (validOption_iff (valid field member).fits).mp (valid field member)
    rcases Field.exists_forall₂_iff.mpr each with ⟨options, denoted⟩
    have header : Packet.header ⟨msgType, transactionIdOf high middle low, options⟩ =
        [value, high, middle, low] ∧ (transactionIdOf high middle low).toNat < 2 ^ 24 :=
      header_eq_iff.mpr ⟨number, rfl⟩
    refine ⟨⟨msgType, transactionIdOf high middle low, options⟩, fromBytes_eq_ok_iff.mpr
      ⟨header.2, fields, fun field member => (valid field member).fits, denoted, ?_⟩⟩
    rw [header.1, ← rest]
    rfl

/-! ## Truncated datagrams -/

theorem accepted_take_iff {bytes : List UInt8} (valid : ValidDatagram bytes) {position : Nat}
    (inside : position ≤ bytes.length) :
    ValidDatagram (bytes.take position) ↔ 4 ≤ position ∧ Boundary bytes position := by
  rcases valid with ⟨long, ⟨value, found, known⟩, fields, valid, rest⟩
  have fits : ∀ field ∈ fields, field.Fits 2 := fun field member => (valid field member).fits
  have length : (bytes.take position).length = position := List.length_take_of_le inside
  have split : bytes.drop 4 =
      (bytes.take position).drop 4 ++ (bytes.drop 4).drop (position - 4) := by
    rw [List.drop_take, List.take_append_drop]
  constructor
  · intro truncated
    have header := truncated.header
    rcases truncated.options with ⟨before, beforeValid, beforeRest⟩
    have beforeFits : ∀ field ∈ before, field.Fits 2 :=
      fun field member => (beforeValid field member).fits
    rw [length] at header
    have count : position = 4 + (Field.join 2 before).length := by
      rw [← beforeRest, List.length_drop, length]
      omega
    rw [beforeRest, rest] at split
    rcases Field.prefix_of_join_eq fits beforeFits Nat.two_pos split with ⟨after, rfl⟩
    refine ⟨header, before, after, fits, ?_, count⟩
    rw [rest, Field.join_append]
  · intro found
    rcases found with ⟨header, before, after, allFit, options, count⟩
    have equal := options
    rw [rest] at equal
    have beforeFits : ∀ field ∈ before, field.Fits 2 :=
      fun field member => allFit field (List.mem_append_left _ member)
    rcases Field.prefix_of_join_eq fits beforeFits Nat.two_pos equal with ⟨others, rfl⟩
    refine ⟨by omega, ⟨value, ?_, known⟩, before, ?_, ?_⟩
    · rw [List.getElem?_take_of_lt (by omega), found]
    · exact fun field member => valid field (List.mem_append_left _ member)
    · rw [List.drop_take, options, count, Nat.add_sub_cancel_left, List.take_left]

/-- Decoding always ends without a panic, accepts exactly the valid datagrams and
of an accepted datagram no truncation but the ones between its options. -/
theorem fromBytes_strict (bytes : List UInt8) :
    (Packet.fromBytes bytes).Returns ∧ (Accepted bytes ↔ ValidDatagram bytes) ∧
      (Accepted bytes → ∀ position ≤ bytes.length,
        (Accepted (bytes.take position) ↔ 4 ≤ position ∧ Boundary bytes position)) := by
  refine ⟨fromBytes_returns bytes, accepted_iff, ?_⟩
  intro accepted position inside
  rw [accepted_iff]
  exact accepted_take_iff (accepted_iff.mp accepted) inside

end RustyDhcp.Dhcpv6

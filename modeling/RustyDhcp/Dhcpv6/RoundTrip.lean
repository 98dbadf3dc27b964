import RustyDhcp.Dhcpv6.Format

/-! # Reading what was written and writing what was read -/

namespace RustyDhcp.Dhcpv6

open Fallible

/-! ## What the encoder writes -/

/-- The option as the field that is written for it. -/
def Dhcpv6Option.field (option : Dhcpv6Option) : Field := ⟨option.code.toNat, option.toRaw.data⟩

@[simp] theorem Dhcpv6Option.field_data (option : Dhcpv6Option) :
    option.field.data = option.toRaw.data := rfl

/-- The sub-option as the field that is written for it. -/
def IaAddr.field (ia : IaAddr) : Field := ⟨5, ia.body⟩

@[simp] theorem IaAddr.length_field_data (ia : IaAddr) : ia.field.data.length = 24 :=
  ia.length_body

theorem IaAddr.subOption_eq (ia : IaAddr) : ia.subOption = ia.field.bytes 2 := by
  rw [subOption, Field.bytes, field, length_body, body]
  simp only [List.append_assoc]
  rfl

/-- The record is written at the right offsets. -/
theorem IaAddr.writeSub_eq (ia : IaAddr) : ia.writeSub = .ok ia.subOption := by
  have octets : ia.addr.octets.length = 16 := length_toBeBytes _
  have preferred : (toBeBytes ia.preferred).length = 4 := length_toBeBytes _
  have valid : (toBeBytes ia.valid).length = 4 := length_toBeBytes _
  rw [writeSub, Checked.copyInto_front (by rfl) (by decide), Checked.bind_ok,
    Checked.copyInto_drop (by rfl) (by rfl) (by decide), Checked.bind_ok,
    Checked.copyInto_drop (by rfl) (by rw [octets]) (by decide), Checked.bind_ok,
    Checked.copyInto_drop (by rw [List.length_append, octets]; rfl) (by rw [preferred])
      (by decide), Checked.bind_ok,
    Checked.copyInto_drop (by simp only [List.length_append, octets, preferred]; rfl)
      (by rw [valid]) (by decide), subOption]
  exact congrArg Except.ok (List.append_nil _)

theorem writeSubs_eq (addrs : List IaAddr) (out : List UInt8) :
    writeSubs addrs out = .ok (out ++ Field.join 2 (addrs.map IaAddr.field)) := by
  induction addrs generalizing out with
  | nil => rw [writeSubs, List.map_nil, Field.join_nil, List.append_nil]
  | cons ia addrs induction =>
      rw [writeSubs, IaAddr.writeSub_eq, Checked.bind_ok, induction, List.map_cons,
        Field.join_cons, IaAddr.subOption_eq, List.append_assoc]

theorem foldl_subOption (addrs : List IaAddr) (out : List UInt8) :
    addrs.foldl (fun out addr => out ++ addr.subOption) out =
      out ++ Field.join 2 (addrs.map IaAddr.field) := by
  have each : IaAddr.subOption = fun ia => ia.field.bytes 2 := funext IaAddr.subOption_eq
  rw [List.foldl_append_eq_append, ← List.flatMap_def, Field.join, List.flatMap_map, each]

theorem toRaw_iaNa (ia : IaNa) :
    (Dhcpv6Option.iaNa ia).toRaw.data = ia.header ++ Field.join 2 (ia.addrs.map IaAddr.field) :=
  foldl_subOption ia.addrs ia.header

theorem toRaw_dnsServers (addrs : List Ipv6Addr) :
    (Dhcpv6Option.dnsServers addrs).toRaw.data = addrs.flatMap Ipv6Addr.octets :=
  List.foldl_append_eq_append

theorem length_join_addrs (addrs : List IaAddr) :
    (Field.join 2 (addrs.map IaAddr.field)).length = addrs.length * 28 := by
  induction addrs with
  | nil => rfl
  | cons ia addrs induction =>
      rw [List.map_cons, Field.join_cons, List.length_append, induction, Field.length_bytes,
        IaAddr.length_field_data, List.length_cons]
      omega

theorem wireLen_eq (option : Dhcpv6Option) : option.wireLen = 4 + option.toRaw.data.length := by
  cases option with
  | clientId duid => rfl
  | serverId duid => rfl
  | iaNa ia =>
      rw [toRaw_iaNa, List.length_append, IaNa.length_header, length_join_addrs]
      rfl
  | dnsServers addrs =>
      rw [toRaw_dnsServers, List.flatMap_def, length_flatten_of_sizes (length_of_mem_octets addrs),
        List.length_map]
      rfl
  | statusCode code message =>
      rw [Dhcpv6Option.toRaw, List.length_append, length_toBeBytes]
      rfl
  | unrecognized raw => rfl

theorem writeData_eq (option : Dhcpv6Option) (out : List UInt8) :
    option.writeData out = .ok (out ++ option.toRaw.data) := by
  cases option with
  | clientId duid => rfl
  | serverId duid => rfl
  | iaNa ia =>
      rw [toRaw_iaNa, Dhcpv6Option.writeData, writeSubs_eq, IaNa.header]
      simp only [List.append_assoc]
  | dnsServers addrs =>
      rw [toRaw_dnsServers, Dhcpv6Option.writeData, List.foldl_append_eq_append, List.flatMap_def]
  | statusCode code message =>
      exact congrArg Except.ok (List.append_assoc out (toBeBytes code) (asBytes message))
  | unrecognized raw => rfl

theorem encodeInto_eq (option : Dhcpv6Option) (out : List UInt8) : option.encodeInto out =
    if 0xFFFF < option.toRaw.data.length then .ok (.error .optionTooLarge, out)
    else .ok (.ok (), out ++ option.field.bytes 2) := by
  rw [Dhcpv6Option.encodeInto, wireLen_eq, Nat.add_sub_cancel_left]
  by_cases large : 0xFFFF < option.toRaw.data.length
  · rw [if_pos large, if_pos large]
  · have length : toBeBytes (BitVec.ofNat 16 option.toRaw.data.length) =
        bigEndian 2 option.toRaw.data.length := by
      rw [toBeBytes, BitVec.toNat_ofNat, Nat.mod_eq_of_lt (by omega)]
    rw [if_neg large, if_neg large]
    simp only [writeData_eq, length, List.append_assoc, Checked.bind_ok]
    rfl

/-- Every option of the packet can be written. -/
def Encodable (packet : Packet) : Prop :=
  ∀ option ∈ packet.options, option.toRaw.data.length ≤ 0xFFFF

theorem encodeOptions_eq_ok_iff {options : List Dhcpv6Option} {out bytes : List UInt8} :
    encodeOptions options out = .ok bytes ↔
      (∀ option ∈ options, option.toRaw.data.length ≤ 0xFFFF) ∧
        bytes = out ++ Field.join 2 (options.map Dhcpv6Option.field) := by
  induction options generalizing out with
  | nil => simp [encodeOptions, eq_comm]
  | cons option options induction =>
      rw [encodeOptions, encodeInto_eq, List.forall_mem_cons, List.map_cons, Field.join_cons]
      by_cases large : 0xFFFF < option.toRaw.data.length
      · rw [if_pos large]
        constructor
        · intro written
          cases written
        · intro small
          omega
      · rw [if_neg large, ← List.append_assoc]
        apply induction.trans
        constructor
        · exact fun written => ⟨⟨Nat.not_lt.mp large, written.1⟩, written.2⟩
        · exact fun written => ⟨written.1.2, written.2⟩

theorem encode_eq_ok_iff {packet : Packet} {bytes : List UInt8} : packet.encode = .ok bytes ↔
    Encodable packet ∧
      bytes = packet.header ++ Field.join 2 (packet.options.map Dhcpv6Option.field) :=
  encodeOptions_eq_ok_iff

/-! ## What is written denotes the same options -/

theorem announcesAll_fields (addrs : List IaAddr) :
    AnnouncesAll (addrs.map IaAddr.field) (addrs.map some) := by
  rw [AnnouncesAll, List.forall₂_map_left_iff, List.forall₂_map_right_iff, List.forall₂_same]
  intro ia _
  have announced := Announces.address ia []
  rw [List.append_nil] at announced
  exact announced

theorem fits_addrs (addrs : List IaAddr) : ∀ field ∈ addrs.map IaAddr.field, field.Fits 2 := by
  intro field member
  rcases List.mem_map.mp member with ⟨ia, _, rfl⟩
  refine ⟨show 5 < 256 ^ 2 by decide, ?_⟩
  rw [IaAddr.length_field_data]
  decide

/-- The options that are no stand-in for one that the decoder gives a type. -/
def Dhcpv6Option.Typed : Dhcpv6Option → Prop
  | .unrecognized raw => raw.code ∉ typedCodes
  | _ => True

theorem denotes_toRaw {option : Dhcpv6Option} (typed : option.Typed) :
    Denotes option.code option.toRaw.data option := by
  cases option with
  | clientId duid => exact .clientId duid
  | serverId duid => exact .serverId duid
  | iaNa ia =>
      rw [toRaw_iaNa]
      apply Denotes.iaNa ia (fits_addrs ia.addrs) (announcesAll_fields ia.addrs)
      rw [List.reduceOption, List.filterMap_map]
      exact List.filterMap_some.symm
  | dnsServers addrs =>
      rw [toRaw_dnsServers]
      exact .dnsServers addrs
  | statusCode code message => exact .statusCode code message
  | unrecognized raw => exact .unrecognized typed raw.data

theorem Denotes.code_eq {code : U16} {data : List UInt8} {option : Dhcpv6Option}
    (denoted : Denotes code data option) : option.code = code := by
  cases denoted <;> rfl

theorem Denotes.typed {code : U16} {data : List UInt8} {option : Dhcpv6Option}
    (denoted : Denotes code data option) : option.Typed := by
  cases denoted with
  | unrecognized untyped => exact untyped
  | _ => trivial

/-- The sub-options that are written take no more room than the ones read. -/
theorem length_written_addrs {fields : List Field} {found : List (Option IaAddr)}
    (announced : AnnouncesAll fields found) :
    (Field.join 2 (found.reduceOption.map IaAddr.field)).length ≤ (Field.join 2 fields).length := by
  induction announced with
  | nil => exact Nat.le_refl _
  | @cons field found fields others here _ induction =>
      rw [Field.join_cons, List.length_append, Field.length_bytes]
      generalize field.data = data at here ⊢
      generalize BitVec.ofNat 16 field.code = code at here
      cases here with
      | address ia extra =>
          rw [List.reduceOption_cons_of_some, List.map_cons, Field.join_cons, List.length_append,
            Field.length_bytes, IaAddr.length_field_data, List.length_append, IaAddr.length_body]
          omega
      | other different =>
          rw [List.reduceOption_cons_of_none]
          omega

/-- Every sub-option is an address and nothing else. -/
def PlainAddresses (fields : List Field) : Prop :=
  ∀ field ∈ fields, field.code = 5 ∧ field.data.length = 24

theorem written_addrs_eq {fields : List Field} {found : List (Option IaAddr)}
    (announced : AnnouncesAll fields found) (plain : PlainAddresses fields) :
    found.reduceOption.map IaAddr.field = fields := by
  induction announced with
  | nil => rfl
  | @cons field found fields others here _ induction =>
      rcases List.forall_mem_cons.mp plain with ⟨⟨isAddress, exact⟩, rest⟩
      rw [isAddress] at here
      rcases Announces.of_address here with ⟨ia, extra, body, rfl⟩
      have none : extra = [] := by
        rw [body, List.length_append, IaAddr.length_body] at exact
        exact List.length_eq_zero_iff.mp (by omega)
      rw [none, List.append_nil] at body
      have same : ia.field = field := by rw [IaAddr.field, ← body, ← isAddress]
      rw [List.reduceOption_cons_of_some, List.map_cons, induction rest, same]

theorem Denotes.length_le {code : U16} {data : List UInt8} {option : Dhcpv6Option}
    (denoted : Denotes code data option) : option.toRaw.data.length ≤ data.length := by
  cases denoted with
  | iaNa ia fits announced addrs =>
      have shorter := length_written_addrs announced
      rw [toRaw_iaNa, addrs, List.length_append, List.length_append]
      omega
  | dnsServers addrs => exact Nat.le_of_eq (congrArg List.length (toRaw_dnsServers addrs))
  | _ => exact Nat.le_refl _

/-- An IA_NA among the data has only plain addresses for sub-options. -/
def PlainData (code : Nat) (data : List UInt8) : Prop :=
  code = 3 → ∀ subOptions : List Field, (∀ field ∈ subOptions, field.Fits 2) →
    data.drop 12 = Field.join 2 subOptions → PlainAddresses subOptions

theorem Denotes.data_eq {code : U16} {data : List UInt8} {option : Dhcpv6Option}
    (denoted : Denotes code data option) (plain : PlainData code.toNat data) :
    option.toRaw.data = data := by
  cases denoted with
  | @iaNa ia fields found fits announced addrs =>
      have rest : (ia.header ++ Field.join 2 fields).drop 12 = Field.join 2 fields := by
        rw [← ia.length_header, List.drop_left]
      have addresses := written_addrs_eq announced (plain rfl fields fits rest)
      rw [toRaw_iaNa, addrs, addresses]
  | dnsServers addrs => rw [toRaw_dnsServers]
  | _ => rfl

/-! ## The fields of a whole packet -/

variable {fields : List Field} {options : List Dhcpv6Option}

theorem fits_written {option : Dhcpv6Option} (small : option.toRaw.data.length ≤ 0xFFFF) :
    option.field.Fits 2 := by
  refine ⟨option.code.isLt, ?_⟩
  exact Nat.lt_of_le_of_lt small (by decide)

theorem denotesAll_written (typed : ∀ option ∈ options, option.Typed) :
    DenotesAll (options.map Dhcpv6Option.field) options := by
  rw [DenotesAll, List.forall₂_map_left_iff, List.forall₂_same]
  intro option member
  have denoted := denotes_toRaw (typed option member)
  rw [Dhcpv6Option.field, BitVec.ofNat_toNat, BitVec.setWidth_eq]
  exact denoted

theorem DenotesAll.typed (denoted : DenotesAll fields options) :
    ∀ option ∈ options, option.Typed := by
  induction denoted with
  | nil => simp
  | cons here _ induction => exact List.forall_mem_cons.mpr ⟨here.typed, induction⟩

theorem DenotesAll.small (denoted : DenotesAll fields options)
    (fits : ∀ field ∈ fields, field.Fits 2) :
    ∀ option ∈ options, option.toRaw.data.length ≤ 0xFFFF := by
  induction denoted with
  | nil => simp
  | cons here _ induction =>
      rcases List.forall_mem_cons.mp fits with ⟨first, rest⟩
      have shorter := here.length_le
      have small : _ < 65536 := first.length
      exact List.forall_mem_cons.mpr ⟨by omega, induction rest⟩

theorem DenotesAll.length_le (denoted : DenotesAll fields options) :
    (Field.join 2 (options.map Dhcpv6Option.field)).length ≤ (Field.join 2 fields).length := by
  induction denoted with
  | nil => exact Nat.le_refl _
  | cons here _ induction =>
      have shorter := here.length_le
      rw [List.map_cons, Field.join_cons, Field.join_cons, List.length_append, List.length_append,
        Field.length_bytes, Field.length_bytes, Dhcpv6Option.field_data]
      omega

theorem DenotesAll.fields_eq (denoted : DenotesAll fields options)
    (fits : ∀ field ∈ fields, field.Fits 2)
    (plain : ∀ field ∈ fields, PlainData field.code field.data) :
    options.map Dhcpv6Option.field = fields := by
  induction denoted with
  | nil => rfl
  | @cons field option fields options here _ induction =>
      rcases List.forall_mem_cons.mp fits with ⟨first, rest⟩
      rcases List.forall_mem_cons.mp plain with ⟨firstPlain, restPlain⟩
      have small : field.code < 2 ^ 16 := first.code
      have code : (BitVec.ofNat 16 field.code).toNat = field.code := by
        rw [BitVec.toNat_ofNat, Nat.mod_eq_of_lt small]
      have same : option.field = field := by
        rw [Dhcpv6Option.field, here.code_eq, code, here.data_eq (by rw [code]; exact firstPlain)]
      rw [List.map_cons, same, induction rest restPlain]

/-! ## Both ways -/

theorem encodable_iff {packet : Packet} :
    (∃ bytes, packet.encode = .ok bytes) ↔ Encodable packet := by
  constructor
  · intro found
    rcases found with ⟨bytes, written⟩
    exact (encode_eq_ok_iff.mp written).1
  · intro small
    exact ⟨_, encode_eq_ok_iff.mpr ⟨small, rfl⟩⟩

theorem fromBytes_encode {packet : Packet} {bytes : List UInt8}
    (small : packet.transactionId.toNat < 2 ^ 24) (typed : ∀ option ∈ packet.options, option.Typed)
    (written : packet.encode = .ok bytes) : Packet.fromBytes bytes = .ok packet := by
  rcases encode_eq_ok_iff.mp written with ⟨encodable, rfl⟩
  refine fromBytes_eq_ok_iff.mpr ⟨small, _, ?_, denotesAll_written typed, rfl⟩
  intro field member
  rcases List.mem_map.mp member with ⟨option, here, rfl⟩
  exact fits_written (encodable option here)

/-- Every IA_NA of the datagram has only plain addresses for sub-options. -/
def PlainDatagram (bytes : List UInt8) : Prop :=
  ∀ fields : List Field, (∀ field ∈ fields, field.Fits 2) → bytes.drop 4 = Field.join 2 fields →
    ∀ field ∈ fields, PlainData field.code field.data

theorem encode_fromBytes {packet : Packet} {bytes : List UInt8}
    (read : Packet.fromBytes bytes = .ok packet) :
    ∃ written, packet.encode = .ok written ∧ written.length ≤ bytes.length ∧
      (PlainDatagram bytes → written = bytes) := by
  rcases fromBytes_eq_ok_iff.mp read with ⟨_, fields, fits, denoted, rfl⟩
  refine ⟨_, encode_eq_ok_iff.mpr ⟨denoted.small fits, rfl⟩, ?_, ?_⟩
  · rw [List.length_append, List.length_append]
    exact Nat.add_le_add_left denoted.length_le _
  · intro plain
    rw [denoted.fields_eq fits (plain fields fits rfl)]

/-- What is written reads back as the same packet, and what is read is written
in no more bytes, in the same ones if there is nothing that the decoder drops. -/
theorem codec_roundTrip :
    (∀ packet : Packet, packet.transactionId.toNat < 2 ^ 24 →
      (∀ option ∈ packet.options, option.Typed) →
        ((∃ bytes, packet.encode = .ok bytes) ↔ Encodable packet) ∧
          ∀ bytes, packet.encode = .ok bytes → Packet.fromBytes bytes = .ok packet) ∧
    ∀ bytes packet, Packet.fromBytes bytes = .ok packet →
      ∃ written, packet.encode = .ok written ∧ written.length ≤ bytes.length ∧
        Packet.fromBytes written = .ok packet ∧ (PlainDatagram bytes → written = bytes) := by
  constructor
  · intro packet small typed
    exact ⟨encodable_iff, fun bytes => fromBytes_encode small typed⟩
  · intro bytes packet read
    rcases encode_fromBytes read with ⟨written, encoded, shorter, same⟩
    rcases fromBytes_eq_ok_iff.mp read with ⟨small, fields, _, denoted, _⟩
    exact ⟨written, encoded, shorter, fromBytes_encode small denoted.typed encoded, same⟩

/-- A sub-option that is no address is read and then left out. -/
example :
    Packet.fromBytes [1, 0, 0, 7, 0, 3, 0, 17, 0, 0, 0, 1, 0, 0, 0, 2, 0, 0, 0, 3, 0, 9, 0, 1, 42] =
      .ok ⟨.solicit, 7, [.iaNa ⟨1, 2, 3, []⟩]⟩ ∧
    Packet.encode ⟨.solicit, 7, [.iaNa ⟨1, 2, 3, []⟩]⟩ =
      .ok [1, 0, 0, 7, 0, 3, 0, 12, 0, 0, 0, 1, 0, 0, 0, 2, 0, 0, 0, 3] := by decide

end RustyDhcp.Dhcpv6

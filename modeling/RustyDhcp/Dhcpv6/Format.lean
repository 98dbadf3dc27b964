import RustyDhcp.Dhcpv6.Codec

/-! # The format of a DHCPv6 datagram

Which data an option has on the wire, and that the decoder reads exactly this
format. -/

namespace RustyDhcp.Dhcpv6

open Fallible

/-! ## The header -/

theorem toNat_transactionIdOf (high middle low : UInt8) :
    (transactionIdOf high middle low).toNat =
      high.toNat * 65536 + middle.toNat * 256 + low.toNat := by
  have highSmall := high.toNat_lt
  have middleSmall := middle.toNat_lt
  have lowSmall := low.toNat_lt
  have highShifted : high.toNat <<< 16 = high.toNat * 65536 := Nat.shiftLeft_eq _ _
  have middleShifted : middle.toNat <<< 8 = middle.toNat * 256 := Nat.shiftLeft_eq _ _
  simp only [transactionIdOf, BitVec.toNat_or, BitVec.toNat_shiftLeft, BitVec.toNat_setWidth,
    UInt8.toNat_toBitVec]
  rw [Nat.mod_eq_of_lt (show high.toNat < 2 ^ 32 by omega),
    Nat.mod_eq_of_lt (show middle.toNat < 2 ^ 32 by omega),
    Nat.mod_eq_of_lt (show low.toNat < 2 ^ 32 by omega),
    Nat.mod_eq_of_lt (show high.toNat <<< 16 < 2 ^ 32 by omega),
    Nat.mod_eq_of_lt (show middle.toNat <<< 8 < 2 ^ 32 by omega), Nat.or_assoc,
    ← Nat.shiftLeft_add_eq_or_of_lt (show low.toNat < 2 ^ 8 by omega),
    ← Nat.shiftLeft_add_eq_or_of_lt (show middle.toNat <<< 8 + low.toNat < 2 ^ 16 by omega)]
  omega

theorem toNat_low24 (value : U32) : (value &&& 0xFFFFFF).toNat = value.toNat % 2 ^ 24 := by
  have mask : (0xFFFFFF : U32).toNat = 2 ^ 24 - 1 := rfl
  rw [BitVec.toNat_and, mask, Nat.and_two_pow_sub_one_eq_mod]

theorem MsgType.fromByte_eq_ok_iff {value : UInt8} {msgType : MsgType} :
    fromByte value = .ok msgType ↔ value = msgType.number := by
  constructor
  · intro found
    unfold fromByte at found
    split at found <;> cases found <;> rfl
  · intro equal
    subst equal
    cases msgType <;> rfl

theorem MsgType.fromByte_returns (value : UInt8) : (fromByte value).Returns := by
  unfold fromByte
  split
  case h_14 => exact returns_refuse _
  all_goals exact returns_ok _

/-- The datagrams that begin with the header of a packet. -/
theorem header_eq_iff {packet : Packet} {value high middle low : UInt8} :
    packet.header = [value, high, middle, low] ∧ packet.transactionId.toNat < 2 ^ 24 ↔
      value = packet.msgType.number ∧
        packet.transactionId = transactionIdOf high middle low := by
  have highSmall := high.toNat_lt
  have middleSmall := middle.toNat_lt
  have lowSmall := low.toNat_lt
  have joined := toNat_transactionIdOf high middle low
  simp only [Packet.header, List.cons.injEq, and_true, ← UInt8.toNat_inj, ← BitVec.toNat_inj,
    toNat_lowByte, toNat_low8 (show 8 ≤ 32 by decide), toNat_low24, Nat.mod_mod,
    BitVec.toNat_ushiftRight, Nat.shiftRight_eq_div_pow, joined]
  omega

/-! ## Sub-options of an IA_NA -/

variable {code : U16} {data : List UInt8}

/-- Splitting off an option, without the panics that its reads could raise. -/
theorem splitOption_eq (short : DecodeError) (input : List UInt8) :
    splitOption short input = match Field.split 2 input with
      | none => refuse short
      | some (field, rest) => .ok ((.ofNat 16 field.code, field.data), rest) := by
  have length : ofBigEndian ((input.drop 2).take 2) % 65536 =
      ofBigEndian ((input.drop 2).take 2) := by
    apply Nat.mod_eq_of_lt
    exact Nat.lt_of_lt_of_le (ofBigEndian_lt _)
      (Nat.pow_le_pow_right (Nat.succ_pos 255) (List.length_take_le 2 _))
  rw [splitOption, Field.split]
  by_cases header : 4 ≤ input.length
  · rw [if_neg (by omega), Checked.readBe_eq_ok (by omega), Checked.readBe_eq_ok (by omega),
      Checked.sub_eq_ok header]
    simp only [pure_eq_ok, bind_ok, lift_ok, ofBeBytes, List.drop_zero, BitVec.toNat_ofNat]
    rw [length, List.length_drop]
    by_cases complete : ofBigEndian ((input.drop 2).take 2) ≤ input.length - 4
    · rw [if_neg (by omega), if_pos ⟨header, complete⟩, Checked.slice_eq_ok (by omega) (by omega),
        Checked.slice_length (by omega), Nat.add_sub_cancel_left, ← List.drop_drop]
      rfl
    · rw [if_pos (by omega), if_neg (fun both => complete both.2)]
      rfl
  · rw [if_pos (by omega), if_neg (fun both => header both.1)]
    rfl

/-- Options and sub-options are fields whose code and length take two bytes. -/
theorem splitOption_bind (short : DecodeError) (read : U16 → List UInt8 → Fallible DecodeError α) :
    (fun input => do
      let ((code, data), rest) ← splitOption short input
      return (rest, ← read code data)) =
    Field.reader 2 short fun field => read (.ofNat 16 field.code) field.data := by
  funext input
  rw [splitOption_eq, Field.reader]
  cases Field.split 2 input with
  | none => rfl
  | some pair => rfl

/-- What the body of a sub-option for an address begins with. -/
def IaAddr.body (ia : IaAddr) : List UInt8 :=
  ia.addr.octets ++ toBeBytes ia.preferred ++ toBeBytes ia.valid

/-- The address that a sub-option with this code and body announces. -/
inductive Announces : U16 → List UInt8 → Option IaAddr → Prop where
  | address (ia : IaAddr) (extra : List UInt8) :
      Announces optIaaddr (ia.body ++ extra) (some ia)
  | other {code : U16} (different : code ≠ optIaaddr) (body : List UInt8) : Announces code body none

@[simp] theorem IaAddr.length_body (ia : IaAddr) : ia.body.length = 24 := by
  simp [IaAddr.body, Ipv6Addr.octets]

theorem Announces.of_address {body : List UInt8} {found : Option IaAddr}
    (announced : Announces optIaaddr body found) :
    ∃ ia extra, body = ia.body ++ extra ∧ found = some ia := by
  cases announced with
  | address ia extra => exact ⟨ia, extra, rfl, rfl⟩
  | other different => exact absurd rfl different

/-- The address in the first 24 bytes of a body. -/
def IaAddr.ofBody (body : List UInt8) : IaAddr where
  addr := .ofOctets (body.take 16)
  preferred := ofBeBytes 32 ((body.drop 16).take 4)
  valid := ofBeBytes 32 ((body.drop 20).take 4)

theorem decodeSubOption_eq (code : U16) (body : List UInt8) : decodeSubOption code body =
    if code = optIaaddr then
      if body.length < 24 then refuse .malformed else .ok (some (.ofBody body))
    else .ok none := by
  rw [decodeSubOption]
  by_cases long : body.length < 24
  · simp only [long, ↓reduceIte, bind_refuse, pure_eq_ok]
  · rw [if_neg long, Checked.slice_eq_ok (by omega) (by omega), Checked.readBe_eq_ok (by omega),
      Checked.readBe_eq_ok (by omega)]
    simp only [long, ↓reduceIte, pure_eq_ok, bind_ok, lift_ok]
    rfl

theorem IaAddr.ofBody_body (ia : IaAddr) (extra : List UInt8) : ofBody (ia.body ++ extra) = ia := by
  have addr : (ia.body ++ extra).take 16 = ia.addr.octets := by
    simp [body, Ipv6Addr.octets]
  have preferred : ((ia.body ++ extra).drop 16).take 4 = toBeBytes ia.preferred := by
    simp [body, Ipv6Addr.octets]
  have valid : ((ia.body ++ extra).drop 20).take 4 = toBeBytes ia.valid := by
    rw [show 20 = 16 + 4 from rfl, ← List.drop_drop]
    simp [body, Ipv6Addr.octets]
  rw [ofBody, addr, preferred, valid, Ipv6Addr.ofOctets, Ipv6Addr.octets, ofBeBytes_toBeBytes rfl,
    ofBeBytes_toBeBytes rfl, ofBeBytes_toBeBytes rfl]

theorem IaAddr.body_ofBody {body : List UInt8} (long : 24 ≤ body.length) :
    (ofBody body).body ++ body.drop 24 = body := by
  have addr : (body.take 16).length = 16 := by
    rw [List.length_take]
    omega
  have preferred : ((body.drop 16).take 4).length = 4 := by
    rw [List.length_take, List.length_drop]
    omega
  have valid : ((body.drop 20).take 4).length = 4 := by
    rw [List.length_take, List.length_drop]
    omega
  rw [IaAddr.body, ofBody, Ipv6Addr.octets, Ipv6Addr.ofOctets, toBeBytes_ofBeBytes rfl addr,
    toBeBytes_ofBeBytes rfl preferred, toBeBytes_ofBeBytes rfl valid, List.append_assoc,
    List.append_assoc, show 24 = 20 + 4 from rfl, ← List.drop_drop, List.take_append_drop,
    show 20 = 16 + 4 from rfl, ← List.drop_drop, List.take_append_drop, List.take_append_drop]

theorem decodeSubOption_eq_ok_iff {body : List UInt8} {found : Option IaAddr} :
    decodeSubOption code body = .ok found ↔ Announces code body found := by
  rw [decodeSubOption_eq]
  constructor
  · intro accepted
    split at accepted
    · rename_i isAddress
      subst isAddress
      split at accepted
      · cases accepted
      · rename_i long
        cases accepted
        have announced := Announces.address (.ofBody body) (body.drop 24)
        rw [IaAddr.body_ofBody (by omega)] at announced
        exact announced
    · rename_i different
      cases accepted
      exact .other different body
  · intro announced
    cases announced with
    | address ia extra =>
        have long : ¬(ia.body ++ extra).length < 24 := by
          rw [List.length_append, IaAddr.length_body]
          omega
        rw [if_pos rfl, if_neg long, IaAddr.ofBody_body]
    | other different => rw [if_neg different]

theorem decodeSubOption_returns (code : U16) (body : List UInt8) :
    (decodeSubOption code body).Returns := by
  rw [decodeSubOption_eq]
  split
  · split
    · exact returns_refuse _
    · exact returns_ok _
  · exact returns_ok _

/-! ## IA_NA -/

/-- What the data of an IA_NA begins with. -/
def IaNa.header (ia : IaNa) : List UInt8 := toBeBytes ia.iaid ++ toBeBytes ia.t1 ++ toBeBytes ia.t2

/-- The IA_NA whose header is the first 12 bytes of the data. -/
def IaNa.ofHeader (data : List UInt8) (addrs : List IaAddr) : IaNa where
  iaid := ofBeBytes 32 (data.take 4)
  t1 := ofBeBytes 32 ((data.drop 4).take 4)
  t2 := ofBeBytes 32 ((data.drop 8).take 4)
  addrs := addrs

@[simp] theorem IaNa.length_header (ia : IaNa) : ia.header.length = 12 := by simp [IaNa.header]

theorem IaNa.ofHeader_header (ia : IaNa) (rest : List UInt8) :
    ofHeader (ia.header ++ rest) ia.addrs = ia := by
  have iaid : (ia.header ++ rest).take 4 = toBeBytes ia.iaid := by
    simp [header]
  have t1 : ((ia.header ++ rest).drop 4).take 4 = toBeBytes ia.t1 := by
    simp [header]
  have t2 : ((ia.header ++ rest).drop 8).take 4 = toBeBytes ia.t2 := by
    rw [show 8 = 4 + 4 from rfl, ← List.drop_drop]
    simp [header]
  rw [ofHeader, iaid, t1, t2, ofBeBytes_toBeBytes rfl, ofBeBytes_toBeBytes rfl,
    ofBeBytes_toBeBytes rfl]

theorem IaNa.header_ofHeader {addrs : List IaAddr} (long : 12 ≤ data.length) :
    (ofHeader data addrs).header ++ data.drop 12 = data := by
  have iaid : (data.take 4).length = 4 := by
    rw [List.length_take]
    omega
  have t1 : ((data.drop 4).take 4).length = 4 := by
    rw [List.length_take, List.length_drop]
    omega
  have t2 : ((data.drop 8).take 4).length = 4 := by
    rw [List.length_take, List.length_drop]
    omega
  rw [header, ofHeader, toBeBytes_ofBeBytes rfl iaid, toBeBytes_ofBeBytes rfl t1,
    toBeBytes_ofBeBytes rfl t2, List.append_assoc, List.append_assoc, show 12 = 8 + 4 from rfl,
    ← List.drop_drop, List.take_append_drop, show 8 = 4 + 4 from rfl, ← List.drop_drop,
    List.take_append_drop, List.take_append_drop]

/-- The value of a sub-option that is read as a field. -/
def readSubOption (field : Field) : Fallible DecodeError (Option IaAddr) :=
  decodeSubOption (.ofNat 16 field.code) field.data

theorem decodeIana_eq (data : List UInt8) : decodeIana data =
    if data.length < 12 then refuse .malformed
    else do
      let found ← many (Field.reader 2 .malformed readSubOption) (data.length - 12) (data.drop 12)
      return .ofHeader data found.reduceOption := by
  rw [decodeIana]
  by_cases short : data.length < 12
  · simp only [short, ↓reduceIte, bind_refuse]
  · rw [if_neg short, Checked.readBe_eq_ok (by omega), Checked.readBe_eq_ok (by omega),
      Checked.readBe_eq_ok (by omega), Checked.slice_length (by omega)]
    simp only [short, ↓reduceIte, pure_eq_ok, bind_ok, lift_ok]
    have item := splitOption_bind .malformed decodeSubOption
    simp only [pure_eq_ok] at item
    rw [item, List.length_drop]
    rfl

/-- The fields announce these addresses, or none. -/
abbrev AnnouncesAll (fields : List Field) (found : List (Option IaAddr)) : Prop :=
  List.Forall₂ (fun field => Announces (.ofNat 16 field.code) field.data) fields found

theorem decodeIana_eq_ok_iff {ia : IaNa} : decodeIana data = .ok ia ↔
    ∃ fields found, (∀ field ∈ fields, field.Fits 2) ∧ AnnouncesAll fields found ∧
      ia.addrs = found.reduceOption ∧ data = ia.header ++ Field.join 2 fields := by
  rw [decodeIana_eq]
  constructor
  · intro accepted
    split at accepted
    · cases accepted
    · rename_i long
      rcases bind_eq_ok_iff.mp accepted with ⟨found, read, equal⟩
      cases equal
      rcases Field.of_many_reader read with ⟨fields, fits, rest, values⟩
      refine ⟨fields, found, fits, values.imp fun _ _ => decodeSubOption_eq_ok_iff.mp, rfl, ?_⟩
      rw [← rest, IaNa.header_ofHeader (by omega)]
  · intro holds
    rcases holds with ⟨fields, found, fits, announced, addrs, rfl⟩
    have long : ¬(ia.header ++ Field.join 2 fields).length < 12 := by
      rw [List.length_append, IaNa.length_header]
      omega
    have rest : (ia.header ++ Field.join 2 fields).drop 12 = Field.join 2 fields := by
      rw [← ia.length_header, List.drop_left]
    have read : many (Field.reader 2 .malformed readSubOption) (Field.join 2 fields).length
        (Field.join 2 fields) = .ok found :=
      Field.many_reader_join Nat.two_pos fits
        (announced.imp fun _ _ => decodeSubOption_eq_ok_iff.mpr) (Nat.le_refl _)
    rw [if_neg long, rest, List.length_append, IaNa.length_header, Nat.add_sub_cancel_left, read,
      bind_ok, ← addrs, IaNa.ofHeader_header]
    rfl

theorem decodeIana_returns (data : List UInt8) : (decodeIana data).Returns := by
  rw [decodeIana_eq]
  split
  · exact returns_refuse _
  · apply Returns.bind
    · exact Field.many_reader_returns Nat.two_pos (fun _ => decodeSubOption_returns _ _)
        (Nat.le_of_eq List.length_drop)
    · exact fun _ _ => returns_ok _

/-! ## Options -/

/-- The codes of the options that the decoder gives a type. -/
def typedCodes : List U16 := [optClientid, optServerid, optIaNa, optDnsServers, optStatusCode]

/-- The option that a code and its data stand for. -/
inductive Denotes : U16 → List UInt8 → Dhcpv6Option → Prop where
  | clientId (duid : Duid) : Denotes optClientid duid (.clientId duid)
  | serverId (duid : Duid) : Denotes optServerid duid (.serverId duid)
  | iaNa (ia : IaNa) {fields : List Field} {found : List (Option IaAddr)}
      (fits : ∀ field ∈ fields, field.Fits 2) (announced : AnnouncesAll fields found)
      (addrs : ia.addrs = found.reduceOption) :
      Denotes optIaNa (ia.header ++ Field.join 2 fields) (.iaNa ia)
  | dnsServers (addrs : List Ipv6Addr) :
      Denotes optDnsServers (addrs.flatMap Ipv6Addr.octets) (.dnsServers addrs)
  | statusCode (code : U16) (message : Text) :
      Denotes optStatusCode (toBeBytes code ++ asBytes message) (.statusCode code message)
  | unrecognized {code : U16} (untyped : code ∉ typedCodes) (data : List UInt8) :
      Denotes code data (.unrecognized ⟨code, data⟩)

theorem length_octets (addr : Ipv6Addr) : addr.octets.length = 16 :=
  length_toBeBytes _

theorem length_of_mem_octets (addrs : List Ipv6Addr) :
    ∀ piece ∈ addrs.map Ipv6Addr.octets, piece.length = 16 := by
  intro piece member
  rcases List.mem_map.mp member with ⟨addr, _, rfl⟩
  exact length_octets addr

theorem map_ofOctets_chunksExact (addrs : List Ipv6Addr) :
    (chunksExact 16 (addrs.flatMap Ipv6Addr.octets)).map Ipv6Addr.ofOctets = addrs := by
  have inverse : Ipv6Addr.ofOctets ∘ Ipv6Addr.octets = id := by
    funext addr
    rw [Function.comp_apply, Ipv6Addr.ofOctets, Ipv6Addr.octets, ofBeBytes_toBeBytes rfl, id_eq]
  rw [List.flatMap_def, chunksExact_flatten (by decide) (length_of_mem_octets addrs), List.map_map,
    inverse, List.map_id]

theorem flatMap_octets_chunksExact (whole : data.length % 16 = 0) :
    ((chunksExact 16 data).map Ipv6Addr.ofOctets).flatMap Ipv6Addr.octets = data := by
  have count : data.length = data.length / 16 * 16 := by omega
  have inverse : (chunksExact 16 data).map (Ipv6Addr.octets ∘ Ipv6Addr.ofOctets) =
      (chunksExact 16 data).map id := by
    apply List.map_congr_left
    intro chunk member
    have size : chunk.length = 16 := length_of_mem_chunks count member
    rw [Function.comp_apply, Ipv6Addr.octets, Ipv6Addr.ofOctets, toBeBytes_ofBeBytes rfl size,
      id_eq]
  rw [List.flatMap_def, List.map_map, inverse, List.map_id, chunksExact, flatten_chunks count]

theorem typedCodes_cases (code : U16) : code = optClientid ∨ code = optServerid ∨
    code = optIaNa ∨ code = optDnsServers ∨ code = optStatusCode ∨ code ∉ typedCodes := by
  by_cases typed : code ∈ typedCodes
  · simp only [typedCodes, List.mem_cons, List.not_mem_nil, or_false] at typed
    tauto
  · tauto

theorem decodeData_dnsServers (data : List UInt8) : decodeData optDnsServers data =
    if data.length % 16 = 0 then
      .ok (.dnsServers ((chunksExact 16 data).map Ipv6Addr.ofOctets))
    else refuse .malformed := by
  rw [decodeData, if_neg (by decide), if_neg (by decide), if_neg (by decide), if_pos rfl]
  by_cases whole : data.length % 16 = 0
  · rw [if_neg (not_not.mpr whole), if_pos whole]
    rfl
  · rw [if_pos whole, if_neg whole]
    rfl

theorem decodeData_statusCode (data : List UInt8) : decodeData optStatusCode data =
    if data.length < 2 then refuse .malformed
    else match fromUtf8 (data.drop 2) with
      | some message => .ok (.statusCode (ofBeBytes 16 (data.take 2)) message)
      | none => refuse .badUtf8 := by
  rw [decodeData, if_neg (by decide), if_neg (by decide), if_neg (by decide), if_neg (by decide),
    if_pos rfl]
  by_cases short : data.length < 2
  · rw [if_pos short, if_pos short]
    rfl
  · rw [if_neg short, if_neg short, Checked.readBe_eq_ok (by omega),
      Checked.slice_length (by omega)]
    rfl

theorem decodeData_untyped (untyped : code ∉ typedCodes) (data : List UInt8) :
    decodeData code data = .ok (.unrecognized ⟨code, data⟩) := by
  simp only [typedCodes, List.mem_cons, List.not_mem_nil, or_false, not_or] at untyped
  rcases untyped with ⟨notClient, notServer, notIaNa, notDns, notStatus⟩
  rw [decodeData, if_neg notClient, if_neg notServer, if_neg notIaNa, if_neg notDns,
    if_neg notStatus]
  rfl

theorem decodeData_eq_ok_iff {option : Dhcpv6Option} :
    decodeData code data = .ok option ↔ Denotes code data option := by
  constructor
  · intro accepted
    rcases typedCodes_cases code with rfl | rfl | rfl | rfl | rfl | untyped
    · cases accepted
      exact .clientId data
    · cases accepted
      exact .serverId data
    · rcases bind_eq_ok_iff.mp accepted with ⟨ia, read, equal⟩
      cases equal
      rcases decodeIana_eq_ok_iff.mp read with ⟨fields, found, fits, announced, addrs, rfl⟩
      exact .iaNa ia fits announced addrs
    · rw [decodeData_dnsServers] at accepted
      split at accepted
      · rename_i whole
        cases accepted
        have denoted := Denotes.dnsServers ((chunksExact 16 data).map Ipv6Addr.ofOctets)
        rw [flatMap_octets_chunksExact whole] at denoted
        exact denoted
      · cases accepted
    · rw [decodeData_statusCode] at accepted
      split at accepted
      · cases accepted
      · rename_i long
        split at accepted
        · rename_i message read
          cases accepted
          have code : (data.take 2).length = 2 := by
            rw [List.length_take]
            omega
          have denoted := Denotes.statusCode (ofBeBytes 16 (data.take 2)) message
          rw [toBeBytes_ofBeBytes rfl code, fromUtf8_eq_some_iff.mp read,
            List.take_append_drop] at denoted
          exact denoted
        · cases accepted
    · rw [decodeData_untyped untyped] at accepted
      cases accepted
      exact .unrecognized untyped data
  · intro denoted
    cases denoted with
    | clientId duid => rfl
    | serverId duid => rfl
    | iaNa ia fits announced addrs =>
        exact bind_eq_ok_iff.mpr
          ⟨ia, decodeIana_eq_ok_iff.mpr ⟨_, _, fits, announced, addrs, rfl⟩, rfl⟩
    | dnsServers addrs =>
        have whole : (addrs.flatMap Ipv6Addr.octets).length % 16 = 0 := by
          rw [List.flatMap_def, length_flatten_of_sizes (length_of_mem_octets addrs),
            Nat.mul_mod_left]
        rw [decodeData_dnsServers, if_pos whole, map_ofOctets_chunksExact]
    | statusCode code message =>
        have first : (toBeBytes code ++ asBytes message).take 2 = toBeBytes code := by simp
        have second : (toBeBytes code ++ asBytes message).drop 2 = asBytes message := by simp
        have long : ¬(toBeBytes code ++ asBytes message).length < 2 := by
          rw [List.length_append, length_toBeBytes]
          omega
        rw [decodeData_statusCode, if_neg long, first, second, fromUtf8_eq_some_iff.mpr rfl,
          ofBeBytes_toBeBytes rfl]
    | unrecognized untyped => exact decodeData_untyped untyped _

theorem decodeData_returns (code : U16) (data : List UInt8) : (decodeData code data).Returns := by
  rcases typedCodes_cases code with rfl | rfl | rfl | rfl | rfl | untyped
  · exact returns_ok _
  · exact returns_ok _
  · exact (decodeIana_returns data).bind fun _ _ => returns_ok _
  · rw [decodeData_dnsServers]
    split
    · exact returns_ok _
    · exact returns_refuse _
  · rw [decodeData_statusCode]
    split
    · exact returns_refuse _
    · split
      · exact returns_ok _
      · exact returns_refuse _
  · rw [decodeData_untyped untyped]
    exact returns_ok _

/-! ## Datagrams -/

/-- The option that is read as a field. -/
def readOption (field : Field) : Fallible DecodeError Dhcpv6Option :=
  decodeData (.ofNat 16 field.code) field.data

/-- The fields stand for these options. -/
abbrev DenotesAll (fields : List Field) (options : List Dhcpv6Option) : Prop :=
  List.Forall₂ (fun field => Denotes (.ofNat 16 field.code) field.data) fields options

theorem decodeOption_eq : decodeOption = Field.reader 2 .truncated readOption :=
  splitOption_bind .truncated decodeData

theorem fromBytes_short {input : List UInt8} (short : input.length < 4) :
    Packet.fromBytes input = refuse .truncated := by
  rw [Packet.fromBytes, if_pos short]
  rfl

theorem fromBytes_eq (value high middle low : UInt8) (rest : List UInt8) :
    Packet.fromBytes (value :: high :: middle :: low :: rest) = (do
      let msgType ← MsgType.fromByte value
      let options ← many (Field.reader 2 .truncated readOption) rest.length rest
      return { msgType, transactionId := transactionIdOf high middle low, options }) := by
  have long : ¬(value :: high :: middle :: low :: rest).length < 4 := by simp
  rw [Packet.fromBytes, if_neg long, Checked.slice_length (by simp), decodeOption_eq]
  rfl

theorem exists_header {input : List UInt8} (long : ¬input.length < 4) :
    ∃ value high middle low rest, input = value :: high :: middle :: low :: rest := by
  rcases input with _ | ⟨value, _ | ⟨high, _ | ⟨middle, _ | ⟨low, rest⟩⟩⟩⟩
  case cons.cons.cons.cons => exact ⟨value, high, middle, low, rest, rfl⟩
  all_goals simp at long

/-- The decoder accepts the datagrams that consist of the header of a packet and
of fields that stand for its options. -/
theorem fromBytes_eq_ok_iff {input : List UInt8} {packet : Packet} :
    Packet.fromBytes input = .ok packet ↔ packet.transactionId.toNat < 2 ^ 24 ∧
      ∃ fields, (∀ field ∈ fields, field.Fits 2) ∧ DenotesAll fields packet.options ∧
        input = packet.header ++ Field.join 2 fields := by
  constructor
  · intro accepted
    by_cases short : input.length < 4
    · rw [fromBytes_short short] at accepted
      cases accepted
    rcases exists_header short with ⟨value, high, middle, low, rest, rfl⟩
    rw [fromBytes_eq] at accepted
    rcases bind_eq_ok_iff.mp accepted with ⟨msgType, number, accepted⟩
    rcases bind_eq_ok_iff.mp accepted with ⟨options, read, equal⟩
    cases equal
    rcases Field.of_many_reader read with ⟨fields, fits, rfl, values⟩
    have header : Packet.header ⟨msgType, transactionIdOf high middle low, options⟩ =
        [value, high, middle, low] ∧ (transactionIdOf high middle low).toNat < 2 ^ 24 :=
      header_eq_iff.mpr ⟨MsgType.fromByte_eq_ok_iff.mp number, rfl⟩
    refine ⟨header.2, fields, fits, values.imp fun _ _ => decodeData_eq_ok_iff.mp, ?_⟩
    rw [header.1]
    rfl
  · intro found
    rcases found with ⟨small, fields, fits, denoted, rfl⟩
    rcases exists_header (show ¬packet.header.length < 4 from Nat.lt_irrefl 4) with
      ⟨value, high, middle, low, rest, header⟩
    have read : many (Field.reader 2 .truncated readOption) (Field.join 2 fields).length
        (Field.join 2 fields) = .ok packet.options :=
      Field.many_reader_join Nat.two_pos fits
        (denoted.imp fun _ _ => decodeData_eq_ok_iff.mpr) (Nat.le_refl _)
    cases rest with
    | cons byte rest => cases congrArg List.length header
    | nil =>
        rcases header_eq_iff.mp ⟨header, small⟩ with ⟨number, transactionId⟩
        rw [header, List.cons_append, List.cons_append, List.cons_append, List.cons_append,
          List.nil_append, fromBytes_eq, MsgType.fromByte_eq_ok_iff.mpr number, bind_ok, read,
          bind_ok, ← transactionId]
        rfl

theorem fromBytes_returns (input : List UInt8) : (Packet.fromBytes input).Returns := by
  by_cases short : input.length < 4
  · rw [fromBytes_short short]
    exact returns_refuse _
  · rcases exists_header short with ⟨value, high, middle, low, rest, rfl⟩
    rw [fromBytes_eq]
    apply (MsgType.fromByte_returns value).bind
    intro msgType _
    apply Returns.bind
    · exact Field.many_reader_returns Nat.two_pos (fun _ => decodeData_returns _ _) (Nat.le_refl _)
    · exact fun _ _ => returns_ok _

end RustyDhcp.Dhcpv6

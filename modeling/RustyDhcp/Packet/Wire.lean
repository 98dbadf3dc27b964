import RustyDhcp.Foundation.Selection
import RustyDhcp.Packet.Encode
import RustyDhcp.Packet.Format

/-! # What the DHCPv4 encoder writes -/

namespace RustyDhcp

open Checked

/-! ## Options -/

/-- The option as the field that is written for it. -/
def DhcpOption.field (option : DhcpOption) : Field := ⟨option.code.toNat, option.toRaw.data⟩

@[simp] theorem DhcpOption.field_code (option : DhcpOption) :
    option.field.code = option.code.toNat := rfl

@[simp] theorem DhcpOption.field_data (option : DhcpOption) :
    option.field.data = option.toRaw.data := rfl

theorem length_octets (addr : Ipv4Addr) : addr.octets.length = 4 := rfl

theorem foldl_octets (addrs : List Ipv4Addr) :
    addrs.foldl (fun data addr => data ++ addr.octets) [] = addrs.flatMap Ipv4Addr.octets := by
  rw [List.foldl_append_eq_append, List.nil_append, List.flatMap_def]

theorem length_flatMap_octets (addrs : List Ipv4Addr) :
    (addrs.flatMap Ipv4Addr.octets).length = addrs.length * 4 := by
  induction addrs with
  | nil => rfl
  | cons addr addrs induction =>
      rw [List.flatMap_cons, List.length_append, induction, length_octets, List.length_cons]
      omega

theorem dataLen_eq (option : DhcpOption) : option.dataLen = option.toRaw.data.length := by
  cases option with
  | router addrs => rw [DhcpOption.toRaw, foldl_octets, length_flatMap_octets]; rfl
  | domainNameServer addrs => rw [DhcpOption.toRaw, foldl_octets, length_flatMap_octets]; rfl
  | ipAddressLeaseTime secs => exact (length_toBeBytes secs).symm
  | _ => rfl

theorem writeAddrs_eq (addrs : List Ipv4Addr) (written rest : List UInt8)
    (room : addrs.length * 4 ≤ rest.length) :
    DhcpOption.writeAddrs addrs written.length (written ++ rest) =
      .ok (written.length + addrs.length * 4,
        written ++ addrs.flatMap Ipv4Addr.octets ++ rest.drop (addrs.length * 4)) := by
  induction addrs generalizing written rest with
  | nil => simp [DhcpOption.writeAddrs]
  | cons addr addrs induction =>
      rw [List.length_cons] at room
      have length : (written ++ addr.octets).length = written.length + 4 := by
        rw [List.length_append, length_octets]
      have others := induction (written ++ addr.octets) (rest.drop 4) (by
        rw [List.length_drop]
        omega)
      rw [length] at others
      rw [DhcpOption.writeAddrs, copyInto_append rfl (by rw [length_octets])
        (by rw [length_octets]; omega), length_octets, bind_ok, others, List.length_cons,
        List.flatMap_cons, List.drop_drop, ← List.append_assoc]
      have total : written.length + 4 + addrs.length * 4 =
          written.length + (addrs.length + 1) * 4 := by omega
      have taken : 4 + addrs.length * 4 = (addrs.length + 1) * 4 := by omega
      rw [total, taken]

theorem copyInto_bind {source out : List UInt8} {stop : Nat} (ends : stop = source.length)
    (room : source.length ≤ out.length) :
    (do let out ← copyInto out 0 stop source; return (stop, out) : Checked (Nat × List UInt8)) =
      .ok (source.length, source ++ out.drop source.length) := by
  rw [copyInto_front ends (by omega), ends]
  rfl

theorem writeAddrs_front (addrs : List Ipv4Addr) {out : List UInt8}
    (room : addrs.length * 4 ≤ out.length) : DhcpOption.writeAddrs addrs 0 out =
      .ok (addrs.length * 4, addrs.flatMap Ipv4Addr.octets ++ out.drop (addrs.length * 4)) := by
  have written := writeAddrs_eq addrs [] out room
  rw [List.length_nil, Nat.zero_add] at written
  exact written

theorem writeData_eq (option : DhcpOption) {out : List UInt8}
    (room : option.toRaw.data.length ≤ out.length) : option.writeData out =
      .ok (option.toRaw.data.length, option.toRaw.data ++ out.drop option.toRaw.data.length) := by
  cases option with
  | dhcpMessageType messageType =>
      cases out with
      | nil => cases room
      | cons byte out => rfl
  | serverIdentifier addr => exact copyInto_bind rfl room
  | parameterRequestList codes => exact copyInto_bind rfl room
  | requestedIpAddress addr => exact copyInto_bind rfl room
  | hostName name => exact copyInto_bind rfl room
  | router addrs =>
      rw [DhcpOption.toRaw, foldl_octets, length_flatMap_octets] at room ⊢
      exact writeAddrs_front addrs room
  | domainNameServer addrs =>
      rw [DhcpOption.toRaw, foldl_octets, length_flatMap_octets] at room ⊢
      exact writeAddrs_front addrs room
  | ipAddressLeaseTime secs => exact copyInto_bind (length_toBeBytes secs).symm room
  | subnetMask mask => exact copyInto_bind rfl room
  | message text => exact copyInto_bind rfl room
  | unrecognized raw => exact copyInto_bind rfl room

/-- The options that are written from a length on: each as long as it leaves a
byte for END. -/
def fitting : (length : Nat) → List DhcpOption → List DhcpOption
  | _, [] => []
  | length, option :: options =>
      if length + 2 + option.toRaw.data.length < wireMax then
        option :: fitting (length + 2 + option.toRaw.data.length) options
      else []

/-- The bytes of the options one after the other. -/
def optionBytes (options : List DhcpOption) : List UInt8 :=
  Field.join 1 (options.map DhcpOption.field)

@[simp] theorem optionBytes_nil : optionBytes [] = [] := rfl

theorem length_field_bytes (option : DhcpOption) :
    (option.field.bytes 1).length = 2 + option.toRaw.data.length := Field.length_bytes

theorem optionBytes_cons (option : DhcpOption) (options : List DhcpOption) :
    optionBytes (option :: options) = option.field.bytes 1 ++ optionBytes options := by
  rw [optionBytes, List.map_cons, Field.join_cons]
  rfl

theorem length_optionBytes_cons (option : DhcpOption) (options : List DhcpOption) :
    (optionBytes (option :: options)).length =
      2 + option.toRaw.data.length + (optionBytes options).length := by
  rw [optionBytes_cons, List.length_append, length_field_bytes]

theorem field_bytes (option : DhcpOption) : option.field.bytes 1 =
    option.code :: .ofNat option.toRaw.data.length :: option.toRaw.data := by
  rw [Field.bytes, DhcpOption.field_code, DhcpOption.field_data, bigEndian, bigEndian,
    bigEndian, UInt8.ofNat_toNat]
  rfl

/-- What the encoder does with the place for an option. -/
def fillOption (option : DhcpOption) (dest : List UInt8) : Checked (List UInt8) := do
  let dest ← put dest 0 option.code
  let dest ← put dest 1 (.ofNat option.dataLen)
  updateFrom dest 2 fun out => do
    let (_, out) ← option.writeData out
    return out

theorem fillOption_eq (option : DhcpOption) {dest : List UInt8}
    (exact : dest.length = 2 + option.toRaw.data.length) :
    fillOption option dest = .ok (option.field.bytes 1) := by
  rcases dest with _ | ⟨first, _ | ⟨second, body⟩⟩
  · simp only [List.length_nil] at exact
    omega
  · simp only [List.length_cons, List.length_nil] at exact
    omega
  · have length : body.length = option.toRaw.data.length := by
      simp only [List.length_cons] at exact
      omega
    have front : put (first :: second :: body) 0 option.code =
        .ok (option.code :: second :: body) := rfl
    have next : put (option.code :: second :: body) 1 (.ofNat option.dataLen) =
        .ok ([option.code, .ofNat option.dataLen] ++ body) := by
      simp [put]
    have behind : ∀ update, updateFrom ([option.code, .ofNat option.dataLen] ++ body) 2 update =
        (do return [option.code, .ofNat option.dataLen] ++ (← update body)) :=
      fun update => updateFrom_append rfl
    rw [fillOption, front, bind_ok, next, bind_ok, behind,
      writeData_eq option (Nat.le_of_eq length.symm), bind_ok, ← length, List.drop_length,
      field_bytes, dataLen_eq, List.append_nil]
    rfl

theorem encodeOptions_cons (option : DhcpOption) (options : List DhcpOption) (p : List UInt8)
    (length : Nat) : encodeOptions (option :: options) p length =
      if wireMax ≤ length + 2 + option.dataLen then .ok (p, length)
      else (do
        let p ← updateRange p length (length + 2 + option.dataLen) (fillOption option)
        encodeOptions options p (length + 2 + option.dataLen)) := rfl

theorem encodeOptions_eq (options : List DhcpOption) (written rest : List UInt8)
    (below : written.length < wireMax) (room : wireMax ≤ written.length + rest.length) :
    encodeOptions options (written ++ rest) written.length =
      .ok (written ++ optionBytes (fitting written.length options) ++
          rest.drop (optionBytes (fitting written.length options)).length,
        written.length + (optionBytes (fitting written.length options)).length) := by
  induction options generalizing written rest with
  | nil => simp [encodeOptions, fitting]
  | cons option options induction =>
      rw [encodeOptions_cons, fitting, dataLen_eq]
      by_cases fits : written.length + 2 + option.toRaw.data.length < wireMax
      · have length : (written ++ option.field.bytes 1).length =
            written.length + 2 + option.toRaw.data.length := by
          rw [List.length_append, length_field_bytes, Nat.add_assoc]
        have remaining : (rest.drop (2 + option.toRaw.data.length)).length =
            rest.length - (2 + option.toRaw.data.length) := List.length_drop
        have place : (rest.take (2 + option.toRaw.data.length)).length =
            2 + option.toRaw.data.length := by
          rw [List.length_take]
          omega
        have inside : 2 + option.toRaw.data.length ≤ rest.length := by omega
        have others := induction (written ++ option.field.bytes 1)
          (rest.drop (2 + option.toRaw.data.length)) (by omega) (by omega)
        rw [length] at others
        rw [if_neg (Nat.not_le.mpr fits), if_pos fits,
          updateRange_append rfl (Nat.add_assoc _ _ _) inside, fillOption_eq option place]
        simp only [bind_ok, pure_eq_ok]
        rw [others, optionBytes_cons, List.length_append, length_field_bytes, List.drop_drop]
        simp only [List.append_assoc, Nat.add_assoc]
      · rw [if_pos (Nat.not_lt.mp fits), if_neg fits]
        simp

/-- The bytes that an option takes. -/
def DhcpOption.size (option : DhcpOption) : Nat := 2 + option.toRaw.data.length

/-- An option is written if all up to the first with its code leave a byte for
END. -/
theorem exists_fitting_iff {options : List DhcpOption} {length : Nat} {code : UInt8}
    (present : ∃ option ∈ options, option.code = code) :
    (∃ option ∈ fitting length options, option.code = code) ↔
      length + Selection.weightUpTo DhcpOption.code DhcpOption.size code options < wireMax := by
  induction options generalizing length with
  | nil =>
      rcases present with ⟨_, member, _⟩
      cases member
  | cons option options induction =>
      have total : length + option.size = length + 2 + option.toRaw.data.length :=
        (Nat.add_assoc _ _ _).symm
      rw [fitting, Selection.weightUpTo, ← total]
      by_cases fits : length + option.size < wireMax
      · rw [if_pos fits]
        by_cases here : option.code = code
        · rw [if_pos here]
          exact iff_of_true ⟨option, List.mem_cons_self, here⟩ fits
        · have later : ∃ other ∈ options, other.code = code := by
            rcases present with ⟨other, member, same⟩
            rcases List.mem_cons.mp member with rfl | behind
            · exact absurd same here
            · exact ⟨other, behind, same⟩
          rw [if_neg here, ← Nat.add_assoc, ← induction later]
          simp [here]
      · rw [if_neg fits]
        have large : length + option.size ≤ length +
            (if option.code = code then option.size else option.size +
              Selection.weightUpTo DhcpOption.code DhcpOption.size code options) := by
          split <;> omega
        exact iff_of_false (by simp) (by omega)

/-! ## The options that are written -/

theorem length_fitting (options : List DhcpOption) {length : Nat} (below : length < wireMax) :
    length + (optionBytes (fitting length options)).length < wireMax := by
  induction options generalizing length with
  | nil => exact below
  | cons option options induction =>
      rw [fitting]
      split
      · rename_i fits
        have others := induction fits
        rw [length_optionBytes_cons]
        omega
      · exact below

theorem fitting_prefix_self (length : Nat) (options : List DhcpOption) :
    fitting length options <+: options := by
  induction options generalizing length with
  | nil => exact List.nil_prefix
  | cons option options induction =>
      rw [fitting]
      split
      · exact List.cons_prefix_cons.mpr ⟨rfl, induction _⟩
      · exact List.nil_prefix

theorem prefix_fitting {length : Nat} {options shorter : List DhcpOption}
    (shorterPrefix : shorter <+: options)
    (small : length + (optionBytes shorter).length < wireMax) :
    shorter <+: fitting length options := by
  induction shorter generalizing length options with
  | nil => exact List.nil_prefix
  | cons option shorter induction =>
      rcases shorterPrefix with ⟨others, rfl⟩
      rw [length_optionBytes_cons] at small
      rw [List.cons_append, fitting, if_pos (by omega), List.cons_prefix_cons]
      exact ⟨rfl, induction (List.prefix_append _ _) (by omega)⟩

theorem fitting_eq_self {length : Nat} {options : List DhcpOption}
    (small : length + (optionBytes options).length < wireMax) : fitting length options = options :=
  (fitting_prefix_self length options).eq_of_length_le
    (prefix_fitting (List.prefix_refl options) small).length_le

theorem length_option_le {option : DhcpOption} {options : List DhcpOption}
    (member : option ∈ options) :
    2 + option.toRaw.data.length ≤ (optionBytes options).length := by
  induction options with
  | nil => cases member
  | cons other options induction =>
      rw [length_optionBytes_cons]
      rcases List.mem_cons.mp member with rfl | later
      · exact Nat.le_add_right _ _
      · exact Nat.le_trans (induction later) (Nat.le_add_left _ _)

theorem fits_of_fitting {option : DhcpOption} {options : List DhcpOption}
    (written : option ∈ fitting 240 options) : option.field.Fits 1 := by
  have below := length_fitting options (show 240 < wireMax by decide)
  have included := length_option_le written
  have small : wireMax = 300 := rfl
  exact ⟨option.code.toNat_lt, show option.toRaw.data.length < 256 by omega⟩

/-! ## Whole packets -/

/-- The header and the cookie. -/
def Packet.head (packet : Packet) : List UInt8 :=
  [if packet.reply then bootReply else bootRequest, 1, 6, packet.hops] ++ toBeBytes packet.xid ++
    toBeBytes packet.secs ++ [if packet.broadcast then 128 else 0, 0] ++ packet.ciaddr.octets ++
    packet.yiaddr.octets ++ packet.siaddr.octets ++ packet.giaddr.octets ++ packet.chaddr.toList ++
    List.replicate (236 - 34) 0 ++ cookie

theorem length_head (packet : Packet) : packet.head.length = 240 := by
  simp only [Packet.head, List.length_append, List.length_replicate, List.length_cons,
    List.length_nil, length_toBeBytes, length_octets, cookie, Vector.length_toList]

theorem toBeBytes_xid (xid : U32) : toBeBytes xid =
    [lowByte ((xid >>> 24) &&& 0xFF), lowByte ((xid >>> 16) &&& 0xFF),
      lowByte ((xid >>> 8) &&& 0xFF), lowByte (xid &&& 0xFF)] := by
  have bytes : toBeBytes xid = [.ofNat (xid.toNat / 256 / 256 / 256),
    .ofNat (xid.toNat / 256 / 256), .ofNat (xid.toNat / 256), .ofNat xid.toNat] := rfl
  simp only [bytes, List.cons.injEq, and_true, ← UInt8.toNat_inj, toNat_lowByte,
    toNat_low8 (show 8 ≤ 32 by decide), Nat.mod_mod, BitVec.toNat_ushiftRight,
    Nat.shiftRight_eq_div_pow, UInt8.toNat_ofNat', Nat.div_div_eq_div_mul]

theorem toBeBytes_secs (secs : U16) :
    toBeBytes secs = [lowByte (secs >>> 8), lowByte (secs &&& 255)] := by
  have bytes : toBeBytes secs = [.ofNat (secs.toNat / 256), .ofNat secs.toNat] := rfl
  simp only [bytes, List.cons.injEq, and_true, ← UInt8.toNat_inj, toNat_lowByte,
    toNat_low8 (show 8 ≤ 16 by decide), Nat.mod_mod, BitVec.toNat_ushiftRight,
    Nat.shiftRight_eq_div_pow, UInt8.toNat_ofNat']

/-- The encoded packet. -/
def Packet.wire (packet : Packet) : List UInt8 :=
  packet.head ++ optionBytes (fitting 240 packet.options) ++ [endByte]

theorem length_wire_le (packet : Packet) : packet.wire.length ≤ wireMax := by
  have below := length_fitting packet.options (show 240 < wireMax by decide)
  rw [Packet.wire, List.length_append, List.length_append, length_head, List.length_singleton]
  omega

theorem encodeHeader_eq (packet : Packet) {p : List UInt8} (room : wireMax ≤ p.length) :
    packet.encodeHeader p = .ok (packet.head ++ p.drop 240) := by
  have large : 300 ≤ p.length := room
  have chaddr : packet.chaddr.toList.length = 6 := Vector.length_toList
  rw [Packet.encodeHeader, copyInto_front (by rfl) (by omega), bind_ok,
    copyInto_drop (by rfl) (by rfl) (by omega), bind_ok,
    copyInto_drop (by rfl) (by rfl) (by omega), bind_ok,
    copyInto_drop (by rfl) (by rfl) (by omega), bind_ok,
    copyInto_drop (by rfl) (by rfl) (by omega), bind_ok,
    copyInto_drop (by rfl) (by rw [chaddr]) (by omega), bind_ok,
    copyInto_drop (by rw [List.length_append, chaddr]; rfl) (by rw [List.length_replicate])
      (by omega), bind_ok,
    copyInto_drop _ (by rfl) (by omega), Packet.head, toBeBytes_xid, toBeBytes_secs]
  · rfl
  · simp only [List.length_append, chaddr, List.length_replicate]
    rfl

/-- Encoding into a buffer that is large enough writes the packet and clears the
buffer behind it, whatever the buffer held. -/
theorem encode_eq (packet : Packet) {p : List UInt8} (room : wireMax ≤ p.length) :
    packet.encode p = .ok (packet.wire,
      packet.wire ++ List.replicate (wireMax - packet.wire.length) padByte ++ p.drop wireMax) := by
  have large : 300 ≤ p.length := room
  have below := length_fitting packet.options (show 240 < wireMax by decide)
  have small : wireMax = 300 := rfl
  have rest : (p.drop 240).length = p.length - 240 := List.length_drop
  have options := encodeOptions_eq packet.options packet.head (p.drop 240)
    (by rw [length_head]; decide) (by rw [length_head]; omega)
  rw [length_head, List.drop_drop] at options
  rw [Packet.encode, encodeHeader_eq packet room, bind_ok, options]
  simp only [bind_ok]
  generalize equal : optionBytes (fitting 240 packet.options) = bytes at below options ⊢
  have wire : packet.wire = packet.head ++ bytes ++ [endByte] := by rw [Packet.wire, equal]
  have written : (packet.head ++ bytes).length = 240 + bytes.length := by
    rw [List.length_append, length_head]
  have length : packet.wire.length = 240 + bytes.length + 1 := by
    rw [wire, List.length_append, written, List.length_singleton]
  have free : (p.drop (240 + bytes.length)).length = p.length - (240 + bytes.length) :=
    List.length_drop
  have ends := updateRange_put written.symm
    (show 0 < (p.drop (240 + bytes.length)).length by omega) endByte
  rw [← wire, List.drop_drop] at ends
  have behind : (p.drop (240 + bytes.length + 1)).length = p.length - (240 + bytes.length + 1) :=
    List.length_drop
  have stops : 240 + bytes.length + 1 + (wireMax - packet.wire.length) = wireMax := by omega
  have pads := updateRange_fill length.symm stops.symm
    (show wireMax - packet.wire.length ≤ (p.drop (240 + bytes.length + 1)).length by omega) padByte
  rw [List.drop_drop, stops] at pads
  rw [ends, bind_ok, pads, bind_ok, slice_eq_ok (Nat.zero_le _), List.drop_zero, ← length,
    Nat.sub_zero, List.append_assoc, List.take_left]
  · rfl
  · simp only [List.length_append]
    omega

/-! ## The encoder, specified -/

theorem length_optionBytes (options : List DhcpOption) :
    (optionBytes options).length = (options.map DhcpOption.size).sum := by
  induction options with
  | nil => rfl
  | cons option options induction =>
      rw [length_optionBytes_cons, induction, List.map_cons, List.sum_cons, DhcpOption.size]

theorem optionBytes_eq_flatMap (options : List DhcpOption) :
    optionBytes options = options.flatMap fun option =>
      option.code :: .ofNat option.toRaw.data.length :: option.toRaw.data := by
  induction options with
  | nil => rfl
  | cons option options induction =>
      rw [optionBytes_cons, induction, List.flatMap_cons, field_bytes]

/-- The longest beginning of the options that leaves a byte for END. -/
structure LongestFitting (options written : List DhcpOption) : Prop where
  isPrefix : written <+: options
  fits : 240 + (written.map DhcpOption.size).sum < wireMax
  longest : ∀ longer, longer <+: options →
    240 + (longer.map DhcpOption.size).sum < wireMax → longer <+: written

theorem longestFitting (options : List DhcpOption) :
    LongestFitting options (fitting 240 options) where
  isPrefix := fitting_prefix_self 240 options
  fits := by
    rw [← length_optionBytes]
    exact length_fitting options (by decide)
  longest longer shorter small := by
    rw [← length_optionBytes] at small
    exact prefix_fitting shorter small

/-- The encoder writes the header, the options that fit with their codes and
their true lengths, and END, and clears what follows. The buffer it writes to
has no influence on that. -/
theorem encode_exact (packet : Packet) : ∃ written wire,
    LongestFitting packet.options written ∧ packet.head.length = 240 ∧
    wire = packet.head ++ (written.flatMap fun option =>
      option.code :: .ofNat option.toRaw.data.length :: option.toRaw.data) ++ [endByte] ∧
    (∀ option ∈ written,
      (UInt8.ofNat option.toRaw.data.length).toNat = option.toRaw.data.length) ∧
    wire.length ≤ wireMax ∧
    ∀ buffer : List UInt8, wireMax ≤ buffer.length →
      packet.encode buffer = .ok (wire,
        wire ++ List.replicate (wireMax - wire.length) 0 ++ buffer.drop wireMax) := by
  refine ⟨fitting 240 packet.options, packet.wire, longestFitting packet.options,
    length_head packet, ?_, ?_, length_wire_le packet, ?_⟩
  · rw [Packet.wire, optionBytes_eq_flatMap]
  · intro option member
    have fits : option.toRaw.data.length < 256 := (fits_of_fitting member).2
    rw [UInt8.toNat_ofNat', Nat.mod_eq_of_lt fits]
  · intro buffer room
    exact encode_eq packet room

/-- A buffer full of old bytes. -/
theorem encode_exact_dirty : ∃ wire : List UInt8, wire.length ≤ wireMax ∧
    (Packet.ofClient #v[4, 0, 0, 0, 0, 1] [.message "busy".toList]).encode
        (List.replicate wireMax 0xff) =
      .ok (wire, wire ++ List.replicate (wireMax - wire.length) 0) := by
  rcases encode_exact (.ofClient #v[4, 0, 0, 0, 0, 1] [.message "busy".toList]) with
    ⟨_, wire, _, _, _, _, bounded, encodes⟩
  refine ⟨wire, bounded, ?_⟩
  have encoded := encodes (List.replicate wireMax 0xff) List.length_replicate.ge
  rwa [List.drop_replicate, Nat.sub_self, List.replicate_zero, List.append_nil] at encoded

end RustyDhcp

import RustyDhcp.Packet.Survival
import RustyDhcp.Packet.Wire

/-! # Round trips of the DHCPv4 codec

A packet that is written and read again keeps its header and as many of its
options as were written, whatever follows it. -/

namespace RustyDhcp

/-- The decoder reads the option as it was written: it is no router, no name
server, and none of the codes that are read in a way of their own or END. -/
def DhcpOption.Readable : DhcpOption → Prop
  | .router _ | .domainNameServer _ => False
  | .unrecognized raw => raw.code.toNat ∉ [1, 3, 6, 12, 50, 51, 53, 54, 55, 56, 255]
  | _ => True

/-! ## Options -/

theorem Denotes.of_readable {option : DhcpOption} (readable : option.Readable) :
    Denotes option.code option.toRaw.data option := by
  have address : ∀ addr : Ipv4Addr, addr.octets = addr.octets ++ [] :=
    fun addr => (List.append_nil _).symm
  cases option with
  | dhcpMessageType messageType => exact .dhcpMessageType messageType []
  | serverIdentifier addr =>
      have denoted := Denotes.serverIdentifier addr []
      rw [← address] at denoted
      exact denoted
  | parameterRequestList codes => exact .parameterRequestList codes
  | requestedIpAddress addr =>
      have denoted := Denotes.requestedIpAddress addr []
      rw [← address] at denoted
      exact denoted
  | hostName name => exact .hostName name
  | router addrs => exact readable.elim
  | domainNameServer addrs => exact readable.elim
  | ipAddressLeaseTime secs =>
      have denoted := Denotes.ipAddressLeaseTime secs []
      rw [List.append_nil] at denoted
      exact denoted
  | subnetMask mask =>
      have denoted := Denotes.subnetMask mask []
      rw [← address] at denoted
      exact denoted
  | message text => exact .message text
  | unrecognized raw =>
      apply Denotes.unrecognized
      intro typed
      apply readable
      have refused : typedCodes.map UInt8.toNat ⊆ [1, 3, 6, 12, 50, 51, 53, 54, 55, 56, 255] := by
        decide
      exact refused (List.mem_map_of_mem typed)

theorem DhcpOption.Readable.notEnd {option : DhcpOption} (readable : option.Readable) :
    option.code ≠ endByte := by
  cases option with
  | unrecognized raw =>
      intro isEnd
      apply readable
      rw [show raw.code = endByte from isEnd]
      decide
  | _ => exact ne_of_beq_false rfl

theorem ReadsAs.of_readable {option : DhcpOption} (readable : option.Readable)
    (fits : option.field.Fits 1) : ReadsAs option.field option where
  fits := fits
  notEnd := fun isEnd => readable.notEnd (UInt8.toNat_inj.mp isEnd)
  denotes := by
    rw [DhcpOption.field_code, UInt8.ofNat_toNat]
    exact .of_readable readable

theorem head?_join_append {fields : List Field} {options : List DhcpOption} {rest : List UInt8}
    (reads : List.Forall₂ ReadsAs fields options) (more : options ≠ []) :
    (Field.join 1 fields ++ rest).head? ≠ some endByte := by
  cases reads with
  | nil => exact absurd rfl more
  | cons here _ =>
      rw [Field.join_cons, List.append_assoc]
      exact mt (head?_bytes here.fits).mp here.notEnd

/-- Complete options before END are found up to END. -/
theorem walk_join_end {fields : List Field} {options : List DhcpOption} {rest : List UInt8}
    (reads : List.Forall₂ ReadsAs fields options) (more : options ≠ [])
    (ends : rest.head? = some endByte) : Walk (Field.join 1 fields ++ rest) rest options := by
  induction reads with
  | nil => exact absurd rfl more
  | @cons field option fields options here others induction =>
      rw [Field.join_cons, List.append_assoc]
      cases others with
      | nil => exact .last here ends
      | cons next others =>
          have following := List.Forall₂.cons next others
          exact .more here (head?_join_append following (List.cons_ne_nil _ _))
            (induction (List.cons_ne_nil _ _))

/-! ## Whole packets -/

theorem drop_head (packet : Packet) (rest : List UInt8) :
    (packet.head ++ rest).drop 240 = rest := List.drop_left' (length_head packet)

theorem validHeader_head (packet : Packet) (rest : List UInt8) :
    ValidHeader (packet.head ++ rest) where
  long := by
    rw [List.length_append, length_head]
    omega
  hlen := rfl
  cookie := by
    rw [Packet.head, List.append_assoc, List.drop_left']
    · rfl
    · simp only [List.length_append, List.length_replicate, List.length_cons, List.length_nil,
        length_toBeBytes, length_octets, Vector.length_toList]

theorem exists_bytes (mac : Mac) : ∃ a b c d e f, mac = #v[a, b, c, d, e, f] := by
  rcases mac with ⟨⟨bytes⟩, length⟩
  rcases bytes with _ | ⟨a, _ | ⟨b, _ | ⟨c, _ | ⟨d, _ | ⟨e, _ | ⟨f, _ | ⟨g, others⟩⟩⟩⟩⟩⟩⟩
  case cons.cons.cons.cons.cons.cons.nil => exact ⟨a, b, c, d, e, f, rfl⟩
  all_goals
    simp only [List.size_toArray, List.length_cons, List.length_nil] at length
    omega

theorem exists_four (value : U32) :
    ∃ a b c d, toBeBytes value = [a, b, c, d] ∧ ofBeBytes 32 [a, b, c, d] = value :=
  ⟨_, _, _, _, rfl, ofBeBytes_toBeBytes rfl value⟩

theorem exists_two (value : U16) :
    ∃ a b, toBeBytes value = [a, b] ∧ ofBeBytes 16 [a, b] = value :=
  ⟨_, _, rfl, ofBeBytes_toBeBytes rfl value⟩

/-- The header is read as it was written, but for the broadcast flag, which the
decoder never finds where the encoder puts it. -/
theorem ofHeader_head (packet : Packet) (rest : List UInt8) (options : List DhcpOption) :
    Packet.ofHeader (packet.head ++ rest) options =
      { packet with broadcast := false, options := options } := by
  rcases packet with ⟨reply, hops, xid, secs, broadcast, ⟨ciaddr⟩, ⟨yiaddr⟩, ⟨siaddr⟩, ⟨giaddr⟩,
    chaddr, _⟩
  rcases exists_bytes chaddr with ⟨a, b, c, d, e, f, rfl⟩
  rcases exists_four xid with ⟨_, _, _, _, xidBytes, xidValue⟩
  rcases exists_two secs with ⟨_, _, secsBytes, secsValue⟩
  rcases exists_four ciaddr with ⟨_, _, _, _, ciaddrBytes, ciaddrValue⟩
  rcases exists_four yiaddr with ⟨_, _, _, _, yiaddrBytes, yiaddrValue⟩
  rcases exists_four siaddr with ⟨_, _, _, _, siaddrBytes, siaddrValue⟩
  rcases exists_four giaddr with ⟨_, _, _, _, giaddrBytes, giaddrValue⟩
  simp only [Packet.head, Ipv4Addr.octets_eq, xidBytes, secsBytes, ciaddrBytes, yiaddrBytes,
    siaddrBytes, giaddrBytes, List.cons_append, List.nil_append]
  have cleared : ∀ flag : Bool,
      ¬(ofBeBytes 16 [if flag then 128 else 0, 0] &&& 128 = 128) := by decide
  rw [Packet.ofHeader, Packet.mk.injEq]
  refine ⟨?_, rfl, xidValue, secsValue, decide_eq_false (cleared broadcast),
    congrArg _ ciaddrValue, congrArg _ yiaddrValue, congrArg _ siaddrValue,
    congrArg _ giaddrValue, rfl, rfl⟩
  cases reply <;> rfl

theorem fromBytes_wire {packet : Packet}
    (readable : ∀ option ∈ packet.options, option.Readable)
    (first : fitting 240 packet.options ≠ []) (tail : List UInt8) :
    Packet.fromBytes (packet.wire ++ tail) =
      .ok { packet with broadcast := false, options := fitting 240 packet.options } := by
  have bytes : packet.wire ++ tail =
      packet.head ++ (optionBytes (fitting 240 packet.options) ++ endByte :: tail) := by
    simp only [Packet.wire, List.append_assoc, List.singleton_append]
  have reads : List.Forall₂ ReadsAs ((fitting 240 packet.options).map DhcpOption.field)
      (fitting 240 packet.options) := by
    rw [List.forall₂_map_left_iff, List.forall₂_same]
    intro option written
    exact .of_readable (readable option ((fitting_prefix_self _ _).subset written))
      (fits_of_fitting written)
  rw [bytes, fromBytes_eq_ok_iff, drop_head]
  exact ⟨validHeader_head _ _, _, ⟨head?_join_append reads first, endByte :: tail,
    List.cons_ne_nil _ _, walk_join_end reads first rfl⟩, (ofHeader_head packet _ _).symm⟩

/-- A packet that has room for all its options. -/
theorem fromBytes_whole {packet : Packet} (readable : ∀ option ∈ packet.options, option.Readable)
    (more : packet.options ≠ []) (small : (optionBytes packet.options).length ≤ 59) :
    Packet.fromBytes packet.wire = .ok { packet with broadcast := false } := by
  have written : fitting 240 packet.options = packet.options := by
    apply fitting_eq_self
    rw [wireMax]
    omega
  have decoded := fromBytes_wire readable (by rw [written]; exact more) []
  rw [List.append_nil, written] at decoded
  exact decoded

/-- What is written reads back, whatever follows it, with the same header and
with the longest beginning of the options that leaves a byte for END. -/
theorem fromBytes_encode_append (packet : Packet) (unicast : packet.broadcast = false)
    (readable : ∀ option ∈ packet.options, option.Readable)
    (first : ∃ option, packet.options.head? = some option ∧ option.toRaw.data.length ≤ 57)
    (buffer tail : List UInt8) (room : wireMax ≤ buffer.length) :
    ∃ wire after written, packet.encode buffer = .ok (wire, after) ∧
      Packet.fromBytes (wire ++ tail) = .ok { packet with options := written } ∧
      written <+: packet.options ∧ 240 + (optionBytes written).length < wireMax ∧
      (∀ longer, longer <+: packet.options → 240 + (optionBytes longer).length < wireMax →
        longer <+: written) ∧
      ((optionBytes packet.options).length ≤ 59 → written = packet.options) := by
  rcases first with ⟨option, begins, short⟩
  have written : fitting 240 packet.options ≠ [] := by
    rcases List.head?_eq_some_iff.mp begins with ⟨others, equal⟩
    have small : 240 + 2 + option.toRaw.data.length < wireMax := by
      rw [wireMax]
      omega
    rw [equal, fitting, if_pos small]
    exact List.cons_ne_nil _ _
  have decoded := fromBytes_wire readable written tail
  rw [← unicast] at decoded
  refine ⟨_, _, _, encode_eq packet room, decoded, fitting_prefix_self 240 packet.options,
    length_fitting packet.options (by decide), ?_, ?_⟩
  · intro longer longerPrefix small
    exact prefix_fitting longerPrefix small
  · intro small
    apply fitting_eq_self
    rw [wireMax]
    omega

/-- A host name that fits is followed by one that does not. -/
def longNames : Packet := Packet.ofClient #v[2, 0, 0, 0, 0, 1]
  [.dhcpMessageType .discover, .hostName (List.replicate 60 'a')]

theorem fromBytes_encode_longNames : ∃ wire after written,
    longNames.encode (List.replicate 300 7) = .ok (wire, after) ∧
      Packet.fromBytes (wire ++ [255, 1]) = .ok { longNames with options := written } := by
  have readable : ∀ option ∈ longNames.options, option.Readable := by
    simp [longNames, Packet.ofClient, DhcpOption.Readable]
  rcases fromBytes_encode_append longNames rfl readable ⟨.dhcpMessageType .discover, rfl, by decide⟩
    (List.replicate 300 7) [255, 1] (by rw [List.length_replicate]; exact Nat.le_refl 300) with
    ⟨wire, after, written, encoded, decoded, _⟩
  exact ⟨wire, after, written, encoded, decoded⟩

end RustyDhcp

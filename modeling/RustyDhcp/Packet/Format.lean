import RustyDhcp.Packet.Decode

/-! # The format of a DHCPv4 packet

What the decoder makes of the header, of the data of an option and of the bytes
behind the cookie. -/

namespace RustyDhcp

open Fallible

/-! ## Addresses -/

theorem Ipv4Addr.octets_eq (addr : Ipv4Addr) : addr.octets = toBeBytes addr.bits := by
  simp [octets, toBeBytes, bigEndian, ← UInt8.toNat_inj, Nat.shiftRight_eq_div_pow,
    Nat.div_div_eq_div_mul]

theorem Ipv4Addr.new_eq (a b c d : UInt8) : Ipv4Addr.new a b c d = ⟨ofBeBytes 32 [a, b, c, d]⟩ := by
  have aSmall := a.toNat_lt
  have bSmall := b.toNat_lt
  have cSmall := c.toNat_lt
  have dSmall := d.toNat_lt
  rw [new, Ipv4Addr.mk.injEq, ← BitVec.toNat_inj, BitVec.toNat_append, BitVec.toNat_append,
    BitVec.toNat_append, ← Nat.shiftLeft_add_eq_or_of_lt d.toBitVec.isLt,
    ← Nat.shiftLeft_add_eq_or_of_lt c.toBitVec.isLt,
    ← Nat.shiftLeft_add_eq_or_of_lt b.toBitVec.isLt]
  simp only [Nat.shiftLeft_eq, UInt8.toNat_toBitVec, ofBeBytes, ofBigEndian, List.foldl_cons,
    List.foldl_nil, BitVec.toNat_ofNat]
  omega

theorem index_drop {bytes : List UInt8} {start offset : Nat} {value : UInt8}
    (found : (bytes.drop start)[offset]? = some value) :
    Checked.index bytes (start + offset) = .ok value := by
  rw [List.getElem?_drop] at found
  exact Checked.index_eq_ok found

theorem readIpv4_eq_ok {bytes : List UInt8} {start : Nat} (inside : start + 4 ≤ bytes.length) :
    readIpv4 bytes start = .ok ⟨ofBeBytes 32 ((bytes.drop start).take 4)⟩ := by
  have length := List.length_drop (i := start) (l := bytes)
  rcases split : bytes.drop start with _ | ⟨a, _ | ⟨b, _ | ⟨c, _ | ⟨d, rest⟩⟩⟩⟩
  case cons.cons.cons.cons =>
    have first : Checked.index bytes (start + 0) = .ok a := index_drop (by rw [split]; rfl)
    have second : Checked.index bytes (start + 1) = .ok b := index_drop (by rw [split]; rfl)
    have third : Checked.index bytes (start + 2) = .ok c := index_drop (by rw [split]; rfl)
    have fourth : Checked.index bytes (start + 3) = .ok d := index_drop (by rw [split]; rfl)
    rw [readIpv4, ← Nat.add_zero start, first, Nat.add_zero, second, third, fourth]
    simp only [Checked.bind_ok, Checked.pure_eq_ok, Ipv4Addr.new_eq]
    rfl
  all_goals
    rw [split] at length
    simp only [List.length_cons, List.length_nil] at length
    omega

/-! ## Options -/

variable {code : UInt8} {data : List UInt8} {option : DhcpOption}

theorem ipv4Of_eq_ok_iff {addr : Ipv4Addr} :
    ipv4Of data = .ok addr ↔ ∃ extra, data = addr.octets ++ extra := by
  rw [ipv4Of]
  constructor
  · intro accepted
    split at accepted
    · cases accepted
    · rename_i long
      rw [readIpv4_eq_ok (by omega)] at accepted
      cases accepted
      have length : (data.take 4).length = 4 := by
        rw [List.length_take]
        omega
      refine ⟨data.drop 4, ?_⟩
      rw [Ipv4Addr.octets_eq, List.drop_zero, toBeBytes_ofBeBytes rfl length,
        List.take_append_drop]
  · intro found
    rcases found with ⟨extra, rfl⟩
    have length : (addr.octets ++ extra).length = 4 + extra.length := by
      rw [List.length_append, Ipv4Addr.octets_eq, length_toBeBytes]
    have first : (addr.octets ++ extra).take 4 = toBeBytes addr.bits := by
      rw [Ipv4Addr.octets_eq]
      exact List.take_left' (length_toBeBytes _)
    rw [if_neg (by omega), readIpv4_eq_ok (by omega), List.drop_zero, first,
      ofBeBytes_toBeBytes rfl]
    rfl

theorem ipv4Of_returns (data : List UInt8) : (ipv4Of data).Returns := by
  rw [ipv4Of]
  split
  · exact returns_refuse _
  · rw [readIpv4_eq_ok (by omega)]
    exact returns_ok _

theorem MessageType.fromOption_eq_some_iff {val : UInt8} {messageType : MessageType} :
    fromOption val = some messageType ↔ val = messageType.number := by
  constructor
  · intro found
    unfold fromOption at found
    split at found <;> cases found <;> rfl
  · intro equal
    subst equal
    cases messageType <;> rfl

/-- The codes of the options that the decoder treats in a way of their own. -/
def typedCodes : List UInt8 :=
  [Options.dhcpMessageType, Options.parameterRequestList, Options.serverIdentifier,
    Options.requestedIpAddress, Options.hostName, Options.router, Options.domainNameServer,
    Options.ipAddressLeaseTime, Options.subnetMask, Options.message]

/-- The option that a code and its data stand for. There is none for a router or
a name server. -/
inductive Denotes : UInt8 → List UInt8 → DhcpOption → Prop where
  | dhcpMessageType (messageType : MessageType) (extra : List UInt8) :
      Denotes Options.dhcpMessageType (messageType.number :: extra) (.dhcpMessageType messageType)
  | parameterRequestList (codes : List UInt8) :
      Denotes Options.parameterRequestList codes (.parameterRequestList codes)
  | serverIdentifier (addr : Ipv4Addr) (extra : List UInt8) :
      Denotes Options.serverIdentifier (addr.octets ++ extra) (.serverIdentifier addr)
  | requestedIpAddress (addr : Ipv4Addr) (extra : List UInt8) :
      Denotes Options.requestedIpAddress (addr.octets ++ extra) (.requestedIpAddress addr)
  | hostName (name : Text) : Denotes Options.hostName (asBytes name) (.hostName name)
  | ipAddressLeaseTime (secs : U32) (extra : List UInt8) :
      Denotes Options.ipAddressLeaseTime (toBeBytes secs ++ extra) (.ipAddressLeaseTime secs)
  | subnetMask (mask : Ipv4Addr) (extra : List UInt8) :
      Denotes Options.subnetMask (mask.octets ++ extra) (.subnetMask mask)
  | message (text : Text) : Denotes Options.message (asBytes text) (.message text)
  | unrecognized {code : UInt8} (untyped : code ∉ typedCodes) (data : List UInt8) :
      Denotes code data (.unrecognized ⟨code, data⟩)

theorem typedCodes_cases (code : UInt8) : code = Options.dhcpMessageType ∨
    code = Options.parameterRequestList ∨ code = Options.serverIdentifier ∨
    code = Options.requestedIpAddress ∨ code = Options.hostName ∨ code = Options.router ∨
    code = Options.domainNameServer ∨ code = Options.ipAddressLeaseTime ∨
    code = Options.subnetMask ∨ code = Options.message ∨ code ∉ typedCodes := by
  by_cases typed : code ∈ typedCodes
  · simp only [typedCodes, List.mem_cons, List.not_mem_nil, or_false] at typed
    tauto
  · tauto

theorem decodeData_untyped (untyped : code ∉ typedCodes) (data : List UInt8) :
    decodeData code data = .ok (.unrecognized ⟨code, data⟩) := by
  simp only [typedCodes, List.mem_cons, List.not_mem_nil, or_false, not_or] at untyped
  rcases untyped with ⟨a, b, c, d, e, f, g, h, i, j⟩
  rw [decodeData, if_neg a, if_neg b, if_neg c, if_neg d, if_neg e, if_neg (by tauto), if_neg h,
    if_neg i, if_neg j]
  rfl

theorem decodeData_dhcpMessageType (value : UInt8) (extra : List UInt8) :
    decodeData Options.dhcpMessageType (value :: extra) =
      match MessageType.fromOption value with
      | some messageType => .ok (.dhcpMessageType messageType)
      | none => refuse .unrecognizedMessageType := rfl

theorem decodeData_ipAddressLeaseTime (data : List UInt8) :
    decodeData Options.ipAddressLeaseTime data =
      if data.length < 4 then refuse .invalidHlen
      else .ok (.ipAddressLeaseTime (ofBeBytes 32 (data.take 4))) := by
  have equal : decodeData Options.ipAddressLeaseTime data = (do
      if data.length < 4 then refuse .invalidHlen
      return .ipAddressLeaseTime (← Checked.readBe 32 data 0)) := rfl
  rw [equal]
  by_cases short : data.length < 4
  · rw [if_pos short, if_pos short]
    rfl
  · rw [if_neg short, if_neg short, Checked.readBe_eq_ok (by omega)]
    rfl

/-- An option that consists of an address, however it is called. -/
theorem ipv4Of_bind_eq_ok_iff {build : Ipv4Addr → DhcpOption} :
    (do return build (← ipv4Of data) : Fallible CustomErr DhcpOption) = .ok option ↔
      ∃ addr extra, data = addr.octets ++ extra ∧ option = build addr := by
  rw [bind_eq_ok_iff]
  constructor
  · intro found
    rcases found with ⟨addr, read, equal⟩
    rcases ipv4Of_eq_ok_iff.mp read with ⟨extra, rfl⟩
    cases equal
    exact ⟨addr, extra, rfl, rfl⟩
  · intro found
    rcases found with ⟨addr, extra, rfl, rfl⟩
    exact ⟨addr, ipv4Of_eq_ok_iff.mpr ⟨extra, rfl⟩, rfl⟩

/-- An option that consists of a text, however it is called. -/
theorem fromUtf8_match_eq_ok_iff {build : Text → DhcpOption} :
    (match fromUtf8 data with
      | some text => (.ok (build text) : Fallible CustomErr DhcpOption)
      | none => refuse .nonUtf8String) = .ok option ↔
      ∃ text, data = asBytes text ∧ option = build text := by
  constructor
  · intro accepted
    split at accepted
    · rename_i text read
      cases accepted
      exact ⟨text, (fromUtf8_eq_some_iff.mp read).symm, rfl⟩
    · cases accepted
  · intro found
    rcases found with ⟨text, rfl, rfl⟩
    rw [fromUtf8_eq_some_iff.mpr rfl]

theorem denotes_of_decodeData (accepted : decodeData code data = .ok option) :
    Denotes code data option := by
  rcases typedCodes_cases code with
    rfl | rfl | rfl | rfl | rfl | rfl | rfl | rfl | rfl | rfl | untyped
  · cases data with
    | nil => cases accepted
    | cons value extra =>
        rw [decodeData_dhcpMessageType] at accepted
        split at accepted
        · rename_i messageType known
          cases accepted
          rw [MessageType.fromOption_eq_some_iff.mp known]
          exact .dhcpMessageType messageType extra
        · cases accepted
  · cases accepted
    exact .parameterRequestList data
  · rcases ipv4Of_bind_eq_ok_iff.mp accepted with ⟨addr, extra, rfl, rfl⟩
    exact .serverIdentifier addr extra
  · rcases ipv4Of_bind_eq_ok_iff.mp accepted with ⟨addr, extra, rfl, rfl⟩
    exact .requestedIpAddress addr extra
  · rcases fromUtf8_match_eq_ok_iff.mp accepted with ⟨name, rfl, rfl⟩
    exact .hostName name
  · cases accepted
  · cases accepted
  · rw [decodeData_ipAddressLeaseTime] at accepted
    split at accepted
    · cases accepted
    · rename_i long
      cases accepted
      have length : (data.take 4).length = 4 := by
        rw [List.length_take]
        omega
      have denoted := Denotes.ipAddressLeaseTime (ofBeBytes 32 (data.take 4)) (data.drop 4)
      rw [toBeBytes_ofBeBytes rfl length, List.take_append_drop] at denoted
      exact denoted
  · rcases ipv4Of_bind_eq_ok_iff.mp accepted with ⟨addr, extra, rfl, rfl⟩
    exact .subnetMask addr extra
  · rcases fromUtf8_match_eq_ok_iff.mp accepted with ⟨text, rfl, rfl⟩
    exact .message text
  · rw [decodeData_untyped untyped] at accepted
    cases accepted
    exact .unrecognized untyped data

theorem decodeData_of_denotes (denoted : Denotes code data option) :
    decodeData code data = .ok option := by
  cases denoted with
  | dhcpMessageType messageType extra =>
      rw [decodeData_dhcpMessageType, MessageType.fromOption_eq_some_iff.mpr rfl]
  | parameterRequestList codes => rfl
  | serverIdentifier addr extra => exact ipv4Of_bind_eq_ok_iff.mpr ⟨addr, extra, rfl, rfl⟩
  | requestedIpAddress addr extra => exact ipv4Of_bind_eq_ok_iff.mpr ⟨addr, extra, rfl, rfl⟩
  | hostName name => exact fromUtf8_match_eq_ok_iff.mpr ⟨name, rfl, rfl⟩
  | ipAddressLeaseTime secs extra =>
      have first : (toBeBytes secs ++ extra).take 4 = toBeBytes secs :=
        List.take_left' (length_toBeBytes _)
      have long : ¬(toBeBytes secs ++ extra).length < 4 := by
        rw [List.length_append, length_toBeBytes]
        omega
      rw [decodeData_ipAddressLeaseTime, if_neg long, first, ofBeBytes_toBeBytes rfl]
  | subnetMask mask extra => exact ipv4Of_bind_eq_ok_iff.mpr ⟨mask, extra, rfl, rfl⟩
  | message text => exact fromUtf8_match_eq_ok_iff.mpr ⟨text, rfl, rfl⟩
  | unrecognized untyped => exact decodeData_untyped untyped _

theorem decodeData_eq_ok_iff : decodeData code data = .ok option ↔ Denotes code data option :=
  ⟨denotes_of_decodeData, decodeData_of_denotes⟩

theorem fromUtf8_match_returns {build : Text → DhcpOption} :
    Returns (match fromUtf8 data with
      | some text => (.ok (build text) : Fallible CustomErr DhcpOption)
      | none => refuse .nonUtf8String) := by
  split
  · exact returns_ok _
  · exact returns_refuse _

theorem decodeData_returns (code : UInt8) (data : List UInt8) : (decodeData code data).Returns := by
  have address : ∀ build : Ipv4Addr → DhcpOption,
      (do return build (← ipv4Of data) : Fallible CustomErr DhcpOption).Returns :=
    fun build => (ipv4Of_returns data).bind fun _ _ => returns_ok _
  rcases typedCodes_cases code with
    rfl | rfl | rfl | rfl | rfl | rfl | rfl | rfl | rfl | rfl | untyped
  · cases data with
    | nil => exact returns_refuse _
    | cons value extra =>
        rw [decodeData_dhcpMessageType]
        split
        · exact returns_ok _
        · exact returns_refuse _
  · exact returns_ok _
  · exact address .serverIdentifier
  · exact address .requestedIpAddress
  · exact fromUtf8_match_returns
  · exact returns_refuse _
  · exact returns_refuse _
  · rw [decodeData_ipAddressLeaseTime]
    split
    · exact returns_refuse _
    · exact returns_ok _
  · exact address .subnetMask
  · exact fromUtf8_match_returns
  · rw [decodeData_untyped untyped]
    exact returns_ok _

/-! ## One option after the other -/

/-- The option that is read as a field. -/
def readOption (field : Field) : Fallible CustomErr DhcpOption :=
  decodeData (.ofNat field.code) field.data

theorem decodeOption_end {input : List UInt8} (starts : input.head? = some endByte) :
    decodeOption input = .error (.panic .assertionFailed) := by
  cases input with
  | nil => cases starts
  | cons byte input =>
      cases starts
      rfl

theorem split_cons_cons (code length : UInt8) (rest : List UInt8) :
    Field.split 1 (code :: length :: rest) =
      if length.toNat ≤ rest.length then
        some (⟨code.toNat, rest.take length.toNat⟩, rest.drop length.toNat)
      else none := by
  simp [Field.split, ofBigEndian]

/-- Options are fields whose code and length take one byte, unless the first byte
is END. -/
theorem decodeOption_eq {input : List UInt8} (starts : input.head? ≠ some endByte) :
    decodeOption input = Field.reader 1 .invalidHlen readOption input := by
  rcases input with _ | ⟨code, _ | ⟨length, rest⟩⟩
  · rfl
  · have notEnd : code ≠ endByte := fun equal => starts (congrArg some equal)
    simp [decodeOption, Checked.assert, Checked.index, notEnd, Field.reader, Field.split]
  · have notEnd : code ≠ endByte := fun equal => starts (congrArg some equal)
    have allowed : Checked.assert (code ≠ endByte) = .ok () := by simp [Checked.assert, notEnd]
    have room : Checked.sub (rest.length + 1 + 1) 2 = .ok rest.length :=
      Checked.sub_eq_ok (by omega)
    simp only [decodeOption, List.isEmpty_cons, Bool.false_eq_true, ↓reduceIte, allowed,
      Checked.index, List.getElem?_cons_zero, List.getElem?_cons_succ, lift_ok, bind_ok,
      List.length_cons, Field.reader, split_cons_cons, room]
    by_cases complete : length.toNat ≤ rest.length
    · have total : (code :: length :: rest).length = rest.length + 1 + 1 := rfl
      have remaining : (code :: length :: rest).drop (2 + length.toNat) =
          rest.drop length.toNat := by
        rw [Nat.add_comm]
        rfl
      rw [if_neg (by omega), if_pos complete, Checked.slice_eq_ok (by omega) (by omega), ← total,
        Checked.slice_length (by omega), Nat.add_sub_cancel_left, remaining]
      simp only [lift_ok, bind_ok, readOption, UInt8.ofNat_toNat]
      rfl
    · rw [if_pos (by omega), if_neg complete]
      rfl

/-- A complete option, which is not END, with the value that the decoder gives it. -/
structure ReadsAs (field : Field) (option : DhcpOption) : Prop where
  fits : field.Fits 1
  notEnd : field.code ≠ 255
  denotes : Denotes (.ofNat field.code) field.data option

variable {input rest : List UInt8} {field : Field} {fields : List Field}
  {options : List DhcpOption}

theorem head?_bytes (fits : field.Fits 1) :
    (field.bytes 1 ++ rest).head? = some endByte ↔ field.code = 255 := by
  have small : field.code < 256 := fits.code
  have head : (field.bytes 1 ++ rest).head? = some (.ofNat field.code) := rfl
  rw [head, Option.some.injEq, ← UInt8.toNat_inj, UInt8.toNat_ofNat', Nat.mod_eq_of_lt small]
  rfl

theorem decodeOption_eq_ok_iff (starts : input.head? ≠ some endByte) :
    decodeOption input = .ok (rest, option) ↔
      ∃ field, ReadsAs field option ∧ input = field.bytes 1 ++ rest := by
  rw [decodeOption_eq starts, Field.reader_eq_ok_iff]
  constructor
  · intro found
    rcases found with ⟨field, fits, rfl, accepted⟩
    have notEnd := mt (head?_bytes fits).mpr starts
    exact ⟨field, ⟨fits, notEnd, decodeData_eq_ok_iff.mp accepted⟩, rfl⟩
  · intro found
    rcases found with ⟨field, reads, rfl⟩
    exact ⟨field, reads.fits, rfl, decodeData_eq_ok_iff.mpr reads.denotes⟩

/-- No option can be decoded at the beginning of the bytes. -/
structure Stuck (input : List UInt8) : Prop where
  notEnd : input.head? ≠ some endByte
  noField : ∀ field option rest, ReadsAs field option → input ≠ field.bytes 1 ++ rest

/-- How the decoder walks over the bytes behind the cookie: what it leaves and
the options that it finds. It looks for END only behind an option. -/
inductive Walk : List UInt8 → List UInt8 → List DhcpOption → Prop where
  | stuck {input : List UInt8} (stuck : Stuck input) : Walk input input []
  | last {field : Field} {option : DhcpOption} {rest : List UInt8} (reads : ReadsAs field option)
      (ends : rest.head? = some endByte) : Walk (field.bytes 1 ++ rest) rest [option]
  | more {field : Field} {option : DhcpOption} {rest left : List UInt8}
      {options : List DhcpOption} (reads : ReadsAs field option)
      (goesOn : rest.head? ≠ some endByte) (walk : Walk rest left options) :
      Walk (field.bytes 1 ++ rest) left (option :: options)

theorem attempt_decodeOption_of_readsAs (reads : ReadsAs field option) :
    attempt (decodeOption (field.bytes 1 ++ rest)) =
      (.ok (some (rest, option)) : Fallible CustomErr _) := by
  have starts : (field.bytes 1 ++ rest).head? ≠ some endByte :=
    mt (head?_bytes reads.fits).mp reads.notEnd
  rw [(decodeOption_eq_ok_iff starts).mpr ⟨field, reads, rfl⟩]
  rfl

theorem attempt_decodeOption_of_stuck (stuck : Stuck input) :
    attempt (decodeOption input) = (.ok none : Fallible CustomErr _) := by
  have returns : (decodeOption input).Returns := by
    rw [decodeOption_eq stuck.notEnd]
    exact Field.reader_returns (fun field => decodeData_returns _ _) input
  rcases returns with ⟨⟨rest, option⟩, accepted⟩ | ⟨error, refused⟩
  · rcases (decodeOption_eq_ok_iff stuck.notEnd).mp accepted with ⟨field, reads, equal⟩
    exact absurd equal (stuck.noField field option rest reads)
  · rw [refused]
    rfl

theorem decodeOptions_of_walk {rounds : Nat} (walk : Walk input rest options)
    (enough : input.length < rounds) : decodeOptions rounds input = .ok (rest, options) := by
  induction walk generalizing rounds with
  | stuck stuck =>
      cases rounds with
      | zero => omega
      | succ rounds => simp [decodeOptions, attempt_decodeOption_of_stuck stuck]
  | last reads ends =>
      cases rounds with
      | zero => omega
      | succ rounds => simp [decodeOptions, attempt_decodeOption_of_readsAs reads, ends]
  | more reads goesOn _ induction =>
      rw [List.length_append, Field.length_bytes] at enough
      cases rounds with
      | zero => omega
      | succ rounds =>
          simp [decodeOptions, attempt_decodeOption_of_readsAs reads, goesOn,
            induction (show _ < rounds by omega)]

theorem Walk.unique {others : List DhcpOption} {left : List UInt8} (walk : Walk input rest options)
    (other : Walk input left others) : rest = left ∧ options = others := by
  have first := decodeOptions_of_walk walk (Nat.lt_succ_self _)
  rw [decodeOptions_of_walk other (Nat.lt_succ_self _)] at first
  cases first
  exact ⟨rfl, rfl⟩

theorem exists_walk (starts : input.head? ≠ some endByte) :
    ∃ rest options, Walk input rest options := by
  induction count : input.length using Nat.strongRecOn generalizing input with
  | ind count induction =>
      by_cases stuck : Stuck input
      · exact ⟨input, [], .stuck stuck⟩
      have found : ∃ field option rest, ReadsAs field option ∧ input = field.bytes 1 ++ rest := by
        by_contra none
        refine stuck ⟨starts, fun field option rest reads equal => ?_⟩
        exact none ⟨field, option, rest, reads, equal⟩
      rcases found with ⟨field, option, rest, reads, rfl⟩
      by_cases ends : rest.head? = some endByte
      · exact ⟨rest, [option], .last reads ends⟩
      · rw [List.length_append, Field.length_bytes] at count
        rcases induction rest.length (by omega) ends rfl with ⟨left, options, walk⟩
        exact ⟨left, option :: options, .more reads ends walk⟩

theorem decodeOptions_eq_ok_iff (starts : input.head? ≠ some endByte) :
    decodeOptions (input.length + 1) input = .ok (rest, options) ↔ Walk input rest options := by
  constructor
  · intro accepted
    rcases exists_walk starts with ⟨left, found, walk⟩
    rw [decodeOptions_of_walk walk (Nat.lt_succ_self _)] at accepted
    cases accepted
    exact walk
  · exact fun walk => decodeOptions_of_walk walk (Nat.lt_succ_self _)

theorem decodeOptions_end {rounds : Nat} (starts : input.head? = some endByte) :
    decodeOptions (rounds + 1) input = .error (.panic .assertionFailed) := by
  rw [decodeOptions, decodeOption_end starts]
  rfl

/-! ## Whole packets -/

/-- The packet whose header the bytes begin with. -/
def Packet.ofHeader (input : List UInt8) (options : List DhcpOption) : Packet where
  reply := input.getD 0 0 = bootReply
  hops := input.getD 3 0
  xid := ofBeBytes 32 ((input.drop 4).take 4)
  secs := ofBeBytes 16 ((input.drop 8).take 2)
  broadcast := ofBeBytes 16 ((input.drop 10).take 2) &&& 128 = 128
  ciaddr := ⟨ofBeBytes 32 ((input.drop 12).take 4)⟩
  yiaddr := ⟨ofBeBytes 32 ((input.drop 16).take 4)⟩
  siaddr := ⟨ofBeBytes 32 ((input.drop 20).take 4)⟩
  giaddr := ⟨ofBeBytes 32 ((input.drop 24).take 4)⟩
  chaddr := #v[input.getD 28 0, input.getD 29 0, input.getD 30 0, input.getD 31 0,
    input.getD 32 0, input.getD 33 0]
  options := options

/-- A header of hardware addresses of six bytes, then the cookie. -/
structure ValidHeader (input : List UInt8) : Prop where
  long : 236 ≤ input.length
  hlen : input[2]? = some 6
  cookie : (input.drop 236).take 4 = cookie

theorem index_header {position : Nat} (long : 236 ≤ input.length) (inside : position < 236) :
    Checked.index (input.take 236) position = .ok (input.getD position 0) := by
  have found : input[position]? = some input[position] := List.getElem?_eq_getElem (by omega)
  rw [List.getD_eq_getElem?_getD, found]
  apply Checked.index_eq_ok
  rw [List.getElem?_take_of_lt inside, found]
  rfl

theorem drop_header (start count : Nat) (inside : start + count ≤ 236) :
    ((input.take 236).drop start).take count = (input.drop start).take count := by
  rw [List.drop_take, List.take_take, Nat.min_eq_left (by omega)]

theorem readBe_header {width start : Nat} (long : 236 ≤ input.length)
    (inside : start + width / 8 ≤ 236) : Checked.readBe width (input.take 236) start =
      .ok (ofBeBytes width ((input.drop start).take (width / 8))) := by
  rw [Checked.readBe_eq_ok, drop_header start _ inside]
  rw [List.length_take]
  omega

theorem readIpv4_header {start : Nat} (long : 236 ≤ input.length) (inside : start + 4 ≤ 236) :
    readIpv4 (input.take 236) start = .ok ⟨ofBeBytes 32 ((input.drop start).take 4)⟩ := by
  rw [readIpv4_eq_ok, drop_header start _ inside]
  rw [List.length_take]
  omega

theorem decodeHeader_eq (long : 236 ≤ input.length) : decodeHeader (input.take 236) =
    if input.getD 2 0 = 6 then .ok (.ofHeader input []) else refuse .invalidHlen := by
  have reply : (if input.getD 0 0 = bootReply then true
      else if input.getD 0 0 = bootRequest then false else false) =
        decide (input.getD 0 0 = bootReply) := by
    by_cases isReply : input.getD 0 0 = bootReply
    · rw [if_pos isReply, decide_eq_true isReply]
    · rw [if_neg isReply, ite_self, decide_eq_false isReply]
  rw [decodeHeader, index_header long (by omega), index_header long (by omega)]
  simp only [lift_ok, bind_ok]
  by_cases six : input.getD 2 0 = 6
  · rw [if_neg (not_not.mpr six), if_pos six, index_header long (by omega),
      readBe_header long (by omega), readBe_header long (by omega), readBe_header long (by omega),
      readIpv4_header long (by omega), readIpv4_header long (by omega),
      readIpv4_header long (by omega), readIpv4_header long (by omega),
      index_header long (by omega), index_header long (by omega), index_header long (by omega),
      index_header long (by omega), index_header long (by omega), index_header long (by omega)]
    simp only [lift_ok, bind_ok, pure_eq_ok, reply]
    rfl
  · rw [if_pos six, if_neg six]
    rfl

theorem getD_eq_six : input.getD 2 0 = 6 ↔ input[2]? = some 6 := by
  rw [List.getD_eq_getElem?_getD]
  cases input[2]? with
  | none => decide
  | some value => simp

theorem decode_of_valid (valid : ValidHeader input) : decode input = (do
    let (rest, options) ← decodeOptions ((input.drop 240).length + 1) (input.drop 240)
    let (_, left) ← Checked.splitAt rest 1
    return (left, .ofHeader input options)) := by
  rcases valid with ⟨long, hlen, tagged⟩
  have room : 4 ≤ (input.drop 236).length := by
    have length := congrArg List.length tagged
    rw [List.length_take] at length
    simp only [cookie, List.length_cons, List.length_nil] at length
    omega
  have cookieSlice : Checked.slice (input.drop 236) 0 4 = .ok cookie := by
    rw [Checked.slice_eq_ok (by omega) room, List.drop_zero, tagged]
  rw [decode, if_neg (by omega), Checked.splitAt_eq_ok long]
  simp only [lift_ok, bind_ok]
  rw [decodeHeader_eq long, if_pos (getD_eq_six.mpr hlen)]
  simp only [bind_ok]
  rw [if_neg (by omega), cookieSlice, Checked.slice_length room]
  simp only [lift_ok, bind_ok]
  rw [if_neg (not_not.mpr rfl), List.drop_drop]
  rfl

theorem decode_of_invalid (invalid : ¬ValidHeader input) :
    ∃ error, decode input = refuse error := by
  rw [decode]
  by_cases short : input.length < 236
  · exact ⟨.invalidHlen, by rw [if_pos short]; rfl⟩
  have long : 236 ≤ input.length := by omega
  rw [if_neg short, Checked.splitAt_eq_ok long]
  simp only [lift_ok, bind_ok]
  rw [decodeHeader_eq long]
  by_cases six : input.getD 2 0 = 6
  · rw [if_pos six]
    simp only [bind_ok]
    by_cases untagged : (input.drop 236).length < 4
    · exact ⟨_, by rw [if_pos untagged]; rfl⟩
    · rw [if_neg untagged, Checked.slice_eq_ok (by omega) (by omega)]
      simp only [lift_ok, bind_ok, List.drop_zero]
      refine ⟨.nomError (input.drop 236) .tag, ?_⟩
      rw [if_pos]
      · rfl
      · exact fun tagged => invalid ⟨long, getD_eq_six.mp six, tagged⟩
  · rw [if_neg six]
    exact ⟨_, rfl⟩

/-- The walk over the option area finds these options and leaves a byte that can
be skipped as END. -/
def Skippable (area : List UInt8) (options : List DhcpOption) : Prop :=
  area.head? ≠ some endByte ∧ ∃ rest, rest ≠ [] ∧ Walk area rest options

theorem fromBytes_of_invalid (invalid : ¬ValidHeader input) :
    ∃ error, Packet.fromBytes input = refuse error := by
  rcases decode_of_invalid invalid with ⟨error, refused⟩
  rw [Packet.fromBytes, refused]
  exact ⟨error, rfl⟩

theorem fromBytes_of_skippable (valid : ValidHeader input)
    (skippable : Skippable (input.drop 240) options) :
    Packet.fromBytes input = .ok (.ofHeader input options) := by
  rcases skippable with ⟨starts, rest, more, walk⟩
  have length := List.length_pos_iff.mpr more
  rw [Packet.fromBytes, decode_of_valid valid, (decodeOptions_eq_ok_iff starts).mpr walk, bind_ok]
  simp only [Checked.splitAt_eq_ok (show 1 ≤ rest.length by omega), lift_ok, bind_ok, pure_eq_ok]

theorem fromBytes_panics (valid : ValidHeader input)
    (notSkippable : ∀ options, ¬Skippable (input.drop 240) options) :
    (Packet.fromBytes input).Panics := by
  rw [Packet.fromBytes, decode_of_valid valid]
  by_cases starts : (input.drop 240).head? = some endByte
  · rw [decodeOptions_end starts]
    exact ⟨.assertionFailed, rfl⟩
  · rcases exists_walk starts with ⟨rest, options, walk⟩
    have none : rest = [] := by
      by_contra more
      exact notSkippable options ⟨starts, rest, more, walk⟩
    rw [decodeOptions_of_walk walk (Nat.lt_succ_self _), none]
    exact ⟨.indexOutOfBounds, rfl⟩

theorem fromBytes_eq_ok_iff {packet : Packet} : Packet.fromBytes input = .ok packet ↔
    ValidHeader input ∧ ∃ options, Skippable (input.drop 240) options ∧
      packet = .ofHeader input options := by
  constructor
  · intro accepted
    by_cases valid : ValidHeader input
    · by_cases some : ∃ options, Skippable (input.drop 240) options
      · rcases some with ⟨options, skippable⟩
        rw [fromBytes_of_skippable valid skippable] at accepted
        cases accepted
        exact ⟨valid, options, skippable, rfl⟩
      · rcases fromBytes_panics valid (not_exists.mp some) with ⟨reason, panics⟩
        rw [panics] at accepted
        cases accepted
    · rcases fromBytes_of_invalid valid with ⟨error, refused⟩
      rw [refused] at accepted
      cases accepted
  · intro found
    rcases found with ⟨valid, options, skippable, rfl⟩
    exact fromBytes_of_skippable valid skippable

theorem fromBytes_returns_iff : (Packet.fromBytes input).Returns ↔
    (ValidHeader input → ∃ options, Skippable (input.drop 240) options) := by
  constructor
  · intro returns valid
    by_contra none
    rcases fromBytes_panics valid (not_exists.mp none) with ⟨reason, panics⟩
    rw [panics] at returns
    rcases returns with ⟨_, equal⟩ | ⟨_, equal⟩ <;> cases equal
  · intro skippable
    by_cases valid : ValidHeader input
    · rcases skippable valid with ⟨options, skippable⟩
      rw [fromBytes_of_skippable valid skippable]
      exact returns_ok _
    · rcases fromBytes_of_invalid valid with ⟨error, refused⟩
      rw [refused]
      exact returns_refuse error

end RustyDhcp

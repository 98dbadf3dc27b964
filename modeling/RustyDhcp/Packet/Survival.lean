import RustyDhcp.Packet.Format

/-! # Which datagrams stop the DHCPv4 server

The decoder panics when the options begin with END and when they fill the
datagram to its last byte. -/

namespace RustyDhcp

open Fallible

/-- The data is valid for the code. The decoder knows no valid router and no
valid name server. -/
def ValidData : (code : Nat) → (data : List UInt8) → Prop
  | 53, data => ∃ value, data.head? = some value ∧ 1 ≤ value.toNat ∧ value.toNat ≤ 8
  | 1, data | 50, data | 51, data | 54, data => 4 ≤ data.length
  | 12, data | 56, data => ∃ text, asBytes text = data
  | 3, _ | 6, _ => False
  | _, _ => True

/-- A complete option that is not END. -/
structure DecodableOption (field : Field) : Prop where
  fits : field.Fits 1
  notEnd : field.code ≠ 255
  valid : ValidData field.code field.data

/-- A packet of which nothing but complete options follows the cookie, or END at
once. -/
def Deadly (bytes : List UInt8) : Prop :=
  ValidHeader bytes ∧ (bytes[240]? = some 255 ∨
    ∃ fields, (∀ field ∈ fields, DecodableOption field) ∧ bytes.drop 240 = Field.join 1 fields)

/-! ## Decodable options -/

variable {field : Field} {fields : List Field} {input : List UInt8} {options : List DhcpOption}

theorem MessageType.exists_number_iff {value : UInt8} :
    (∃ messageType : MessageType, value = messageType.number) ↔
      1 ≤ value.toNat ∧ value.toNat ≤ 8 := by
  have numbers : ∀ number : Fin 9, 0 < number.val →
      (fromOption (.ofNat number.val)).isSome = true := by decide
  constructor
  · intro found
    rcases found with ⟨messageType, rfl⟩
    cases messageType <;> decide
  · intro found
    rcases found with ⟨positive, small⟩
    have known := numbers ⟨value.toNat, by omega⟩ positive
    rw [UInt8.ofNat_toNat] at known
    rcases Option.isSome_iff_exists.mp known with ⟨messageType, found⟩
    exact ⟨messageType, fromOption_eq_some_iff.mp found⟩

theorem four_le_length_iff {data : List UInt8} :
    4 ≤ data.length ↔ ∃ (value : U32) (extra : _), data = toBeBytes value ++ extra := by
  constructor
  · intro long
    have length : (data.take 4).length = 4 := by
      rw [List.length_take]
      omega
    refine ⟨ofBeBytes 32 (data.take 4), data.drop 4, ?_⟩
    rw [toBeBytes_ofBeBytes rfl length, List.take_append_drop]
  · intro found
    rcases found with ⟨value, extra, rfl⟩
    rw [List.length_append, length_toBeBytes]
    exact Nat.le_add_right _ _

variable {data : List UInt8}

theorem exists_address_iff {build : Ipv4Addr → DhcpOption} :
    4 ≤ data.length ↔
      ∃ option, (do return build (← ipv4Of data) : Fallible CustomErr DhcpOption) = .ok option := by
  rw [four_le_length_iff]
  constructor
  · intro found
    rcases found with ⟨value, extra, bytes⟩
    refine ⟨build ⟨value⟩, ipv4Of_bind_eq_ok_iff.mpr ⟨⟨value⟩, extra, ?_, rfl⟩⟩
    rw [Ipv4Addr.octets_eq]
    exact bytes
  · intro found
    rcases found with ⟨option, accepted⟩
    rcases ipv4Of_bind_eq_ok_iff.mp accepted with ⟨addr, extra, bytes, _⟩
    rw [Ipv4Addr.octets_eq] at bytes
    exact ⟨addr.bits, extra, bytes⟩

theorem exists_text_iff {build : Text → DhcpOption} :
    (∃ text, asBytes text = data) ↔ ∃ option, (match fromUtf8 data with
      | some text => (.ok (build text) : Fallible CustomErr DhcpOption)
      | none => refuse .nonUtf8String) = .ok option := by
  constructor
  · intro found
    rcases found with ⟨text, bytes⟩
    exact ⟨build text, fromUtf8_match_eq_ok_iff.mpr ⟨text, bytes.symm, rfl⟩⟩
  · intro found
    rcases found with ⟨option, accepted⟩
    rcases fromUtf8_match_eq_ok_iff.mp accepted with ⟨text, bytes, _⟩
    exact ⟨text, bytes.symm⟩

theorem exists_messageType_iff :
    ValidData 53 data ↔ ∃ option, Denotes Options.dhcpMessageType data option := by
  constructor
  · intro found
    rcases found with ⟨value, first, known⟩
    rcases MessageType.exists_number_iff.mpr known with ⟨messageType, rfl⟩
    rcases List.head?_eq_some_iff.mp first with ⟨extra, rfl⟩
    exact ⟨_, .dhcpMessageType messageType extra⟩
  · intro found
    rcases found with ⟨option, denoted⟩
    cases denoted with
    | dhcpMessageType messageType extra =>
        exact ⟨messageType.number, rfl, MessageType.exists_number_iff.mp ⟨messageType, rfl⟩⟩
    | unrecognized untyped => exact absurd (by decide) untyped

theorem validData_untyped {code : UInt8} (untyped : code ∉ typedCodes) :
    ValidData code.toNat data := by
  have number : code.toNat ∉ typedCodes.map UInt8.toNat := by
    intro member
    rcases List.mem_map.mp member with ⟨other, typed, equal⟩
    rw [UInt8.toNat_inj.mp equal] at typed
    exact untyped typed
  generalize code.toNat = value at number
  unfold ValidData
  split
  case h_10 => trivial
  all_goals exact absurd (by decide) number

theorem validData_iff (code : UInt8) (data : List UInt8) :
    ValidData code.toNat data ↔ ∃ option, Denotes code data option := by
  rcases typedCodes_cases code with
    rfl | rfl | rfl | rfl | rfl | rfl | rfl | rfl | rfl | rfl | untyped
  case inl => exact exists_messageType_iff
  all_goals simp only [← decodeData_eq_ok_iff]
  · exact ⟨fun _ => ⟨_, rfl⟩, fun _ => trivial⟩
  · exact exists_address_iff
  · exact exists_address_iff
  · exact exists_text_iff
  · refine ⟨False.elim, ?_⟩
    intro found
    rcases found with ⟨_, accepted⟩
    cases accepted
  · refine ⟨False.elim, ?_⟩
    intro found
    rcases found with ⟨_, accepted⟩
    cases accepted
  · rw [decodeData_ipAddressLeaseTime]
    constructor
    · intro long
      exact ⟨_, if_neg (Nat.not_lt.mpr long)⟩
    · intro found
      rcases found with ⟨option, accepted⟩
      split at accepted
      · cases accepted
      · rename_i long
        exact Nat.not_lt.mp long
  · exact exists_address_iff
  · exact exists_text_iff
  · exact ⟨fun _ => ⟨_, decodeData_untyped untyped data⟩, fun _ => validData_untyped untyped⟩

theorem decodableOption_iff : DecodableOption field ↔ ∃ option, ReadsAs field option := by
  have back : field.code < 256 → (UInt8.ofNat field.code).toNat = field.code :=
    fun small => (UInt8.toNat_ofNat' ).trans (Nat.mod_eq_of_lt small)
  constructor
  · intro found
    rcases found with ⟨fits, notEnd, valid⟩
    rw [← back fits.code, validData_iff] at valid
    rcases valid with ⟨option, denoted⟩
    exact ⟨option, fits, notEnd, denoted⟩
  · intro found
    rcases found with ⟨option, fits, notEnd, denoted⟩
    refine ⟨fits, notEnd, ?_⟩
    rw [← back fits.code, validData_iff]
    exact ⟨option, denoted⟩

/-! ## Option areas without END -/

theorem head?_join (reads : List.Forall₂ ReadsAs fields options) :
    (Field.join 1 fields).head? ≠ some endByte := by
  cases reads with
  | nil => simp
  | cons here _ =>
      rw [Field.join_cons]
      exact mt (head?_bytes here.fits).mp here.notEnd

theorem stuck_nil : Stuck [] := by
  refine ⟨by simp, ?_⟩
  intro field option rest _ equal
  have length := congrArg List.length equal
  rw [List.length_append, Field.length_bytes, List.length_nil] at length
  omega

theorem walk_join (reads : List.Forall₂ ReadsAs fields options) :
    Walk (Field.join 1 fields) [] options := by
  induction reads with
  | nil => exact .stuck stuck_nil
  | cons here others induction => exact .more here (head?_join others) induction

theorem fields_of_walk {rest : List UInt8} (walk : Walk input rest options) :
    ∃ fields, List.Forall₂ ReadsAs fields options ∧ input = Field.join 1 fields ++ rest := by
  induction walk with
  | stuck => exact ⟨[], .nil, rfl⟩
  | @last field option rest reads _ =>
      refine ⟨[field], .cons reads .nil, ?_⟩
      rw [Field.join_cons, Field.join_nil, List.append_nil]
  | @more field option rest left options reads _ _ induction =>
      rcases induction with ⟨fields, all, rfl⟩
      refine ⟨field :: fields, .cons reads all, ?_⟩
      rw [Field.join_cons, List.append_assoc]

/-- Nothing is left for the decoder to skip exactly behind a last complete
option. -/
theorem exists_skippable_iff : (∃ options, Skippable input options) ↔
    ¬(input.head? = some endByte ∨
      ∃ fields, (∀ field ∈ fields, DecodableOption field) ∧ input = Field.join 1 fields) := by
  simp only [decodableOption_iff, ← Field.exists_forall₂_iff]
  constructor
  · intro found holds
    rcases found with ⟨options, starts, rest, more, walk⟩
    rcases holds with ends | ⟨fields, ⟨others, reads⟩, rfl⟩
    · exact starts ends
    · exact more (walk.unique (walk_join reads)).1
  · intro notDeadly
    rw [not_or] at notDeadly
    rcases exists_walk notDeadly.1 with ⟨rest, options, walk⟩
    refine ⟨options, notDeadly.1, rest, ?_, walk⟩
    intro equal
    subst equal
    rcases fields_of_walk walk with ⟨fields, reads, equal⟩
    rw [List.append_nil] at equal
    exact notDeadly.2 ⟨fields, ⟨options, reads⟩, equal⟩

theorem returns_iff_not_deadly (bytes : List UInt8) :
    (Packet.fromBytes bytes).Returns ↔ ¬Deadly bytes := by
  have first : (bytes.drop 240).head? = bytes[240]? := List.head?_drop
  rw [fromBytes_returns_iff, exists_skippable_iff, Deadly, first]
  exact not_and.symm

/-! ## The serving loop -/

/-- `Server::serve_with_broadcasts` on the datagrams that arrive. A datagram that
cannot be decoded is noted, and the buffer for a datagram has 1500 bytes. -/
def serve (handle : State → Packet → State) :
    (state : State) → (datagrams : List (List UInt8)) → Fallible CustomErr State
  | state, [] => .ok state
  | state, datagram :: datagrams => do
      match ← attempt (Packet.fromBytes (datagram.take 1500)) with
      | some packet => serve handle (handle state packet) datagrams
      | none => serve handle state datagrams

theorem attempt_of_returns {result : Fallible Error α} (returns : result.Returns) :
    ∃ value, (attempt result : Fallible Other (Option α)) = .ok value := by
  rcases returns with ⟨value, rfl⟩ | ⟨error, rfl⟩
  · exact ⟨some value, rfl⟩
  · exact ⟨none, rfl⟩

theorem attempt_of_not_returns {result : Fallible Error α} (stops : ¬result.Returns) :
    ∃ failure, (attempt result : Fallible Other (Option α)) = .error failure := by
  rcases result with (reason | _ | error) | value
  · exact ⟨.panic reason, rfl⟩
  · exact ⟨.endless, rfl⟩
  · exact absurd (returns_refuse error) stops
  · exact absurd (returns_ok value) stops

theorem serve_ends_iff (handle : State → Packet → State) (state : State)
    (datagrams : List (List UInt8)) :
    (∃ final, serve handle state datagrams = .ok final) ↔
      ∀ datagram ∈ datagrams, ¬Deadly (datagram.take 1500) := by
  induction datagrams generalizing state with
  | nil => exact ⟨fun _ => by simp, fun _ => ⟨state, rfl⟩⟩
  | cons datagram datagrams induction =>
      rw [List.forall_mem_cons, ← returns_iff_not_deadly, serve]
      by_cases returns : (Packet.fromBytes (datagram.take 1500)).Returns
      · rcases attempt_of_returns returns with ⟨value, decoded⟩
        rw [decoded, bind_ok]
        cases value with
        | none => exact (induction state).trans (and_iff_right returns).symm
        | some packet => exact (induction (handle state packet)).trans (and_iff_right returns).symm
      · rcases attempt_of_not_returns returns with ⟨failure, stopped⟩
        rw [stopped, bind_error]
        constructor
        · intro found
          rcases found with ⟨_, equal⟩
          cases equal
        · exact fun all => absurd all.1 returns

/-- The decoder comes back from exactly the datagrams that are not deadly, and
the server survives exactly the sequences of such datagrams. -/
theorem survives_iff_not_deadly (bytes : List UInt8) :
    ((Packet.fromBytes bytes).Returns ↔ ¬Deadly bytes) ∧
      ∀ {State : Type} (handle : State → Packet → State) (state : State) datagrams,
        (∃ final, serve handle state datagrams = .ok final) ↔
          ∀ datagram ∈ datagrams, ¬Deadly (datagram.take 1500) :=
  ⟨returns_iff_not_deadly bytes, serve_ends_iff⟩

/-- A request with an empty option area but for END. -/
def bareEnd : List UInt8 :=
  [1, 1, 6, 0] ++ List.replicate 232 0 ++ cookie ++ [endByte]

set_option maxRecDepth 2000 in
theorem fromBytes_bareEnd : Packet.fromBytes bareEnd = .error (.panic .assertionFailed) := by
  decide

theorem not_always_survives : ¬∀ bytes, (Packet.fromBytes bytes).Returns := by
  intro survives
  rcases survives bareEnd with ⟨_, equal⟩ | ⟨_, equal⟩ <;> rw [fromBytes_bareEnd] at equal <;>
    cases equal

end RustyDhcp

import RustyDhcp.Packet.RoundTrip

/-! # Reading what a server wrote

The decoder knows no valid router and no valid name server, so of a packet with
such options it reads those before the first of them. -/

namespace RustyDhcp

/-- Neither a router nor a name server. -/
def DhcpOption.legible : DhcpOption → Bool
  | .router _ | .domainNameServer _ => false
  | _ => true

/-- The decoder reads the option as it was written, or it stops there. -/
def DhcpOption.Plain (option : DhcpOption) : Prop := option.legible = true → option.Readable

variable {option : DhcpOption} {options : List DhcpOption} {packet : Packet}

theorem DhcpOption.Plain.notEnd (plain : option.Plain) : option.code ≠ endByte := by
  cases option with
  | router addrs => exact ne_of_beq_false rfl
  | domainNameServer addrs => exact ne_of_beq_false rfl
  | _ => exact (plain rfl).notEnd

/-- Nothing is decoded from the data of a router or a name server. -/
theorem DhcpOption.not_denotes {code : UInt8} {data : List UInt8} {value : DhcpOption}
    (illegible : option.legible = false) (isCode : code = option.code) :
    ¬Denotes code data value := by
  intro denoted
  have accepted := decodeData_of_denotes denoted
  subst isCode
  cases option with
  | router addrs => cases accepted
  | domainNameServer addrs => cases accepted
  | _ => cases illegible

theorem stuck_of_illegible (plain : option.Plain) (fits : option.field.Fits 1)
    (illegible : option.legible = false) (tail : List UInt8) :
    Stuck (option.field.bytes 1 ++ tail) where
  notEnd isEnd := plain.notEnd (UInt8.toNat_inj.mp ((head?_bytes fits).mp isEnd))
  noField field value rest reads equal := by
    have front : Field.split 1 (option.field.bytes 1 ++ tail) = some (option.field, tail) :=
      Field.split_bytes fits
    rw [equal, Field.split_bytes reads.fits, Option.some.injEq, Prod.mk.injEq] at front
    rcases front with ⟨rfl, _⟩
    refine DhcpOption.not_denotes illegible ?_ reads.denotes
    rw [DhcpOption.field_code, UInt8.ofNat_toNat]

theorem head?_optionBytes (plain : ∀ option ∈ options, option.Plain)
    (fits : ∀ option ∈ options, option.field.Fits 1) (more : options ≠ []) (tail : List UInt8) :
    (optionBytes options ++ tail).head? ≠ some endByte := by
  cases options with
  | nil => exact absurd rfl more
  | cons option options =>
      have listed : option ∈ option :: options := List.mem_cons_self
      rw [optionBytes_cons, List.append_assoc, Ne, head?_bytes (fits option listed)]
      exact fun isEnd => (plain option listed).notEnd (UInt8.toNat_inj.mp isEnd)

/-- The walk goes as far as the options are legible. -/
theorem walk_optionBytes (plain : ∀ option ∈ options, option.Plain)
    (fits : ∀ option ∈ options, option.field.Fits 1) (more : options ≠ []) (tail : List UInt8) :
    ∃ rest, rest ≠ [] ∧
      Walk (optionBytes options ++ endByte :: tail) rest
        (options.takeWhile DhcpOption.legible) := by
  induction options with
  | nil => exact absurd rfl more
  | cons option options induction =>
      rcases List.forall_mem_cons.mp plain with ⟨here, others⟩
      rcases List.forall_mem_cons.mp fits with ⟨hereFits, othersFit⟩
      rw [optionBytes_cons, List.append_assoc]
      cases legible : option.legible with
      | false =>
          rw [List.takeWhile_cons_of_neg (by simp [legible])]
          exact ⟨_, by simp [Field.bytes, bigEndian],
            .stuck (stuck_of_illegible here hereFits legible _)⟩
      | true =>
          have reads := ReadsAs.of_readable (here legible) hereFits
          rw [List.takeWhile_cons_of_pos legible]
          by_cases last : options = []
          · subst last
            exact ⟨endByte :: tail, List.cons_ne_nil _ _, .last reads rfl⟩
          · rcases induction others othersFit last with ⟨rest, left, walk⟩
            exact ⟨rest, left,
              .more reads (head?_optionBytes others othersFit last _) walk⟩

/-- The decoder reads back the header and the options that were written up to the
first router or name server. -/
theorem fromBytes_wire_legible (plain : ∀ option ∈ packet.options, option.Plain)
    (written : fitting 240 packet.options ≠ []) :
    Packet.fromBytes packet.wire = .ok { packet with
      broadcast := false
      options := (fitting 240 packet.options).takeWhile DhcpOption.legible } := by
  have writtenPlain : ∀ option ∈ fitting 240 packet.options, option.Plain :=
    fun option listed => plain option ((fitting_prefix_self _ _).subset listed)
  have fits : ∀ option ∈ fitting 240 packet.options, option.field.Fits 1 :=
    fun option listed => fits_of_fitting listed
  rcases walk_optionBytes writtenPlain fits written [] with ⟨rest, left, walk⟩
  rw [Packet.wire, List.append_assoc, fromBytes_eq_ok_iff, drop_head]
  exact ⟨validHeader_head _ _, _, ⟨head?_optionBytes writtenPlain fits written _, rest, left, walk⟩,
    (ofHeader_head packet _ _).symm⟩

/-- A packet without options stops the decoder. -/
theorem fromBytes_wire_bare (nothing : fitting 240 packet.options = []) :
    Packet.fromBytes packet.wire = .error (.panic .assertionFailed) := by
  rw [Packet.wire, nothing, optionBytes_nil, List.append_nil, Packet.fromBytes,
    decode_of_valid (validHeader_head packet _), drop_head, decodeOptions_end rfl]
  rfl

theorem messageType_mem {kind : MessageType} (found : packet.messageType = .ok kind) :
    .dhcpMessageType kind ∈ packet.options := by
  rw [Packet.messageType] at found
  generalize packet.options = options at found
  induction options with
  | nil => cases found
  | cons option options induction =>
      cases option with
      | dhcpMessageType messageType =>
          cases found
          exact List.mem_cons_self
      | unrecognized raw =>
          rw [Packet.messageTypeOf] at found
          split at found
          · cases found
          · exact List.mem_cons_of_mem _ (induction found)
      | _ => exact List.mem_cons_of_mem _ (induction found)

end RustyDhcp

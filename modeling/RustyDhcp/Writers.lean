import RustyDhcp.Dhcpv6.RoundTrip
import RustyDhcp.Packet.Wire

/-! # Writers and raw options

Options are written without allocating their raw form. What is written is the
raw form all the same. -/

namespace RustyDhcp

/-- The DHCPv4 writer puts the raw data at the front of the slice. -/
theorem writeData_exact (option : DhcpOption) {out : List UInt8}
    (room : option.dataLen ≤ out.length) :
    option.dataLen = option.toRaw.data.length ∧
      option.writeData out =
        .ok (option.dataLen, option.toRaw.data ++ out.drop option.dataLen) := by
  rw [dataLen_eq] at room ⊢
  exact ⟨rfl, writeData_eq option room⟩

namespace Dhcpv6

variable {option : Dhcpv6Option}

/-- The code, the length and the raw data of an option. -/
def Dhcpv6Option.record (option : Dhcpv6Option) (length : U16) : List UInt8 :=
  toBeBytes option.code ++ toBeBytes length ++ option.toRaw.data

theorem length_record (length : U16) : (option.record length).length = option.wireLen := by
  rw [Dhcpv6Option.record, List.length_append, List.length_append, length_toBeBytes,
    length_toBeBytes, wireLen_eq]

theorem encodeInto_small (small : option.toRaw.data.length ≤ 65535) (out : List UInt8) :
    ∃ length : U16, length.toNat = option.toRaw.data.length ∧
      option.encodeInto out = .ok (.ok (), out ++ option.record length) := by
  have fits : option.toRaw.data.length < 2 ^ 16 := Nat.lt_succ_of_le small
  have exact : (BitVec.ofNat 16 option.toRaw.data.length).toNat = option.toRaw.data.length := by
    rw [BitVec.toNat_ofNat, Nat.mod_eq_of_lt fits]
  refine ⟨.ofNat 16 option.toRaw.data.length, exact, ?_⟩
  have written : option.field.bytes 2 = option.record (.ofNat 16 option.toRaw.data.length) := by
    rw [Dhcpv6Option.record, toBeBytes, toBeBytes, exact]
    rfl
  rw [encodeInto_eq, if_neg (Nat.not_lt.mpr small), written]

theorem encodeInto_large (large : 65535 < option.toRaw.data.length) (out : List UInt8) :
    option.encodeInto out = .ok (.error .optionTooLarge, out) := by
  rw [encodeInto_eq, if_pos large]

end Dhcpv6

/-- Both writers agree with the raw form of every option, whatever else is in
the slice or the vector. -/
theorem writers_agree :
    (∀ (option : DhcpOption) (out : List UInt8), option.dataLen ≤ out.length →
      option.dataLen = option.toRaw.data.length ∧
        option.writeData out =
          .ok (option.dataLen, option.toRaw.data ++ out.drop option.dataLen)) ∧
    ∀ (option : Dhcpv6.Dhcpv6Option) (out : List UInt8),
      (option.toRaw.data.length ≤ 65535 → ∃ length : U16,
        length.toNat = option.toRaw.data.length ∧
          (option.record length).length = option.wireLen ∧
          option.encodeInto out = .ok (.ok (), out ++ option.record length)) ∧
      (65535 < option.toRaw.data.length →
        option.encodeInto out = .ok (.error .optionTooLarge, out)) := by
  refine ⟨fun option out room => writeData_exact option room, ?_⟩
  intro option out
  refine ⟨?_, fun large => Dhcpv6.encodeInto_large large out⟩
  intro small
  rcases Dhcpv6.encodeInto_small small out with ⟨length, exact, encoded⟩
  exact ⟨length, exact, Dhcpv6.length_record length, encoded⟩

/-- A mask at the front of six bytes, a client ID behind one byte, and a client ID that is
too large by one byte. -/
theorem writers_agree_subnetMask :
    (DhcpOption.subnetMask (.new 255 255 255 0)).writeData [1, 2, 3, 4, 5, 6] =
        .ok (4, [255, 255, 255, 0, 5, 6]) ∧
      (∃ length : U16, length.toNat = 3 ∧ (Dhcpv6.Dhcpv6Option.clientId [7, 8, 9]).encodeInto [1] =
        .ok (.ok (), [1] ++ (Dhcpv6.Dhcpv6Option.clientId [7, 8, 9]).record length)) ∧
      (Dhcpv6.Dhcpv6Option.clientId (List.replicate 65536 0)).encodeInto [1] =
        .ok (.error .optionTooLarge, [1]) := by
  refine ⟨(writers_agree.1 (.subnetMask (.new 255 255 255 0)) [1, 2, 3, 4, 5, 6] (by decide)).2,
    ?_, ?_⟩
  · rcases (writers_agree.2 (.clientId [7, 8, 9]) [1]).1 (by decide) with
      ⟨length, exact, _, encoded⟩
    exact ⟨length, exact, encoded⟩
  · apply (writers_agree.2 (.clientId (List.replicate 65536 0)) [1]).2
    change 65535 < (List.replicate 65536 (0 : UInt8)).length
    rw [List.length_replicate]
    decide

end RustyDhcp

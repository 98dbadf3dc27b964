import RustyDhcp.Packet.Decoding
import RustyDhcp.Server.Daemon

/-! # What is noted about datagrams that cannot be decoded

Only the header and the cookie can make a datagram malformed. Of the four
reasons that the daemon knows, two are never given. -/

namespace RustyDhcp

open Fallible

variable {bytes : List UInt8}

/-- The header is incomplete, or not for addresses of six bytes. -/
def TruncatedHeader (bytes : List UInt8) : Prop := bytes.length < 236 ∨ bytes[2]? ≠ some 6

instance (bytes : List UInt8) : Decidable (TruncatedHeader bytes) :=
  inferInstanceAs (Decidable (bytes.length < 236 ∨ bytes[2]? ≠ some 6))

/-- The reason for which a malformed datagram is refused. -/
def malformedError (bytes : List UInt8) : CustomErr :=
  if TruncatedHeader bytes then .invalidHlen else .nomError (bytes.drop 236) .tag

theorem decode_of_truncated (truncated : TruncatedHeader bytes) :
    decode bytes = refuse .invalidHlen := by
  rw [decode]
  by_cases short : bytes.length < 236
  · rw [if_pos short]
    rfl
  · have other : bytes.getD 2 0 ≠ 6 := mt getD_eq_six.mp (truncated.resolve_left short)
    rw [if_neg short, Checked.splitAt_eq_ok (by omega)]
    simp only [lift_ok, bind_ok]
    rw [decodeHeader_eq (by omega), if_neg other]
    rfl

theorem decode_of_untagged (complete : ¬TruncatedHeader bytes)
    (untagged : (bytes.drop 236).take 4 ≠ cookie) :
    decode bytes = refuse (.nomError (bytes.drop 236) .tag) := by
  rw [TruncatedHeader, not_or, not_not] at complete
  rcases complete with ⟨long, hlen⟩
  rw [decode, if_neg long, Checked.splitAt_eq_ok (by omega)]
  simp only [lift_ok, bind_ok]
  rw [decodeHeader_eq (by omega), if_pos (getD_eq_six.mpr hlen)]
  simp only [bind_ok]
  by_cases short : (bytes.drop 236).length < 4
  · rw [if_pos short]
    rfl
  · rw [if_neg short, Checked.slice_eq_ok (by omega) (by omega)]
    simp only [lift_ok, bind_ok, List.drop_zero]
    rw [if_pos untagged]
    rfl

theorem fromBytes_of_malformed (malformed : Malformed bytes) :
    Packet.fromBytes bytes = refuse (malformedError bytes) := by
  rw [Packet.fromBytes, malformedError]
  by_cases truncated : TruncatedHeader bytes
  · rw [if_pos truncated, decode_of_truncated truncated]
    rfl
  · have untagged : (bytes.drop 236).take 4 ≠ cookie := by
      rcases malformed with short | hardware | untagged
      · exact absurd (.inl short) truncated
      · exact absurd (.inr hardware) truncated
      · exact untagged
    rw [if_neg truncated, decode_of_untagged truncated untagged]
    rfl

theorem fromBytes_refused_iff {error : CustomErr} : Packet.fromBytes bytes = refuse error ↔
    Malformed bytes ∧ error = malformedError bytes := by
  constructor
  · intro refused
    by_cases malformed : Malformed bytes
    · rw [fromBytes_of_malformed malformed] at refused
      cases refused
      exact ⟨malformed, rfl⟩
    · rw [malformed_iff, not_not] at malformed
      by_cases found : ∃ options, Skippable (bytes.drop 240) options
      · rcases found with ⟨options, skippable⟩
        rw [fromBytes_of_skippable malformed skippable] at refused
        cases refused
      · rcases fromBytes_panics malformed (not_exists.mp found) with ⟨reason, panics⟩
        rw [panics] at refused
        cases refused
  · intro found
    rcases found with ⟨malformed, rfl⟩
    exact fromBytes_of_malformed malformed

theorem describe_malformedError (bytes : List UInt8) : describeDecodeError (malformedError bytes) =
    if TruncatedHeader bytes then "truncated header or option" else "bad magic cookie" := by
  rw [malformedError]
  split <;> rfl

/-- A datagram is noted exactly if its header or its cookie is malformed, with
its length and with the one of two reasons that applies, and then nothing else
happens. -/
theorem round_noted_iff (daemon : Daemon) (store next : MyServer) (arrival : Arrival IoError)
    (text : String) : daemon.round store arrival = .ok (next, .noted text) ↔
      Malformed arrival.received ∧ next = store ∧
        text = "ignoring malformed DHCP packet (" ++ toString arrival.received.length ++
          " bytes): " ++ if TruncatedHeader arrival.received then "truncated header or option"
            else "bad magic cookie" := by
  rw [Daemon.round_eq_ok_iff, ← describe_malformedError]
  constructor
  · intro noted
    cases noted with
    | refused decoded =>
        rcases fromBytes_refused_iff.mp decoded with ⟨malformed, rfl⟩
        exact ⟨malformed, rfl, rfl⟩
  · intro found
    rcases found with ⟨malformed, rfl, rfl⟩
    exact .refused (fromBytes_of_malformed malformed)

end RustyDhcp

import RustyDhcp.Foundation.Transcript
import RustyDhcp.Server.Echoes
import RustyDhcp.Server.Refinement

/-! # Nobody on the network can tell how leases are stored

The daemon sends the same bytes to the same places, and stops at the same
datagram, whether its leases live in slots or not. -/

namespace RustyDhcp

variable {config : Config} {server : Server} {packet : Packet} {now : Instant}

/-- The type of an answer, its address and its request determine it. -/
theorem Reply.Composed.unique {left right : Reply} (composed : left.Composed config)
    (other : right.Composed config) (kind : left.msgType = right.msgType)
    (addr : left.yiaddr = right.yiaddr) (request : left.reqPacket = right.reqPacket) :
    left = right := by
  rcases left with ⟨msgType, leftOptions, offerIp, reqPacket⟩
  rcases right with ⟨_, rightOptions, _, _⟩
  dsimp only at kind request
  dsimp only [Reply.yiaddr] at addr
  subst kind addr request
  have options : leftOptions = rightOptions := by
    have first := composed.options
    have second := other.options
    dsimp only at first second
    split at first
    · rename_i nak
      rw [if_pos nak] at second
      exact first.trans second.symm
    · rename_i lease
      rw [if_neg lease] at second
      exact first.trans second.symm
  rw [options]

namespace MyServer

theorem offers_start {useSlots : Bool} {hasher : Hasher Ipv4Addr Entry} {file : LeasesFile}
    {initial : MyServer} (accepted : config.validate = .ok config)
    (started : start useSlots config hasher file = .ok initial) : Offers config initial where
  valid := valid_start accepted started
  cachedOffer := by
    cases file with
    | none =>
        cases started
        rfl
    | some lines =>
        exact cachedOffer_of_loadLeases (valid_withStorage accepted useSlots hasher) started

/-- Two stores that represent one map and follow one configuration. -/
structure Alike (config : Config) (left right : MyServer) : Prop where
  offers : Offers config left ∧ Offers config right
  same : ∃ spec, left.Represents spec ∧ right.Represents spec

theorem Alike.handleRequest {left right : MyServer} (alike : Alike config left right)
    (server : Server) (incoming : Incoming) :
    Agree (Alike config) (left.handleRequest server incoming)
      (right.handleRequest server incoming) := by
  rcases alike with ⟨⟨leftOffers, rightOffers⟩, spec, leftStands, rightStands⟩
  rcases handleRequest_effect leftStands.valid server incoming with
    ⟨leftNext, leftReply, leftHandled, leftEffect⟩
  rcases handleRequest_effect rightStands.valid server incoming with
    ⟨rightNext, rightReply, rightHandled, rightEffect⟩
  rcases leftStands.step leftEffect with ⟨leftAfter, leftAnswer⟩
  rcases rightStands.step rightEffect with ⟨rightAfter, rightAnswer⟩
  have answers := leftAnswer.symm.trans rightAnswer
  have replies : leftReply = rightReply := by
    cases leftReply with
    | none =>
        cases rightReply with
        | none => rfl
        | some => cases answers
    | some leftReply =>
        cases rightReply with
        | none => cases answers
        | some rightReply =>
            rw [Option.map_some, Option.map_some, Option.some.injEq, Prod.mk.injEq] at answers
            rcases composed_of_handled leftOffers leftHandled with ⟨composed, request⟩
            rcases composed_of_handled rightOffers rightHandled with ⟨other, otherRequest⟩
            rw [composed.unique other answers.1 answers.2 (request.trans otherRequest.symm)]
  rw [leftHandled, rightHandled, replies]
  exact .output ⟨⟨leftOffers.step leftHandled, rightOffers.step rightHandled⟩, _, leftAfter,
    rightAfter⟩

end MyServer

namespace Daemon

theorem round_agree {left right : MyServer} (alike : MyServer.Alike config left right)
    (daemon : Daemon) (arrival : Arrival IoError) :
    Agree (MyServer.Alike config) (daemon.round left arrival) (daemon.round right arrival) := by
  rw [round, round]
  rcases Packet.fromBytes arrival.received with (reason | _ | error) | packet
  · exact .stop
  · exact .stop
  · exact .output alike
  · have handled := alike.handleRequest daemon.toServer ⟨packet, arrival.now⟩
    dsimp only
    generalize MyServer.handleRequest daemon.toServer left ⟨packet, arrival.now⟩ = first
      at handled ⊢
    generalize MyServer.handleRequest daemon.toServer right ⟨packet, arrival.now⟩ = second
      at handled ⊢
    cases handled with
    | stop => exact .stop
    | @output next other reply alike =>
        cases reply with
        | none => exact .output alike
        | some reply =>
            rcases reply_eq daemon arrival reply with ⟨result, sent⟩
            simp only [Checked.bind_ok, sent, Checked.pure_eq_ok]
            exact .output alike

/-- Started from one configuration and one leases file that names no client
twice, the daemon answers with the same datagrams, byte for byte, and stops at
the same one, whatever its storage and the order of its maps. -/
theorem transcript_eq_of_start {left right : MyServer} {useSlots otherSlots : Bool}
    {hasher otherHasher : Hasher Ipv4Addr MyServer.Entry} {file : LeasesFile}
    (accepted : config.validate = .ok config)
    (macs : ((MyServer.reservations file).map Prod.fst).Nodup)
    (started : MyServer.start useSlots config hasher file = .ok left)
    (otherStarted : MyServer.start otherSlots config otherHasher file = .ok right)
    (daemon : Daemon) (arrivals : List (Arrival IoError)) :
    transcript daemon.round left arrivals = transcript daemon.round right arrivals := by
  have first : left.Represents (.start config Hasher.newestFirst (MyServer.reservations file)) :=
    MyServer.represents_start accepted started macs
  have second : right.Represents (.start config Hasher.newestFirst (MyServer.reservations file)) :=
    MyServer.represents_start accepted otherStarted macs
  have alike : MyServer.Alike config left right :=
    ⟨⟨MyServer.offers_start accepted started, MyServer.offers_start accepted otherStarted⟩, _,
      first, second⟩
  refine transcript_eq ?_ alike arrivals
  intro before other arrival alike
  exact round_agree alike daemon arrival

/-- With slots and without, for a client who gets an address. -/
theorem transcript_eq_of_start_newcomer : ∃ left right,
    MyServer.start true MyServer.twoLeases Hasher.newestFirst MyServer.oneReservation = .ok left ∧
      MyServer.start false MyServer.twoLeases Hasher.newestFirst MyServer.oneReservation =
        .ok right ∧
        transcript (serveWithBroadcasts (.new 192 168 2 1) []).round left
            [fromClient newcomer.wire, fromClient [1, 2, 3]] =
          transcript (serveWithBroadcasts (.new 192 168 2 1) []).round right
            [fromClient newcomer.wire, fromClient [1, 2, 3]] := by
  have starts : ∀ useSlots, Checked.passes (MyServer.start useSlots MyServer.twoLeases
      Hasher.newestFirst MyServer.oneReservation) (fun _ => true) = true := by decide
  rcases Checked.exists_of_passes (starts true) with ⟨left, started, _⟩
  rcases Checked.exists_of_passes (starts false) with ⟨right, otherStarted, _⟩
  exact ⟨left, right, started, otherStarted,
    transcript_eq_of_start rfl (by decide) started otherStarted _ _⟩

end Daemon

end RustyDhcp

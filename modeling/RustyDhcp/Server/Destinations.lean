import RustyDhcp.Server.Mirroring
import RustyDhcp.Server.Startup

/-! # No destination twice

`main` hands the daemon a list of broadcast addresses without repetitions, whatever
`dhcp.conf` says. Only an address that is leased and listed can be sent to twice. -/

namespace RustyDhcp

variable {peer : SocketAddr} {broadcast : Bool} {yiaddr : Ipv4Addr} {broadcasts : List Ipv4Addr}

namespace Server

theorem mem_routeDests {dst : SocketAddr}
    (member : dst ∈ routeDests peer broadcast yiaddr broadcasts) :
    dst = peer ∨ (∃ ip ∈ broadcasts, dst = peer.setIp ip) ∨
      yiaddr ≠ .unspecified ∧ dst = .v4 yiaddr peer.port := by
  rw [routeDests] at member
  split at member
  · rcases List.mem_append.mp member with image | copy
    · rcases List.mem_map.mp image with ⟨ip, listed, rfl⟩
      exact .inr (.inl ⟨ip, listed, rfl⟩)
    · split at copy
      · rename_i unicast
        rw [Bool.and_eq_true, decide_eq_true_eq] at unicast
        exact .inr (.inr ⟨unicast.2, List.mem_singleton.mp copy⟩)
      · cases copy
  · exact .inl (List.mem_singleton.mp member)

theorem nodup_map_setIp (once : broadcasts.Nodup) : (broadcasts.map peer.setIp).Nodup := by
  refine once.map ?_
  intro first second same
  cases same
  rfl

/-- The copy for an address that is no broadcast address is a new destination. -/
theorem nodup_routeDests (once : broadcasts.Nodup)
    (new : peer.isUnspecified = true → yiaddr ∉ broadcasts) :
    (routeDests peer broadcast yiaddr broadcasts).Nodup := by
  have distinct := @nodup_map_setIp peer broadcasts once
  rw [routeDests]
  split
  · split
    · rename_i unicast
      rw [Bool.and_eq_true, Bool.and_eq_true] at unicast
      refine List.nodup_append.mpr ⟨distinct, List.nodup_singleton _, ?_⟩
      intro dst listed copy alone same
      rcases List.mem_map.mp listed with ⟨ip, member, rfl⟩
      rw [List.mem_singleton.mp alone] at same
      cases same
      exact new unicast.1.2 member
    · rw [List.append_nil]
      exact distinct
  · exact List.nodup_singleton _

end Server

namespace Daemon

variable {config : Config} {hasher : Hasher Ipv4Addr MyServer.Entry} {file : LeasesFile}
variable {initial state : MyServer} {past : List (Handled MyServer (Arrival IoError) Reaction)}
variable {handled : Handled MyServer (Arrival IoError) Reaction}

theorem broadcasts_of_config (config : Config) :
    (serveWithBroadcasts config.serverIp config.broadcasts).broadcasts = config.broadcasts :=
  if_neg (by simpa using Config.broadcasts_ne_nil config)

theorem dsts_delivery (daemon : Daemon) (arrival : Arrival IoError) (reply : Reply) :
    (daemon.delivery arrival reply).map Datagram.dst <+:
      Server.routeDests arrival.src reply.reqPacket.broadcast reply.offerIp
        daemon.broadcasts := by
  have same : (Datagram.dst ∘ Datagram.mk (daemon.answer reply).wire) = id := rfl
  rw [delivery, List.map_map, same, List.map_id]
  exact attempted_prefix_self _ _ _

/-- Whatever the broadcast addresses in `dhcp.conf`, an answer goes to no place but
the sender, these addresses and the one that it is about, and to none of them twice
unless the address that it is about is one of the others. -/
theorem destinations_of_run
    (run : Run (serveWithBroadcasts config.serverIp config.broadcasts).round initial past state)
    (member : handled ∈ past) :
    ∃ yiaddr : Ipv4Addr,
      (∀ datagram ∈ handled.output.sent,
        (datagram.wire.drop 16).take 4 = yiaddr.octets ∧
          (datagram.dst = handled.input.src ∨
            (∃ ip, (ip = config.broadcastIp ∨ ip ∈ config.extraBroadcastIps) ∧
              datagram.dst = handled.input.src.setIp ip) ∨
            yiaddr ≠ .unspecified ∧ datagram.dst = .v4 yiaddr handled.input.src.port)) ∧
        ((handled.output.sent.map Datagram.dst).Nodup ∨
          handled.input.src.isUnspecified = true ∧
            (yiaddr = config.broadcastIp ∨ yiaddr ∈ config.extraBroadcastIps)) := by
  rcases run.of_mem member with ⟨earlier, before, stepped⟩
  have done := round_eq_ok_iff.mp stepped
  generalize handled.after = after at done
  generalize handled.output = output at done ⊢
  cases done with
  | refused =>
      refine ⟨.unspecified, ?_, .inl List.nodup_nil⟩
      intro datagram sent
      cases sent
  | silent =>
      refine ⟨.unspecified, ?_, .inl List.nodup_nil⟩
      intro datagram sent
      cases sent
  | @answered packet _ reply decoded served =>
      have start := dsts_delivery (serveWithBroadcasts config.serverIp config.broadcasts)
        handled.input reply
      rw [broadcasts_of_config] at start
      refine ⟨reply.offerIp, ?_, ?_⟩
      · intro datagram sent
        have planned := start.subset (List.mem_map_of_mem sent)
        constructor
        · rcases List.mem_map.mp sent with ⟨dst, _, rfl⟩
          exact (headerOf_wire _).yiaddr
        · rcases Server.mem_routeDests planned with peer | ⟨ip, broadcast, dst⟩ | copy
          · exact .inl peer
          · exact .inr (.inl ⟨ip, (Config.mem_broadcasts_iff config).mp broadcast, dst⟩)
          · exact .inr (.inr copy)
      · rw [← Config.mem_broadcasts_iff config]
        by_cases twice : handled.input.src.isUnspecified = true ∧
            reply.offerIp ∈ config.broadcasts
        · exact .inr twice
        · left
          refine start.sublist.nodup (Server.nodup_routeDests (Config.nodup_broadcasts config) ?_)
          intro unspecified member
          exact twice ⟨unspecified, member⟩

/-- Two broadcast addresses, each of them more than once. -/
def repeatedBroadcasts : Config :=
  { MyServer.twoLeases with
    extraBroadcastIps := [.new 10 0 0 255, .new 192 168 2 255, .new 10 0 0 255] }

set_option maxRecDepth 10000 in
/-- A client that has no address is offered one at three places. -/
theorem destinations_of_run_repeated : ∃ session,
    simulate (serveWithBroadcasts repeatedBroadcasts.serverIp repeatedBroadcasts.broadcasts).round
        (MyServer.main repeatedBroadcasts Hasher.newestFirst none)
        [fromClient newcomer.wire] = .ok session ∧
      ∀ handled ∈ session.past, handled.output.sent.length = 3 ∧
        ∃ yiaddr : Ipv4Addr, (handled.output.sent.map Datagram.dst).Nodup ∨
          handled.input.src.isUnspecified = true ∧
            (yiaddr = repeatedBroadcasts.broadcastIp ∨
              yiaddr ∈ repeatedBroadcasts.extraBroadcastIps) := by
  have computed : Checked.passes (simulate
      (serveWithBroadcasts repeatedBroadcasts.serverIp repeatedBroadcasts.broadcasts).round
      (MyServer.main repeatedBroadcasts Hasher.newestFirst none) [fromClient newcomer.wire])
      (fun session => session.past.all fun handled => handled.output.sent.length = 3) = true := by
    decide
  rcases Checked.exists_of_passes computed with ⟨session, simulated, sent⟩
  rcases Run.of_simulate simulated with ⟨_, run⟩
  refine ⟨session, simulated, ?_⟩
  intro handled member
  rcases destinations_of_run run member with ⟨yiaddr, _, once⟩
  exact ⟨of_decide_eq_true (List.all_eq_true.mp sent handled member), yiaddr, once⟩

end Daemon

end RustyDhcp

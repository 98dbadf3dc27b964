import RustyDhcp.Foundation.Network
import RustyDhcp.Server.Echoes

/-! # Servers on one network

An answer of one server may reach another one, or come back to the server that
sent it. -/

namespace RustyDhcp

namespace Daemon

variable {ι IoError : Type}

/-- The servers as machines. A datagram is an echo if its bytes are those of an
answer. -/
def machines (daemons : ι → Daemon) :
    Machines ι MyServer (Arrival IoError) Reaction Datagram where
  step id store arrival := (daemons id).round store arrival
  sends := Reaction.sent
  carries arrival datagram := datagram.wire = arrival.bytes

/-- No answer begins with an option that leaves no room for END. -/
structure Sparing (config : Config) : Prop where
  dns : config.dnsIps.length ≤ 14
  ntp : config.enableNtp = true → config.ntpIps.length ≤ 14

/-- A datagram is an answer of a server with one of the configurations. -/
def Answered (configs : ι → Config) (datagram : Datagram) : Prop :=
  ∃ id, ∃ server : Server, ∃ reply : Reply,
    reply.Composed (configs id) ∧ datagram.wire = (server.answer reply).wire

variable {daemons : ι → Daemon} {configs : ι → Config}

theorem Sparing.offeredSize_le {config : Config} (sparing : Sparing config) (code : UInt8) :
    offeredSize config code ≤ 59 := by
  have dns := sparing.dns
  unfold offeredSize
  split
  case h_7 =>
    split
    · rename_i enabled
      have ntp := sparing.ntp enabled.1
      omega
    · omega
  all_goals omega

/-- What begins with an option that fits stops no server. -/
theorem Sparing.fitting_ne_nil {config : Config} (sparing : Sparing config) {reply : Reply}
    (composed : reply.Composed config) (server : Server) :
    fitting 240 (server.replyOptions reply) ≠ [] := by
  intro nothing
  rcases List.exists_cons_of_ne_nil (replyOptions_ne_nil server reply) with ⟨first, others, equal⟩
  have tooLong := fitting_eq_nil_iff.mp nothing first (by rw [equal]; rfl)
  have listed : first ∈ server.allOptions reply := by
    apply mem_allOptions_of_mem_replyOptions
    rw [equal]
    exact List.mem_cons_self
  have options := composed.options
  apply Nat.not_lt.mpr _ tooLong
  split at options
  · rw [Server.allOptions, options] at listed
    simp only [List.mem_cons, List.not_mem_nil, or_false] at listed
    rcases listed with rfl | rfl | rfl
    · exact Nat.le_of_ble_eq_true rfl
    · exact Nat.le_of_ble_eq_true rfl
    · exact Nat.le_of_ble_eq_true rfl
  · rw [allOptions_sizes options first listed]
    exact sparing.offeredSize_le _

/-! ## One round -/

theorem lawful_machines : Machines.Lawful (@machines ι IoError daemons)
    (fun id => MyServer.Offers (configs id)) (Answered configs) where
  keeps offers done := by
    cases round_eq_ok_iff.mp done with
    | refused => exact offers
    | silent _ handled => exact offers.step handled
    | answered _ handled => exact offers.step handled
  sends offers done datagram member := by
    cases round_eq_ok_iff.mp done with
    | refused => cases member
    | silent => cases member
    | @answered packet _ reply _ handled =>
        rcases List.mem_map.mp member with ⟨dst, _, rfl⟩
        exact ⟨_, _, reply, (composed_of_handled offers handled).1, rfl⟩

theorem mute_machines : Machines.Mute (@machines ι IoError daemons)
    (fun id => MyServer.Offers (configs id)) (Answered configs) := by
  intro id store arrival datagram next reaction offers answered echo done
  rcases answered with ⟨other, server, reply, composed, wire⟩
  have bytes : arrival.bytes = (server.answer reply).wire :=
    (of_decide_eq_true echo).symm.trans wire
  have ended : (daemons id).round store arrival = .ok (next, reaction) := done
  rw [round_of_answer composed bytes] at ended
  split at ended
  · cases ended
  · cases ended
    rfl

theorem inert_machines (sparing : ∀ id, Sparing (configs id)) :
    Machines.Inert (@machines ι IoError daemons)
      (fun id => MyServer.Offers (configs id)) (Answered configs) := by
  intro id store arrival datagram offers answered echo
  rcases answered with ⟨other, server, reply, composed, wire⟩
  have bytes : arrival.bytes = (server.answer reply).wire :=
    (of_decide_eq_true echo).symm.trans wire
  have ended := @round_of_answer _ _ _ _ (daemons id) store arrival composed bytes
  rw [if_neg ((sparing other).fitting_ne_nil composed server)] at ended
  exact ⟨_, ended, rfl⟩

theorem length_sent_round {fanOut : Nat} (bound : ∀ id, (daemons id).broadcasts.length ≤ fanOut)
    {id : ι} {store next : MyServer} {arrival : Arrival IoError} {reaction : Reaction}
    (done : (daemons id).round store arrival = .ok (next, reaction)) :
    reaction.sent.length ≤ fanOut + 1 := by
  cases round_eq_ok_iff.mp done with
  | refused => exact Nat.zero_le _
  | silent => exact Nat.zero_le _
  | answered =>
      exact Nat.le_trans (length_delivery_le _ _ _) (Nat.succ_le_succ (bound id))

/-! ## Whole runs -/

variable [DecidableEq ι] {stores : ι → MyServer} {hashers : ι → Hasher Ipv4Addr MyServer.Entry}
variable {files : ι → LeasesFile} {final : Network ι MyServer Datagram}
variable {past : List (Delivered ι MyServer (Arrival IoError) Reaction Datagram)}

omit [DecidableEq ι] in
theorem offers_main (accepted : ∀ id, (configs id).validate = .ok (configs id))
    (loaded : ∀ id, MyServer.main (configs id) (hashers id) (files id) = .ok (stores id))
    (id : ι) : MyServer.Offers (configs id) (stores id) :=
  ⟨MyServer.valid_main (accepted id) (loaded id),
    MyServer.cachedOffer_of_main (accepted id) (loaded id)⟩

/-- Where no answer begins with too long an option, the servers get to the same
states and send the same datagrams without the echoes among what reaches them. -/
theorem echoes_erased (accepted : ∀ id, (configs id).validate = .ok (configs id))
    (loaded : ∀ id, MyServer.main (configs id) (hashers id) (files id) = .ok (stores id))
    (sparing : ∀ id, Sparing (configs id))
    (run : Run (machines daemons).deliver (Machines.started stores) past final) :
    Run (machines daemons).deliver (Machines.started stores)
        (past.filter fun delivered => !(machines daemons).isEcho delivered) final ∧
      ∀ delivered ∈ past, (machines daemons).isEcho delivered = true →
        ∀ reaction ∈ delivered.output, reaction.sent = [] :=
  Machines.run_without_echoes lawful_machines (inert_machines sparing)
    (Machines.sound_started (offers_main accepted loaded)) run

/-- However often and to whom the answers are delivered, there are no more of
them than what the clients have sent can give rise to. -/
theorem length_sent_le_fresh (accepted : ∀ id, (configs id).validate = .ok (configs id))
    (loaded : ∀ id, MyServer.main (configs id) (hashers id) (files id) = .ok (stores id))
    {fanOut : Nat} (bound : ∀ id, (daemons id).broadcasts.length ≤ fanOut)
    (run : Run (machines daemons).deliver (Machines.started stores) past final) :
    final.sent.length ≤
      (past.filter fun delivered => !(machines daemons).isEcho delivered).length * (fanOut + 1) :=
  Machines.length_sent_le_mul lawful_machines mute_machines (offers_main accepted loaded)
    (fun _ done => length_sent_round bound done) run

/-! ## Two servers with one pool -/

theorem twoLeases_accepted : MyServer.twoLeases.validate = .ok MyServer.twoLeases := rfl

theorem twoLeases_loaded : MyServer.main MyServer.twoLeases Hasher.newestFirst none =
    .ok (MyServer.ofConfig MyServer.twoLeases Hasher.newestFirst) := rfl

def twins : Network Bool MyServer Datagram :=
  Machines.started fun _ => MyServer.ofConfig MyServer.twoLeases Hasher.newestFirst

def twinMachines : Machines Bool MyServer (Arrival String) Reaction Datagram :=
  machines fun id =>
    serveWithBroadcasts (if id then .new 192 168 2 1 else .new 192 168 2 254) []

/-- The Offer of one server reaches both of them. -/
def looped : List (Delivery Bool (Arrival String)) :=
  let offer := (Server.answer ⟨.new 192 168 2 1⟩
    ⟨.offer, offerOptions MyServer.twoLeases, .new 192 168 2 3, newcomer⟩).wire
  [⟨true, fromClient newcomer.wire⟩, ⟨false, fromClient offer⟩, ⟨true, fromClient offer⟩]

set_option maxRecDepth 10000 in
theorem looped_passes : Checked.passes (simulate twinMachines.deliver (.ok twins) looped)
    (fun session => session.past.countP twinMachines.isEcho = 2 ∧
      session.state.sent.length = 2) = true := by
  decide

theorem echoes_erased_looped : ∃ session,
    simulate twinMachines.deliver (.ok twins) looped = .ok session ∧
      session.past.countP twinMachines.isEcho = 2 ∧
        Run twinMachines.deliver twins
          (session.past.filter fun delivered => !twinMachines.isEcho delivered)
          session.state := by
  rcases Checked.exists_of_passes looped_passes with ⟨session, simulated, counted⟩
  rcases Run.of_simulate simulated with ⟨begun, run⟩
  rw [← Except.ok.inj begun] at run
  have sparing : Sparing MyServer.twoLeases := ⟨by decide, by decide⟩
  exact ⟨session, simulated, (of_decide_eq_true counted).1,
    (echoes_erased (fun _ => twoLeases_accepted) (fun _ => twoLeases_loaded) (fun _ => sparing)
      run).1⟩

theorem length_sent_le_fresh_looped : ∃ session,
    simulate twinMachines.deliver (.ok twins) looped = .ok session ∧
      session.state.sent.length = 2 ∧ session.state.sent.length ≤
        (session.past.filter fun delivered => !twinMachines.isEcho delivered).length *
          (1 + 1) := by
  rcases Checked.exists_of_passes looped_passes with ⟨session, simulated, counted⟩
  rcases Run.of_simulate simulated with ⟨begun, run⟩
  rw [← Except.ok.inj begun] at run
  have bound : ∀ id : Bool, (serveWithBroadcasts (if id then .new 192 168 2 1
      else .new 192 168 2 254) []).broadcasts.length ≤ 1 := fun _ => Nat.le_refl 1
  exact ⟨session, simulated, (of_decide_eq_true counted).2,
    length_sent_le_fresh (fun _ => twoLeases_accepted) (fun _ => twoLeases_loaded) bound run⟩

end Daemon

end RustyDhcp

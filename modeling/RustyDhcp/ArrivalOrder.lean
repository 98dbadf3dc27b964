import RustyDhcp.Foundation.Claims
import RustyDhcp.OneAddress
import RustyDhcp.Server.Hostnames

/-! # The order in which requests arrive

Requests of different clients can change places, unless one of them wants what
the other one wants or has. Where two clients race for the same address, the
first one gets it. -/

namespace RustyDhcp

/-- What the client is told. -/
def Reply.verdict (reply : Reply) : MessageType × Ipv4Addr := (reply.msgType, reply.yiaddr)

namespace MyServer

variable {server : Server} {store next : MyServer} {packet left right : Packet}
variable {now : Instant} {addr : Ipv4Addr} {mac : Mac}
variable {outcome : ClaimOutcome Ipv4Addr Entry} {sent : Reply}

/-- What an entry becomes when its holder announces a host name. -/
def Entry.announce (hostname : Option Text) (entry : Entry) : Entry :=
  match hostname with
  | some name => entry.rename name
  | none => entry

/-- The sender of a request. -/
def claimant (store : MyServer) (packet : Packet) (now : Instant) :
    Claimant Ipv4Addr Entry.mac where
  client := packet.chaddr
  wanted := packet.requestedIp
  free slot := store.inPool packet.requestedIp = true ∧
    Entry.takeable slot packet.chaddr now = true
  entry := ⟨packet.chaddr, some (now + store.leaseDuration), hostnameOf packet⟩
  touch := Entry.announce (hostnameOf packet)
  holder_entry := rfl
  holder_touch _ := by cases hostnameOf packet <;> rfl

theorem SameSettings.claimant (same : SameSettings store next) :
    next.claimant packet now = store.claimant packet now := by
  simp only [MyServer.claimant, same.inPool, same.leaseDuration]

theorem free_iff : (store.claimant packet now).free (store.entry packet.requestedIp) ↔
    store.available packet.chaddr packet.requestedIp now = true :=
  Bool.and_eq_true_iff.symm

/-- How a claim is answered. -/
def verdictOf (outcome : ClaimOutcome Ipv4Addr Entry) : MessageType × Ipv4Addr :=
  match outcome.address with
  | some addr => (.ack, addr)
  | none => (.nak, .new 0 0 0 0)

/-- What a request does, read off the claim of its sender. -/
structure Settled (store : MyServer) (packet : Packet) (outcome : ClaimOutcome Ipv4Addr Entry)
    (next : MyServer) (sent : Reply) : Prop where
  settings : SameSettings store next
  verdict : sent.verdict = verdictOf outcome
  entry : next.entry = outcome.write store.entry
  byMac : next.byMac.get? = outcome.point store.byMac.get? packet.chaddr

theorem SinglyHeld.current_eq_some_iff (held : store.SinglyHeld) :
    store.current mac = some addr ↔ store.HeldBy addr mac := by
  apply SlotTable.current_eq_some_iff held.valid.table
  intro leftAddr rightAddr owner leftHeld rightHeld
  exact held.single (leases_heldBy_iff.mpr leftHeld) (leases_heldBy_iff.mpr rightHeld)

theorem settled_kept {old : Entry} (found : store.entry addr = some old) :
    Settled store packet (.kept addr (old.announce (hostnameOf packet)))
      (store.renamed addr (hostnameOf packet)) (store.reply .ack packet addr) := by
  cases hostnameOf packet with
  | none =>
      refine ⟨⟨rfl, rfl, rfl, rfl, rfl⟩, rfl, ?_, rfl⟩
      rw [ClaimOutcome.write, Entry.announce, ← found, Function.update_eq_self]
      rfl
  | some name =>
      refine ⟨⟨rfl, rfl, rfl, rfl, rfl⟩, rfl, entry_renamed_some found name, ?_⟩
      have kept : (store.table.amend store.layout addr (Entry.rename name)).hints =
          store.table.hints := SlotTable.hints_amend _
      funext mac
      exact congrArg (fun hints => hints.get? mac) kept

theorem settled_granted (held : store.SinglyHeld) :
    Settled store packet (.granted packet.requestedIp (store.claimant packet now).entry)
      (store.leased packet.requestedIp packet now)
      (store.reply .ack packet packet.requestedIp) where
  settings := ⟨rfl, rfl, rfl, rfl, rfl⟩
  verdict := rfl
  entry := entry_leased held.valid
  byMac := by
    funext mac
    exact SlotTable.get?_hints_insert held.valid.hints mac

theorem settled_refused (message : String) :
    Settled store packet .refused store (nak packet message) :=
  ⟨⟨rfl, rfl, rfl, rfl, rfl⟩, rfl, rfl, rfl⟩

/-- A refused claim is answered with a Nak and changes nothing. -/
theorem request_refuses (held : store.SinglyHeld) (kind : packet.messageType = .ok .request)
    (claims : (store.claimant packet now).Claims store.entry .refused) :
    handleRequest server store ⟨packet, now⟩ =
      .ok (store, some (nak packet "Requested IP not available")) := by
  rw [handleRequest_request kind]
  cases claims with
  | refused nothing taken =>
      have missing := (current_eq_none_iff held.valid).mpr nothing
      have unavailable := Bool.eq_false_iff.mpr fun free => taken (free_iff.mpr free)
      exact request_refused held.valid missing unavailable

/-- A request settles the claim of its sender. -/
theorem request_settles (server : Server) (held : store.SinglyHeld)
    (kind : packet.messageType = .ok .request)
    (claims : (store.claimant packet now).Claims store.entry outcome) :
    ∃ next sent, handleRequest server store ⟨packet, now⟩ = .ok (next, some sent) ∧
      Settled store packet outcome next sent := by
  cases claims with
  | @kept addr old found owner =>
      rw [handleRequest_request kind]
      have current := held.current_eq_some_iff.mpr ⟨old, found, owner⟩
      exact ⟨_, _, request_held held.valid current, settled_kept found⟩
  | granted nothing free =>
      rw [handleRequest_request kind]
      have missing := (current_eq_none_iff held.valid).mpr nothing
      exact ⟨_, _, request_free held.valid missing (free_iff.mp free), settled_granted held⟩
  | refused nothing taken =>
      exact ⟨_, _, request_refuses held kind (.refused nothing taken), settled_refused _⟩

/-- The stores have the same leases and the same hints. -/
structure SameLeases (left right : MyServer) : Prop where
  slots : left.slots = right.slots
  filled : left.filled = right.filled
  overflow : ∀ addr, left.overflow.get? addr = right.overflow.get? addr
  byMac : ∀ mac, left.byMac.get? mac = right.byMac.get? mac

theorem SinglyHeld.sameLeases {left right : MyServer} (leftHeld : left.SinglyHeld)
    (rightHeld : right.SinglyHeld) (layout : left.layout = right.layout)
    (entry : left.entry = right.entry) (byMac : left.byMac.get? = right.byMac.get?) :
    left.SameLeases right := by
  have leftValid : left.table.Valid right.layout := layout ▸ leftHeld.valid.table
  have rightValid : right.table.Valid right.layout := rightHeld.valid.table
  have same : ∀ addr,
      left.table.lookup right.layout addr = right.table.lookup right.layout addr := by
    intro addr
    have read := congrFun entry addr
    rwa [MyServer.entry, MyServer.entry, layout] at read
  exact ⟨SlotTable.slots_eq_of_lookup_eq leftValid rightValid same,
    SlotTable.filled_eq_of_lookup_eq leftValid rightValid same,
    SlotTable.overflow_eq_of_lookup_eq leftValid rightValid same, congrFun byMac⟩

/-- The replies of two orders agree for each client, and the leases do. -/
structure Exchanged (leftFirst rightFirst : InTurn MyServer (Option Reply)) : Prop where
  left : ∃ verdict, leftFirst.first.map Reply.verdict = some verdict ∧
    rightFirst.second.map Reply.verdict = some verdict
  right : ∃ verdict, leftFirst.second.map Reply.verdict = some verdict ∧
    rightFirst.first.map Reply.verdict = some verdict
  leases : leftFirst.after.SameLeases rightFirst.after

/-- The first client is given the address and keeps it, and the second one is
refused without a change. -/
structure FirstWins (addr : Ipv4Addr) (client : Mac)
    (turn : InTurn MyServer (Option Reply)) : Prop where
  acked : turn.first.map Reply.verdict = some (.ack, addr)
  refused : turn.second.map Reply.msgType = some .nak
  unchanged : turn.after = turn.between
  holds : turn.after.holds addr client = true

/-- The requests can change places if they are for different addresses, and if
they race for one then the first wins. -/
structure OrderFree (server : Server) (store : MyServer) (left right : Packet)
    (now : Instant) : Prop where
  exchanged : left.requestedIp ≠ right.requestedIp →
    ∃ leftFirst rightFirst,
      inTurn (handleRequest server) store ⟨left, now⟩ ⟨right, now⟩ = .ok leftFirst ∧
      inTurn (handleRequest server) store ⟨right, now⟩ ⟨left, now⟩ = .ok rightFirst ∧
      Exchanged leftFirst rightFirst
  race : left.requestedIp = right.requestedIp →
    store.availableAt left.chaddr left.requestedIp now = .ok true →
    store.availableAt right.chaddr right.requestedIp now = .ok true →
    (∀ addr, store.holds addr left.chaddr = false) →
    (∀ addr, store.holds addr right.chaddr = false) →
    (∃ turn, inTurn (handleRequest server) store ⟨left, now⟩ ⟨right, now⟩ = .ok turn ∧
      FirstWins left.requestedIp left.chaddr turn) ∧
    ∃ turn, inTurn (handleRequest server) store ⟨right, now⟩ ⟨left, now⟩ = .ok turn ∧
      FirstWins right.requestedIp right.chaddr turn

theorem exchanged_of_apart (held : store.SinglyHeld)
    (leftKind : left.messageType = .ok .request) (rightKind : right.messageType = .ok .request)
    (apart : Claimant.Apart store.entry (store.claimant left now) (store.claimant right now)) :
    ∃ leftFirst rightFirst,
      inTurn (handleRequest server) store ⟨left, now⟩ ⟨right, now⟩ = .ok leftFirst ∧
      inTurn (handleRequest server) store ⟨right, now⟩ ⟨left, now⟩ = .ok rightFirst ∧
      Exchanged leftFirst rightFirst := by
  rcases Claimant.exists_claims (store.claimant left now) store.entry with ⟨leftEnd, leftClaims⟩
  rcases Claimant.exists_claims (store.claimant right now) store.entry with
    ⟨rightEnd, rightClaims⟩
  rcases request_settles server held leftKind leftClaims with
    ⟨afterLeft, leftSent, leftHandled, leftSettled⟩
  rcases request_settles server held rightKind rightClaims with
    ⟨afterRight, rightSent, rightHandled, rightSettled⟩
  have leftHeld := held.step leftHandled
  have rightHeld := held.step rightHandled
  have rightLater := apart.claims leftClaims rightClaims
  rw [← leftSettled.entry, ← leftSettled.settings.claimant] at rightLater
  have leftLater := apart.symm.claims rightClaims leftClaims
  rw [← rightSettled.entry, ← rightSettled.settings.claimant] at leftLater
  rcases request_settles server leftHeld rightKind rightLater with
    ⟨leftFirst, rightAnswer, rightFollows, rightBehind⟩
  rcases request_settles server rightHeld leftKind leftLater with
    ⟨rightFirst, leftAnswer, leftFollows, leftBehind⟩
  refine ⟨_, _, inTurn_eq_ok leftHandled rightFollows, inTurn_eq_ok rightHandled leftFollows,
    ⟨_, congrArg some leftSettled.verdict, congrArg some leftBehind.verdict⟩,
    ⟨_, congrArg some rightBehind.verdict, congrArg some rightSettled.verdict⟩, ?_⟩
  have elsewhere := apart.address_ne leftClaims rightClaims
  apply (leftHeld.step rightFollows).sameLeases (rightHeld.step leftFollows)
  · rw [rightBehind.settings.layout, leftSettled.settings.layout, leftBehind.settings.layout,
      rightSettled.settings.layout]
  · rw [rightBehind.entry, leftSettled.entry, leftBehind.entry, rightSettled.entry]
    exact ClaimOutcome.write_comm elsewhere
  · rw [rightBehind.byMac, leftSettled.byMac, leftBehind.byMac, rightSettled.byMac]
    exact ClaimOutcome.point_comm apart.clients elsewhere

theorem firstWins_of_race (held : store.SinglyHeld)
    (leftKind : left.messageType = .ok .request) (rightKind : right.messageType = .ok .request)
    (clients : left.chaddr ≠ right.chaddr) (same : left.requestedIp = right.requestedIp)
    (leftFree : store.available left.chaddr left.requestedIp now = true)
    (leftNothing : ∀ addr, ¬store.HeldBy addr left.chaddr)
    (rightNothing : ∀ addr, ¬store.HeldBy addr right.chaddr) :
    ∃ turn, inTurn (handleRequest server) store ⟨left, now⟩ ⟨right, now⟩ = .ok turn ∧
      FirstWins left.requestedIp left.chaddr turn := by
  have leftClaims : (store.claimant left now).Claims store.entry
      (.granted left.requestedIp (store.claimant left now).entry) :=
    .granted leftNothing (free_iff.mpr leftFree)
  rcases request_settles server held leftKind leftClaims with
    ⟨between, leftSent, leftHandled, leftSettled⟩
  have leftHeld := held.step leftHandled
  have taken : ¬(store.claimant right now).free (some (store.claimant left now).entry) := by
    intro free
    have takeable := free.2
    simp [Entry.takeable, claimant, clients] at takeable
  have behind : (between.claimant right now).Claims between.entry .refused := by
    rw [leftSettled.entry, leftSettled.settings.claimant]
    exact Claimant.Claims.race clients same rightNothing taken
  have kept := leftClaims.holds rfl
  rw [← leftSettled.entry] at kept
  exact ⟨_, inTurn_eq_ok leftHandled (request_refuses leftHeld rightKind behind),
    congrArg some leftSettled.verdict, rfl, rfl, (holds_iff leftHeld.valid).mpr kept⟩

theorem holds_eq_false (valid : store.Valid) (missing : store.current mac = none)
    (addr : Ipv4Addr) : store.holds addr mac = false :=
  Bool.eq_false_iff.mpr fun held =>
    (current_eq_none_iff valid).mp missing addr ((holds_iff valid).mp held)

theorem not_heldBy_of_holds (valid : store.Valid) (nowhere : store.holds addr mac = false) :
    ¬store.HeldBy addr mac :=
  fun held => Bool.eq_false_iff.mp nowhere ((holds_iff valid).mpr held)

theorem SinglyHeld.orderFree (held : store.SinglyHeld)
    (leftKind : left.messageType = .ok .request) (rightKind : right.messageType = .ok .request)
    (clients : left.chaddr ≠ right.chaddr)
    (leftWanted : store.holds left.requestedIp right.chaddr = false)
    (rightWanted : store.holds right.requestedIp left.chaddr = false) :
    OrderFree server store left right now where
  exchanged wanted := exchanged_of_apart held leftKind rightKind ⟨clients, wanted,
    not_heldBy_of_holds held.valid leftWanted, not_heldBy_of_holds held.valid rightWanted⟩
  race same leftFree rightFree leftNothing rightNothing := by
    rw [availableAt_eq held.valid, Except.ok.injEq] at leftFree rightFree
    have leftLeaseless := fun addr => not_heldBy_of_holds held.valid (leftNothing addr)
    have rightLeaseless := fun addr => not_heldBy_of_holds held.valid (rightNothing addr)
    exact ⟨firstWins_of_race held leftKind rightKind clients same leftFree leftLeaseless
        rightLeaseless,
      firstWins_of_race held rightKind leftKind clients.symm same.symm rightFree rightLeaseless
        leftLeaseless⟩

end MyServer

namespace Dhcpv6.V6Pool

variable {pool next : V6Pool} {duid leftDuid rightDuid : Duid}
variable {now : Reading} {addr leftAddr rightAddr : Ipv6Addr}
variable {outcome : ClaimOutcome Ipv6Addr Entry} {result : Except String Ipv6Addr}

/-- The sender of a request. -/
def claimant (pool : V6Pool) (duid : Duid) (addr : Ipv6Addr) (now : Instant) :
    Claimant Ipv6Addr Entry.duid where
  client := duid
  wanted := addr
  free slot := pool.inRange addr = true ∧ Entry.takeable slot duid now = true
  entry := ⟨duid, some (now + pool.leaseDuration)⟩
  touch := id
  holder_entry := rfl
  holder_touch _ := rfl

theorem free_iff : (pool.claimant duid addr now).free (pool.entry addr) ↔
    pool.available duid addr now = true :=
  Bool.and_eq_true_iff.symm

def resultOf (outcome : ClaimOutcome Ipv6Addr Entry) : Except String Ipv6Addr :=
  match outcome.address with
  | some addr => .ok addr
  | none => .error "Requested address not available"

/-- What a request does, read off the claim of its sender. -/
structure Settled (pool : V6Pool) (outcome : ClaimOutcome Ipv6Addr Entry) (next : V6Pool)
    (result : Except String Ipv6Addr) : Prop where
  claimant : next.claimant = pool.claimant
  result : result = resultOf outcome
  entry : next.entry = outcome.write pool.entry

theorem SinglyHeld.current_eq_some_iff (held : pool.SinglyHeld) :
    pool.current duid = some addr ↔ pool.HeldBy addr duid := by
  apply SlotTable.current_eq_some_iff held.valid.table
  intro leftAddr rightAddr owner leftHeld rightHeld
  exact held.single (leases_heldBy_iff.mpr leftHeld) (leases_heldBy_iff.mpr rightHeld)

/-- A refused claim changes nothing. -/
theorem request_refuses (held : pool.SinglyHeld)
    (claims : (pool.claimant duid addr now).Claims pool.entry .refused) :
    pool.request duid addr now = .ok (pool, .error "Requested address not available") := by
  cases claims with
  | refused nothing taken =>
      have missing := (current_eq_none_iff held.valid).mpr nothing
      have unavailable := Bool.eq_false_iff.mpr fun free => taken (free_iff.mpr free)
      exact request_refused held.valid missing unavailable

/-- A request settles the claim of its sender. -/
theorem request_settles (held : pool.SinglyHeld)
    (claims : (pool.claimant duid addr now).Claims pool.entry outcome) :
    ∃ next result, pool.request duid addr now = .ok (next, result) ∧
      Settled pool outcome next result := by
  cases claims with
  | @kept addr old found owner =>
      have current := held.current_eq_some_iff.mpr ⟨old, found, owner⟩
      refine ⟨_, _, request_held held.valid current, rfl, rfl, ?_⟩
      exact (Function.update_eq_self_iff.mpr found.symm).symm
  | granted nothing free =>
      have missing := (current_eq_none_iff held.valid).mpr nothing
      exact ⟨_, _, request_free held.valid missing (free_iff.mp free) (now.fits held.short),
        rfl, rfl, entry_leased held.valid⟩
  | refused nothing taken =>
      exact ⟨_, _, request_refuses held (.refused nothing taken), rfl, rfl, rfl⟩

theorem SinglyHeld.request (held : pool.SinglyHeld)
    (requested : pool.request duid addr now = .ok (next, result)) :
    pool.call (.request duid addr now) = .ok (next, .requested result) ∧ next.SinglyHeld := by
  have called : pool.call (.request duid addr now) = .ok (next, .requested result) := by
    simp only [V6Pool.call, requested, Checked.bind_ok]
    rfl
  exact ⟨called, held.step called (by intro _ _ _ inserts; cases inserts)⟩

def holds (pool : V6Pool) (addr : Ipv6Addr) (duid : Duid) : Bool :=
  match pool.get addr with
  | .ok (some entry) => entry.duid = duid
  | _ => false

theorem holds_iff (valid : pool.Valid) : pool.holds addr duid = true ↔ pool.HeldBy addr duid := by
  rw [holds, V6Pool.get, lookup_eq valid]
  constructor
  · intro held
    cases found : pool.entry addr with
    | none => simp [found] at held
    | some entry =>
        rw [found] at held
        exact ⟨entry, found, of_decide_eq_true held⟩
  · intro held
    rcases held with ⟨entry, found, owner⟩
    have read : pool.entry addr = some entry := found
    have owns : entry.duid = duid := owner
    simp [read, owns]

theorem holds_eq_false (valid : pool.Valid) (missing : pool.current duid = none)
    (addr : Ipv6Addr) : pool.holds addr duid = false :=
  Bool.eq_false_iff.mpr fun held =>
    (current_eq_none_iff valid).mp missing addr ((holds_iff valid).mp held)

theorem not_heldBy_of_holds (valid : pool.Valid) (nowhere : pool.holds addr duid = false) :
    ¬pool.HeldBy addr duid :=
  fun held => Bool.eq_false_iff.mp nowhere ((holds_iff valid).mpr held)

/-- The answers of two orders agree for each client, and the leases do. -/
structure Exchanged (leftFirst rightFirst : InTurn V6Pool PoolAnswer) : Prop where
  left : leftFirst.first = rightFirst.second
  right : leftFirst.second = rightFirst.first
  leases : ∀ addr, leftFirst.after.get addr = rightFirst.after.get addr

/-- The first client is given the address and keeps it, and the second one is
refused without a change. -/
structure FirstWins (addr : Ipv6Addr) (client : Duid) (turn : InTurn V6Pool PoolAnswer) :
    Prop where
  accepted : turn.first = .requested (.ok addr)
  refused : ∃ message, turn.second = .requested (.error message)
  unchanged : turn.after = turn.between
  holds : turn.after.holds addr client = true

/-- The requests can change places if they are for different addresses, and if
they race for one then the first wins. -/
structure OrderFree (pool : V6Pool) (leftDuid rightDuid : Duid) (leftAddr rightAddr : Ipv6Addr)
    (now : Reading) : Prop where
  exchanged : leftAddr ≠ rightAddr →
    ∃ leftFirst rightFirst,
      inTurn V6Pool.call pool (.request leftDuid leftAddr now)
        (.request rightDuid rightAddr now) = .ok leftFirst ∧
      inTurn V6Pool.call pool (.request rightDuid rightAddr now)
        (.request leftDuid leftAddr now) = .ok rightFirst ∧
      Exchanged leftFirst rightFirst
  race : leftAddr = rightAddr →
    pool.availableAt leftDuid leftAddr now = .ok true →
    pool.availableAt rightDuid rightAddr now = .ok true →
    (∀ addr, pool.holds addr leftDuid = false) → (∀ addr, pool.holds addr rightDuid = false) →
    (∃ turn, inTurn V6Pool.call pool (.request leftDuid leftAddr now)
        (.request rightDuid rightAddr now) = .ok turn ∧ FirstWins leftAddr leftDuid turn) ∧
    ∃ turn, inTurn V6Pool.call pool (.request rightDuid rightAddr now)
        (.request leftDuid leftAddr now) = .ok turn ∧ FirstWins rightAddr rightDuid turn

theorem exchanged_of_apart (held : pool.SinglyHeld)
    (apart : Claimant.Apart pool.entry (pool.claimant leftDuid leftAddr now)
      (pool.claimant rightDuid rightAddr now)) :
    ∃ leftFirst rightFirst,
      inTurn V6Pool.call pool (.request leftDuid leftAddr now)
        (.request rightDuid rightAddr now) = .ok leftFirst ∧
      inTurn V6Pool.call pool (.request rightDuid rightAddr now)
        (.request leftDuid leftAddr now) = .ok rightFirst ∧
      Exchanged leftFirst rightFirst := by
  rcases Claimant.exists_claims (pool.claimant leftDuid leftAddr now) pool.entry with
    ⟨leftEnd, leftClaims⟩
  rcases Claimant.exists_claims (pool.claimant rightDuid rightAddr now) pool.entry with
    ⟨rightEnd, rightClaims⟩
  rcases request_settles held leftClaims with ⟨afterLeft, leftResult, leftAnswered, leftSettled⟩
  rcases request_settles held rightClaims with
    ⟨afterRight, rightResult, rightAnswered, rightSettled⟩
  rcases held.request leftAnswered with ⟨leftCalled, leftHeld⟩
  rcases held.request rightAnswered with ⟨rightCalled, rightHeld⟩
  have rightLater := apart.claims leftClaims rightClaims
  rw [← leftSettled.entry, ← leftSettled.claimant] at rightLater
  have leftLater := apart.symm.claims rightClaims leftClaims
  rw [← rightSettled.entry, ← rightSettled.claimant] at leftLater
  rcases request_settles leftHeld rightLater with ⟨leftFirst, _, rightFollows, rightBehind⟩
  rcases request_settles rightHeld leftLater with ⟨rightFirst, _, leftFollows, leftBehind⟩
  rcases leftHeld.request rightFollows with ⟨rightCalledLater, leftFirstHeld⟩
  rcases rightHeld.request leftFollows with ⟨leftCalledLater, rightFirstHeld⟩
  refine ⟨_, _, inTurn_eq_ok leftCalled rightCalledLater,
    inTurn_eq_ok rightCalled leftCalledLater,
    congrArg _ (leftSettled.result.trans leftBehind.result.symm),
    congrArg _ (rightBehind.result.trans rightSettled.result.symm), ?_⟩
  intro addr
  have same : leftFirst.entry = rightFirst.entry := by
    rw [rightBehind.entry, leftSettled.entry, leftBehind.entry, rightSettled.entry]
    exact ClaimOutcome.write_comm (apart.address_ne leftClaims rightClaims)
  rw [V6Pool.get, V6Pool.get, lookup_eq leftFirstHeld.valid, lookup_eq rightFirstHeld.valid, same]

theorem firstWins_of_race (held : pool.SinglyHeld) (clients : leftDuid ≠ rightDuid)
    (free : pool.available leftDuid addr now = true)
    (leftNothing : ∀ addr, ¬pool.HeldBy addr leftDuid)
    (rightNothing : ∀ addr, ¬pool.HeldBy addr rightDuid) :
    ∃ turn, inTurn V6Pool.call pool (.request leftDuid addr now)
        (.request rightDuid addr now) = .ok turn ∧ FirstWins addr leftDuid turn := by
  have leftClaims : (pool.claimant leftDuid addr now).Claims pool.entry (.granted
      (pool.claimant leftDuid addr now).wanted (pool.claimant leftDuid addr now).entry) :=
    .granted leftNothing (free_iff.mpr free)
  rcases request_settles held leftClaims with ⟨between, _, leftAnswered, leftSettled⟩
  rcases held.request leftAnswered with ⟨leftCalled, leftHeld⟩
  have taken : ¬(pool.claimant rightDuid addr now).free
      (some (pool.claimant leftDuid addr now).entry) := by
    intro free
    have takeable := free.2
    simp [Entry.takeable, claimant, clients] at takeable
  have behind : (between.claimant rightDuid addr now).Claims between.entry .refused := by
    rw [leftSettled.entry, leftSettled.claimant]
    exact Claimant.Claims.race clients rfl rightNothing taken
  rcases leftHeld.request (request_refuses leftHeld behind) with ⟨rightCalled, _⟩
  have kept := leftClaims.holds rfl
  rw [← leftSettled.entry] at kept
  exact ⟨_, inTurn_eq_ok leftCalled rightCalled, congrArg _ leftSettled.result, ⟨_, rfl⟩, rfl,
    (holds_iff leftHeld.valid).mpr kept⟩

theorem SinglyHeld.orderFree (held : pool.SinglyHeld) (clients : leftDuid ≠ rightDuid)
    (leftWanted : pool.holds leftAddr rightDuid = false)
    (rightWanted : pool.holds rightAddr leftDuid = false) :
    OrderFree pool leftDuid rightDuid leftAddr rightAddr now where
  exchanged wanted := exchanged_of_apart held ⟨clients, wanted,
    not_heldBy_of_holds held.valid leftWanted, not_heldBy_of_holds held.valid rightWanted⟩
  race same leftFree rightFree leftNothing rightNothing := by
    subst same
    rw [availableAt_eq held.valid, Except.ok.injEq] at leftFree rightFree
    have leftLeaseless := fun addr => not_heldBy_of_holds held.valid (leftNothing addr)
    have rightLeaseless := fun addr => not_heldBy_of_holds held.valid (rightNothing addr)
    exact ⟨firstWins_of_race held clients leftFree leftLeaseless rightLeaseless,
      firstWins_of_race held clients.symm rightFree rightLeaseless leftLeaseless⟩

end Dhcpv6.V6Pool

/-- From a leases file that names every client at most once on, two requests of
different clients do not depend on the order in which they arrive, as long as
neither wants what the other one has. -/
theorem orderFree_of_run :
    (∀ {config hasher file server initial past state left right now},
      config.validate = .ok config → MyServer.main config hasher file = .ok initial →
      ((MyServer.reservations file).map Prod.fst).Nodup →
      Run (MyServer.handleRequest server) initial past state →
      left.messageType = .ok .request → right.messageType = .ok .request →
      left.chaddr ≠ right.chaddr → state.holds left.requestedIp right.chaddr = false →
      state.holds right.requestedIp left.chaddr = false →
      MyServer.OrderFree server state left right now) ∧
    ∀ {config hasher file initial past state leftDuid rightDuid leftAddr rightAddr now},
      Dhcpv6.startPool config hasher file = .ok initial →
      ((Dhcpv6.reservations file).map Prod.fst).Nodup →
      Run Dhcpv6.V6Pool.call initial past state →
      (∀ called ∈ past, Dhcpv6.V6Pool.ByClient called.input) →
      leftDuid ≠ rightDuid → state.holds leftAddr rightDuid = false →
      state.holds rightAddr leftDuid = false →
      Dhcpv6.V6Pool.OrderFree state leftDuid rightDuid leftAddr rightAddr now := by
  refine ⟨?_, ?_⟩
  · intro config hasher file server initial past state left right now accepted loaded macs run
      leftKind rightKind clients leftWanted rightWanted
    have start : initial.SinglyHeld :=
      ⟨MyServer.valid_main accepted loaded, MyServer.singleHolding_main accepted loaded macs⟩
    have held : state.SinglyHeld := run.invariant start MyServer.SinglyHeld.step
    exact held.orderFree leftKind rightKind clients leftWanted rightWanted
  · intro config hasher file initial past state leftDuid rightDuid leftAddr rightAddr now started
      duids run byClients clients leftWanted rightWanted
    have start := Dhcpv6.V6Pool.singlyHeld_startPool started duids
    have held := Dhcpv6.V6Pool.singlyHeld_of_calls start run byClients
    exact held.orderFree clients leftWanted rightWanted

/-- Two newcomers, of whom the DHCPv4 server gives one a reserved address and the
DHCPv6 pool refuses one, and the same two in a race for a free address. -/
theorem orderFree_of_run_newcomers :
    (∃ session leftFirst rightFirst turn, simulate (MyServer.handleRequest ⟨.new 192 168 2 1⟩)
        (MyServer.main MyServer.twoLeases Hasher.newestFirst MyServer.oneReservation) [] =
          .ok session ∧
      (inTurn (MyServer.handleRequest ⟨.new 192 168 2 1⟩) session.state
          ⟨MyServer.requestFor #v[1, 2, 3, 4, 5, 8] (.new 192 168 2 2), 5⟩
          ⟨MyServer.requestFor #v[1, 2, 3, 4, 5, 9] (.new 192 168 2 3), 5⟩ = .ok leftFirst ∧
        inTurn (MyServer.handleRequest ⟨.new 192 168 2 1⟩) session.state
          ⟨MyServer.requestFor #v[1, 2, 3, 4, 5, 9] (.new 192 168 2 3), 5⟩
          ⟨MyServer.requestFor #v[1, 2, 3, 4, 5, 8] (.new 192 168 2 2), 5⟩ = .ok rightFirst ∧
        MyServer.Exchanged leftFirst rightFirst) ∧
      inTurn (MyServer.handleRequest ⟨.new 192 168 2 1⟩) session.state
          ⟨MyServer.requestFor #v[1, 2, 3, 4, 5, 8] (.new 192 168 2 2), 5⟩
          ⟨MyServer.requestFor #v[1, 2, 3, 4, 5, 9] (.new 192 168 2 2), 5⟩ = .ok turn ∧
        MyServer.FirstWins (.new 192 168 2 2) #v[1, 2, 3, 4, 5, 8] turn) ∧
    ∃ session leftFirst rightFirst turn, simulate Dhcpv6.V6Pool.call
        (Dhcpv6.startPool Dhcpv6.twoAddressConfig Hasher.newestFirst Dhcpv6.oneReservation) [] =
          .ok session ∧
      (inTurn Dhcpv6.V6Pool.call session.state (.request [2] Dhcpv6.V6Pool.firstAddress 5)
          (.request [3] Dhcpv6.V6Pool.secondAddress 5) = .ok leftFirst ∧
        inTurn Dhcpv6.V6Pool.call session.state (.request [3] Dhcpv6.V6Pool.secondAddress 5)
          (.request [2] Dhcpv6.V6Pool.firstAddress 5) = .ok rightFirst ∧
        Dhcpv6.V6Pool.Exchanged leftFirst rightFirst) ∧
      inTurn Dhcpv6.V6Pool.call session.state (.request [2] Dhcpv6.V6Pool.secondAddress 5)
          (.request [3] Dhcpv6.V6Pool.secondAddress 5) = .ok turn ∧
        Dhcpv6.V6Pool.FirstWins Dhcpv6.V6Pool.secondAddress [2] turn := by
  refine ⟨?_, ?_⟩
  · have computed : Checked.passes (simulate (MyServer.handleRequest ⟨.new 192 168 2 1⟩)
        (MyServer.main MyServer.twoLeases Hasher.newestFirst MyServer.oneReservation) [])
        (fun session => session.state.current #v[1, 2, 3, 4, 5, 8] = none &&
          session.state.current #v[1, 2, 3, 4, 5, 9] = none &&
          session.state.availableAt #v[1, 2, 3, 4, 5, 8] (.new 192 168 2 2) 5 = .ok true &&
          session.state.availableAt #v[1, 2, 3, 4, 5, 9] (.new 192 168 2 2) 5 = .ok true) =
        true := by
      decide
    rcases Checked.exists_of_passes computed with ⟨session, simulated, tested⟩
    simp only [Bool.and_eq_true, decide_eq_true_eq] at tested
    rcases tested with ⟨⟨⟨leftMissing, rightMissing⟩, leftFree⟩, rightFree⟩
    rcases Run.of_simulate simulated with ⟨loaded, run⟩
    have valid := MyServer.valid_reached rfl loaded run
    have leftNothing := MyServer.holds_eq_false valid leftMissing
    have rightNothing := MyServer.holds_eq_false valid rightMissing
    have apart : MyServer.OrderFree ⟨.new 192 168 2 1⟩ session.state
        (MyServer.requestFor #v[1, 2, 3, 4, 5, 8] (.new 192 168 2 2))
        (MyServer.requestFor #v[1, 2, 3, 4, 5, 9] (.new 192 168 2 3)) 5 :=
      orderFree_of_run.1 rfl loaded (by decide) run rfl rfl (by decide) (rightNothing _)
        (leftNothing _)
    have racing : MyServer.OrderFree ⟨.new 192 168 2 1⟩ session.state
        (MyServer.requestFor #v[1, 2, 3, 4, 5, 8] (.new 192 168 2 2))
        (MyServer.requestFor #v[1, 2, 3, 4, 5, 9] (.new 192 168 2 2)) 5 :=
      orderFree_of_run.1 rfl loaded (by decide) run rfl rfl (by decide) (rightNothing _)
        (leftNothing _)
    rcases apart.exchanged (by decide) with ⟨leftFirst, rightFirst, exchanged⟩
    rcases (racing.race rfl leftFree rightFree leftNothing rightNothing).1 with ⟨turn, first⟩
    exact ⟨session, leftFirst, rightFirst, turn, simulated, exchanged, first⟩
  · have computed : Checked.passes (simulate Dhcpv6.V6Pool.call
        (Dhcpv6.startPool Dhcpv6.twoAddressConfig Hasher.newestFirst Dhcpv6.oneReservation) [])
        (fun session => session.past.length = 0 && session.state.current [2] = none &&
          session.state.current [3] = none &&
          session.state.availableAt [2] Dhcpv6.V6Pool.secondAddress 5 = .ok true &&
          session.state.availableAt [3] Dhcpv6.V6Pool.secondAddress 5 = .ok true) = true := by
      decide
    rcases Checked.exists_of_passes computed with ⟨session, simulated, tested⟩
    simp only [Bool.and_eq_true, decide_eq_true_eq] at tested
    rcases tested with ⟨⟨⟨⟨fresh, leftMissing⟩, rightMissing⟩, leftFree⟩, rightFree⟩
    rcases Run.of_simulate simulated with ⟨started, run⟩
    have noCalls : ∀ called ∈ session.past, Dhcpv6.V6Pool.ByClient called.input := by
      rw [List.length_eq_zero_iff.mp fresh]
      intro called listed
      cases listed
    have valid := Dhcpv6.V6Pool.valid_of_run (Dhcpv6.serves_of_started started).valid run
    have leftNothing := Dhcpv6.V6Pool.holds_eq_false valid leftMissing
    have rightNothing := Dhcpv6.V6Pool.holds_eq_false valid rightMissing
    have apart : session.state.OrderFree [2] [3] Dhcpv6.V6Pool.firstAddress
        Dhcpv6.V6Pool.secondAddress 5 :=
      orderFree_of_run.2 started (by decide) run noCalls (by decide) (rightNothing _)
        (leftNothing _)
    have racing : session.state.OrderFree [2] [3] Dhcpv6.V6Pool.secondAddress
        Dhcpv6.V6Pool.secondAddress 5 :=
      orderFree_of_run.2 started (by decide) run noCalls (by decide) (rightNothing _)
        (leftNothing _)
    rcases apart.exchanged (by decide) with ⟨leftFirst, rightFirst, exchanged⟩
    rcases (racing.race rfl leftFree rightFree leftNothing rightNothing).1 with ⟨turn, first⟩
    exact ⟨session, leftFirst, rightFirst, turn, simulated, exchanged, first⟩

end RustyDhcp

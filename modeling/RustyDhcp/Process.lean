import RustyDhcp.Dhcpv6.Upheld
import RustyDhcp.Foundation.Threads
import RustyDhcp.Server.Startup

/-! # The process

`main` reads its configuration, starts a thread for DHCPv6 if that is enabled, binds its
socket, loads the leases and serves DHCPv4. Where the main thread ends, by a panic or by
coming back from serving, the process ends. -/

namespace RustyDhcp

variable {IoError : Type}

/-! ## The loops -/

namespace Daemon

/-- What the loop of `serve_with_broadcasts` does with what it receives. It returns the
error of a socket that fails to receive. -/
def receive (daemon : Daemon) (store : MyServer) (received : Except IoError (Arrival IoError)) :
    Fallible IoError (MyServer × Reaction) :=
  match received with
  | .ok arrival => daemon.round store arrival
  | .error error => Fallible.refuse error

/-- What is received ends the loop. -/
def Final : Except IoError (Arrival IoError) → Prop
  | .ok arrival => Deadly arrival.received
  | .error _ => True

/-- How the loop ends there: by a panic, or by the error that it returns. -/
def EndsBy : Except IoError (Arrival IoError) → Failure IoError → Prop
  | .ok _, reason => ∃ panic, reason = .panic panic
  | .error error, reason => reason = .refused error

theorem stopsAt_receive (daemon : Daemon) :
    StopsAt (receive daemon) MyServer.Valid (@Final IoError) where
  ends := by
    intro store received valid
    cases received with
    | error error =>
        refine iff_of_false ?_ fun going => going trivial
        rintro ⟨_, equal⟩
        cases equal
    | ok arrival =>
        refine Iff.trans ?_ (@round_ends_iff IoError daemon store arrival valid)
        exact exists_congr fun result => Fallible.lift_eq_ok_iff
  preserved := by
    intro store received next output valid done
    cases received with
    | error error => cases done
    | ok arrival => exact daemon.stopsAt.preserved valid (Fallible.lift_eq_ok_iff.mp done)

theorem endsBy_of_receive {daemon : Daemon} {store : MyServer}
    {received : Except IoError (Arrival IoError)} {reason : Failure IoError}
    (ended : daemon.receive store received = .error reason) : EndsBy received reason := by
  cases received with
  | error error =>
      cases ended
      rfl
  | ok arrival =>
      cases done : daemon.round store arrival with
      | error panic =>
          rw [receive, done] at ended
          cases ended
          exact ⟨panic, rfl⟩
      | ok result =>
          rw [receive, done] at ended
          cases ended

end Daemon

namespace Dhcpv6

/-- What the thread for DHCPv6 does with what it receives. A panic would end this thread
only, and so does a socket that fails to receive. Then nobody listens any more. -/
def thread (config : Config) (pool : Option V6Pool)
    (received : Except IoError (Arrival IoError)) : Option V6Pool × Option Reaction :=
  match pool, received with
  | some pool, .ok arrival =>
      match round config pool arrival with
      | .ok (pool, reaction) => (some pool, some reaction)
      | .error _ => (none, none)
  | _, _ => (none, none)

/-- The pool of a thread that listens is one that the server works with. -/
def Threaded (config : Config) (pool : Option V6Pool) : Prop :=
  ∀ found ∈ pool, Serves config found

variable {config : Config} {pool : Option V6Pool}

theorem threaded_none : Threaded config none := by
  intro found same
  cases same

theorem thread_error (config : Config) (pool : Option V6Pool) (error : IoError) :
    thread config pool (.error error) = (none, none) := by
  cases pool <;> rfl

/-- A thread that listens goes on whatever arrives. -/
theorem thread_ok (threaded : Threaded config pool) (arrival : Arrival IoError) :
    Threaded config (thread config pool (.ok arrival)).1 ∧
      (thread config pool (.ok arrival)).1.isSome = pool.isSome ∧
        (thread config pool (.ok arrival)).2.isSome = pool.isSome := by
  cases pool with
  | none => exact ⟨threaded_none, rfl, rfl⟩
  | some pool =>
      have serves : Serves config pool := threaded pool rfl
      rcases round_ends serves arrival with ⟨⟨next, reaction⟩, done⟩
      simp only [thread, done]
      refine ⟨?_, rfl, rfl⟩
      intro found same
      cases same
      exact (round_of_round done).serves serves

/-- The thread in the process, which goes on without it. -/
def receive (config : Config) (pool : Option V6Pool)
    (received : Except IoError (Arrival IoError)) :
    Fallible IoError (Option V6Pool × Option Reaction) :=
  .ok (thread config pool received)

theorem stopsAt_receive : StopsAt (@receive IoError config) (Threaded config) (fun _ => False) where
  ends _ := iff_of_true ⟨_, rfl⟩ not_false
  preserved := by
    intro pool received next output threaded done
    have after : (thread config pool received).1 = next := congrArg Prod.fst (Except.ok.inj done)
    rw [← after]
    cases received with
    | error error =>
        rw [thread_error]
        exact threaded_none
    | ok arrival => exact (thread_ok threaded arrival).1

/-- The thread reacts up to the first time that its socket fails to receive. -/
theorem reacts_iff (threaded : Threaded config pool)
    {inputs : List (Except IoError (Arrival IoError))} {place : Nat} {output : Option Reaction}
    (put : (transcript (receive config) pool inputs).1[place]? = some output) :
    output.isSome ↔ pool.isSome ∧ ∀ input ∈ inputs.take (place + 1), input.isOk := by
  induction inputs generalizing pool place with
  | nil => cases put
  | cons input inputs induction =>
      rw [List.take_succ_cons, List.forall_mem_cons]
      cases input with
      | error error =>
          have ended : (transcript (receive config) pool (.error error :: inputs)).1 =
              none :: (transcript (receive config) none inputs).1 := by
            simp only [transcript, receive, thread_error]
          rw [ended] at put
          refine iff_of_false ?_ ?_
          · cases place with
            | zero =>
                cases put
                exact Bool.false_ne_true
            | succ place =>
                intro reacts
                have listening := (induction threaded_none put).mp reacts
                cases listening.1
          · intro facts
            cases facts.2.1
      | ok arrival =>
          rcases thread_ok threaded arrival with ⟨after, listens, reacts⟩
          have going : (transcript (receive config) pool (.ok arrival :: inputs)).1 =
              (thread config pool (.ok arrival)).2 ::
                (transcript (receive config) (thread config pool (.ok arrival)).1 inputs).1 := by
            simp only [transcript, receive]
          rw [going] at put
          cases place with
          | zero =>
              cases put
              rw [reacts, List.take_zero]
              refine ⟨?_, And.left⟩
              intro listening
              refine ⟨listening, rfl, ?_⟩
              intro _ listed
              cases listed
          | succ place =>
              rw [induction after put, listens]
              exact and_congr_right fun _ => (and_iff_right rfl).symm

end Dhcpv6

/-! ## The process -/

inductive Service where
  | v4
  | v6
deriving DecidableEq

namespace Process

open Dhcpv6 MyServer

/-- What comes of opening a leases file and reading its lines. -/
inductive Opened where
  | missing
  | whole (lines : List (Option Text))
  /-- Behind these lines every attempt to read fails, as it does in a directory. -/
  | stuck (lines : List (Option Text))

/-- The lines that a loader gets to see. -/
def Opened.file : Opened → LeasesFile
  | missing => none
  | whole lines | stuck lines => some lines

/-- A loader skips what it cannot read, so it goes on forever. -/
def Opened.isStuck : Opened → Bool
  | stuck _ => true
  | missing | whole _ => false

/-- What the operating system says to the process while it starts. Threads can be started
and text can be printed. -/
structure World (IoError : Type) where
  bind : Service → SocketAddr → Except IoError Unit
  setBroadcast : Except IoError Unit
  openFile : Text → Opened

def State : Service → Type
  | .v4 => MyServer
  | .v6 => Option V6Pool

/-- What `recv_from` gives. -/
def Input (IoError : Type) : Service → Type
  | .v4 => Except IoError (Arrival IoError)
  | .v6 => Except IoError (Dhcpv6.Arrival IoError)

/-- Nobody reacts to what arrives for DHCPv6 where no thread listens. -/
def Output : Service → Type
  | .v4 => Reaction
  | .v6 => Option Dhcpv6.Reaction

def states (store : MyServer) (pool : Option V6Pool) : (service : Service) → State service
  | .v4 => store
  | .v6 => pool

/-- The pool that the thread for DHCPv6 comes to serve from. -/
def listen (config : Config) (v6Hasher : Hasher Ipv6Addr V6Pool.Entry) (world : World IoError) :
    Option V6Pool := do
  guard config.enableDhcpv6
  -- The thread panics without its socket, which nobody notices.
  (world.bind .v6 config.listenAddrV6).toOption
  let leases := world.openFile config.leasesFileV6
  guard !leases.isStuck
  (startPool config v6Hasher leases.file).toOption

/-- `main` up to its receive loop, and what the thread for DHCPv6 comes to. -/
def boot (config : Config) (hasher : Hasher Ipv4Addr MyServer.Entry)
    (v6Hasher : Hasher Ipv6Addr V6Pool.Entry) (world : World IoError) :
    Fallible IoError (∀ service, State service) := do
  let pool := listen config v6Hasher world
  Checked.unwrap (world.bind .v4 config.listenAddr).toOption
  Checked.unwrap world.setBroadcast.toOption
  let leases := world.openFile config.leasesFile
  let store ← MyServer.main config hasher leases.file
  if leases.isStuck then .error .endless else return states store pool

/-- What one of the threads does with what it receives. -/
def step (IoError : Type) (config : Config) : (service : Service) → State service →
    Input IoError service → Fallible IoError (State service × Output service)
  | .v4 => (Daemon.serveWithBroadcasts config.serverIp config.broadcasts).receive
  | .v6 => Dhcpv6.receive config

/-- What stays true of the leases. -/
def Holds (config : Config) : (service : Service) → State service → Prop
  | .v4 => MyServer.Valid
  | .v6 => Threaded config

/-- What is received ends the process. -/
def Stops : (service : Service) → Input IoError service → Prop
  | .v4 => Daemon.Final
  | .v6 => fun _ => False

/-- The process comes to serve DHCPv4. -/
structure Starts (config : Config) (world : World IoError) : Prop where
  bound : (world.bind .v4 config.listenAddr).isOk
  broadcast : world.setBroadcast.isOk
  ends : (world.openFile config.leasesFile).isStuck = false
  harmless : ∀ lines, (world.openFile config.leasesFile).file = some lines →
    ∀ line, some line ∈ lines → ¬Fatal line

/-- The process comes to serve DHCPv6. -/
structure Listens (config : Config) (world : World IoError) : Prop where
  enabled : config.enableDhcpv6
  bound : (world.bind .v6 config.listenAddrV6).isOk
  ends : (world.openFile config.leasesFileV6).isStuck = false

variable {config : Config} {hasher : Hasher Ipv4Addr MyServer.Entry}
variable {v6Hasher : Hasher Ipv6Addr V6Pool.Entry} {world : World IoError}

/-! ## Starting -/

theorem listen_of_listens (listens : Listens config world) : ∃ pool,
    listen config v6Hasher world = some pool ∧ Serves config pool := by
  rcases listens with ⟨enabled, bound, ends⟩
  rcases startPool_reserves config v6Hasher (world.openFile config.leasesFileV6).file with
    ⟨pool, started, serves, _⟩
  refine ⟨pool, ?_, serves⟩
  cases answer : world.bind .v6 config.listenAddrV6 with
  | error error =>
      rw [answer] at bound
      cases bound
  | ok => simp [listen, enabled, answer, ends, started, Except.toOption]

theorem listens_of_listen {pool : V6Pool} (listening : listen config v6Hasher world = some pool) :
    Listens config world := by
  cases enabled : config.enableDhcpv6 with
  | false => simp [listen, enabled] at listening
  | true =>
      cases bound : world.bind .v6 config.listenAddrV6 with
      | error error => simp [listen, bound, Except.toOption] at listening
      | ok =>
          cases ends : (world.openFile config.leasesFileV6).isStuck with
          | true => simp [listen, ends] at listening
          | false => exact ⟨enabled, by rw [bound]; rfl, ends⟩

theorem listen_isSome_iff : (listen config v6Hasher world).isSome ↔ Listens config world := by
  constructor
  · intro listening
    rcases Option.isSome_iff_exists.mp listening with ⟨pool, found⟩
    exact listens_of_listen found
  · intro listens
    rcases @listen_of_listens IoError config v6Hasher world listens with ⟨pool, found, _⟩
    rw [found]
    rfl

theorem threaded_listen : Threaded config (listen config v6Hasher world) := by
  intro pool found
  rcases @listen_of_listens IoError config v6Hasher world (listens_of_listen found) with
    ⟨other, same, serves⟩
  cases same.symm.trans found
  exact serves

theorem boot_eq_ok_iff {started : ∀ service, State service} :
    boot config hasher v6Hasher world = .ok started ↔
      ((world.bind .v4 config.listenAddr).isOk ∧ world.setBroadcast.isOk ∧
        (world.openFile config.leasesFile).isStuck = false) ∧
      ∃ store, MyServer.main config hasher (world.openFile config.leasesFile).file = .ok store ∧
        started = states store (listen config v6Hasher world) := by
  cases bound : world.bind .v4 config.listenAddr with
  | error error => simp [boot, bound, Checked.unwrap, Except.toOption, Except.isOk, Except.toBool]
  | ok =>
      cases broadcast : world.setBroadcast with
      | error error =>
          simp [boot, bound, broadcast, Checked.unwrap, Except.toOption, Except.isOk, Except.toBool]
      | ok =>
          cases loaded :
              MyServer.main config hasher (world.openFile config.leasesFile).file with
          | error panic =>
              simp [boot, bound, broadcast, loaded, Checked.unwrap, Except.toOption]
          | ok store =>
              cases stuck : (world.openFile config.leasesFile).isStuck with
              | true =>
                  simp [boot, bound, broadcast, loaded, stuck, Checked.unwrap, Except.toOption]
              | false =>
                  simp [boot, bound, broadcast, loaded, stuck, Checked.unwrap, Except.toOption,
                    Except.isOk, Except.toBool, eq_comm]

/-- A host without the address to listen on. -/
example : boot .defaults Hasher.newestFirst Hasher.newestFirst
    (⟨fun _ _ => .error "not available", .ok (), fun _ => .missing⟩ : World String) =
      .error (.panic .unwrapFailed) := rfl

/-- Only the sockets and the DHCPv4 leases file can keep the process from serving. -/
theorem boot_ends_iff (accepted : config.validate = .ok config) :
    (∃ started, boot config hasher v6Hasher world = .ok started) ↔ Starts config world := by
  have loads := @MyServer.main_ends_iff config hasher accepted
    (world.openFile config.leasesFile).file
  constructor
  · rintro ⟨started, booted⟩
    rcases boot_eq_ok_iff.mp booted with ⟨⟨bound, broadcast, ends⟩, store, loaded, _⟩
    exact ⟨bound, broadcast, ends, loads.mp ⟨store, loaded⟩⟩
  · intro starts
    rcases loads.mpr starts.harmless with ⟨store, loaded⟩
    exact ⟨_, boot_eq_ok_iff.mpr
      ⟨⟨starts.bound, starts.broadcast, starts.ends⟩, store, loaded, rfl⟩⟩

theorem holds_of_boot {started : ∀ service, State service}
    (accepted : config.validate = .ok config)
    (booted : boot config hasher v6Hasher world = .ok started) (service : Service) :
    Holds config service (started service) := by
  rcases boot_eq_ok_iff.mp booted with ⟨_, store, loaded, rfl⟩
  cases service with
  | v4 => exact MyServer.valid_main accepted loaded
  | v6 => exact threaded_listen

/-- Whether DHCPv6 is served from then on. -/
theorem listening_of_boot {started : ∀ service, State service}
    (booted : boot config hasher v6Hasher world = .ok started) :
    Option.isSome (started .v6) ↔ Listens config world := by
  rcases boot_eq_ok_iff.mp booted with ⟨_, store, _, rfl⟩
  exact listen_isSome_iff

/-! ## Serving -/

theorem stopsAt (service : Service) :
    StopsAt (step IoError config service) (Holds config service) (Stops service) := by
  cases service with
  | v4 => exact Daemon.stopsAt_receive _
  | v6 => exact stopsAt_receive

/-- Everything that the process puts out, and why there is no more of it. -/
def report (config : Config) (started : ∀ service, State service)
    (inputs : List (Σ service, Input IoError service)) :
    List (Σ service, Output service) × Option (Failure IoError) :=
  transcript (threads (step IoError config)) started inputs

/-- What a service would put out on its own. -/
def alone (config : Config) (started : ∀ service, State service)
    (inputs : List (Σ service, Input IoError service)) (service : Service) :
    List (Output service) × Option (Failure IoError) :=
  transcript (step IoError config service) (started service) (inputs.filterMap (pick service))

/-- How the process ends: as the loop for DHCPv4 does. -/
def EndsBy : (service : Service) → Input IoError service → Failure IoError → Prop
  | .v4 => Daemon.EndsBy
  | .v6 => fun _ _ => False

theorem endsBy_of_threads {started : ∀ service, State service}
    {input : Σ service, Input IoError service} {reason : Failure IoError}
    (stopped : threads (step IoError config) started input = .error reason) :
    EndsBy input.1 input.2 reason := by
  rcases input with ⟨service, received⟩
  cases done : step IoError config service (started service) received with
  | ok result => cases (threads_eq_ok done).symm.trans stopped
  | error failure =>
      cases (threads_eq_error done).symm.trans stopped
      cases service with
      | v4 => exact Daemon.endsBy_of_receive done
      | v6 => cases done

/-- Whatever is in `dhcp.conf`, the process serves DHCPv4 if its socket and its leases file
let it, and then until a deadly datagram or a failing socket ends it. It serves DHCPv6 if
that is enabled and has what it needs, until its own socket fails. Up to the end of the
process both react to everything that they receive, each as if it were alone. -/
theorem serves_until_deadly (lower : Lowercase) (text : Option Text)
    (hasher : Hasher Ipv4Addr MyServer.Entry) (v6Hasher : Hasher Ipv6Addr V6Pool.Entry)
    (world : World IoError) :
    ((∃ started, boot (.ofFile lower text) hasher v6Hasher world = .ok started) ↔
        Starts (.ofFile lower text) world) ∧
      ∀ started, boot (.ofFile lower text) hasher v6Hasher world = .ok started →
        ∀ before : List (Σ service, Input IoError service),
          (∀ input ∈ before, ¬Stops input.1 input.2) →
            (report (.ofFile lower text) started before).1.length = before.length ∧
              (∀ service, alone (.ofFile lower text) started before service =
                ((report (.ofFile lower text) started before).1.filterMap (pick service), none)) ∧
              (∀ place output,
                (alone (.ofFile lower text) started before .v6).1[place]? = some output →
                  (Option.isSome output ↔ Listens (.ofFile lower text) world ∧
                    ∀ input ∈ (before.filterMap (pick Service.v6)).take (place + 1),
                      Except.isOk input)) ∧
              ∀ last after, Stops last.1 last.2 → ∃ reason, EndsBy last.1 last.2 reason ∧
                report (.ofFile lower text) started (before ++ last :: after) =
                  ((report (.ofFile lower text) started before).1, some reason) := by
  have accepted := Config.validate_ofFile lower text
  refine ⟨boot_ends_iff accepted, ?_⟩
  intro started booted before harmless
  have holds := holds_of_boot accepted booted
  have stops := StopsAt.threads (@stopsAt IoError (.ofFile lower text))
  rcases stops.transcript_of_harmless holds harmless with ⟨length, going⟩
  refine ⟨length, ?_, ?_, ?_⟩
  · intro service
    have same := transcript_thread stopsAt service holds fun input member _ =>
      harmless input member
    rw [going] at same
    exact same.symm
  · intro place output put
    rw [← listening_of_boot booted]
    exact Dhcpv6.reacts_iff (holds .v6) put
  · intro last after stop
    rcases stops.transcript_of_stop holds harmless stop after with
      ⟨reached, reason, _, stopped, ended⟩
    exact ⟨reason, endsBy_of_threads stopped, ended⟩

end Process

end RustyDhcp

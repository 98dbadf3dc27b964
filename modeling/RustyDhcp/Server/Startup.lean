import RustyDhcp.Config.Broadcasts
import RustyDhcp.Foundation.Transcript
import RustyDhcp.Server.Daemon
import RustyDhcp.Server.LeasesFile

/-! # Starting the DHCPv4 daemon -/

namespace RustyDhcp

variable {config : Config} {hasher : Hasher Ipv4Addr MyServer.Entry}

namespace MyServer

variable {store : MyServer} {line : Text}

/-- A line with two fields, six numbers in the first one and no address in the
second one. -/
def Fatal (line : Text) : Prop :=
  ∃ macText ipText, line.splitOn ',' = [macText, ipText] ∧ (octetsRead macText).length = 6 ∧
    parseIpv4Addr (trim ipText) = none

theorem leaseLine_ends_iff : (∃ found, leaseLine line = .ok found) ↔ ¬Fatal line := by
  by_cases fields : ∃ macText ipText, line.splitOn ',' = [macText, ipText]
  · rcases fields with ⟨macText, ipText, fields⟩
    have fatal : Fatal line ↔
        (octetsRead macText).length = 6 ∧ parseIpv4Addr (trim ipText) = none := by
      constructor
      · intro fatal
        rcases fatal with ⟨_, _, same, facts⟩
        rw [fields] at same
        cases same
        exact facts
      · exact fun facts => ⟨macText, ipText, fields, facts⟩
    rw [leaseLine_of_fields fields, fatal]
    by_cases six : (octetsRead macText).length = 6
    · rw [dif_pos six]
      cases parsed : parseIpv4Addr (trim ipText) with
      | none =>
          refine iff_of_false ?_ fun harmless => harmless ⟨six, rfl⟩
          intro found
          rcases found with ⟨_, equal⟩
          cases equal
      | some ip =>
          refine iff_of_true ⟨_, rfl⟩ ?_
          intro facts
          cases facts.2
    · rw [dif_neg six]
      exact iff_of_true ⟨none, rfl⟩ fun facts => six facts.1
  · rw [leaseLine_of_not_fields fields]
    refine iff_of_true ⟨none, rfl⟩ ?_
    intro fatal
    rcases fatal with ⟨macText, ipText, same, _⟩
    exact fields ⟨macText, ipText, same⟩

theorem loadLine_ends_iff (valid : store.Valid) :
    (∃ next, store.loadLine (some line) = .ok next) ↔ ¬Fatal line := by
  rw [← leaseLine_ends_iff]
  constructor
  · intro ends
    rcases ends with ⟨next, loaded⟩
    rcases Checked.bind_eq_ok_iff.mp loaded with ⟨found, read, _⟩
    exact ⟨found, read⟩
  · intro ends
    rcases ends with ⟨found, read⟩
    rw [loadLine, read]
    cases found with
    | none => exact ⟨store, rfl⟩
    | some reservation =>
        rcases reservation with ⟨mac, ip⟩
        simp only [Checked.bind_ok, loadLease_eq, insertLease_eq valid]
        exact ⟨_, rfl⟩

/-- The loader gets through a file unless one of its lines is fatal. -/
theorem loadLeases_ends_iff {lines : List (Option Text)} (valid : store.Valid) :
    (∃ next, store.loadLeases lines = .ok next) ↔ ∀ line, some line ∈ lines → ¬Fatal line := by
  induction lines generalizing store with
  | nil => exact iff_of_true ⟨store, rfl⟩ (by simp)
  | cons first lines induction =>
      have split : (∀ line, some line ∈ first :: lines → ¬Fatal line) ↔
          (∀ line, first = some line → ¬Fatal line) ∧
            ∀ line, some line ∈ lines → ¬Fatal line := by
        simp only [List.mem_cons, or_imp, forall_and, eq_comm]
      rw [split]
      cases loaded : store.loadLine first with
      | error panic =>
          refine iff_of_false ?_ ?_
          · intro ends
            rcases ends with ⟨next, done⟩
            rw [loadLeases, loaded] at done
            cases done
          · intro harmless
            cases first with
            | none => cases loaded
            | some line =>
                rcases (loadLine_ends_iff valid).mpr (harmless.1 line rfl) with ⟨next, done⟩
                cases loaded.symm.trans done
      | ok middle =>
          have remains : middle.Valid := by
            rcases loadLine_cases valid loaded with ⟨_, rfl⟩ | ⟨_, _, _, rfl⟩
            · exact valid
            · exact valid_inserted valid
          have harmless : ∀ line, first = some line → ¬Fatal line := by
            intro line same
            subst same
            exact (loadLine_ends_iff valid).mp ⟨middle, loaded⟩
          rw [loadLeases, loaded, and_iff_right harmless, ← induction remains]
          rfl

/-- Nothing else keeps the server from starting. -/
theorem main_ends_iff (accepted : config.validate = .ok config) (file : LeasesFile) :
    (∃ store, main config hasher file = .ok store) ↔
      ∀ lines, file = some lines → ∀ line, some line ∈ lines → ¬Fatal line := by
  cases file with
  | none => exact iff_of_true ⟨_, rfl⟩ (by simp)
  | some lines =>
      rw [main, loadLeases_ends_iff (valid_ofConfig accepted hasher)]
      simp only [Option.some.injEq, forall_eq']

end MyServer

theorem Daemon.stopsAt (daemon : Daemon) :
    StopsAt (fun store (arrival : Arrival IoError) => daemon.round store arrival) MyServer.Valid
      (fun arrival => Deadly arrival.received) where
  ends valid := round_ends_iff valid
  preserved valid done := (round_eq_ok_iff.mp done).valid valid

end RustyDhcp

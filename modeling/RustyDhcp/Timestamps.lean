import Mathlib.Data.List.Lex
import RustyDhcp.Server.Monitor

/-! # The order of the time stamps

Time stamps sort as text like the seconds that they stand for, up to the end of the
year 9999. -/

namespace RustyDhcp

/-- Later days have later dates. -/
theorem rank_dateOf_lt {day later : Int} (ordered : day < later) :
    (dateOf day).rank < (dateOf later).rank := by
  have step : ∀ day, (dateOf day).rank < (dateOf (day + 1)).rank := by
    intro day
    rw [← next_dateOf]
    exact (valid_dateOf day).rank_lt_next
  have distance : ∃ steps : Nat, later = day + 1 + steps :=
    ⟨(later - day - 1).toNat, by omega⟩
  rcases distance with ⟨steps, rfl⟩
  clear ordered
  induction steps with
  | zero =>
      rw [Int.natCast_zero, Int.add_zero]
      exact step day
  | succ steps induction =>
      rw [Int.natCast_succ, ← Int.add_assoc]
      exact Int.lt_trans induction (step _)

/-! ## Numbers of a fixed width -/

variable {width first second : Nat} {front back rest others : Text}

theorem append_lt_append (same : front.length = back.length) (ordered : front < back) :
    front ++ rest < back ++ others := by
  induction front generalizing back with
  | nil =>
      rw [List.eq_nil_of_length_eq_zero same.symm] at ordered
      exact absurd ordered (List.lt_irrefl [])
  | cons char front induction =>
      cases back with
      | nil => cases same
      | cons other back =>
          rw [List.cons_append, List.cons_append]
          rcases List.cons_lt_cons_iff.mp ordered with less | ⟨rfl, less⟩
          · exact List.cons_lt_cons_iff.mpr (.inl less)
          · exact List.cons_lt_cons_iff.mpr (.inr ⟨rfl, induction (Nat.succ.inj same) less⟩)

theorem zeroPadded_succ (width number : Nat) : zeroPadded (width + 2) number =
    zeroPadded (width + 1) (number / 10) ++ [Nat.digitChar (number % 10)] := by
  rw [zeroPadded, zeroPadded, decimal, decimal]
  by_cases small : number < 10
  · rw [Nat.div_eq_of_lt small, Nat.mod_eq_of_lt small, Nat.toDigits_of_lt_base small,
      Nat.toDigits_zero]
    exact congrArg (· ++ _) List.replicate_succ'
  · have padding : ∀ digits, width + 2 - (digits + 1) = width + 1 - digits := by omega
    rw [Nat.toDigits_of_base_le (by decide) (by omega : 10 ≤ number), List.length_append,
      List.length_singleton, padding, List.append_assoc]

theorem length_zeroPadded (fits : first < 10 ^ (width + 1)) :
    (zeroPadded (width + 1) first).length = width + 1 := by
  have short := (Nat.length_toDigits_le_iff (by decide : 1 < 10) width.succ_pos).mpr fits
  rw [zeroPadded, List.length_append, List.length_replicate, decimal]
  omega

theorem digitChar_lt : ∀ second < 10, ∀ first < second,
    Nat.digitChar first < Nat.digitChar second := by
  decide

theorem zeroPadded_lt (ordered : first < second) (fits : second < 10 ^ (width + 1)) :
    zeroPadded (width + 1) first < zeroPadded (width + 1) second := by
  induction width generalizing first second with
  | zero =>
      have digit : ∀ {number}, number < 10 → zeroPadded 1 number = [Nat.digitChar number] := by
        intro number small
        rw [zeroPadded, decimal, Nat.toDigits_of_lt_base small]
        rfl
      rw [digit (by omega), digit (by omega)]
      exact List.cons_lt_cons_iff.mpr (.inl (digitChar_lt second (by omega) first ordered))
  | succ width induction =>
      have inside : second / 10 < 10 ^ (width + 1) := by
        rw [Nat.pow_succ] at fits
        omega
      rw [zeroPadded_succ, zeroPadded_succ]
      by_cases tens : first / 10 < second / 10
      · apply append_lt_append _ (induction tens inside)
        rw [length_zeroPadded (Nat.lt_trans tens inside), length_zeroPadded inside]
      · have equal : first / 10 = second / 10 := by omega
        rw [equal]
        apply List.append_left_lt
        exact List.cons_lt_cons_iff.mpr (.inl (digitChar_lt _ (by omega) _ (by omega)))

/-- Texts that begin with a number each compare like the numbers, or else like the rest. -/
theorem field_lt (fits : second < 10 ^ (width + 1)) (ordered : first ≤ second)
    (equal : first = second → rest < others) :
    zeroPadded (width + 1) first ++ rest < zeroPadded (width + 1) second ++ others := by
  by_cases same : first = second
  · rw [same]
    exact List.append_left_lt (equal same)
  · have less : first < second := by omega
    apply append_lt_append _ (zeroPadded_lt less fits)
    rw [length_zeroPadded (Nat.lt_trans less fits), length_zeroPadded fits]

/-! ## Time stamps -/

/-- The time stamp of a second of a day. -/
def isoText (date : Date) (second : Nat) : Text :=
  zeroPaddedInt 4 date.year ++ '-' :: zeroPadded 2 date.month ++ '-' :: zeroPadded 2 date.day ++
    'T' :: zeroPadded 2 (second / 3600) ++ ':' :: zeroPadded 2 (second % 3600 / 60) ++
    ':' :: zeroPadded 2 (second % 60)

theorem utcNowIso_eq (secs : U64) : utcNowIso secs =
    .ok (isoText (dateOf ((secs.toNat / 86400 : Nat) + 719468)) (secs.toNat % 86400)) := by
  have bound := secs.isLt
  have day : asI64 (secs.toNat / 86400) = ((secs.toNat / 86400 : Nat) : Int) :=
    asI64_eq (by omega)
  rw [utcNowIso, day, ymdFromDays_eq ⟨by omega, by omega⟩ ⟨by omega, by omega⟩]
  rfl

variable {date other : Date} {early late : Nat}

/-- Time stamps compare like the dates, or else like the seconds of the day. -/
theorem isoText_lt (valid : date.Valid) (valid' : other.Valid) (begins : 0 ≤ date.year)
    (ends : other.year < 10000) (before : early < 86400) (within : late < 86400)
    (ordered : date.rank < other.rank ∨ date = other ∧ early < late) :
    isoText date early < isoText other late := by
  have month := valid.month
  have month' := valid'.month
  have day := valid.day
  have day' := valid'.day
  have short := Date.daysInMonth_le date.year date.month
  have short' := Date.daysInMonth_le other.year other.month
  have later : date.year < other.year ∨ date.year = other.year ∧ (date.month < other.month ∨
      date.month = other.month ∧ (date.day < other.day ∨ date.day = other.day ∧
        early < late)) := by
    rcases ordered with less | ⟨rfl, less⟩
    · rw [Date.rank, Date.rank] at less
      omega
    · exact .inr ⟨rfl, .inr ⟨rfl, .inr ⟨rfl, less⟩⟩⟩
  rw [isoText, isoText, zeroPaddedInt, zeroPaddedInt, if_neg (by omega), if_neg (by omega)]
  simp only [List.append_assoc, List.cons_append]
  refine field_lt (by omega) (by omega) fun sameYear => ?_
  rw [List.cons_lt_cons_self]
  refine field_lt (by omega) (by omega) fun sameMonth => ?_
  rw [List.cons_lt_cons_self]
  refine field_lt (by omega) (by omega) fun sameDay => ?_
  have clock : early < late := by omega
  rw [List.cons_lt_cons_self]
  refine field_lt (by omega) (by omega) fun sameHour => ?_
  rw [List.cons_lt_cons_self]
  refine field_lt (by omega) (by omega) fun sameMinute => ?_
  rw [List.cons_lt_cons_self]
  exact zeroPadded_lt (by omega) (by omega)

theorem length_isoText (valid : date.Valid) (begins : 0 ≤ date.year) (ends : date.year < 10000)
    (within : late < 86400) : (isoText date late).length = 19 := by
  have month := valid.month
  have day := valid.day
  have short := Date.daysInMonth_le date.year date.month
  have two : ∀ {number}, number < 10 ^ (1 + 1) → (zeroPadded 2 number).length = 2 :=
    length_zeroPadded
  have four : ∀ {number}, number < 10 ^ (3 + 1) → (zeroPadded 4 number).length = 4 :=
    length_zeroPadded
  rw [isoText, zeroPaddedInt, if_neg (by omega)]
  simp only [List.length_append, List.length_cons]
  rw [four (by omega), two (by omega), two (by omega), two (by omega), two (by omega),
    two (by omega)]

/-- The time stamp of a second after 1970. -/
def stampAt (secs : Nat) : Text :=
  isoText (dateOf ((secs / 86400 : Nat) + 719468)) (secs % 86400)

theorem year_dateOf {day : Int} (begins : 719467 < day) (ends : day < 3652365) :
    0 ≤ (dateOf day).year ∧ (dateOf day).year < 10000 := by
  have valid := (valid_dateOf day).month
  have short := (valid_dateOf day).day
  have bound := Date.daysInMonth_le (dateOf day).year (dateOf day).month
  have first : (dateOf 719467).rank < (dateOf day).rank := rank_dateOf_lt begins
  have last : (dateOf day).rank < (dateOf 3652365).rank := rank_dateOf_lt ends
  have eve : (dateOf 719467).rank = 732871 := by decide
  have future : (dateOf 3652365).rank = 3720032 := by decide
  rw [eve, Date.rank] at first
  rw [future, Date.rank] at last
  constructor <;> omega

theorem year_of_secs (inside : first < 253402300800) :
    0 ≤ (dateOf ((first / 86400 : Nat) + 719468)).year ∧
      (dateOf ((first / 86400 : Nat) + 719468)).year < 10000 :=
  year_dateOf (by omega) (by omega)

theorem stampAt_lt (ordered : first < second) (inside : second < 253402300800) :
    stampAt first < stampAt second := by
  have begins := year_of_secs (Nat.lt_trans ordered inside)
  have ends := year_of_secs inside
  apply isoText_lt (valid_dateOf _) (valid_dateOf _) begins.1 ends.2 (by omega) (by omega)
  by_cases sameDay : first / 86400 = second / 86400
  · right
    rw [sameDay]
    exact ⟨rfl, by omega⟩
  · left
    apply rank_dateOf_lt
    omega

theorem stampAt_lt_iff (early : first < 253402300800) (inside : second < 253402300800) :
    stampAt first < stampAt second ↔ first < second := by
  constructor
  · intro sorted
    by_contra late
    rcases Nat.lt_or_eq_of_le (Nat.le_of_not_lt late) with less | rfl
    · exact List.lt_asymm sorted (stampAt_lt less early)
    · exact List.lt_irrefl _ sorted
  · exact fun ordered => stampAt_lt ordered inside

theorem length_stampAt (inside : first < 253402300800) : (stampAt first).length = 19 := by
  have year := year_of_secs inside
  exact length_isoText (valid_dateOf _) year.1 year.2 (by omega)

/-- The time stamps of the seconds before a limit compare like the seconds. -/
def StampsSort (limit : Nat) : Prop :=
  ∀ first second : U64, first.toNat < limit → second.toNat < limit →
    ∃ early late, utcNowIso first = .ok early ∧ utcNowIso second = .ok late ∧
      (early < late ↔ first < second)

theorem utcNowIso_stampAt (secs : U64) : utcNowIso secs = .ok (stampAt secs.toNat) :=
  utcNowIso_eq secs

/-- Time stamps sort like the clock until the end of the year 9999, and no longer. -/
theorem stampsSort_iff (limit : Nat) : StampsSort limit ↔ limit ≤ 253402300800 := by
  constructor
  · intro sorted
    by_contra long
    have last : utcNowIso 253402300799 = .ok "9999-12-31T23:59:59".toList := by
      decide +kernel
    have next : utcNowIso 253402300800 = .ok "10000-01-01T00:00:00".toList := by
      decide +kernel
    rcases sorted 253402300799 253402300800
        (show 253402300799 < limit by omega) (show 253402300800 < limit by omega) with
      ⟨early, late, printed, printed', same⟩
    rw [last] at printed
    rw [next] at printed'
    cases printed
    cases printed'
    exact absurd (same.mpr (by decide)) (by decide)
  · intro short first second before within
    refine ⟨_, _, utcNowIso_stampAt first, utcNowIso_stampAt second, ?_⟩
    rw [BitVec.lt_def]
    exact stampAt_lt_iff (by omega) (by omega)

/-! ## The lines of the monitor -/

theorem text_online_lt {time time' : Text} (same : time.length = time'.length)
    (ordered : time < time') (mac mac' : Mac) (ip ip' : Ipv4Addr)
    (hostname hostname' : Option Text) :
    (Note.online time mac ip hostname).text < (Note.online time' mac' ip' hostname').text :=
  append_lt_append same ordered

/-- A line of the monitor begins with the time of day. -/
def Note.StampedAt (secs : U64) (note : Note) : Prop :=
  note.monitored = none ∨
    ∃ mac ip hostname, note = .online (stampAt secs.toNat) mac ip hostname

namespace Daemon

variable {config : Config} {hasher : Hasher Ipv4Addr MyServer.Entry} {file : LeasesFile}
variable {daemon : Daemon} {broadcasts : List Ipv4Addr} {initial state store next : MyServer}
variable {timed : Timed IoError} {notes : List Note} {reaction : Reaction}
variable {past : List (Handled MyServer (Timed IoError) (List Note × Reaction))}

theorem LoggedRound.stamped
    (logged : LoggedRound daemon broadcasts store timed next notes reaction) :
    ∀ note ∈ notes, note.StampedAt timed.secs := by
  have stamped : ∀ {packet reply notes}, MyServer.Report (daemon.scene broadcasts timed) store
      packet timed.now next notes reply → ∀ note ∈ notes, note.StampedAt timed.secs := by
    intro packet reply notes report
    refine report.forall_notes ?_ ?_
    · intro note _ unmonitored
      exact .inl unmonitored
    · intro time printed _
      cases (utcNowIso_stampAt timed.secs).symm.trans printed
      exact .inr ⟨_, _, _, rfl⟩
  cases logged with
  | refused => exact fun note listed => by cases listed
  | silent _ report => exact stamped report
  | answered _ report => exact stamped report

/-- Sorted as text, the lines of the monitor are in the order of the clock, whatever the
clients announce. -/
theorem sorted_of_run (accepted : config.validate = .ok config)
    (loaded : MyServer.main config hasher file = .ok initial)
    (run : Run (daemon.roundLogged broadcasts) initial past state)
    (early : ∀ handled ∈ past, handled.input.secs.toNat < 253402300800) :
    ∀ handled ∈ past, ∀ other ∈ past, handled.input.secs < other.input.secs →
      ∀ note ∈ handled.output.1, note.monitored.isSome = true →
        ∀ line ∈ other.output.1, line.monitored.isSome = true → note.text < line.text := by
  intro handled member other member' ordered note listed told line listed' told'
  have stamped := (loggedRound_of_run accepted loaded run member).2.stamped note listed
  have stamped' := (loggedRound_of_run accepted loaded run member').2.stamped line listed'
  have before := early handled member
  have within := early other member'
  rcases stamped with unmonitored | ⟨mac, ip, hostname, rfl⟩
  · rw [unmonitored] at told
    cases told
  · rcases stamped' with unmonitored | ⟨mac', ip', hostname', rfl⟩
    · rw [unmonitored] at told'
      cases told'
    · apply text_online_lt
      · rw [length_stampAt before, length_stampAt within]
      · exact stampAt_lt (BitVec.lt_def.mp ordered) within

/-- A client that asks for an address, one second earlier. -/
def beforeNoon (mac : Mac) (ip : Ipv4Addr) : Timed String where
  toArrival := fromClient (MyServer.requestFor mac ip).wire
  secs := 1699999999

set_option maxRecDepth 10000 in
/-- The clock is set back between two Requests. -/
theorem sorted_of_run_back : ∃ session,
    simulate ((serveWithBroadcasts (.new 192 168 2 1) []).roundLogged [])
        (MyServer.main MyServer.twoLeases Hasher.newestFirst none)
        [atNoon #v[2, 0, 0, 0, 7, 8] (.new 10 0 0 9),
          beforeNoon #v[2, 0, 0, 0, 7, 9] (.new 10 0 0 8)] = .ok session ∧
      (session.past.map fun handled => handled.input.secs) = [1699999999, 1700000000] ∧
      ∀ handled ∈ session.past, ∀ other ∈ session.past,
        handled.input.secs < other.input.secs →
          ∀ note ∈ handled.output.1, note.monitored.isSome = true →
            ∀ line ∈ other.output.1, line.monitored.isSome = true → note.text < line.text := by
  have computed : Checked.passes (simulate ((serveWithBroadcasts (.new 192 168 2 1) []).roundLogged
      []) (MyServer.main MyServer.twoLeases Hasher.newestFirst none)
      [atNoon #v[2, 0, 0, 0, 7, 8] (.new 10 0 0 9),
        beforeNoon #v[2, 0, 0, 0, 7, 9] (.new 10 0 0 8)])
      (fun session => (session.past.map fun handled => handled.input.secs) =
        [1699999999, 1700000000]) = true := by
    decide
  rcases Checked.exists_of_passes computed with ⟨session, simulated, two⟩
  rcases Run.of_simulate simulated with ⟨loaded, run⟩
  have clock := of_decide_eq_true two
  refine ⟨session, simulated, clock, sorted_of_run rfl loaded run ?_⟩
  have early : ∀ secs ∈ [1699999999, (1700000000 : U64)], secs.toNat < 253402300800 := by
    simp
  rw [← clock] at early
  exact fun handled member => early _ (List.mem_map_of_mem member)

end Daemon

end RustyDhcp

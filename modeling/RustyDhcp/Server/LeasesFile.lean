import RustyDhcp.Foundation.Lines
import RustyDhcp.Readers
import RustyDhcp.Utf8
import RustyDhcp.Server.Invariant

/-! # What the leases file says

A line is to reserve an address for a MAC when it consists of six hexadecimal
octets, a comma and the address, and to be skipped otherwise. The loader leaves
out the octets that it cannot read before it counts them, and it stops at an
address that it cannot read. -/

namespace RustyDhcp

/-- `BufRead::lines`: a line that is not valid UTF-8 is an error of its own. -/
def bufLines (content : List UInt8) : List (Option Text) :=
  (Lines.of '\n'.toUInt8 '\r'.toUInt8 content).map fromUtf8

/-- The number that hexadecimal digits write. -/
def hexNumber (text : Text) : Option Nat :=
  (text.mapM (toDigit 16)).map fun digits =>
    digits.foldl (fun value digit => value * 16 + digit) 0

def hexOctet (text : Text) : Option UInt8 := do
  let value ← hexNumber text
  if text ≠ [] ∧ value ≤ 255 then some (.ofNat value) else none

namespace MyServer

/-- The reservation that a line is to make. -/
def listed (line : Text) : Option (Mac × Ipv4Addr) :=
  match line.splitOn ',' with
  | [macText, ipText] => do
      let octets ← (macText.splitOn ':').mapM hexOctet
      let ip ← parseIpv4Addr (trim ipText)
      if six : octets.length = 6 then some (⟨octets.toArray, by simpa using six⟩, ip) else none
  | _ => none

/-- Six hexadecimal octets with colons between them, a comma and an address. -/
def Reserves (line : Text) (mac : Mac) (ip : Ipv4Addr) : Prop :=
  ∃ parts address, line = List.intercalate [':'] parts ++ ',' :: address ∧
    parts.map hexOctet = mac.toList.map some ∧ parseIpv4Addr (trim address) = some ip

/-- The part is a number to the loader. -/
def readable (part : Text) : Bool := (fromStrRadix 16 255 part).isSome

/-- The loader finds six octets and a comma, but not only octets in front of the
comma or no address behind it. -/
def Deceptive (line : Text) : Prop :=
  ∃ macText ipText, line.splitOn ',' = [macText, ipText] ∧
    (macText.splitOn ':').countP readable = 6 ∧
    (parseIpv4Addr (trim ipText) = none ∨ ∃ part ∈ macText.splitOn ':', hexOctet part = none)

/-! ## Octets -/

variable {text part line : Text} {octet : UInt8}

theorem le_foldl_digits (digits : List Nat) (value : Nat) :
    value ≤ digits.foldl (fun value digit => value * 16 + digit) value := by
  induction digits generalizing value with
  | nil => exact Nat.le_refl _
  | cons digit digits induction =>
      have more := induction (value * 16 + digit)
      rw [List.foldl_cons]
      omega

/-- No prefix of a small number is too large to be read. -/
theorem readDigits_of_digits {digits : List Nat} {value : Nat}
    (written : text.mapM (toDigit 16) = some digits)
    (small : digits.foldl (fun value digit => value * 16 + digit) value ≤ 255) :
    readDigits 16 255 value text =
      some (digits.foldl (fun value digit => value * 16 + digit) value) := by
  induction text generalizing value digits with
  | nil =>
      cases written
      rfl
  | cons char text induction =>
      rw [List.mapM_cons] at written
      rcases Option.bind_eq_some_iff.mp written with ⟨digit, found, written⟩
      rcases Option.bind_eq_some_iff.mp written with ⟨rest, others, written⟩
      cases written
      rw [List.foldl_cons] at small ⊢
      have bound := le_foldl_digits rest (value * 16 + digit)
      simp only [readDigits, found, Option.bind_eq_bind, Option.bind_some]
      rw [if_pos (by omega)]
      exact induction others small

theorem hexOctet_eq_some (read : hexOctet part = some octet) :
    part ≠ [] ∧ ∃ digits, part.mapM (toDigit 16) = some digits ∧
      readDigits 16 255 0 part = some octet.toNat := by
  rcases Option.bind_eq_some_iff.mp read with ⟨value, number, fits⟩
  rcases Option.map_eq_some_iff.mp number with ⟨digits, written, rfl⟩
  split at fits
  · rename_i octetFits
    refine ⟨octetFits.1, digits, written, ?_⟩
    rw [readDigits_of_digits written octetFits.2]
    cases fits
    rw [UInt8.toNat_ofNat_of_lt' (Nat.lt_of_le_of_lt octetFits.2 (by decide))]
  · cases fits

/-- An octet consists of hexadecimal digits. -/
theorem toDigit_of_hexOctet (read : hexOctet part = some octet) :
    ∀ char ∈ part, (toDigit 16 char).isSome := by
  rcases hexOctet_eq_some read with ⟨_, digits, written, _⟩
  exact isSome_of_mapM written

/-- The loader reads every octet, and as the number that it is. -/
theorem fromStrRadix_of_hexOctet (read : hexOctet part = some octet) :
    fromStrRadix 16 255 part = some octet.toNat := by
  have digits := toDigit_of_hexOctet read
  rcases hexOctet_eq_some read with ⟨nonempty, _, _, number⟩
  cases part with
  | nil => exact absurd rfl nonempty
  | cons char part =>
      have unsigned : char ≠ '+' := by
        rintro rfl
        exact absurd (digits '+' List.mem_cons_self) (by decide)
      rw [fromStrRadix.eq_4 _ _ _ (by simp) (fun equal => unsigned (List.cons.inj equal).1)
        (fun _ equal => unsigned (List.cons.inj equal).1)]
      exact number

/-! ## Lines -/

variable {mac : Mac} {ip : Ipv4Addr} {macText ipText : Text}

theorem listed_of_not_fields
    (single : ¬∃ macText ipText, line.splitOn ',' = [macText, ipText]) : listed line = none := by
  rw [listed]
  split
  · rename_i macText ipText fields
    exact absurd ⟨macText, ipText, fields⟩ single
  · rfl

theorem listed_of_fields (fields : line.splitOn ',' = [macText, ipText]) :
    listed line = some (mac, ip) ↔
      (macText.splitOn ':').map hexOctet = mac.toList.map some ∧
        parseIpv4Addr (trim ipText) = some ip := by
  rw [listed, fields]
  constructor
  · intro found
    rcases Option.bind_eq_some_iff.mp found with ⟨octets, read, found⟩
    rcases Option.bind_eq_some_iff.mp found with ⟨address, parsed, found⟩
    split at found
    · cases found
      exact ⟨mapM_eq_map_some.mp read, parsed⟩
    · cases found
  · intro found
    have read := mapM_eq_map_some.mpr found.1
    simp only [read, found.2, Option.bind_eq_bind, Option.bind_some]
    rw [dif_pos (by simp)]
    rfl

theorem foreign_comma : Foreign ',' where
  noDigit _ := rfl
  noDot := by decide
  noColon := by decide
  noSign := by decide
  noBracket := by decide
  noPercent := by decide

theorem comma_not_mem_address {address : Text} (parsed : parseIpv4Addr (trim address) = some ip) :
    ',' ∉ address :=
  fun comma => not_mem_of_parseIpv4Addr foreign_comma parsed (mem_trim (by decide) comma)

/-- A line is to make the reservation that it spells out. -/
theorem listed_eq_some_iff : listed line = some (mac, ip) ↔ Reserves line mac ip := by
  constructor
  · intro found
    have fields : ∃ macText ipText, line.splitOn ',' = [macText, ipText] := by
      by_contra single
      rw [listed_of_not_fields single] at found
      cases found
    rcases fields with ⟨macText, ipText, fields⟩
    have whole : [','].intercalate (line.splitOn ',') = line := List.intercalate_splitOn ','
    rw [fields] at whole
    rw [listed_of_fields fields] at found
    refine ⟨macText.splitOn ':', ipText, ?_, found⟩
    rw [List.intercalate_splitOn, ← whole, List.intercalate_cons_cons,
      List.intercalate_singleton, List.append_assoc, List.singleton_append]
  · intro reserves
    rcases reserves with ⟨parts, address, rfl, octets, parsed⟩
    have digits : ∀ part ∈ parts, ∀ char ∈ part, (toDigit 16 char).isSome := by
      intro part member
      have image : hexOctet part ∈ parts.map hexOctet := List.mem_map_of_mem member
      rw [octets] at image
      rcases List.mem_map.mp image with ⟨octet, _, read⟩
      exact toDigit_of_hexOctet read.symm
    have noColon : ∀ part ∈ parts, ':' ∉ part := fun part member colon =>
      absurd (digits part member ':' colon) (by decide)
    have noComma : ',' ∉ List.intercalate [':'] parts := by
      intro comma
      rcases of_mem_intercalate comma with equal | found
      · exact absurd equal (by decide)
      · rcases found with ⟨part, member, comma⟩
        exact absurd (digits part member ',' comma) (by decide)
    have six : parts ≠ [] := by
      rintro rfl
      have length := congrArg List.length octets
      simp at length
    have fields : (List.intercalate [':'] parts ++ ',' :: address).splitOn ',' =
        [List.intercalate [':'] parts, address] := by
      rw [List.splitOn_append_cons_self_of_not_mem noComma,
        List.splitOn_eq_singleton (comma_not_mem_address parsed)]
    rw [listed_of_fields fields, List.splitOn_intercalate ':' noColon six]
    exact ⟨octets, parsed⟩

/-! ## The loader's reading of a line -/

/-- The octets that the loader finds. -/
def octetsRead (macText : Text) : List UInt8 :=
  (macText.splitOn ':').filterMap fun part => (fromStrRadix 16 255 part).map UInt8.ofNat

theorem length_octetsRead (macText : Text) :
    (octetsRead macText).length = (macText.splitOn ':').countP readable := by
  rw [octetsRead, List.length_filterMap_eq_countP]
  congr 1
  funext part
  rw [Option.isSome_map, readable]

theorem octetsRead_of_octets {octets : List UInt8}
    (written : (macText.splitOn ':').mapM hexOctet = some octets) :
    octetsRead macText = octets := by
  rw [mapM_eq_map_some] at written
  rw [octetsRead]
  generalize macText.splitOn ':' = parts at written
  induction parts generalizing octets with
  | nil =>
      cases octets with
      | nil => rfl
      | cons octet octets => cases written
  | cons part parts induction =>
      cases octets with
      | nil => cases written
      | cons octet octets =>
          rw [List.map_cons, List.map_cons, List.cons.injEq] at written
          rw [List.filterMap_cons_some (by rw [fromStrRadix_of_hexOctet written.1]; rfl),
            induction written.2, UInt8.ofNat_toNat]

theorem leaseLine_of_fields (fields : line.splitOn ',' = [macText, ipText]) :
    leaseLine line =
      if six : (octetsRead macText).length = 6 then do
        let ip ← Checked.unwrap (parseIpv4Addr (trim ipText))
        return some (⟨(octetsRead macText).toArray, by simpa using six⟩, ip)
      else .ok none := by
  rw [leaseLine, fields]
  rfl

/-- Where the loader finds another number of octets, there is no reservation. -/
theorem listed_of_not_six (fields : line.splitOn ',' = [macText, ipText])
    (other : (octetsRead macText).length ≠ 6) : listed line = none := by
  cases found : listed line with
  | none => rfl
  | some reservation =>
      have written := ((listed_of_fields fields).mp found).1
      rw [octetsRead_of_octets (mapM_eq_map_some.mpr written)] at other
      exact absurd reservation.1.size_toArray other

/-- Where nothing deceives it, the loader takes six octets for what they are. -/
theorem listed_of_six (fields : line.splitOn ',' = [macText, ipText])
    (plain : ¬Deceptive line) (six : (octetsRead macText).length = 6) :
    ∃ ip, parseIpv4Addr (trim ipText) = some ip ∧
      listed line = some (⟨(octetsRead macText).toArray, by simpa using six⟩, ip) := by
  have count := six
  rw [length_octetsRead] at count
  have valid : ∀ part ∈ macText.splitOn ':', hexOctet part ≠ none := fun part member noOctet =>
    plain ⟨macText, ipText, fields, count, .inr ⟨part, member, noOctet⟩⟩
  cases parsed : parseIpv4Addr (trim ipText) with
  | none => exact absurd ⟨macText, ipText, fields, count, .inl parsed⟩ plain
  | some ip =>
      rcases exists_mapM valid with ⟨octets, written⟩
      refine ⟨ip, rfl, (listed_of_fields fields).mpr ⟨?_, parsed⟩⟩
      have octetsEq : octetsRead macText = octets := octetsRead_of_octets written
      calc (macText.splitOn ':').map hexOctet = octets.map some := mapM_eq_map_some.mp written
        _ = (octetsRead macText).map some := by rw [octetsEq]

theorem leaseLine_of_not_fields
    (single : ¬∃ macText ipText, line.splitOn ',' = [macText, ipText]) :
    leaseLine line = .ok none := by
  rw [leaseLine]
  split
  · rename_i macText ipText fields
    exact absurd ⟨macText, ipText, fields⟩ single
  · rfl

theorem leaseLine_of_not_deceptive (plain : ¬Deceptive line) :
    leaseLine line = .ok (listed line) := by
  by_cases fields : ∃ macText ipText, line.splitOn ',' = [macText, ipText]
  · rcases fields with ⟨macText, ipText, fields⟩
    rw [leaseLine_of_fields fields]
    by_cases six : (octetsRead macText).length = 6
    · rcases listed_of_six fields plain six with ⟨ip, parsed, found⟩
      rw [dif_pos six, found, parsed]
      rfl
    · rw [dif_neg six, listed_of_not_six fields six]
  · rw [leaseLine_of_not_fields fields, listed_of_not_fields fields]

theorem listed_of_deceptive (deceptive : Deceptive line) : listed line = none := by
  rcases deceptive with ⟨macText, ipText, fields, _, wrong⟩
  cases found : listed line with
  | none => rfl
  | some reservation =>
      rcases (listed_of_fields fields).mp found with ⟨octets, parsed⟩
      rcases wrong with noAddress | ⟨part, member, noOctet⟩
      · rw [noAddress] at parsed
        cases parsed
      · have image : hexOctet part ∈ (macText.splitOn ':').map hexOctet :=
          List.mem_map_of_mem member
        rw [octets, noOctet] at image
        simp at image

theorem leaseLine_of_deceptive (deceptive : Deceptive line) : leaseLine line ≠ .ok none := by
  rcases deceptive with ⟨macText, ipText, fields, six, _⟩
  rw [leaseLine_of_fields fields, dif_pos (by rw [length_octetsRead, six])]
  intro skipped
  rcases Checked.bind_eq_ok_iff.mp skipped with ⟨ip, _, equal⟩
  cases equal

/-! ## The loader -/

/-- The reservations that a file is to make, in order. -/
def listedLines (lines : List (Option Text)) : List (Mac × Ipv4Addr) :=
  lines.filterMap fun line => line.bind listed

def insertLeases : (store : MyServer) → List (Mac × Ipv4Addr) → Checked MyServer
  | store, [] => .ok store
  | store, (mac, ip) :: reservations => do
      let store ← store.insertLease ip mac none none
      insertLeases store reservations

/-- The loader starts the server with the reservations that the file is to make,
and no other line would change a store that it is loaded into. -/
structure LoadsListed (config : Config) (hasher : Hasher Ipv4Addr Entry)
    (lines : List (Option Text)) : Prop where
  starts : ∃ state, main config hasher (some lines) = .ok state ∧
    (ofConfig config hasher).insertLeases (listedLines lines) = .ok state
  skips : ∀ line ∈ lines, line.bind listed = none →
    ∀ store : MyServer, store.loadLine line = .ok store

variable {store : MyServer} {lines : List (Option Text)} {config : Config}
variable {hasher : Hasher Ipv4Addr Entry}

theorem insertLeases_eq_ok (valid : store.Valid) (reservations : List (Mac × Ipv4Addr)) :
    ∃ state, store.insertLeases reservations = .ok state := by
  induction reservations generalizing store with
  | nil => exact ⟨store, rfl⟩
  | cons reservation reservations induction =>
      rcases reservation with ⟨mac, ip⟩
      rw [insertLeases, insertLease_eq valid, Checked.bind_ok]
      exact induction (valid_inserted valid)

theorem loadLine_of_not_deceptive (plain : ¬Deceptive text) :
    store.loadLine (some text) =
      match listed text with
      | some (mac, ip) => store.insertLease ip mac none none
      | none => .ok store := by
  rw [loadLine, leaseLine_of_not_deceptive plain, Checked.bind_ok]
  cases listed text with
  | none => rfl
  | some reservation => exact loadLease_eq _ _

theorem loadLeases_of_not_deceptive (plain : ∀ text, some text ∈ lines → ¬Deceptive text) :
    store.loadLeases lines = store.insertLeases (listedLines lines) := by
  induction lines generalizing store with
  | nil => rfl
  | cons line lines induction =>
      have others : ∀ store : MyServer,
          store.loadLeases lines = store.insertLeases (listedLines lines) := fun _ =>
        induction fun text member => plain text (List.mem_cons_of_mem _ member)
      rw [loadLeases]
      cases line with
      | none => exact others store
      | some text =>
          rw [loadLine_of_not_deceptive (plain text List.mem_cons_self)]
          cases found : listed text with
          | none =>
              have same : listedLines (some text :: lines) = listedLines lines :=
                List.filterMap_cons_none found
              rw [same]
              exact others store
          | some reservation =>
              have split : listedLines (some text :: lines) = reservation :: listedLines lines :=
                List.filterMap_cons_some found
              rw [split, insertLeases]
              congr 1
              funext next
              exact others next

/-- A deceptive line does not leave a store without reservations alone. -/
theorem loadLine_of_deceptive (valid : store.Valid) (empty : ∀ addr, store.entry addr = none)
    (deceptive : Deceptive text) : store.loadLine (some text) ≠ .ok store := by
  intro skipped
  rcases Checked.bind_eq_ok_iff.mp skipped with ⟨found, read, rest⟩
  cases found with
  | none => exact leaseLine_of_deceptive deceptive read
  | some reservation =>
      rcases reservation with ⟨mac, ip⟩
      simp only [loadLease_eq, insertLease_eq valid, Except.ok.injEq] at rest
      have inserted : (store.withTable
          (store.table.insert store.layout ip ⟨mac, none, none⟩)).entry ip =
            if ip = ip then some ⟨mac, none, none⟩ else store.entry ip :=
        SlotTable.lookup_insert valid.table
      rw [rest, empty, if_pos rfl] at inserted
      cases inserted

/-- The loader does with a file what it is to do exactly when no line deceives
it. -/
theorem loadsListed_iff (accepted : config.validate = .ok config)
    (hasher : Hasher Ipv4Addr Entry) (lines : List (Option Text)) :
    LoadsListed config hasher lines ↔ ∀ text, some text ∈ lines → ¬Deceptive text := by
  have valid := valid_ofConfig accepted hasher
  constructor
  · intro loads text member deceptive
    refine loadLine_of_deceptive valid (fun addr => ?_) deceptive
      (loads.skips (some text) member (listed_of_deceptive deceptive) _)
    rw [ofConfig_eq]
    exact entry_withStorage _ addr
  · intro plain
    rcases insertLeases_eq_ok valid (listedLines lines) with ⟨state, inserted⟩
    refine ⟨⟨state, (loadLeases_of_not_deceptive plain).trans inserted, inserted⟩, ?_⟩
    intro line member skipped store
    cases line with
    | none => rfl
    | some text =>
        have unlisted : listed text = none := skipped
        rw [loadLine_of_not_deceptive (plain text member), unlisted]

theorem main_loadsListed (accepted : config.validate = .ok config)
    (hasher : Hasher Ipv4Addr Entry) (content : List UInt8) :
    LoadsListed config hasher (bufLines content) ↔
      ∀ text, some text ∈ bufLines content → ¬Deceptive text :=
  loadsListed_iff accepted hasher (bufLines content)

/-- A file with a reservation behind a line of another kind. -/
theorem main_loadsListed_twoLines :
    LoadsListed .defaults Hasher.newestFirst
      (bufLines (asBytes "# printer\r\naa:bb:cc:dd:ee:ff, 192.168.2.10 \n".toList)) := by
  have lines : bufLines (asBytes "# printer\r\naa:bb:cc:dd:ee:ff, 192.168.2.10 \n".toList) =
      [some "# printer".toList, some "aa:bb:cc:dd:ee:ff, 192.168.2.10 ".toList] := by
    decide +kernel
  rw [main_loadsListed rfl, lines]
  intro text member deceptive
  rcases deceptive with ⟨macText, ipText, fields, _, wrong⟩
  simp only [List.mem_cons, Option.some.injEq, List.not_mem_nil, or_false] at member
  rcases member with rfl | rfl
  · have single : "# printer".toList.splitOn ',' = ["# printer".toList] := by decide
    rw [single] at fields
    cases fields
  · have two : "aa:bb:cc:dd:ee:ff, 192.168.2.10 ".toList.splitOn ',' =
        ["aa:bb:cc:dd:ee:ff".toList, " 192.168.2.10 ".toList] := by decide
    rw [two] at fields
    cases fields
    revert wrong
    decide +kernel

/-- An address that is none stops the loader, and a seventh part in front of six
octets is overlooked. -/
theorem main_deceived :
    main .defaults Hasher.newestFirst
        (some (bufLines (asBytes "aa:bb:cc:dd:ee:ff,not-an-ip\n".toList))) =
      .error .unwrapFailed ∧
    ¬LoadsListed .defaults Hasher.newestFirst
        (bufLines (asBytes "aa:bb:cc:dd:ee:ff,not-an-ip\n".toList)) ∧
    leaseLine "zz:aa:bb:cc:dd:ee:ff,192.168.2.10".toList =
      .ok (some (#v[0xaa, 0xbb, 0xcc, 0xdd, 0xee, 0xff], .new 192 168 2 10)) ∧
    listed "zz:aa:bb:cc:dd:ee:ff,192.168.2.10".toList = none := by
  have panics : main .defaults Hasher.newestFirst
      (some (bufLines (asBytes "aa:bb:cc:dd:ee:ff,not-an-ip\n".toList))) =
        .error .unwrapFailed := by
    have lines : bufLines (asBytes "aa:bb:cc:dd:ee:ff,not-an-ip\n".toList) =
        [some "aa:bb:cc:dd:ee:ff,not-an-ip".toList] := by
      decide +kernel
    have line : leaseLine "aa:bb:cc:dd:ee:ff,not-an-ip".toList = .error .unwrapFailed := by
      decide +kernel
    rw [lines, main, loadLeases, loadLine, line]
    rfl
  refine ⟨panics, ?_, by decide +kernel, by decide +kernel⟩
  intro loads
  rcases loads.starts with ⟨state, started, _⟩
  rw [panics] at started
  cases started

end MyServer

end RustyDhcp

import RustyDhcp.Config
import RustyDhcp.Server.MyServer

/-! # Building the DHCPv4 server

The leases file is read line by line. A line that cannot be read is skipped,
and so is one that does not consist of a MAC and something behind a comma; but
that something has to be an address, or the server does not start. -/

namespace RustyDhcp

/-- Option list for Offer and Ack replies: lease time, subnet, router, DNS,
then NTP if enabled. -/
def buildOfferOptions (subnetMask routerIp : Ipv4Addr) (dnsIps ntpIps : List Ipv4Addr)
    (enableNtp : Bool) (leaseSecs : U32) : List DhcpOption :=
  [.ipAddressLeaseTime leaseSecs, .subnetMask subnetMask, .router [routerIp],
    .domainNameServer dnsIps] ++
    if enableNtp && !ntpIps.isEmpty then
      [.unrecognized
        { code := Options.networkTimeProtocolServers
          data := ntpIps.flatMap Ipv4Addr.octets }]
    else []

/-- The reservation on a line `mac,ip`, if it is one. -/
def leaseLine (line : Text) : Checked (Option (Mac × Ipv4Addr)) :=
  match line.splitOn ',' with
  | [macText, ipText] =>
      let macParts := (macText.splitOn ':').filterMap fun part =>
        (fromStrRadix 16 255 part).map UInt8.ofNat
      if six : macParts.length = 6 then do
        let ip ← Checked.unwrap (parseIpv4Addr (trim ipText))
        return some (⟨macParts.toArray, by simpa using six⟩, ip)
      else .ok none
  | _ => .ok none

namespace MyServer

/-- The server before the leases file is read. The order in which the hints
would be met in an iteration does not matter: nothing iterates over them. -/
def ofConfig (config : Config) (hasher : Hasher Ipv4Addr Entry) : MyServer where
  useSlots := config.leaseNum.toNat ≤ 100000
  slots :=
    if config.leaseNum.toNat ≤ 100000 then List.replicate config.leaseNum.toNat none else []
  filled := 0
  overflow := HashMap.new hasher
  byMac := HashMap.new Hasher.newestFirst
  lastLease := 0
  leaseDuration := Duration.ofSecs config.leaseDurationSecs
  ipStartNum := config.ipStartNum
  leaseNum := config.leaseNum
  enableRapidCommit := config.enableRapidCommit
  cachedOffer := buildOfferOptions config.subnetMask config.routerIp config.dnsIps
    config.ntpIps config.enableNtp config.leaseDurationSecs

/-- What the loader does with a reservation. It repeats `insertLease` by
hand. -/
def loadLease (store : MyServer) (mac : Mac) (ip : Ipv4Addr) : Checked MyServer :=
  let entry : Entry := ⟨mac, none, none⟩
  match store.idx ip with
  | some i => do
      let old ← Checked.index store.slots i
      return { store with
        slots := store.slots.set i (some entry)
        filled := if old.isNone then store.filled + 1 else store.filled
        byMac := (store.dropHint ip mac old).insert mac ip }
  | none =>
      let dropped := store.dropHint ip mac (store.overflow.get? ip)
      if !store.useSlots then
        -- Huge hash-only pools keep in-range entries here too.
        if !store.inPool ip then
          .ok { store with
            overflow := store.overflow.insert ip entry
            byMac := dropped.insert mac ip }
        else
          .ok { store with
            overflow := store.overflow.insert ip entry
            byMac := dropped.insert mac ip }
      else
        .ok { store with
          overflow := store.overflow.insert ip entry
          byMac := dropped.insert mac ip }

def loadLine (store : MyServer) (line : Option Text) : Checked MyServer :=
  match line with
  | none => .ok store
  | some line => do
      match ← leaseLine line with
      | some (mac, ip) => store.loadLease mac ip
      | none => return store

def loadLeases : (store : MyServer) → List (Option Text) → Checked MyServer
  | store, [] => .ok store
  | store, line :: lines => do
      let store ← store.loadLine line
      loadLeases store lines

/-- The server that `main` serves with. -/
def main (config : Config) (hasher : Hasher Ipv4Addr Entry) (file : LeasesFile) :
    Checked MyServer :=
  match file with
  | some lines => (ofConfig config hasher).loadLeases lines
  | none => .ok (ofConfig config hasher)

/-! ## Either storage

`main` decides by the size of the pool whether the leases in it live in slots.
Nothing else depends on the size, so both ways can be had for every pool. -/

def withStorage (useSlots : Bool) (config : Config) (hasher : Hasher Ipv4Addr Entry) :
    MyServer :=
  { ofConfig config hasher with
    useSlots := useSlots
    slots := if useSlots then List.replicate config.leaseNum.toNat none else [] }

def start (useSlots : Bool) (config : Config) (hasher : Hasher Ipv4Addr Entry)
    (file : LeasesFile) : Checked MyServer :=
  match file with
  | some lines => (withStorage useSlots config hasher).loadLeases lines
  | none => .ok (withStorage useSlots config hasher)

theorem ofConfig_eq (config : Config) (hasher : Hasher Ipv4Addr Entry) :
    ofConfig config hasher = withStorage (config.leaseNum.toNat ≤ 100000) config hasher := by
  by_cases small : config.leaseNum.toNat ≤ 100000 <;> simp [ofConfig, withStorage, small]

theorem main_eq_start (config : Config) (hasher : Hasher Ipv4Addr Entry) (file : LeasesFile) :
    main config hasher file = start (config.leaseNum.toNat ≤ 100000) config hasher file := by
  cases file with
  | none => exact congrArg Except.ok (ofConfig_eq config hasher)
  | some lines => exact congrArg (loadLeases · lines) (ofConfig_eq config hasher)

end MyServer

end RustyDhcp

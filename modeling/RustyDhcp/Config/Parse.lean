import RustyDhcp.Config
import RustyDhcp.Foundation.Lines

/-! # Reading the configuration file

The file holds one `key = value` a line. The lines are applied to the default
configuration one after the other, and the result is validated. -/

namespace RustyDhcp

/-- `str::to_lowercase`, for any version of Unicode. A character of ASCII that
is no capital letter stays. -/
structure Lowercase where
  map : Text → Text
  keeps (text : Text) (char : Char) (ascii : char.toNat < 128) (noCapital : ¬char.isUpper)
    (member : char ∈ text) : char ∈ map text

/-- What `str::to_lowercase` does with ASCII. -/
def Lowercase.ascii : Lowercase where
  map text := text.map Char.toLower
  keeps text char _ noCapital member := by
    have same : char.toLower = char := dif_neg fun range => noCapital (decide_eq_true range)
    exact List.mem_map.mpr ⟨char, member, same⟩

namespace Config

/-- The settings of the file. -/
inductive Key where
  | serverIp | ipStart | leaseNum | subnetMask | routerIp | dnsIps | enableNtp | ntpIps
  | enableRapidCommit | broadcastIp | extraBroadcastIps | leaseDurationSecs | leasesFile
  | listenAddr | enableDhcpv6 | serverDuid | ipv6Start | ipv6LeaseNum | ipv6Dns
  | ipv6LeaseDurationSecs | leasesFileV6 | listenAddrV6
deriving DecidableEq, Repr

namespace Key

def name : Key → String
  | serverIp => "server_ip"
  | ipStart => "ip_start"
  | leaseNum => "lease_num"
  | subnetMask => "subnet_mask"
  | routerIp => "router_ip"
  | dnsIps => "dns_ips"
  | enableNtp => "enable_ntp"
  | ntpIps => "ntp_ips"
  | enableRapidCommit => "enable_rapid_commit"
  | broadcastIp => "broadcast_ip"
  | extraBroadcastIps => "extra_broadcast_ips"
  | leaseDurationSecs => "lease_duration_secs"
  | leasesFile => "leases_file"
  | listenAddr => "listen_addr"
  | enableDhcpv6 => "enable_dhcpv6"
  | serverDuid => "server_duid"
  | ipv6Start => "ipv6_start"
  | ipv6LeaseNum => "ipv6_lease_num"
  | ipv6Dns => "ipv6_dns"
  | ipv6LeaseDurationSecs => "ipv6_lease_duration_secs"
  | leasesFileV6 => "leases_file_v6"
  | listenAddrV6 => "listen_addr_v6"

def all : List Key :=
  [serverIp, ipStart, leaseNum, subnetMask, routerIp, dnsIps, enableNtp, ntpIps,
    enableRapidCommit, broadcastIp, extraBroadcastIps, leaseDurationSecs, leasesFile, listenAddr,
    enableDhcpv6, serverDuid, ipv6Start, ipv6LeaseNum, ipv6Dns, ipv6LeaseDurationSecs,
    leasesFileV6, listenAddrV6]

def ofName (text : Text) : Option Key := all.find? fun key => key.name.toList = text

theorem name_of_ofName {text : Text} {key : Key} (found : ofName text = some key) :
    key.name.toList = text := by
  rw [ofName] at found
  have test := List.find?_some found
  exact of_decide_eq_true test

theorem ofName_name (key : Key) : ofName key.name.toList = some key := by
  cases key <;> decide

end Key

inductive ParseError where
  | expectedKeyValue (lineNo : Nat) (line : Text)
  | emptyKey (lineNo : Nat)
  | emptyValue (lineNo : Nat) (key : Text)
  | invalid (lineNo : Nat) (what : String) (key value : Text)
  | rejected (message : String)
deriving DecidableEq

/-! ## Values -/

def parseU32 (value : Text) : Option U32 :=
  (fromStrRadix 10 4294967295 value).map (BitVec.ofNat 32)

def parseU64 (value : Text) : Option U64 :=
  (fromStrRadix 10 18446744073709551615 value).map (BitVec.ofNat 64)

def parseBool (lower : Lowercase) (text : Text) : Option Bool :=
  let word := String.ofList (lower.map text)
  if word ∈ ["true", "yes", "on", "1"] then some true
  else if word ∈ ["false", "no", "off", "0"] then some false
  else none

def parseIpv4List (text : Text) : Option (List Ipv4Addr) :=
  (text.splitOn ',').mapM fun part => parseIpv4Addr (trim part)

def parseIpv6List (text : Text) : Option (List Ipv6Addr) :=
  (text.splitOn ',').mapM fun part => parseIpv6Addr (trim part)

/-- What a value was to be is all that an error keeps of the reason. -/
def require (what : String) (found : Option α) : Except String α :=
  match found with
  | some value => .ok value
  | none => .error what

/-! ## Lines -/

def addExtra (config : Config) (extra : List Ipv4Addr) : Config :=
  { config with extraBroadcastIps := config.extraBroadcastIps ++ extra }

def pushExtra (config : Config) (part : Text) : Except String Config := do
  return config.addExtra [← require "IPv4 address" (parseIpv4Addr (trim part))]

/-- Assign a value to a key; the error says what the value is not. -/
def apply (lower : Lowercase) (config : Config) (key : Key) (value : Text) :
    Except String Config :=
  match key with
  | .serverIp => do
      return { config with serverIp := ← require "IPv4 address" (parseIpv4Addr value) }
  | .ipStart => do
      return { config with ipStart := ← require "IPv4 address" (parseIpv4Addr value) }
  | .leaseNum => do
      return { config with leaseNum := ← require "u32" (parseU32 value) }
  | .subnetMask => do
      return { config with subnetMask := ← require "IPv4 address" (parseIpv4Addr value) }
  | .routerIp => do
      return { config with routerIp := ← require "IPv4 address" (parseIpv4Addr value) }
  | .dnsIps => do
      return { config with dnsIps := ← require "IPv4 list" (parseIpv4List value) }
  | .enableNtp => do
      return { config with enableNtp := ← require "bool" (parseBool lower value) }
  | .ntpIps => do
      return { config with ntpIps := ← require "IPv4 list" (parseIpv4List value) }
  | .enableRapidCommit => do
      return { config with enableRapidCommit := ← require "bool" (parseBool lower value) }
  | .broadcastIp =>
      -- The first address is the primary one, the others are added to the extra ones.
      match value.splitOn ',' with
      | [] => .error "IPv4 address"
      | first :: parts => do
          let broadcastIp ← require "IPv4 address" (parseIpv4Addr (trim first))
          parts.foldlM pushExtra { config with broadcastIp := broadcastIp }
  | .extraBroadcastIps => do
      return config.addExtra (← require "IPv4 list" (parseIpv4List value))
  | .leaseDurationSecs => do
      return { config with leaseDurationSecs := ← require "u32" (parseU32 value) }
  | .leasesFile => .ok { config with leasesFile := value }
  | .listenAddr => do
      return { config with listenAddr := ← require "socket address" (parseSocketAddr value) }
  | .enableDhcpv6 => do
      return { config with enableDhcpv6 := ← require "bool" (parseBool lower value) }
  | .serverDuid => do
      return { config with serverDuid := ← require "DUID hex" (parseDuidHex value).toOption }
  | .ipv6Start => do
      return { config with ipv6Start := ← require "IPv6 address" (parseIpv6Addr value) }
  | .ipv6LeaseNum => do
      return { config with ipv6LeaseNum := ← require "u64" (parseU64 value) }
  | .ipv6Dns => do
      return { config with ipv6Dns := ← require "IPv6 list" (parseIpv6List value) }
  | .ipv6LeaseDurationSecs => do
      return { config with ipv6LeaseDurationSecs := ← require "u32" (parseU32 value) }
  | .leasesFileV6 => .ok { config with leasesFileV6 := value }
  | .listenAddrV6 => do
      return { config with listenAddrV6 := ← require "socket address" (parseSocketAddr value) }

/-- Where a trailing comment begins: at the first blank with a `#` behind it, or
else at the first tab if a `#` follows. -/
def commentStart (value : Text) : Option Nat :=
  (find " #".toList value).or
    ((find ['\t'] value).filter fun tab => (value.drop (tab + 1)).head? = some '#')

def stripComment (value : Text) : Text :=
  match commentStart value with
  | some position => trimEnd (value.take position)
  | none => value

/-- The line has nothing to say. -/
def isIgnored (line : Text) : Bool :=
  line.isEmpty || line.head? = some '#' || line.head? = some ';'

def parseLine (lower : Lowercase) (config : Config) (lineNo : Nat) (rawLine : Text) :
    Except ParseError Config :=
  let line := trim rawLine
  if isIgnored line then .ok config
  else
    match find ['='] line with
    | none => .error (.expectedKeyValue lineNo line)
    | some eq =>
        let key := lower.map (trim (line.take eq))
        let value := stripComment (trim (line.drop (eq + 1)))
        if key.isEmpty then .error (.emptyKey lineNo)
        else if value.isEmpty then .error (.emptyValue lineNo key)
        else
          match Key.ofName key with
          | some setting =>
              (apply lower config setting value).mapError fun what =>
                .invalid lineNo what key value
          -- Unknown keys are ignored.
          | none => .ok config

def parseLines (lower : Lowercase) :
    (config : Config) → (lineNo : Nat) → List Text → Except ParseError Config
  | config, _, [] => .ok config
  | config, lineNo, line :: lines => do
      let config ← parseLine lower config lineNo line
      parseLines lower config (lineNo + 1) lines

def parse (lower : Lowercase) (text : Text) : Except ParseError Config := do
  let config ← parseLines lower .defaults 1 (Lines.of '\n' '\r' text)
  config.validate.mapError .rejected

example : parse .ascii "Lease_Num = 5 # few\nlease_num = 7\n\nunknown = x".toList =
    .ok { Config.defaults with leaseNum := 7 } := by decide +kernel

end Config

end RustyDhcp

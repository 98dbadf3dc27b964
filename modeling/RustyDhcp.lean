import RustyDhcp.Foundation.Checked
import RustyDhcp.Foundation.Buffer
import RustyDhcp.Foundation.Selection
import RustyDhcp.Foundation.Bytes
import RustyDhcp.Foundation.Fallible
import RustyDhcp.Foundation.Tlv
import RustyDhcp.Foundation.HashMap
import RustyDhcp.Foundation.RoundRobin
import RustyDhcp.Foundation.SlotTable
import RustyDhcp.Foundation.SlotIndex
import RustyDhcp.Foundation.SlotHints
import RustyDhcp.Foundation.Run
import RustyDhcp.Foundation.Transcript
import RustyDhcp.Foundation.Threads
import RustyDhcp.Foundation.Network
import RustyDhcp.Foundation.LeaseTable
import RustyDhcp.Foundation.OpenAddress
import RustyDhcp.Foundation.Claims
import RustyDhcp.Foundation.Reservation
import RustyDhcp.Foundation.Calendar
import RustyDhcp.Foundation.Lines
import RustyDhcp.Foundation.LastWins
import RustyDhcp.Net
import RustyDhcp.Text
import RustyDhcp.Utf8
import RustyDhcp.Readers
import RustyDhcp.Display
import RustyDhcp.Config
import RustyDhcp.Config.Duid
import RustyDhcp.ReadBack
import RustyDhcp.Config.Parse
import RustyDhcp.Config.Assignment
import RustyDhcp.Config.DuplicateKeys
import RustyDhcp.Config.StripComment
import RustyDhcp.Config.TrailingComments
import RustyDhcp.Config.Meaning
import RustyDhcp.Config.Written
import RustyDhcp.Options
import RustyDhcp.Packet
import RustyDhcp.Packet.Decode
import RustyDhcp.Packet.Format
import RustyDhcp.Packet.Survival
import RustyDhcp.Packet.Encode
import RustyDhcp.Packet.Wire
import RustyDhcp.Packet.RoundTrip
import RustyDhcp.Packet.Decoding
import RustyDhcp.Packet.Legible
import RustyDhcp.Server.MyServer
import RustyDhcp.Server.HandleRequest
import RustyDhcp.Server.Loader
import RustyDhcp.Server.Table
import RustyDhcp.Server.Effect
import RustyDhcp.Server.Invariant
import RustyDhcp.Server.LeasesFile
import RustyDhcp.Server.Isolation
import RustyDhcp.Server.Leases
import RustyDhcp.Server.OpenOffers
import RustyDhcp.Server.Grants
import RustyDhcp.Server.Reservations
import RustyDhcp.Server.PlainServer
import RustyDhcp.Server.Refinement
import RustyDhcp.Server.RapidCommit
import RustyDhcp.Server.Hostnames
import RustyDhcp.Server.Filter
import RustyDhcp.Server.Send
import RustyDhcp.Server.MandatoryOptions
import RustyDhcp.Server.BroadcastFlag
import RustyDhcp.Server.Daemon
import RustyDhcp.Server.Notes
import RustyDhcp.Server.Echoes
import RustyDhcp.Server.Network
import RustyDhcp.Server.Transcript
import RustyDhcp.Dhcpv6.Packet
import RustyDhcp.Dhcpv6.Codec
import RustyDhcp.Dhcpv6.Format
import RustyDhcp.Dhcpv6.Acceptance
import RustyDhcp.Dhcpv6.RoundTrip
import RustyDhcp.Dhcpv6.Pool
import RustyDhcp.Dhcpv6.PoolTable
import RustyDhcp.Dhcpv6.PoolScan
import RustyDhcp.Dhcpv6.PoolEffect
import RustyDhcp.Dhcpv6.PoolInvariant
import RustyDhcp.Dhcpv6.PoolIsolation
import RustyDhcp.Dhcpv6.LeaseMap
import RustyDhcp.Dhcpv6.PoolRefinement
import RustyDhcp.Dhcpv6.PoolLeases
import RustyDhcp.Dhcpv6.ServeV6
import RustyDhcp.Dhcpv6.Serving
import RustyDhcp.Dhcpv6.Offers
import RustyDhcp.Dhcpv6.Daemon
import RustyDhcp.Dhcpv6.Upheld
import RustyDhcp.Dhcpv6.Network
import RustyDhcp.Dhcpv6.Bounds
import RustyDhcp.Dhcpv6.OpenOffers
import RustyDhcp.Dhcpv6.Grants
import RustyDhcp.Dhcpv6.Reservations
import RustyDhcp.Dhcpv6.PlainDaemon
import RustyDhcp.OneAddress
import RustyDhcp.Answers
import RustyDhcp.Process
import RustyDhcp.Server.Mirroring
import RustyDhcp.Server.Destinations
import RustyDhcp.Server.Bounds
import RustyDhcp.Server.Refusal
import RustyDhcp.ArrivalOrder
import RustyDhcp.Retransmissions
import RustyDhcp.Allocation
import RustyDhcp.Writers
import RustyDhcp.UtcDate
import RustyDhcp.Server.Console
import RustyDhcp.Server.Logged
import RustyDhcp.Server.AuditTrail
import RustyDhcp.Server.Restart
import RustyDhcp.Server.Monitor
import RustyDhcp.Dhcpv6.Restart
import RustyDhcp.Dhcpv6.Console
import RustyDhcp.Dhcpv6.Logged
import RustyDhcp.Dhcpv6.AuditTrail
import RustyDhcp.Dhcpv6.Reasons
import RustyDhcp.Stdout
import RustyDhcp.Timestamps

import Dote.Library.Suffix
import Dote.Openssl.HostnameSoundness
import Dote.Config.ConfigParser
import Dote.Config.Vyatta
import Dote.Config.VyattaForwarders
import Dote.Openssl.SpkiVerifier
import Dote.Library.Run
import Dote.Openssl.VerifyCache
import Dote.Loop.Registry
import Dote.Loop.Poll
import Dote.Loop.Machine
import Dote.Loop.Dispatch
import Dote.Loop.Watching
import Dote.Config.ForwarderConfig
import Dote.Connection.ForwarderConnection
import Dote.Dns.DnsPacket
import Dote.Clients.ClientForwarders
import Dote.Connection.Handlers
import Dote.Clients.Slots
import Dote.Clients.Sessions
import Dote.Clients.Wired
import Dote.Clients.Evolution
import Dote.Server.Program
import Dote.Server.Ownership
import Dote.Loop.Idle
import Dote.Server.Shutdown
import Dote.Server.Stream
import Dote.Clients.Arrival
import Dote.Connection.LifeCycle
import Dote.Connection.Wakeable
import Dote.Clients.Answers
import Dote.Server.Responses
import Dote.Dns.Walk
import Dote.Dns.Bounds
import Dote.Dns.Options
import Dote.Dns.Message
import Dote.Loop.Deadline
import Dote.Openssl.HostnameCase
import Dote.Lookup.IpLookup
import Dote.Dns.Inspection
import Dote.Clients.Delivery
import Dote.Config.Grouping
import Dote.Config.ParseServer
import Dote.Openssl.CacheHistory
import Dote.Config.FailureOrder
import Dote.Loop.Registrations
import Dote.Loop.TimeoutPass
import Dote.Config.WorkingConfig
import Dote.Server.Reload
import Dote.Clients.Teardown
import Dote.Server.Exit
import Dote.Openssl.HostnameReads
import Dote.Server.PidFile
import Dote.Connection.Later
import Dote.Clients.Expiry
import Dote.Server.Deadlines
import Dote.Server.Waiting
import Dote.Clients.Descriptors
import Dote.Library.ByteOrder
import Dote.Server.Descriptors
import Dote.Server.Draining
import Dote.Server.VyattaCheck
import Dote.Clients.Failures
import Dote.Server.Failures
import Dote.Clients.Relay
import Dote.Server.Relay
import Dote.Library.ControlMessage
import Dote.Server.PacketInfo
import Dote.Clients.Oblivious
import Dote.Config.Soundness
import Dote.Library.UserIds
import Dote.Server.Main
import Dote.Server.Oblivious

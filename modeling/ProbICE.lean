import ProbICE.Theorems.Payloads
import ProbICE.Theorems.Reports
import ProbICE.Theorems.Ports
import ProbICE.Interrupted
import ProbICE.Theorems.Silence
import ProbICE.Theorems.Subscriptions
import ProbICE.Theorems.Acceptance
import ProbICE.Theorems.Timers
import ProbICE.SessionTimer
import ProbICE.Theorems.Heartbeats
import ProbICE.Heartbeat
import ProbICE.Theorems.Unsent
import ProbICE.Theorems.Sending
import ProbICE.Theorems.Lifetimes
import ProbICE.PeerRun
import ProbICE.Theorems.Parsers
import ProbICE.Theorems.Delivery
import ProbICE.Theorems.Batches
import ProbICE.Theorems.Negotiation
import ProbICE.Handshake
import ProbICE.Theorems.RoundTrip
import ProbICE.Theorems.Authenticity
import ProbICE.Theorems.Bounds
import ProbICE.Theorems.Candidates
import ProbICE.Theorems.Presence
import ProbICE.Theorems.Kinds
import ProbICE.Theorems.Registry
import ProbICE.Theorems.Filter
import ProbICE.Theorems.Wire
import ProbICE.Theorems.Codec
import ProbICE.Console
import ProbICE.Lib.Journal
import ProbICE.Lib.SharedCell
import ProbICE.SessionRun
import ProbICE.SocketMonitor
import ProbICE.Startup
import ProbICE.Theorems.Assertions
import ProbICE.Theorems.Gate
import ProbICE.Theorems.Names
import ProbICE.Theorems.Owners
import ProbICE.Theorems.Printing
import ProbICE.Theorems.Refusals
import ProbICE.Theorems.Snapshots
import ProbICE.Theorems.Startup
import ProbICE.Lib.BigEndian
import ProbICE.Lib.Reader
import ProbICE.Lib.RankSort
import ProbICE.StunMessage
import ProbICE.Theorems.StunMessages
import ProbICE.IceConnection
import ProbICE.IceChannel
import ProbICE.Theorems.IceConnections
import ProbICE.Theorems.IceActs
import ProbICE.Theorems.IceBooks
import ProbICE.Theorems.IceFlags
import ProbICE.Theorems.IcePairs
import ProbICE.Theorems.IceMonitors
import ProbICE.Theorems.IcePast
import ProbICE.Theorems.IceStrangers
import ProbICE.Theorems.IceHandshakes
import ProbICE.Theorems.IceSorting
import ProbICE.TimeUtils
import ProbICE.MessageQueue
import ProbICE.Theorems.TimeStamps
import ProbICE.Theorems.MessageQueues
import ProbICE.Theorems.ClearAndQuit
import ProbICE.Theorems.DueMessages
import ProbICE.Theorems.SentMessages

import Wireplug.Foundation.ByteDecoder
import Wireplug.Foundation.Postcard
import Wireplug.Foundation.Interleaving
import Wireplug.Foundation.Base64
import Wireplug.Foundation.ByteStream
import Wireplug.Foundation.HashMap
import Wireplug.Address
import Wireplug.Protocol
import Wireplug.Foundation.WriteLog
import Wireplug.Peering
import Wireplug.Server
import Wireplug.Connection
import Wireplug.Key
import Wireplug.Announce
import Wireplug.Stun
import Wireplug.Exchange
import Wireplug.MessageSize
import Wireplug.ServerPaths
import Wireplug.AnnouncementLog
import Wireplug.Acknowledgement
import Wireplug.Rendezvous
import Wireplug.MessageLimit
import Wireplug.Client
import Wireplug.WgInterface
import Wireplug.Daemon
import Wireplug.PortTrace
import Wireplug.NetworkPort
import Wireplug.DirectPort
import Wireplug.SeenPeers
import Wireplug.PeerTracking
import Wireplug.Foundation.CachedCell
import Wireplug.Foundation.Duplex
import Wireplug.WatchedInterface
import Wireplug.CachedEndpoint
import Wireplug.HardNat
import Wireplug.StunService
import Wireplug.StoreOrder
import Wireplug.ConnectionFrame
import Wireplug.Foundation.Clock
import Wireplug.Expiry
import Wireplug.Staleness
import Wireplug.MonitorRound
import Wireplug.NetworkChange
import Wireplug.LivePeer
import Wireplug.Foundation.Relational
import Wireplug.ResponseBound
import Wireplug.TwoRuns
import Wireplug.Confidentiality
import Wireplug.NatDetection
import Wireplug.NatSoundness
import Wireplug.StatusHistory
import Wireplug.KeyFormat
import Wireplug.StunReply
import Wireplug.NatClassification
import Wireplug.LanCandidates
import Wireplug.Traffic
import Wireplug.OnlineActions
import Wireplug.DeadlineDrift
import Wireplug.UpdateOrder
import Wireplug.PeerOffers
import Wireplug.PeerExistence
import Wireplug.LanSymmetry
import Wireplug.Foundation.Allocation
import Wireplug.RelayPorts
import Wireplug.AddressText
import Wireplug.Configure
import Wireplug.AllowedIps
import Wireplug.Sniffer
import Wireplug.SnifferPort
import Wireplug.Session
import Wireplug.Agreement
import Wireplug.Settling
import Wireplug.Foundation.Pacing
import Wireplug.Pacing
import Wireplug.Foundation.RwLock
import Wireplug.Foundation.Locking
import Wireplug.StatusText
import Wireplug.ServerTasks
import Wireplug.TaskRefinement
import Wireplug.ServerLocks
import Wireplug.StatusRuns
import Wireplug.StoreSize
import Wireplug.Foundation.Counting
import Wireplug.ServerStatistics
import Wireplug.Foundation.Failing
import Wireplug.DaemonEnds
import Wireplug.LanAddrs
import Wireplug.AnnouncedNetwork
import Wireplug.PendingPeers
import Wireplug.Retries

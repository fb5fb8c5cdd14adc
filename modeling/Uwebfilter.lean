import Uwebfilter.ByteReader
import Uwebfilter.MachineRun
import Uwebfilter.HashTable
import Uwebfilter.DottedSuffix
import Uwebfilter.CStrings
import Uwebfilter.Utf8
import Uwebfilter.CapturedPacket
import Uwebfilter.SniExtraction
import Uwebfilter.SniArithmetic
import Uwebfilter.ClientHello
import Uwebfilter.PlainExtraction
import Uwebfilter.Tcpflow
import Uwebfilter.PacketHandle
import Uwebfilter.VerdictConservation
import Uwebfilter.FlowReassembly
import Uwebfilter.DropCauses
import Uwebfilter.Segmentation
import Uwebfilter.SlotFreeList
import Uwebfilter.JsonTree
import Uwebfilter.DomainLookup
import Uwebfilter.DomainArena
import Uwebfilter.DomainLookupView
import Uwebfilter.ColdLookup
import Uwebfilter.QueryServer
import Uwebfilter.CachedReplies
import Uwebfilter.CacheTransparency
import Uwebfilter.SqlFunction
import Uwebfilter.UserAuthentication
import Uwebfilter.Config
import Uwebfilter.AccessPolicy
import Uwebfilter.CacheKeys
import Uwebfilter.CacheProvenance
import Uwebfilter.NameResolution
import Uwebfilter.CaseSensitivity
import Uwebfilter.DnsBounds
import Uwebfilter.CloudLog
import Uwebfilter.DottedQuad
import Uwebfilter.LogWire
import Uwebfilter.LogCollector
import Uwebfilter.TransactionScript
import Uwebfilter.DomainMirror
import Uwebfilter.ModelServer
import Uwebfilter.SniBounds
import Uwebfilter.ServerName
import Uwebfilter.WireParser
import Uwebfilter.DnsMessage
import Uwebfilter.DnsNames
import Uwebfilter.OnesComplement
import Uwebfilter.Datagram
import Uwebfilter.ByteWriter
import Uwebfilter.DnsAnswer
import Uwebfilter.ForgedAnswer
import Uwebfilter.StringSearch
import Uwebfilter.HttpFields
import Uwebfilter.HttpLocality
import Uwebfilter.HttpGrammar
import Uwebfilter.PayloadWindow
import Uwebfilter.SlotNames
import Uwebfilter.ConfigBuffers
import Uwebfilter.InternetChecksum
import Uwebfilter.TcpReset
import Uwebfilter.DomainLists
import Uwebfilter.TtlConvergence
import Uwebfilter.AuthHeader
import Uwebfilter.IncrementalParser
import Uwebfilter.ReplyChunks
import Uwebfilter.Factorize
import Uwebfilter.CategoryLabels
import Uwebfilter.IntrusiveList
import Uwebfilter.Uthash
import Uwebfilter.UthashContents
import Uwebfilter.UthashRefinement
import Uwebfilter.Simulation
import Uwebfilter.HashedCache
import Uwebfilter.AccessRuns
import Uwebfilter.DaemonRuns
import Uwebfilter.CollectorSessions
import Uwebfilter.HashedFlows
import Uwebfilter.DomainService
import Uwebfilter.TtlGrowth
import Uwebfilter.ScraperRuns
import Uwebfilter.AdministeredVerdicts

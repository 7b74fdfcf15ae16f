import BohunoPyzord.StepSystem
import BohunoPyzord.AsyncLink
import BohunoPyzord.Outbox
import BohunoPyzord.WriteQueue
import BohunoPyzord.Update
import BohunoPyzord.ClientDatabase
import BohunoPyzord.ClientQueue
import BohunoPyzord.ClientReconnect
import BohunoPyzord.Slave
import BohunoPyzord.SlaveQueue
import BohunoPyzord.Record
import BohunoPyzord.KeyedFold
import BohunoPyzord.Signature
import BohunoPyzord.Master
import BohunoPyzord.MasterReference
import BohunoPyzord.FileNames
import BohunoPyzord.Updated
import BohunoPyzord.ClientHandles
import BohunoPyzord.TimeWindows
import BohunoPyzord.Archive
import BohunoPyzord.ExportWindows
import BohunoPyzord.Publishing
import BohunoPyzord.Replica
import BohunoPyzord.ReplicaCatchUp
import BohunoPyzord.FrameStream
import BohunoPyzord.Transport
import BohunoPyzord.TransportDelivery
import BohunoPyzord.Packet
import BohunoPyzord.DatagramSocket
import BohunoPyzord.Statistics
import BohunoPyzord.UdpServer
import BohunoPyzord.SharedBuffer
import BohunoPyzord.ReceiveLoop
import BohunoPyzord.ReplicaDownloads
import BohunoPyzord.SkippedUpdates
import BohunoPyzord.ImportOrder
import BohunoPyzord.UpdateCoverage
import BohunoPyzord.PacketCodec
import BohunoPyzord.ReplyBuffer
import BohunoPyzord.DigestKeys
import BohunoPyzord.HttpApi
import BohunoPyzord.InputStream
import BohunoPyzord.RecordFrames
import BohunoPyzord.Import
import BohunoPyzord.Expire
import BohunoPyzord.ExpireResume
import BohunoPyzord.IoService
import BohunoPyzord.PyzordDaemon
import BohunoPyzord.ScanLoop
import BohunoPyzord.StoppedDaemon
import BohunoPyzord.PyzordReplica
import BohunoPyzord.MasterDaemon
import BohunoPyzord.MasterLoops
import BohunoPyzord.MasterExpiry
import BohunoPyzord.StreamCipher
import BohunoPyzord.Base64
import BohunoPyzord.License
import BohunoPyzord.ArcfourFilter
import BohunoPyzord.Base64Reads
import BohunoPyzord.PacketDecoders
import BohunoPyzord.LexKeys
import BohunoPyzord.TimeKeys
import BohunoPyzord.HttpResponse
import BohunoPyzord.DecimalDigits
import BohunoPyzord.UrlParser
import BohunoPyzord.BodyDigest
import BohunoPyzord.Recognizer
import BohunoPyzord.RequestParser
import BohunoPyzord.ImportLog
import BohunoPyzord.WindowDump
import BohunoPyzord.ImportEnds
import BohunoPyzord.ExpireBatch
import BohunoPyzord.HiddenRecords
import BohunoPyzord.RecordTimes
import BohunoPyzord.UpdateOrder
import BohunoPyzord.Lookups
import BohunoPyzord.UnreadableNames
import BohunoPyzord.SnapshotRetention
import BohunoPyzord.PublishSteps
import BohunoPyzord.UpdateListing
import BohunoPyzord.StatisticsWindow
import BohunoPyzord.Base64Codec
import BohunoPyzord.HttpClient
import BohunoPyzord.RequestLine
import BohunoPyzord.RequestText
import BohunoPyzord.FaultyCursor
import BohunoPyzord.UpdatedSince
import BohunoPyzord.LicenseKeys
import BohunoPyzord.HttpReplies
import BohunoPyzord.HttpReplyText
import BohunoPyzord.PlainReplies
import BohunoPyzord.HttpServer
import BohunoPyzord.HttpConnections
import BohunoPyzord.HttpAnswers
import BohunoPyzord.HttpRequests
import BohunoPyzord.HttpExchange
import BohunoPyzord.WgetClient
import BohunoPyzord.WgetRuns
import BohunoPyzord.Downloads
import BohunoPyzord.Cluster
import BohunoPyzord.UdpRuns
import BohunoPyzord.Network
import BohunoPyzord.ApiServer
import BohunoPyzord.ClusterLedger
import BohunoPyzord.LostUpdates
import BohunoPyzord.TransportProgress
import BohunoPyzord.Recovery
import BohunoPyzord.Setup

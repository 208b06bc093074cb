import P2PFileTransfer.Foundation.FixedWidth
import P2PFileTransfer.Foundation.FileSystem
import P2PFileTransfer.Foundation.Run
import P2PFileTransfer.Core.Protocol
import P2PFileTransfer.Foundation.Process
import P2PFileTransfer.Core.TransferFile
import P2PFileTransfer.Core.TransferFolder
import P2PFileTransfer.Core.FileReceiver
import P2PFileTransfer.Core.FolderReceiver
import P2PFileTransfer.Transfer.PathSafety
import P2PFileTransfer.Transfer.Destination
import P2PFileTransfer.Transfer.SlotConfinement
import P2PFileTransfer.Transfer.ReceiverArithmetic
import P2PFileTransfer.Transfer.Isolation
import P2PFileTransfer.Session.Handshake
import P2PFileTransfer.Session.Rendezvous
import P2PFileTransfer.Session.Pinning
import P2PFileTransfer.Core.FolderSender
import P2PFileTransfer.Core.SendPath
import P2PFileTransfer.Core.Reconnect
import P2PFileTransfer.Session.Retrying
import P2PFileTransfer.Core.Progress
import P2PFileTransfer.Foundation.Blocks
import P2PFileTransfer.Foundation.Hex
import P2PFileTransfer.Foundation.Utf8
import P2PFileTransfer.Core.ChecksumHex
import P2PFileTransfer.Session.HexFields
import P2PFileTransfer.Core.PeerStore
import P2PFileTransfer.Session.TrustOnFirstUse
import P2PFileTransfer.Foundation.Fragments
import P2PFileTransfer.Foundation.Slices
import P2PFileTransfer.Core.Framing
import P2PFileTransfer.Session.Framing
import P2PFileTransfer.Session.Configuration
import P2PFileTransfer.Transfer.Network
import P2PFileTransfer.Transfer.Schedule
import P2PFileTransfer.Transfer.Honesty
import P2PFileTransfer.Transfer.SenderLane
import P2PFileTransfer.Transfer.ReceiverLane
import P2PFileTransfer.Transfer.Conversation
import P2PFileTransfer.Transfer.Completion
import P2PFileTransfer.Session.Agreement
import P2PFileTransfer.Session.Punch
import P2PFileTransfer.Session.Race
import P2PFileTransfer.Session.Stun
import P2PFileTransfer.Session.StunParsing
import P2PFileTransfer.Session.StunQuery
import P2PFileTransfer.Foundation.Buckets
import P2PFileTransfer.Core.Bandwidth
import P2PFileTransfer.Transfer.Pacing
import P2PFileTransfer.Transfer.SingleFile
import P2PFileTransfer.Transfer.StalePartial
import P2PFileTransfer.Transfer.StateFile
import P2PFileTransfer.Transfer.Resumption
import P2PFileTransfer.Transfer.StreamCount
import P2PFileTransfer.Transfer.StreamAcceptance
import P2PFileTransfer.Transfer.Throttling
import P2PFileTransfer.Transfer.SharedLimiter
import P2PFileTransfer.Core.History
import P2PFileTransfer.Transfer.HistoryAppends
import P2PFileTransfer.Server.Relay
import P2PFileTransfer.Server.RelayIsolation
import P2PFileTransfer.Server.RelayIndex
import P2PFileTransfer.Server.RelaySeats
import P2PFileTransfer.Server.RelayEviction
import P2PFileTransfer.Server.HandleConnection
import P2PFileTransfer.Server.Turns
import P2PFileTransfer.Server.Messages
import P2PFileTransfer.Server.Ownership
import P2PFileTransfer.Server.Pairing
import P2PFileTransfer.Server.Delivery
import P2PFileTransfer.Server.AllOrNothing
import P2PFileTransfer.Server.Waiters
import P2PFileTransfer.Server.Permits
import P2PFileTransfer.Transfer.Streams
import P2PFileTransfer.Transfer.Tally
import P2PFileTransfer.Transfer.Accounting
import P2PFileTransfer.Transfer.Script
import P2PFileTransfer.Transfer.Concord
import P2PFileTransfer.Transfer.Lockstep
import P2PFileTransfer.Transfer.PartialFile
import P2PFileTransfer.Transfer.Skipping
import P2PFileTransfer.Transfer.Bookkeeping
import P2PFileTransfer.Core.ChunkBitmap
import P2PFileTransfer.Transfer.Marking
import P2PFileTransfer.Foundation.TextSearch
import P2PFileTransfer.Foundation.Base64
import P2PFileTransfer.Core.IdentityFiles
import P2PFileTransfer.Session.PemText
import P2PFileTransfer.Session.IdentityKills
import P2PFileTransfer.Core.PeerFile
import P2PFileTransfer.Session.TrustFile
import P2PFileTransfer.Foundation.NumberText
import P2PFileTransfer.Core.ParseBandwidth
import P2PFileTransfer.Session.BandwidthText
import P2PFileTransfer.Core.Discovery
import P2PFileTransfer.Session.PeerTable
import P2PFileTransfer.Foundation.DirectoryTree
import P2PFileTransfer.Foundation.LossyText
import P2PFileTransfer.Core.ScanFolder
import P2PFileTransfer.Transfer.Manifest
import P2PFileTransfer.Foundation.Liveness
import P2PFileTransfer.Transfer.Termination
import P2PFileTransfer.Transfer.Progress
import P2PFileTransfer.Server.RelayWire
import P2PFileTransfer.Server.ForwardLoop
import P2PFileTransfer.Session.Completion
import P2PFileTransfer.Server.Introduction
import P2PFileTransfer.Server.RelayMeeting
import P2PFileTransfer.Server.Draining
import P2PFileTransfer.Session.Lifecycle
import P2PFileTransfer.Session.Records
import P2PFileTransfer.Session.ReceiveLoop
import P2PFileTransfer.Gui.HandleMessage
import P2PFileTransfer.Gui.App
import P2PFileTransfer.Gui.Sends
import P2PFileTransfer.Gui.Peers
import P2PFileTransfer.Gui.Connections
import P2PFileTransfer.Transfer.Leftovers
import P2PFileTransfer.Transfer.Reuse

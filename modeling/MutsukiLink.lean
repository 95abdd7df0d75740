import MutsukiLink.BackoffDelay
import MutsukiLink.ControlFormat
import MutsukiLink.ControlModel
import MutsukiLink.ControlRoundTrip
import MutsukiLink.ControlStreams
import MutsukiLink.DataCodec
import MutsukiLink.DiscoveryAnnouncements
import MutsukiLink.DiscoveryLedger
import MutsukiLink.EndpointLeases
import MutsukiLink.EventStreamRuns
import MutsukiLink.EventStreams
import MutsukiLink.FairQueue
import MutsukiLink.FateLedger
import MutsukiLink.FifoLedger
import MutsukiLink.FileTrustReopen
import MutsukiLink.FileTrustRuns
import MutsukiLink.FragmentAssembly
import MutsukiLink.FragmentBounds
import MutsukiLink.FragmentModel
import MutsukiLink.FragmentRoundTrip
import MutsukiLink.FramedClosing
import MutsukiLink.FramedDelivery
import MutsukiLink.FramedLanes
import MutsukiLink.FramedModel
import MutsukiLink.FramedReader
import MutsukiLink.GapLedger
import MutsukiLink.HandshakeAgreement
import MutsukiLink.HandshakeCases
import MutsukiLink.HandshakeModel
import MutsukiLink.HandshakeSafety
import MutsukiLink.HandshakeSecrecy
import MutsukiLink.Heartbeat
import MutsukiLink.Identity
import MutsukiLink.JsonText
import MutsukiLink.LatestLedger
import MutsukiLink.LeaseRuns
import MutsukiLink.ManualDiscovery
import MutsukiLink.MemoryAbort
import MutsukiLink.MemoryLanes
import MutsukiLink.MemoryModel
import MutsukiLink.MemoryMoves
import MutsukiLink.MuxCases
import MutsukiLink.MuxDelivery
import MutsukiLink.MuxEmission
import MutsukiLink.MuxFairness
import MutsukiLink.MuxInvariant
import MutsukiLink.MuxModel
import MutsukiLink.NtpActivation
import MutsukiLink.NtpAgreement
import MutsukiLink.NtpAtomicSend
import MutsukiLink.NtpClock
import MutsukiLink.NtpConnection
import MutsukiLink.NtpControlExact
import MutsukiLink.NtpControlFormat
import MutsukiLink.NtpControlModel
import MutsukiLink.NtpControlRoundTrip
import MutsukiLink.NtpDeliveries
import MutsukiLink.NtpFrameRates
import MutsukiLink.NtpFrames
import MutsukiLink.NtpFuse
import MutsukiLink.NtpLatestLink
import MutsukiLink.NtpLatestRuns
import MutsukiLink.NtpMoves
import MutsukiLink.NtpOrigins
import MutsukiLink.NtpPublisher
import MutsukiLink.NtpReceiveCases
import MutsukiLink.NtpReceiveModel
import MutsukiLink.NtpReceiveRuns
import MutsukiLink.NtpReconfigure
import MutsukiLink.NtpRecording
import MutsukiLink.NtpRejections
import MutsukiLink.NtpSendRuns
import MutsukiLink.NtpSendSteps
import MutsukiLink.NtpShipments
import MutsukiLink.NtpSources
import MutsukiLink.NtpStream
import MutsukiLink.NtpSubscriber
import MutsukiLink.NtpSubscriberMoves
import MutsukiLink.NtpTypes
import MutsukiLink.NtpWorld
import MutsukiLink.OrderedMap
import MutsukiLink.PairingAgreement
import MutsukiLink.PairingCases
import MutsukiLink.PairingModel
import MutsukiLink.PairingTerminal
import MutsukiLink.PairingWorld
import MutsukiLink.PeerIdText
import MutsukiLink.PeerPoolModel
import MutsukiLink.PeerPoolRuns
import MutsukiLink.PeerPoolSessions
import MutsukiLink.PieceAssembly
import MutsukiLink.ProtocolNegotiation
import MutsukiLink.ProtocolTypes
import MutsukiLink.QualityAverage
import MutsukiLink.QuicHandover
import MutsukiLink.QuicLanes
import MutsukiLink.QuicOutcomes
import MutsukiLink.QuicRealtimeModel
import MutsukiLink.QuicRealtimeRuns
import MutsukiLink.QuicReception
import MutsukiLink.RangeTiling
import MutsukiLink.RateLimiters
import MutsukiLink.RealtimeBytes
import MutsukiLink.RealtimeCases
import MutsukiLink.RealtimeCodec
import MutsukiLink.RealtimeConservation
import MutsukiLink.RealtimeDelivery
import MutsukiLink.RealtimeEvents
import MutsukiLink.RealtimeModel
import MutsukiLink.RealtimeRuns
import MutsukiLink.RealtimeSafety
import MutsukiLink.RealtimeSelection
import MutsukiLink.ReassemblerErrors
import MutsukiLink.ReassemblerRuns
import MutsukiLink.ReassemblerSafety
import MutsukiLink.ReconnectBudget
import MutsukiLink.ReconnectModel
import MutsukiLink.RegistryActivation
import MutsukiLink.RegistryModel
import MutsukiLink.RegistryNegotiation
import MutsukiLink.RegistryOffers
import MutsukiLink.ReliableReceiver
import MutsukiLink.ReplayGuard
import MutsukiLink.ResumeAccounting
import MutsukiLink.RunHistory
import MutsukiLink.SaturatingWords
import MutsukiLink.SelfPairing
import MutsukiLink.SessionCases
import MutsukiLink.SessionChannels
import MutsukiLink.SessionCompose
import MutsukiLink.SessionLifecycle
import MutsukiLink.SessionModel
import MutsukiLink.SessionResume
import MutsukiLink.SlidingWindow
import MutsukiLink.TextLines
import MutsukiLink.TransportSecurity
import MutsukiLink.TransportSelection
import MutsukiLink.TrustFormat
import MutsukiLink.TrustJsonText
import MutsukiLink.TrustModel
import MutsukiLink.TrustRecordForm
import MutsukiLink.TrustStoreAgreement
import MutsukiLink.TrustStoreModel
import MutsukiLink.TumblingWindow
import MutsukiLink.WireBytes
import MutsukiLink.WireCodec

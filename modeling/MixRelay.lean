import MixRelay.Cascade
import MixRelay.CascadeSession
import MixRelay.FragmentedReader
import MixRelay.HeldChannels
import MixRelay.InboundSession
import MixRelay.ListenerSession
import MixRelay.Main
import MixRelay.MessageOrder
import MixRelay.OutboundSession
import MixRelay.Proofs.AnnouncedRounds
import MixRelay.Proofs.BrokenFrames
import MixRelay.Proofs.ChannelReleases
import MixRelay.Proofs.ClientIntake
import MixRelay.Proofs.EdgeAgreement
import MixRelay.Proofs.EdgeIdentifiers
import MixRelay.Proofs.EdgeMirror
import MixRelay.Proofs.EdgeNames
import MixRelay.Proofs.EdgeReception
import MixRelay.Proofs.FirstRelayRounds
import MixRelay.Proofs.FragmentedFrames
import MixRelay.Proofs.FrameLines
import MixRelay.Proofs.FrameStreams
import MixRelay.Proofs.RegistryLookups
import MixRelay.Proofs.RelayEdge
import MixRelay.Proofs.ReplyDelivery
import MixRelay.Proofs.ReplyFrames
import MixRelay.Proofs.ReplyHops
import MixRelay.Proofs.ReplyLines
import MixRelay.Proofs.ReplyRounds
import MixRelay.Proofs.ReplyRouting
import MixRelay.Proofs.ReplySlots
import MixRelay.Proofs.ReplyStreams
import MixRelay.Proofs.RequestBatches
import MixRelay.Proofs.RequestDelivery
import MixRelay.Proofs.RequestLines
import MixRelay.Proofs.RequestRounds
import MixRelay.Proofs.Runs
import MixRelay.Proofs.SizingRounds
import MixRelay.Proofs.ClientReadings
import MixRelay.Proofs.HeaderStripping
import MixRelay.Proofs.KeystreamRestarts
import MixRelay.Proofs.ListenerAccounts
import MixRelay.Proofs.ListenerRuns
import MixRelay.Proofs.ProxyStreams
import MixRelay.Proofs.LaterRelay
import MixRelay.Proofs.LaterRelayRounds
import MixRelay.Proofs.ReceiverAlignment
import MixRelay.Proofs.SizingSteps
import MixRelay.Proofs.UniformReplies
import MixRelay.Proofs.BlockRounding
import MixRelay.Proofs.SettingsAgreement
import MixRelay.Proofs.ReplyCollection
import MixRelay.Proofs.ReadingSteps
import MixRelay.Proofs.EventLoop
import MixRelay.Proofs.LoopPasses
import MixRelay.Proofs.ConnectionCounts
import MixRelay.Proofs.ListenerBooks
import MixRelay.Proofs.ClientAccounts
import MixRelay.Proofs.DeferredReads
import MixRelay.Proofs.CounterBlocks
import MixRelay.Proofs.CanonicalFrames
import MixRelay.Proofs.LimiterRuns
import MixRelay.Proofs.DueFrames
import MixRelay.Proofs.EdgeMaps
import MixRelay.Proofs.KeyTexts

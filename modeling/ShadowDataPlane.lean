import ShadowDataPlane.Foundation.Membership
import ShadowDataPlane.Foundation.OrderedMap
import ShadowDataPlane.Foundation.Dict
import ShadowDataPlane.Foundation.Buckets
import ShadowDataPlane.Foundation.Intervals
import ShadowDataPlane.Foundation.Lines
import ShadowDataPlane.Foundation.Prefixes
import ShadowDataPlane.Foundation.Result
import ShadowDataPlane.Foundation.Roster
import ShadowDataPlane.Foundation.StableSort
import ShadowDataPlane.Foundation.Transition
import ShadowDataPlane.Contracts.Universe
import ShadowDataPlane.Contracts.UtcDay
import ShadowDataPlane.Contracts.Gap
import ShadowDataPlane.Contracts.OpenGaps
import ShadowDataPlane.Central.ConnectionBook
import ShadowDataPlane.Central.BookEvidence
import ShadowDataPlane.Central.Discovery
import ShadowDataPlane.Central.SelectionWellFormed
import ShadowDataPlane.Central.CoreRotation
import ShadowDataPlane.Central.RoleReconciliation
import ShadowDataPlane.Central.WeakestIncumbent
import ShadowDataPlane.Central.CandidateTurnover
import ShadowDataPlane.Central.RollingShortage
import ShadowDataPlane.Central.Bootstrap
import ShadowDataPlane.Central.DepthPrefilter
import ShadowDataPlane.Edge.DailyKlines
import ShadowDataPlane.Central.L2Checkpoint
import ShadowDataPlane.Central.Reconstructor
import ShadowDataPlane.Central.Timeline
import ShadowDataPlane.Central.Quality
import ShadowDataPlane.Central.ValiditySound
import ShadowDataPlane.Central.DayValidity
import ShadowDataPlane.Central.QualityDurations
import ShadowDataPlane.Central.Finalize
import ShadowDataPlane.Central.Deduplicator
import ShadowDataPlane.Central.DedupWindow
import ShadowDataPlane.Central.TypedRow
import ShadowDataPlane.Central.RowReplay
import ShadowDataPlane.Central.DayNormalizer
import ShadowDataPlane.Central.OverlapReplay
import ShadowDataPlane.Central.AuthorityReplay
import ShadowDataPlane.Central.LedgerReaders
import ShadowDataPlane.Central.BookSimulation
import ShadowDataPlane.Central.SnapshotBridge
import ShadowDataPlane.Central.RedundantSnapshot
import ShadowDataPlane.Central.MidnightCut
import ShadowDataPlane.Central.MidnightHandover
import ShadowDataPlane.Central.InvalidExtension
import ShadowDataPlane.Central.RestoredBook
import ShadowDataPlane.Central.LeftoverAnchor
import ShadowDataPlane.Central.BufferedBreak
import ShadowDataPlane.Central.UnmatchedClose
import ShadowDataPlane.Central.QualityMarkers
import ShadowDataPlane.Edge.DayIndex
import ShadowDataPlane.Edge.GapJournal
import ShadowDataPlane.Edge.GapPieces
import ShadowDataPlane.Edge.GapRollover
import ShadowDataPlane.Edge.GapHistory
import ShadowDataPlane.Edge.GapDecomposition
import ShadowDataPlane.Edge.GapDenotation
import ShadowDataPlane.Central.Puller
import ShadowDataPlane.Edge.DayInventory
import ShadowDataPlane.Edge.JournalBytes
import ShadowDataPlane.Edge.DayJournal
import ShadowDataPlane.Edge.GapInterleaving
import ShadowDataPlane.Edge.GapThreads
import ShadowDataPlane.Edge.RouteLiveness
import ShadowDataPlane.Edge.RouteUpdates
import ShadowDataPlane.Edge.RouteSealing
import ShadowDataPlane.Edge.RouteGaps
import ShadowDataPlane.Edge.RouteHandover
import ShadowDataPlane.Edge.ReceivedMessage
import ShadowDataPlane.Edge.SequenceGaps
import ShadowDataPlane.Central.SequencedBook
import ShadowDataPlane.Edge.DepthAgreement
import ShadowDataPlane.Edge.KnownGaps
import ShadowDataPlane.Edge.GapOwnership
import ShadowDataPlane.Central.SetAside
import ShadowDataPlane.Central.Percentiles
import ShadowDataPlane.Edge.SubscriptionConnection
import ShadowDataPlane.Edge.SubscriptionBlocks
import ShadowDataPlane.Edge.SubscriptionAudit
import ShadowDataPlane.Edge.Spool
import ShadowDataPlane.Edge.TransferLedger
import ShadowDataPlane.Edge.ApplyAcks
import ShadowDataPlane.Edge.AckLicence
import ShadowDataPlane.Edge.AckAudit
import ShadowDataPlane.Edge.StoragePause
import ShadowDataPlane.Central.Retention
import ShadowDataPlane.Transfer.NoLoss
import ShadowDataPlane.Transfer.Republication
import ShadowDataPlane.Transfer.StoreIntegrity
import ShadowDataPlane.Edge.WriterPartition
import ShadowDataPlane.Edge.ByteBudget
import ShadowDataPlane.Edge.CrashRecovery
import ShadowDataPlane.Edge.SourceFailure
import ShadowDataPlane.Edge.UniverseDwell
import ShadowDataPlane.Edge.UniverseVersions
import ShadowDataPlane.Edge.UniverseRestore
import ShadowDataPlane.Edge.UniverseChanges
import ShadowDataPlane.Edge.PausedAutomation
import ShadowDataPlane.Edge.SourceGroup
import ShadowDataPlane.Edge.UniverseUpdate
import ShadowDataPlane.Foundation.PosixPath
import ShadowDataPlane.Foundation.ShellWords
import ShadowDataPlane.Transfer.RsyncGateway
import ShadowDataPlane.Edge.OperationLock
import ShadowDataPlane.Transfer.PullRun
import ShadowDataPlane.Transfer.PullSession
import ShadowDataPlane.Central.UniverseEvidence
import ShadowDataPlane.Transfer.UniverseFeed
import ShadowDataPlane.Central.RawDay
import ShadowDataPlane.Transfer.SealedDay
import ShadowDataPlane.Edge.ChunkIds
import ShadowDataPlane.Transfer.WrittenChunk
import ShadowDataPlane.Edge.SealedChunks
import ShadowDataPlane.Edge.SealedFiles
import ShadowDataPlane.Edge.OpenInterestServed

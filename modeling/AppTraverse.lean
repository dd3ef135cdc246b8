import AppTraverse.Wire.HeardFrames
import AppTraverse.Wire.HeartbeatBacklog
import AppTraverse.Wire.PeerEvidence
import AppTraverse.Cluster.Convergence
import AppTraverse.Chat.HostRooms
import AppTraverse.Chat.SharedRoom
import AppTraverse.Checkpoint.CheckpointRecovery
import AppTraverse.Presentation.PresenterRuns
import AppTraverse.Storage.DirectoryStorageRuns
import AppTraverse.Storage.StoredMap
import AppTraverse.Storage.DirectoryViews
import AppTraverse.Storage.DirectoryStorage
import AppTraverse.Chat.CommandResults
import AppTraverse.Chat.WorkspaceForm
import AppTraverse.Wire.WritePumpRuns
import AppTraverse.Chat.CheckpointRequests
import AppTraverse.Surfaces.PresentationSizeQueue
import AppTraverse.Surfaces.SurfacesRuns
import AppTraverse.Runtime.RuntimeLifecycle
import AppTraverse.Wire.StreamFrame
import AppTraverse.Delivery.Preflight
import AppTraverse.Storage.ScratchCopy
import AppTraverse.Journal.TwinInsertion
import AppTraverse.Presentation.PublishedShells
import AppTraverse.Presentation.ShellCreation
import AppTraverse.Presentation.ShellMirror
import AppTraverse.Presentation.ShellRuns
import AppTraverse.Presentation.ShellClasses
import AppTraverse.Presentation.UiShells
import AppTraverse.Presentation.InitialMirror
import AppTraverse.Presentation.PublicationRoundTrip
import AppTraverse.Presentation.InitialPublication
import AppTraverse.Presentation.ObjectGraphBytes
import AppTraverse.Storage.ChainValidation
import AppTraverse.Chat.UiPublication
import AppTraverse.Presentation.PublicationChannel
import AppTraverse.Presentation.ModelThread
import AppTraverse.Journal.GenerationRuns
import AppTraverse.Journal.CommitOrder
import AppTraverse.Journal.WellFormedJournal
import AppTraverse.Chat.ImportDoor
import AppTraverse.Reference.ChatSessions
import AppTraverse.Chat.JoinProtocol
import AppTraverse.Chat.SessionSync
import AppTraverse.Chat.SessionRules
import AppTraverse.Chat.SessionRuns
import AppTraverse.Chat.ChatSession
import AppTraverse.Chat.MessageIdentity
import AppTraverse.Chat.SubmitDraft
import AppTraverse.Chat.MessagePlacement
import AppTraverse.Chat.ChatRuns
import AppTraverse.Chat.ChatCommands
import AppTraverse.Journal.PlainNode
import AppTraverse.Presentation.Publication
import AppTraverse.Presentation.ModelRuntime
import AppTraverse.Journal.Compaction
import AppTraverse.Journal.ArrivalOrder
import AppTraverse.Journal.JournalFold
import AppTraverse.Admission.HonestSnapshot
import AppTraverse.Reference.ItemGraph
import AppTraverse.Runtime.TopologyRuns
import AppTraverse.Sharing.ShareTopology
import AppTraverse.Sharing.SharedReplay
import AppTraverse.Delivery.Deliverability
import AppTraverse.Runtime.NodeRuns
import AppTraverse.Delivery.PayloadPrivacy
import AppTraverse.Delivery.RecordedEvents
import AppTraverse.Delivery.Redelivery
import AppTraverse.Delivery.Retries
import AppTraverse.Delivery.LinkSyncRuns
import AppTraverse.Delivery.Authority
import AppTraverse.Delivery.SyncOutcomes
import AppTraverse.Sharing.NodeOperations
import AppTraverse.Delivery.RejectedFrames
import AppTraverse.Wire.FrameBijection
import AppTraverse.Storage.LoadAgreement
import AppTraverse.Reference.ChatReplicas
import AppTraverse.Reference.ByteAether
import AppTraverse.Room.ChatRoom
import AppTraverse.Admission.InterruptedImport
import AppTraverse.Admission.ExpectationRuns
import AppTraverse.Foundations.TransitionSystem
import AppTraverse.Admission.LocalSyncState
import AppTraverse.Admission.ReplayedShares
import AppTraverse.Admission.JournalInvariant
import AppTraverse.Admission.ProductionLoad
import AppTraverse.Admission.ReferenceClosure
import AppTraverse.Admission.CommittedGraph
import AppTraverse.Admission.Import
import AppTraverse.Admission.ReplaySafety
import AppTraverse.Runtime.Reception
import AppTraverse.Runtime.SharedSyncRuntime
import AppTraverse.Storage.EventPayload
import AppTraverse.Storage.ClassChains
import AppTraverse.Wire.SyncFrame
import AppTraverse.Checkpoint.CheckpointRecovery

import TetherBridge.Transition.Basic
import TetherBridge.Data.Json
import TetherBridge.Data.Weigh
import TetherBridge.Acp.Events
import TetherBridge.Acp.Prompt
import TetherBridge.Acp.SessionIndex
import TetherBridge.Acp.IndexDurability
import TetherBridge.Acp.DeletionFamily
import TetherBridge.Data.Slice
import TetherBridge.Acp.ModelCatalog
import TetherBridge.Acp.ModelListing
import TetherBridge.Git.Porcelain
import TetherBridge.Queue.Runtime
import TetherBridge.Queue.Thread
import TetherBridge.Queue.Conservation
import TetherBridge.Queue.Wakeup
import TetherBridge.Queue.Completion
import TetherBridge.Queue.Line
import TetherBridge.Queue.Moves
import TetherBridge.Queue.Order
import TetherBridge.Queue.Limits
import TetherBridge.Queue.Edit
import TetherBridge.Data.Outcome
import TetherBridge.Data.Text
import TetherBridge.Data.Table
import TetherBridge.Snapshot.Types
import TetherBridge.Snapshot.Bound
import TetherBridge.Data.Window
import TetherBridge.Snapshot.Header
import TetherBridge.Snapshot.Apply
import TetherBridge.Snapshot.Rules
import TetherBridge.Snapshot.Eviction
import TetherBridge.Snapshot.History
import TetherBridge.Snapshot.ToolLedger
import TetherBridge.Snapshot.ToolRuns
import TetherBridge.Snapshot.Transcript
import TetherBridge.Snapshot.Run
import TetherBridge.Snapshot.Live
import TetherBridge.Snapshot.Saturation
import TetherBridge.Session.Impl
import TetherBridge.Session.Generation
import TetherBridge.Session.HarnessSteer
import TetherBridge.Session.Discovery
import TetherBridge.Session.DiscoveryRuns
import TetherBridge.Session.Mailbox
import TetherBridge.Session.Registry
import TetherBridge.Session.Occupancy
import TetherBridge.Data.Sole
import TetherBridge.AgUi.Task
import TetherBridge.AgUi.Projector
import TetherBridge.AgUi.Project
import TetherBridge.Data.Spans
import TetherBridge.AgUi.Stream
import TetherBridge.AgUi.Runs
import TetherBridge.AgUi.Messages
import TetherBridge.AgUi.Tools
import TetherBridge.AgUi.WellFormed
import TetherBridge.AgUi.ObservedRuns
import TetherBridge.AgUi.SnapshotBudget
import TetherBridge.Preview.Transparency
import TetherBridge.Snapshot.Messages
import TetherBridge.AgUi.Text
import TetherBridge.Session.Routing
import TetherBridge.Session.Accounting
import TetherBridge.Hub.Replay
import TetherBridge.Hub.Retention
import TetherBridge.Desktop.WorkerPool
import TetherBridge.Desktop.WorkerAccounting
import TetherBridge.Data.Js
import TetherBridge.Data.Recent
import TetherBridge.Mobile.Submission
import TetherBridge.Mobile.Retries
import TetherBridge.Data.PurgeQueue
import TetherBridge.Mobile.ChatCaches
import TetherBridge.Mobile.CachePurges
import TetherBridge.Mobile.EventClient
import TetherBridge.Mobile.Delivery
import TetherBridge.Mobile.CatchUp
import TetherBridge.Mobile.ChatList
import TetherBridge.Snapshot.Recorded
import TetherBridge.Snapshot.Shadowed
import TetherBridge.Mobile.Continuation
import TetherBridge.Mobile.Paging
import TetherBridge.Mobile.Reassembly
import TetherBridge.Snapshot.Prefix
import TetherBridge.Snapshot.ToolText
import TetherBridge.Snapshot.Pages
import TetherBridge.Snapshot.Fork
import TetherBridge.Snapshot.HeldTools
import TetherBridge.Snapshot.ToolUpdate
import TetherBridge.Snapshot.HeldMessages
import TetherBridge.Session.Reconstruction
import TetherBridge.Mobile.EventFeed
import TetherBridge.Data.Aged
import TetherBridge.Idempotency.Submissions
import TetherBridge.Idempotency.SubmissionRuns
import TetherBridge.Idempotency.Operations
import TetherBridge.Idempotency.OperationRuns
import TetherBridge.Mobile.UnifiedDiff
import TetherBridge.Mobile.DiffText
import TetherBridge.Mobile.DiffPaths
import TetherBridge.Mobile.DiffHunks
import TetherBridge.Mobile.DiffFiles
import TetherBridge.Mobile.DiffRoundTrip
import TetherBridge.Data.Fitting
import TetherBridge.Data.Stringify
import TetherBridge.Mobile.ChatSnapshotCache
import TetherBridge.Mobile.ChatSnapshotFields
import TetherBridge.Mobile.ChatSnapshotBounds
import TetherBridge.Mobile.ChatSnapshotRuns
import TetherBridge.Acp.Elicitation
import TetherBridge.Acp.ElicitationForms
import TetherBridge.Acp.InteractionConsent
import TetherBridge.Acp.InteractionLedger
import TetherBridge.Acp.InteractionLimits
import TetherBridge.Acp.InteractionShown
import TetherBridge.Acp.InteractionStream
import TetherBridge.Acp.SteerEpoch
import TetherBridge.Data.Indexed
import TetherBridge.Mobile.ThreadContent
import TetherBridge.Mobile.ThreadMessages
import TetherBridge.Mobile.ThreadReducer
import TetherBridge.Mobile.ThreadWrites

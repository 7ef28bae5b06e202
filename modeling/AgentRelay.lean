import AgentRelay.WatchGenerations
import AgentRelay.TranscriptChange
import AgentRelay.RoomDelivery
import AgentRelay.WriterDiscipline
import AgentRelay.DeliveryScope
import AgentRelay.FailedConfirms
import AgentRelay.AttentionRuns
import AgentRelay.ControlRevoke
import AgentRelay.SessionRuns
import AgentRelay.DriverBoundary
import AgentRelay.BackendPin
import AgentRelay.WorkspaceTrust
import AgentRelay.WindowFollows
import AgentRelay.SessionPaging
import AgentRelay.TailSplice
import AgentRelay.ReplayFidelity
import AgentRelay.TranscriptPageBytes
import AgentRelay.PatchVerdict
import AgentRelay.PublishedReplies
import AgentRelay.ControlSave
import AgentRelay.HydrationGate
import AgentRelay.BackendFreeze
import AgentRelay.CodexBilling
import AgentRelay.ClaudeBilling
import AgentRelay.MessagesKept
import AgentRelay.RedeliveredDeltas
import AgentRelay.ReviewVerdict
import AgentRelay.DiffRows
import AgentRelay.AnchorFiles
import AgentRelay.UsageReport
import AgentRelay.PagedTools
import AgentRelay.CalendarMonths
import AgentRelay.EvictionHarm
import AgentRelay.LineScan
import AgentRelay.TabRetarget
import AgentRelay.Blocklist
import AgentRelay.PairingIds
import AgentRelay.LexicalPaths
import AgentRelay.ReviewerEviction
import AgentRelay.DeviceCap
import AgentRelay.RotationGrace
import AgentRelay.BrokerBacklog
import AgentRelay.PushSubscriptions
import AgentRelay.WorkflowLocks
import AgentRelay.WorkspaceEvidence

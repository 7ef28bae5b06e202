import AgentRelay.OrchestratorProposals
import AgentRelay.PairingDesk

/-! The state file. The writer copies the relay field by field, leaves out what names a
session that does not exist yet and saves the clock ahead of itself; two readers take the
file over, one at boot and one more when the active thread has been read. -/
namespace AgentRelay.Team.TeamRun

def lostTlMessage : String :=
  "the team lead's session had not started when the relay restarted; re-run this task"

/-- Record a run whose lead never came to be as one that cannot be resumed. -/
def detachUnresumableTl (now : Nat) (r : TeamRun) : TeamRun :=
  let r := { r with tlThreadId := "", pauseRequested := false, awaiting := none }
  if r.status.isTerminal then r
  else
    { r with
      error := some (r.error.getD lostTlMessage), status := .interrupted, updatedAt := now }

end AgentRelay.Team.TeamRun

namespace AgentRelay.Relay
open Text

inductive BudgetPolicy
  | holdNewWork
  | stopEverything
  deriving DecidableEq, Repr

namespace BudgetPolicy

def asStr : BudgetPolicy → String
  | holdNewWork => "hold_new_work"
  | stopEverything => "stop_everything"

/-- An unknown word falls back to the softer policy. -/
def parse (value : String) : BudgetPolicy :=
  if value = "stop_everything" then stopEverything else holdNewWork

@[simp] theorem parse_asStr (policy : BudgetPolicy) : parse policy.asStr = policy := by
  cases policy <;> decide

end BudgetPolicy

structure BudgetSettings where
  dailyCap : Option Nat := none
  policy : BudgetPolicy := .holdNewWork
  deriving DecidableEq, Repr

structure DurableRelay where
  relay : RelayState := {}
  providerName : String := ""
  usageBudget : BudgetSettings := {}
  trustedWorkspaces : List String := []
  allowedRootsTrustMigrated : Bool := true
  pushSubscriptions : Table (List PushSubscription) := ∅
  orchestratorSystemPrompt : Option String := none
  orchestratorSystemPromptVersion : Option Nat := none
  orchestratorProposals : List OrchestratorProposal := []
  startingScheduledProposals : List OrchestratorProposal := []

/-- The file: what both readers restore of the relay, and the rest beside it. The status,
the flags and the provider are written and read back by neither of them. -/
structure StateFile where
  relay : PersistedRelayState
  currentStatus : String
  activeFlags : List String
  providerName : String
  usageDailyCap : Option Nat
  usageBudgetPolicy : String
  trustedWorkspaces : List String
  allowedRootsTrustMigrated : Bool
  pushSubscriptions : Table (List PushSubscription)
  orchestratorSystemPrompt : Option String
  orchestratorSystemPromptVersion : Option Nat
  orchestratorProposals : List OrchestratorProposal

/-- An id Claude made up for a session that has not had its first turn. -/
def isPendingId (id : String) : Bool := startsWith id "claude-pending-"

/-- How far ahead of itself the clock is saved. -/
def transcriptClockPersistHeadroom : Nat := 10000

namespace PersistedRelayState

def fromRelay (now : Nat) (s : RelayState) : PersistedRelayState where
  activeThreadId := s.activeThreadId.filter fun id => !isPendingId id
  currentCwd := s.currentCwd
  activeControllerDeviceId := s.activeControllerDeviceId
  activeControllerLastSeenAt := s.activeControllerLastSeenAt
  model := s.model
  approvalPolicy := s.approvalPolicy
  sandbox := s.sandbox
  reasoningEffort := s.reasoningEffort
  transcriptClock := saturatingAdd s.transcriptClock transcriptClockPersistHeadroom
  threadSettings := s.threadMeta.threadSettings
  threadForkedFrom := s.threadMeta.threadForkedFrom
  threadPromotedFrom := s.threadMeta.threadPromotedFrom
  threadWorkspace := s.threadMeta.threadWorkspace.filter fun id _ => !isPendingId id
  threadLastActivityAt := s.threadMeta.threadLastActivityAt
  projects := s.threadMeta.projects
  threadProjectId := s.threadMeta.threadProjectId
  threadCustomName := s.threadMeta.threadCustomName.filter fun id _ => !isPendingId id
  projectsRevision := s.threadMeta.projectsRevision
  allowedRoots := s.surfaces.allowedRoots
  deviceRecords := s.surfaces.deviceRecords
  pairedDevices := s.surfaces.pairedDevices
  reviewerThreads := s.jobs.reviewerThreads.filter fun id _ => !isPendingId id
  reviewJobs := s.jobs.reviewJobs.filter fun _ job => job.status.isTerminal
  workflowJobs := s.jobs.workflowJobs
  teamRuns := s.jobs.teamRuns.map fun _ run =>
    if isPendingId run.tlThreadId then run.detachUnresumableTl now else run
  orchestratorThreadId := s.threadMeta.orchestratorThreadId.filter fun id => !isPendingId id
  orchestratorDeviceId := s.threadMeta.orchestratorDeviceId

end PersistedRelayState

namespace DurableRelay

/-- A relay that has restored nothing has no roots to migrate. -/
def new (currentCwd : String) : DurableRelay := { relay := RelayState.new currentCwd }

/-- The cards a file holds; the parked copy wins an id that is on both lists. -/
def savedProposals (d : DurableRelay) : List OrchestratorProposal :=
  ProposalBoard.savedProposals
    { orchestratorProposals := d.orchestratorProposals
      startingScheduledProposals := d.startingScheduledProposals }

def fromRelay (now : Nat) (d : DurableRelay) : StateFile where
  relay := .fromRelay now d.relay
  currentStatus := d.relay.currentStatus
  activeFlags := d.relay.activeFlags
  providerName := d.providerName
  usageDailyCap := d.usageBudget.dailyCap
  usageBudgetPolicy := d.usageBudget.policy.asStr
  trustedWorkspaces := d.trustedWorkspaces
  allowedRootsTrustMigrated := d.allowedRootsTrustMigrated
  pushSubscriptions := d.pushSubscriptions
  orchestratorSystemPrompt := d.orchestratorSystemPrompt
  orchestratorSystemPromptVersion := d.orchestratorSystemPromptVersion
  orchestratorProposals := d.savedProposals

end DurableRelay

namespace StateFile

/-- The roots of a file from before the split are granted once; the marker says it was done. -/
def migrateAllowedRootsIntoTrust (p : StateFile) : List String :=
  if p.allowedRootsTrustMigrated then p.trustedWorkspaces
  else p.relay.allowedRoots.foldl
    (fun trusted root => if trusted.contains root then trusted else trusted ++ [root])
    p.trustedWorkspaces

/-- What both readers take over beside the threads and surfaces. -/
def restoredExtras (p : StateFile) (d : DurableRelay) : DurableRelay :=
  { d with
    usageBudget := ⟨p.usageDailyCap, .parse p.usageBudgetPolicy⟩
    trustedWorkspaces := p.migrateAllowedRootsIntoTrust
    allowedRootsTrustMigrated := true
    pushSubscriptions := p.pushSubscriptions.filter fun id _ => p.relay.pairedDevices.contains id
    orchestratorSystemPrompt := p.orchestratorSystemPrompt
    orchestratorSystemPromptVersion := p.orchestratorSystemPromptVersion
    orchestratorProposals := p.orchestratorProposals }

end StateFile

namespace DurableRelay

def applyPersisted (d : DurableRelay) (now : Nat) (p : StateFile) : DurableRelay :=
  { p.restoredExtras d with relay := d.relay.applyPersisted now p.relay }

def restoreThreadData (d : DurableRelay) (now : Nat) (data : ThreadSyncData) (p : StateFile) :
    DurableRelay :=
  { p.restoredExtras d with relay := d.relay.restoreThreadData now data p.relay }

end DurableRelay

end AgentRelay.Relay

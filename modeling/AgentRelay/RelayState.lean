import AgentRelay.TeamRun
import AgentRelay.ThreadRuntime
import AgentRelay.SurfaceState

/-! The relay's state: the selected thread mirrored in flat fields, one runtime per
thread, and the process-wide clock every transcript revision is drawn from. -/
namespace AgentRelay.Relay
open Text

inductive ReviewJobStatus
  | pendingParentRecap
  | waitingForParentRecap
  | startingReviewer
  | waitingForReviewer
  | waitingToPostBack
  | postingBack
  | interrupting
  | addressingFindings
  | blocked
  | complete
  | failed
  | escalated
  | cancelled
  deriving DecidableEq, Repr

def ReviewJobStatus.isTerminal : ReviewJobStatus → Bool
  | complete | failed | escalated | cancelled => true
  | _ => false

structure ReviewJob where
  parentThreadId : String
  reviewerThreadId : Option String
  status : ReviewJobStatus
  deriving DecidableEq, Repr

inductive RunStatus
  | queued
  | running
  | done
  | escalated
  | failed
  | blocked
  | resolving
  | interrupted
  | cancelled
  deriving DecidableEq, Repr

def RunStatus.isTerminal : RunStatus → Bool
  | done | escalated | failed | interrupted | cancelled => true
  | _ => false

structure WorkflowRun where
  parentThreadId : String
  stepThreads : Table String
  status : RunStatus
  error : Option String
  updatedAt : Nat

def WorkflowRun.markInterruptedIfStranded (now : Nat) (run : WorkflowRun) : WorkflowRun :=
  if run.status.isTerminal then run
  else
    { run with
      error := some (run.error.getD "the workflow run's orchestrator was lost; re-run to continue")
      status := .interrupted
      updatedAt := now }

structure ReviewerThread where
  parentThreadId : String
  seq : Nat
  navigationVisible : Option Bool
  deriving DecidableEq, Repr

structure ThreadWorkspace where
  pinned : Option String
  proven : Option String
  provenAt : Option Nat
  deriving DecidableEq, Repr

structure ThreadMeta where
  threadSettings : Table ThreadSessionSettings := ∅
  threadForkedFrom : Table String := ∅
  threadPromotedFrom : Table String := ∅
  threadWorkspace : Table ThreadWorkspace := ∅
  threadLastActivityAt : Table Nat := ∅
  projects : Table String := ∅
  threadProjectId : Table String := ∅
  projectsRevision : Nat := 0
  threadCustomName : Table String := ∅
  locallyDeletedThreadIds : StringSet := ∅
  orchestratorThreadId : Option String := none
  orchestratorDeviceId : Option String := none

structure ThreadJobs where
  reviewJobs : Table ReviewJob := ∅
  workflowJobs : Table WorkflowRun := ∅
  teamRuns : Table Team.TeamRun := ∅
  reviewerThreads : Table ReviewerThread := ∅
  reviewerThreadSeq : Nat := 0

structure RelayState where
  transcriptClock : Nat := 0
  /-- History: every revision handed out so far, oldest first. -/
  issued : List Nat := []
  transcriptRevision : Nat := 0
  activeThreadId : Option String := none
  activeControllerDeviceId : Option String := none
  activeControllerLastSeenAt : Option Nat := none
  activeTurnId : Option String := none
  currentStatus : String := "idle"
  currentPhase : Option String := none
  currentTool : Option String := none
  lastProgressAt : Option Nat := none
  activeFlags : List String := []
  currentCwd : String := ""
  model : String := "gpt-5.5"
  approvalPolicy : String := "untrusted"
  sandbox : String := "workspace-write"
  reasoningEffort : String := "medium"
  transcript : List TranscriptRecord := []
  applyStates : Table FileChangeApplyState := ∅
  runtimes : Table ThreadRuntime := ∅
  threads : List ThreadSummaryView := []
  pendingApprovals : Table PendingRequest := ∅
  pendingAskUserQuestions : Table PendingRequest := ∅
  threadMeta : ThreadMeta := {}
  jobs : ThreadJobs := {}
  surfaces : SurfaceState := {}

namespace RelayState

def nextTranscriptRevision (s : RelayState) : RelayState × Nat :=
  let revision := saturatingAdd s.transcriptClock 1
  ({ s with transcriptClock := revision, issued := s.issued ++ [revision] }, revision)

def selectedRuntime (s : RelayState) : Option ThreadRuntime :=
  s.activeThreadId.bind fun threadId => s.runtimes[threadId]?

def materializeSelectedRuntimeFromFields (s : RelayState) (now : Nat) : RelayState :=
  match s.activeThreadId with
  | none => s
  | some threadId =>
    if s.runtimes.contains threadId then s
    else
      let (s, seedRevision) := s.nextTranscriptRevision
      let placeholder := ThreadRuntime.placeholder threadId now seedRevision
      let listed := s.threads.find? (·.id = threadId)
      let runtime : ThreadRuntime :=
        { placeholder with
          summary := listed.or placeholder.summary
          currentCwd := match listed with
            | some summary => if s.currentCwd = "" then summary.cwd else s.currentCwd
            | none => s.currentCwd
          activeTurnId := s.activeTurnId
          currentStatus := s.currentStatus
          currentPhase := s.currentPhase
          currentTool := s.currentTool
          lastProgressAt := s.lastProgressAt
          activeFlags := s.activeFlags
          model := s.model
          approvalPolicy := s.approvalPolicy
          sandbox := s.sandbox
          reasoningEffort := s.reasoningEffort
          transcript := s.transcript
          applyStates := s.applyStates
          pendingApprovals := s.pendingApprovals.filter fun _ p => p.threadId = threadId
          pendingAskUserQuestions :=
            s.pendingAskUserQuestions.filter fun _ p => p.threadId = threadId }
      { s with runtimes := s.runtimes.insert threadId runtime }

def ownSetting (remembered : Option String) (session : String) : String :=
  match remembered with
  | some value => if value = "" then session else value
  | none => session

def lazyRuntime (s : RelayState) (threadId : String) (now seedRevision : Nat) : ThreadRuntime :=
  let placeholder := ThreadRuntime.placeholder threadId now seedRevision
  let listed := s.threads.find? (·.id = threadId)
  let status := (listed.map (·.status)).getD placeholder.currentStatus
  let remembered := s.threadMeta.threadSettings[threadId]?
  { placeholder with
    summary := listed.or placeholder.summary
    currentCwd := (listed.map (·.cwd)).getD placeholder.currentCwd
    currentStatus := if threadStatusIsWorking status then "idle" else status
    model := ownSetting (remembered.map (·.model)) s.model
    approvalPolicy := ownSetting (remembered.map (·.approvalPolicy)) s.approvalPolicy
    sandbox := ownSetting (remembered.map (·.sandbox)) s.sandbox
    reasoningEffort := ownSetting (remembered.map (·.reasoningEffort)) s.reasoningEffort }

def ensureRuntimeForThread (s : RelayState) (now : Nat) (threadId : String) : RelayState :=
  let s := if s.activeThreadId = some threadId ∧ ¬s.runtimes.contains threadId then
      s.materializeSelectedRuntimeFromFields now
    else s
  if s.runtimes.contains threadId then s
  else
    let (s, seedRevision) := s.nextTranscriptRevision
    { s with runtimes := s.runtimes.insert threadId (s.lazyRuntime threadId now seedRevision) }

def syncSelectedRuntimeToFields (s : RelayState) : RelayState :=
  match s.selectedRuntime with
  | none =>
    { s with
      transcriptRevision := s.transcriptClock, activeTurnId := none, currentStatus := "idle"
      currentPhase := none, currentTool := none, lastProgressAt := none, activeFlags := []
      transcript := [], applyStates := ∅ }
  | some runtime =>
    { s with
      transcriptRevision := runtime.transcriptRevision
      activeTurnId := runtime.activeTurnId
      currentStatus := runtime.currentStatus
      currentPhase := runtime.currentPhase
      currentTool := runtime.currentTool
      lastProgressAt := runtime.lastProgressAt
      activeFlags := runtime.activeFlags
      currentCwd := runtime.currentCwd
      model := runtime.model
      approvalPolicy := runtime.approvalPolicy
      sandbox := runtime.sandbox
      reasoningEffort := runtime.reasoningEffort
      transcript := runtime.transcript
      applyStates := runtime.applyStates }

def syncIfSelected (s : RelayState) (threadId : String) : RelayState :=
  if s.activeThreadId = some threadId then s.syncSelectedRuntimeToFields else s

def touchThreadLastActivity (s : RelayState) (now : Nat) (threadId : String) : RelayState :=
  { s with threadMeta.threadLastActivityAt :=
      s.threadMeta.threadLastActivityAt.insert threadId now }

def bumpThreadTranscriptRevision (s : RelayState) (now : Nat) (threadId : String) :
    RelayState × (Nat × Nat) :=
  let s := s.touchThreadLastActivity now threadId
  let s := if s.runtimes.contains threadId then s else s.ensureRuntimeForThread now threadId
  let (s, revision) := s.nextTranscriptRevision
  let baseRevision := (s.runtimes[threadId]?.map (·.transcriptRevision)).getD 0
  ({ s with
      runtimes := s.runtimes.modify threadId fun rt => { rt with transcriptRevision := revision }
      transcriptRevision :=
        if s.activeThreadId = some threadId then revision else s.transcriptRevision },
    (baseRevision, revision))

def bumpTranscriptRevision (s : RelayState) (now : Nat) : RelayState × (Nat × Nat) :=
  match s.activeThreadId with
  | none =>
    let baseRevision := s.transcriptRevision
    let (s, revision) := s.nextTranscriptRevision
    ({ s with transcriptRevision := revision }, (baseRevision, revision))
  | some threadId => s.bumpThreadTranscriptRevision now threadId

end RelayState

end AgentRelay.Relay

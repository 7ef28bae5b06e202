import AgentRelay.RelayTranscript

/-! Approvals and questions the agents wait on. Each one is kept twice, in the relay's
own map and in the runtime of its thread; here are the operations that write either
side, with the ones that start, archive and delete threads. -/
namespace AgentRelay.Relay

inductive RequestKind
  | approval
  | askUserQuestion
  deriving DecidableEq, Repr

def ThreadRuntime.requests (rt : ThreadRuntime) : RequestKind → Table PendingRequest
  | .approval => rt.pendingApprovals
  | .askUserQuestion => rt.pendingAskUserQuestions

def ThreadRuntime.setRequests (k : RequestKind) (m : Table PendingRequest) (rt : ThreadRuntime) :
    ThreadRuntime :=
  match k with
  | .approval => { rt with pendingApprovals := m }
  | .askUserQuestion => { rt with pendingAskUserQuestions := m }

@[simp] theorem ThreadRuntime.requests_setRequests (k k' : RequestKind) (m : Table PendingRequest)
    (rt : ThreadRuntime) :
    (rt.setRequests k m).requests k' = if k' = k then m else rt.requests k' := by
  cases k <;> cases k' <;> rfl

def ThreadRuntime.new (thread : ThreadSummaryView) (cwd : String)
    (settings : ThreadSessionSettings) (now transcriptRevision : Nat) : ThreadRuntime :=
  { summary := some thread
    currentStatus := thread.status
    currentCwd := cwd
    model := settings.model
    approvalPolicy := settings.approvalPolicy
    sandbox := settings.sandbox
    reasoningEffort := settings.reasoningEffort
    transcriptRevision := transcriptRevision
    lastUpdateAt := now }

def ThreadRuntime.adoptStart (thread : ThreadSummaryView) (cwd : String)
    (settings : ThreadSessionSettings) (now : Nat) (rt : ThreadRuntime) : ThreadRuntime :=
  { rt with
    summary := some thread
    currentCwd := cwd
    model := settings.model
    approvalPolicy := settings.approvalPolicy
    sandbox := settings.sandbox
    reasoningEffort := settings.reasoningEffort
    lastUpdateAt := now }

namespace RelayState

def requests (s : RelayState) : RequestKind → Table PendingRequest
  | .approval => s.pendingApprovals
  | .askUserQuestion => s.pendingAskUserQuestions

def setRequests (s : RelayState) (k : RequestKind) (m : Table PendingRequest) : RelayState :=
  match k with
  | .approval => { s with pendingApprovals := m }
  | .askUserQuestion => { s with pendingAskUserQuestions := m }

@[simp] theorem requests_setRequests (s : RelayState) (k k' : RequestKind)
    (m : Table PendingRequest) :
    (s.setRequests k m).requests k' = if k' = k then m else s.requests k' := by
  cases k <;> cases k' <;> rfl

@[simp] theorem runtimes_setRequests (s : RelayState) (k : RequestKind)
    (m : Table PendingRequest) : (s.setRequests k m).runtimes = s.runtimes := by
  cases k <;> rfl

def addPendingRequest (k : RequestKind) (s : RelayState) (now : Nat) (requestId : String)
    (pending : PendingRequest) : RelayState :=
  let s := if pending.threadId = "" then s
    else (s.ensureRuntimeForThread now pending.threadId).modifyRuntime pending.threadId fun rt =>
      rt.setRequests k ((rt.requests k).insert requestId pending)
  s.setRequests k ((s.requests k).insert requestId pending)

def addPendingApproval := addPendingRequest .approval

def addPendingAskUserQuestion := addPendingRequest .askUserQuestion

def removePendingRequest (k : RequestKind) (s : RelayState) (requestId : String) :
    RelayState × Option PendingRequest :=
  match (s.requests k)[requestId]? with
  | none => (s, none)
  | some pending =>
    let s := s.setRequests k ((s.requests k).erase requestId)
    let s := if pending.threadId = "" then s
      else s.modifyRuntime pending.threadId fun rt =>
        rt.setRequests k ((rt.requests k).erase requestId)
    (s, some pending)

def removePendingApproval := removePendingRequest .approval

def removePendingAskUserQuestion := removePendingRequest .askUserQuestion

def removeThread (s : RelayState) (threadId : String) : RelayState × Bool :=
  let threads := s.threads.filter (·.id ≠ threadId)
  let removed := threads.length ≠ s.threads.length
  let s := { s with
    threads := threads
    threadMeta.threadSettings := s.threadMeta.threadSettings.erase threadId
    threadMeta.threadLastActivityAt := s.threadMeta.threadLastActivityAt.erase threadId
    threadMeta.threadCustomName := s.threadMeta.threadCustomName.erase threadId
    threadMeta.threadWorkspace := s.threadMeta.threadWorkspace.erase threadId
    runtimes := s.runtimes.erase threadId }
  (s.dropPendingRequestsForThread threadId, removed)

/-- Forget a thread for good: its project membership goes too, and it is never listed
again. -/
def markThreadDeleted (s : RelayState) (threadId : String) : RelayState :=
  let s := { s with
    threadMeta.locallyDeletedThreadIds :=
      s.threadMeta.locallyDeletedThreadIds.insert threadId ()
    threadMeta.threadProjectId := s.threadMeta.threadProjectId.erase threadId
    threadMeta.projectsRevision :=
      if s.threadMeta.threadProjectId.contains threadId then
        (s.threadMeta.projectsRevision + 1) % 2 ^ 64
      else s.threadMeta.projectsRevision }
  (s.removeThread threadId).1

/-- Select a thread and give it a new runtime, whatever was there. -/
def activateThread (s : RelayState) (now : Nat) (thread : ThreadSummaryView) (cwd : String)
    (settings : ThreadSessionSettings) (deviceId : String) : RelayState :=
  let s := s.materializeSelectedRuntimeFromFields now
  let s := s.assignActiveController now deviceId
  let s := { s with activeThreadId := some thread.id }
  let (s, revision) := s.nextTranscriptRevision
  let s := { s with
    runtimes := s.runtimes.insert thread.id (ThreadRuntime.new thread cwd settings now revision) }
  let s := s.rememberThreadSettings thread.id settings
  let s := s.syncSelectedRuntimeToFields
  s.upsertThread thread

/-- Select a thread that was just started; the events of its first turn may have made a
runtime already, which is kept. -/
def activateStartedThread (s : RelayState) (now : Nat) (thread : ThreadSummaryView)
    (cwd : String) (settings : ThreadSessionSettings) (deviceId : String) : RelayState :=
  let s := s.materializeSelectedRuntimeFromFields now
  let s := s.assignActiveController now deviceId
  let s := { s with activeThreadId := some thread.id }
  let finish := fun (s : RelayState) (thread : ThreadSummaryView) =>
    let s := s.rememberThreadSettings thread.id settings
    let s := s.syncSelectedRuntimeToFields
    s.upsertThread thread
  match s.runtimes[thread.id]? with
  | some runtime =>
    let thread := { thread with status := runtime.currentStatus }
    finish (s.modifyRuntime thread.id (ThreadRuntime.adoptStart thread cwd settings now)) thread
  | none =>
    let (s, revision) := s.nextTranscriptRevision
    finish
      { s with
        runtimes :=
          s.runtimes.insert thread.id (ThreadRuntime.new thread cwd settings now revision) }
      thread

def registerBackgroundThread (s : RelayState) (now : Nat) (thread : ThreadSummaryView)
    (cwd : String) (settings : ThreadSessionSettings) : RelayState :=
  let (s, revision) := s.nextTranscriptRevision
  let s := { s with
    runtimes := s.runtimes.insert thread.id (ThreadRuntime.new thread cwd settings now revision) }
  let s := s.rememberThreadSettings thread.id settings
  s.upsertThread thread

end RelayState

inductive RequestOp
  | relay (op : RelayOp)
  | addPendingApproval (requestId : String) (pending : PendingRequest)
  | addPendingAskUserQuestion (requestId : String) (pending : PendingRequest)
  | removePendingApproval (requestId : String)
  | removePendingAskUserQuestion (requestId : String)
  | removeThread (threadId : String)
  | markThreadDeleted (threadId : String)
  | activateThread (thread : ThreadSummaryView) (cwd : String)
      (settings : ThreadSessionSettings) (deviceId : String)
  | activateStartedThread (thread : ThreadSummaryView) (cwd : String)
      (settings : ThreadSessionSettings) (deviceId : String)
  | registerBackgroundThread (thread : ThreadSummaryView) (cwd : String)
      (settings : ThreadSessionSettings)
  | applyPersisted (persisted : PersistedRelayState)

namespace RelayState

def requestStep (s : RelayState) (op : Nat × RequestOp) : RelayState :=
  let now := op.1
  match op.2 with
  | .relay op => s.step (now, op)
  | .addPendingApproval requestId pending => s.addPendingApproval now requestId pending
  | .addPendingAskUserQuestion requestId pending =>
    s.addPendingAskUserQuestion now requestId pending
  | .removePendingApproval requestId => (s.removePendingApproval requestId).1
  | .removePendingAskUserQuestion requestId => (s.removePendingAskUserQuestion requestId).1
  | .removeThread threadId => (s.removeThread threadId).1
  | .markThreadDeleted threadId => s.markThreadDeleted threadId
  | .activateThread thread cwd settings deviceId =>
    s.activateThread now thread cwd settings deviceId
  | .activateStartedThread thread cwd settings deviceId =>
    s.activateStartedThread now thread cwd settings deviceId
  | .registerBackgroundThread thread cwd settings =>
    s.registerBackgroundThread now thread cwd settings
  | .applyPersisted persisted => s.applyPersisted now persisted

end RelayState

end AgentRelay.Relay

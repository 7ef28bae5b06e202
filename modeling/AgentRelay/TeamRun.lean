import AgentRelay.Text

/-! The task-team run record and every operation that moves it: the driver's
writes, the user's decisions, recovery, and reconciliation after a restart.
`now` is the wall clock each operation stamps into `updatedAt`. -/
namespace AgentRelay.Team
open Text

inductive TeamRunStatus
  | queued
  | running
  | pausePending
  | paused
  | awaitingUser
  | done
  | escalated
  | blocked
  | resolving
  | failed
  | interrupted
  | cancelled
  deriving DecidableEq, Repr

namespace TeamRunStatus

def isTerminal : TeamRunStatus → Bool
  | done | escalated | failed | interrupted | cancelled => true
  | _ => false

def isResumable : TeamRunStatus → Bool
  | paused => true
  | _ => false

/-- The states only a deliberate user action may write. -/
def isSettledWithoutDriver : TeamRunStatus → Bool
  | paused | blocked | resolving => true
  | _ => false

/-- Nobody is entitled to move the run on: it ended, or it waits for the user. -/
def isSettled (s : TeamRunStatus) : Bool := s.isTerminal || s.isSettledWithoutDriver

end TeamRunStatus

inductive TeamPauseKind
  | user
  | provider
  | boundary
  deriving DecidableEq, Repr

inductive TeamPhase
  | intake
  | design
  | designReview
  | planning
  | subTasks
  | mrGate
  | wrapping
  | finished
  deriving DecidableEq, Repr

inductive SubTaskStatus
  | pending
  | implementing
  | done
  | escalated
  | failed
  | skipped
  | superseded
  deriving DecidableEq, Repr

def SubTaskStatus.isTerminal : SubTaskStatus → Bool
  | .done | .escalated | .failed | .skipped | .superseded => true
  | _ => false

structure WorkflowVerdict where
  approved : Bool
  summary : Option String
  findings : List String
  deriving DecidableEq, Repr

structure TaskSpec where
  title : String := ""
  context : String := ""
  acceptanceCriteria : String := ""
  agreedScope : String := ""
  qualityRules : String := ""
  deriving DecidableEq, Repr

structure SubTask where
  id : String := ""
  title : String := ""
  brief : String := ""
  status : SubTaskStatus := .pending
  roundsUsed : Nat := 0
  reruns : Nat := 0
  baseCommit : String := ""
  devThreadId : Option String := none
  reviewerThreadId : Option String := none
  ownedThreadIds : List String := []
  lastVerdict : Option WorkflowVerdict := none
  resultSummary : Option String := none
  digested : Bool := false
  error : Option String := none
  devTurnsLanded : Nat := 0
  cycle : Nat := 0
  deriving DecidableEq, Repr

structure TlGeneration where
  threadId : String
  reason : String
  retiredAt : Nat
  deriving DecidableEq, Repr

structure AwaitingUser where
  threadId : String
  requestId : String
  role : String
  askedAt : Nat
  deriving DecidableEq, Repr

inductive OrchestrationBackendRef
  | legacyEmbedded
  | cloud (protocolVersion : Nat) (driverVersion cloudRunId : String)
  | localSidecar (protocolVersion : Nat) (driverVersion : String)
  | unknownNonExecuting (originalKind : Option String) (protocolVersion : Option Nat)
      (driverVersion cloudRunId : Option String)
  deriving DecidableEq, Repr

namespace OrchestrationBackendRef

def isExecutableByCurrentBuild : OrchestrationBackendRef → Bool
  | legacyEmbedded => true
  | _ => false

def nonExecutingReason : OrchestrationBackendRef → Option String
  | legacyEmbedded => none
  | cloud .. =>
    some "this task is pinned to Cloud orchestration, but this relay build has no Cloud transport"
  | localSidecar .. =>
    some "this task is pinned to a local sidecar, but this relay build has no sidecar transport"
  | unknownNonExecuting .. =>
    some ("this task is pinned to an orchestration backend this relay build " ++
      "does not understand")

end OrchestrationBackendRef

structure TeamRun where
  id : String := ""
  status : TeamRunStatus := .failed
  phase : TeamPhase := .intake
  spec : TaskSpec := {}
  subTasks : List SubTask := []
  orchestrationBackend : OrchestrationBackendRef := .legacyEmbedded
  complex : Option Bool := none
  slug : String := ""
  branch : String := ""
  targetRef : String := ""
  baseCommit : String := ""
  repoMainWorktree : String := ""
  cwd : String := ""
  sourceDirty : Bool := false
  planRelPath : String := ""
  designRelPath : String := ""
  reportRelPath : String := ""
  tlThreadId : String := ""
  tlSuccession : List TlGeneration := []
  tlTurnsThisGeneration : Nat := 0
  tlReseedReason : Option String := none
  runOwnedThreadIds : List String := []
  runOwnedThreadRoles : Table String := ∅
  mrDevThreadId : Option String := none
  reopenedCount : Nat := 0
  maxReviewRounds : Nat := 0
  maxMrRounds : Nat := 0
  designReviewRounds : Nat := 0
  mrRoundsUsed : Nat := 0
  inFlightThread : Option String := none
  pauseRequested : Bool := false
  stopping : Bool := false
  pauseRequestedBy : String := ""
  pauseReason : Option String := none
  pauseKind : Option TeamPauseKind := none
  awaiting : Option AwaitingUser := none
  designVerdict : Option WorkflowVerdict := none
  mrVerdict : Option WorkflowVerdict := none
  unresolved : List String := []
  headCommit : Option String := none
  requestedByDeviceId : String := ""
  requestedAt : Nat := 0
  updatedAt : Nat := 0
  error : Option String := none

namespace TeamRun

def maxSubtaskReviewRounds : Nat := 2

def maxMrRoundsBudget : Nat := 2

def new (now : Nat) (id : String) (spec : TaskSpec) (cwd requestedByDeviceId : String) : TeamRun :=
  { id := id, status := .queued, phase := .intake, spec := spec, cwd := cwd,
    maxReviewRounds := maxSubtaskReviewRounds, maxMrRounds := maxMrRoundsBudget,
    requestedByDeviceId := requestedByDeviceId, requestedAt := now, updatedAt := now }

def isLiveInCurrentBuild (r : TeamRun) : Bool :=
  r.orchestrationBackend.isExecutableByCurrentBuild && !r.status.isTerminal

/-- The driver and everyone else with a between-step write may still move this run. -/
def isMovable (r : TeamRun) : Bool :=
  !(r.status.isTerminal || r.status.isSettledWithoutDriver)

def setStatus (now : Nat) (status : TeamRunStatus) (r : TeamRun) : TeamRun :=
  if r.isMovable then { r with status := status, updatedAt := now } else r

def fail (now : Nat) (error : String) (r : TeamRun) : TeamRun :=
  if r.isMovable then
    -- A stop that is draining outranks the failure it caused: only the text is kept.
    if r.stopping then { r with error := some error, updatedAt := now }
    else setStatus now .failed { r with error := some error }
  else r

def block (now : Nat) (error : String) (r : TeamRun) : TeamRun :=
  if r.status.isTerminal then r
  else { r with error := some error, stopping := false, status := .blocked, updatedAt := now }

def requestPause (now : Nat) (deviceId : String) (r : TeamRun) : TeamRun :=
  if r.isMovable then
    setStatus now .pausePending { r with pauseRequested := true, pauseRequestedBy := deviceId }
  else r

def requestStop (now : Nat) (deviceId : String) (r : TeamRun) : TeamRun :=
  if r.isMovable then { requestPause now deviceId r with stopping := true, updatedAt := now }
  else r

/-- Settle a requested pause; the flag says whether it took. -/
def settlePaused (now : Nat) (reason : String) (kind : TeamPauseKind) (r : TeamRun) :
    TeamRun × Bool :=
  if r.isMovable then
    ({ r with pauseRequested := false, stopping := false, pauseReason := some reason,
              pauseKind := some kind, inFlightThread := none, awaiting := none,
              status := .paused, updatedAt := now }, true)
  else (r, false)

/-- Leave `paused` for a fresh drive. -/
def resume (now : Nat) (r : TeamRun) : TeamRun × Bool :=
  if r.status.isResumable then
    ({ r with pauseRequested := false, stopping := false, pauseRequestedBy := "",
              pauseReason := none, pauseKind := none, error := none,
              status := .running, updatedAt := now }, true)
  else (r, false)

/-- Settle the run at the user's request, out of any non-terminal status. -/
def cancel (now : Nat) (reason : String) (r : TeamRun) : TeamRun × Bool :=
  if r.status.isTerminal then (r, false)
  else
    ({ r with error := some reason, pauseRequested := false, stopping := false,
              awaiting := none, inFlightThread := none, status := .cancelled,
              updatedAt := now }, true)

/-- Relabel a run `done` or `cancelled` whatever its status. -/
def forceMarkStatus (now : Nat) (status : TeamRunStatus) (r : TeamRun) : TeamRun × Bool :=
  if status ≠ .done ∧ status ≠ .cancelled then (r, false)
  else if r.status = status then (r, false)
  else
    ({ r with pauseRequested := false, stopping := false, awaiting := none,
              inFlightThread := none, pauseReason := none, pauseKind := none,
              error := if status = .done then none
                else some (r.error.getD "the task was marked cancelled"),
              status := status, updatedAt := now }, true)

def beginResolvingBlocked (now : Nat) (r : TeamRun) : TeamRun × Bool :=
  if r.status = .blocked then ({ r with status := .resolving, updatedAt := now }, true)
  else (r, false)

def resolveAsPaused (now : Nat) (reason : String) (kind : TeamPauseKind) (r : TeamRun) :
    TeamRun × Bool :=
  if r.status = .resolving then
    -- Unlike `settlePaused`, the parked question is left in place.
    ({ r with pauseRequested := false, stopping := false, pauseReason := some reason,
              pauseKind := some kind, inFlightThread := none, status := .paused,
              updatedAt := now }, true)
  else (r, false)

def restoreResolvingAsBlocked (now : Nat) (error : String) (r : TeamRun) : TeamRun × Bool :=
  if r.status = .resolving then (r.block now error, true) else (r, false)

def driverLostError : String :=
  "the task team's driver was lost; re-run to continue from the last completed step"

def markInterruptedIfStranded (now : Nat) (r : TeamRun) : TeamRun × Bool :=
  if r.status.isTerminal || r.status.isResumable then (r, false)
  else
    ({ r with error := some (r.error.getD driverLostError), status := .interrupted,
              updatedAt := now }, true)

def currentSubTask (r : TeamRun) : Option Nat :=
  r.subTasks.findIdx? fun task => !task.status.isTerminal || !task.digested

def rollbackCurrentRound (r : TeamRun) : TeamRun :=
  match r.currentSubTask with
  | none => { r with awaiting := none }
  | some index =>
    { r with
      awaiting := none
      subTasks := r.subTasks.modify index fun task =>
        if task.status.isTerminal then task else { task with status := .pending } }

def appendRestoreError (reason : String) (r : TeamRun) : TeamRun :=
  match r.error with
  | some error =>
    if Text.contains error reason then r
    else if trim error = "" then { r with error := some reason }
    else { r with error := some (error ++ "; " ++ reason) }
  | none => { r with error := some reason }

def pausingRestartReason : String := "the relay restarted while the team was pausing"

def awaitingRestartReason : String :=
  "the relay restarted while the team was waiting on your answer; that step will be re-run"

/-- The four fields whose change decides whether a paused run is written back. -/
def restoreMarks (r : TeamRun) : Bool × Bool × Option AwaitingUser × Option String :=
  (r.pauseRequested, r.stopping, r.awaiting, r.error)

def noteNonExecutingBackend (r : TeamRun) : TeamRun :=
  match r.orchestrationBackend.nonExecutingReason with
  | some reason => r.appendRestoreError reason
  | none => r

def reconcileAfterRestore (now : Nat) (r : TeamRun) : TeamRun × Bool :=
  if r.status.isTerminal then (r, false)
  else
    let noted := r.noteNonExecutingBackend
    match r.status with
    | .paused =>
      let cleared := { noted with pauseRequested := false, stopping := false, awaiting := none }
      if r.restoreMarks = cleared.restoreMarks then (cleared, false)
      else ({ cleared with updatedAt := now }, true)
    | .pausePending => ((noted.settlePaused now pausingRestartReason .boundary).1, true)
    | .awaitingUser =>
      ((noted.rollbackCurrentRound.settlePaused now awaitingRestartReason .boundary).1, true)
    | _ =>
      if r.orchestrationBackend.isExecutableByCurrentBuild then
        noted.markInterruptedIfStranded now
      else
        ({ noted with pauseRequested := false, stopping := false, awaiting := none,
                      status := .failed, updatedAt := now }, true)

/-- The sub-tasks a revival takes: the escalated ones, or the named terminal ones. -/
def selectsForRevival (only : Option (List String)) (task : SubTask) : Bool :=
  match only with
  | none => task.status = .escalated
  | some ids => task.status.isTerminal && ids.any (· = task.id)

def reviveSubTask (workingCycle : Nat) (task : SubTask) : SubTask :=
  { task with
    status := .pending, roundsUsed := 0, digested := false, devTurnsLanded := 0,
    devThreadId := none, reruns := task.reruns + 1, cycle := workingCycle }

def reviveSubTasks (now : Nat) (only : Option (List String)) (r : TeamRun) : TeamRun × Bool :=
  if r.subTasks.any (selectsForRevival only) then
    ({ r with
        subTasks := r.subTasks.map fun task =>
          if selectsForRevival only task then reviveSubTask r.reopenedCount task else task
        designReviewRounds := 0, mrRoundsUsed := 0, unresolved := [], mrVerdict := none,
        designVerdict := none,
        phase := if r.phase = .mrGate ∨ r.phase = .wrapping then .subTasks else r.phase,
        updatedAt := now }, true)
  else (r, false)

def reviveEscalatedSubTasks (now : Nat) (r : TeamRun) : TeamRun × Bool :=
  r.reviveSubTasks now none

def supersede (task : SubTask) : SubTask :=
  if task.status.isTerminal then task else { task with status := .superseded, digested := true }

/-- Append one planned sub-task; `reminted` is the id it takes when its own is in use. -/
def appendPlanned (cycle : Nat) (tasks : List SubTask) (planned : SubTask × String) :
    List SubTask :=
  let id := if tasks.any (·.id = planned.1.id) then planned.2 else planned.1.id
  tasks ++ [{ planned.1 with id := id, cycle := cycle }]

def replanSubTasks (now : Nat) (planned : List (SubTask × String)) (r : TeamRun) : TeamRun :=
  { r with
    subTasks := planned.foldl (appendPlanned r.reopenedCount) (r.subTasks.map supersede)
    updatedAt := now }

def holdPhaseForWaitingSubTasks (now : Nat) (r : TeamRun) : TeamRun × Bool :=
  if (r.phase = .mrGate ∨ r.phase = .wrapping ∨ r.phase = .finished) ∧
      r.currentSubTask.isSome then
    ({ r with phase := .subTasks, mrVerdict := none, unresolved := [], updatedAt := now }, true)
  else (r, false)

def swapThread (pendingId realId slot : String) : String :=
  if slot = pendingId then realId else slot

def rekeySubTask (pendingId realId : String) (task : SubTask) : SubTask :=
  let swap := swapThread pendingId realId
  { task with
    devThreadId := task.devThreadId.map swap
    reviewerThreadId := task.reviewerThreadId.map swap
    ownedThreadIds := task.ownedThreadIds.map swap }

/-- Every id a rekey looks at, in the order it visits them. -/
def rekeyedThreads (r : TeamRun) : List String :=
  r.tlThreadId :: r.tlSuccession.map (·.threadId) ++ r.runOwnedThreadIds
    ++ r.mrDevThreadId.toList
    ++ r.subTasks.flatMap (fun task =>
        task.devThreadId.toList ++ task.reviewerThreadId.toList ++ task.ownedThreadIds)
    ++ r.runOwnedThreadRoles.keys ++ r.inFlightThread.toList
    ++ r.awaiting.toList.map (·.threadId)

/-- Rewrite every reference to `pendingId` as `realId`. -/
def rekeyThread (now : Nat) (pendingId realId : String) (r : TeamRun) : TeamRun × Bool :=
  if pendingId = "" ∨ pendingId = realId then (r, false)
  else if pendingId ∉ r.rekeyedThreads then (r, false)
  else
    let swap := swapThread pendingId realId
    ({ r with
        tlThreadId := swap r.tlThreadId
        tlSuccession := r.tlSuccession.map fun g => { g with threadId := swap g.threadId }
        runOwnedThreadIds := r.runOwnedThreadIds.map swap
        mrDevThreadId := r.mrDevThreadId.map swap
        subTasks := r.subTasks.map (rekeySubTask pendingId realId)
        runOwnedThreadRoles := match r.runOwnedThreadRoles[pendingId]? with
          | some role => (r.runOwnedThreadRoles.erase pendingId).insert realId role
          | none => r.runOwnedThreadRoles
        inFlightThread := r.inFlightThread.map swap
        awaiting := r.awaiting.map fun a => { a with threadId := swap a.threadId }
        updatedAt := now }, true)

def ownedThreadIds (r : TeamRun) : List String :=
  let candidates := r.tlThreadId :: r.tlSuccession.map (·.threadId) ++ r.runOwnedThreadIds
    ++ r.mrDevThreadId.toList
    ++ r.subTasks.flatMap (fun task =>
        task.ownedThreadIds ++ task.devThreadId.toList ++ task.reviewerThreadId.toList)
  candidates.foldl (fun ids id => if id = "" ∨ id ∈ ids then ids else ids ++ [id]) []

def parkOnQuestion (now : Nat) (awaiting : AwaitingUser) (r : TeamRun) : TeamRun :=
  setStatus now .awaitingUser { r with awaiting := some awaiting }

/-- The relay's write when the question is answered or gone. -/
def unpark (now : Nat) (r : TeamRun) : TeamRun :=
  let cleared := { r with awaiting := none }
  if r.status = .awaitingUser then setStatus now .running cleared else cleared

def setInFlightThread (threadId : Option String) (r : TeamRun) : TeamRun :=
  { r with inFlightThread := threadId }

def abandonStop (r : TeamRun) : TeamRun :=
  if r.stopping ∧ ¬r.status.isTerminal then { r with stopping := false } else r

end TeamRun

end AgentRelay.Team

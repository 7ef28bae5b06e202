import AgentRelay.RelayState

/-! Threads coming and going: status and summary updates, loading, restoring and
hydrating a thread, promotion of a pending id, and dropping the selected session. -/
namespace AgentRelay.Relay
open Text

/-- Change the first element that meets `p`, as `iter_mut().find(p)` does. -/
def modifyFirst {α : Type*} (p : α → Bool) (f : α → α) : List α → List α
  | [] => []
  | x :: xs => if p x then f x :: xs else x :: modifyFirst p f xs

/-- A status change as a runtime records it; a settled one ends phase and tool. -/
def ThreadRuntime.noteStatus (now : Nat) (status : String) (activeFlags : List String)
    (rt : ThreadRuntime) : ThreadRuntime :=
  { rt with
    currentStatus := status
    activeFlags := activeFlags
    currentPhase := if threadStatusIsSettled status then none else rt.currentPhase
    currentTool := if threadStatusIsSettled status then none else rt.currentTool
    lastUpdateAt := now }

/-- A new summary as a runtime takes it: it never makes an idle runtime working. -/
def ThreadRuntime.noteSummary (thread : ThreadSummaryView) (rt : ThreadRuntime) : ThreadRuntime :=
  { rt with
    summary := some thread
    currentStatus :=
      if rt.activeTurnId.isSome ∨ ¬threadStatusIsWorking thread.status then thread.status
      else "idle"
    currentCwd := if rt.currentCwd = "" then thread.cwd else rt.currentCwd }

def ThreadRuntime.adoptSettings (settings : ThreadSessionSettings) (rt : ThreadRuntime) :
    ThreadRuntime :=
  { rt with
    approvalPolicy := settings.approvalPolicy
    sandbox := settings.sandbox
    reasoningEffort := settings.reasoningEffort
    model := settings.model }

namespace RelayState

def dropPendingRequestsForThread (s : RelayState) (threadId : String) : RelayState :=
  { s with
    pendingApprovals := s.pendingApprovals.filter fun _ p => p.threadId ≠ threadId
    pendingAskUserQuestions := s.pendingAskUserQuestions.filter fun _ p => p.threadId ≠ threadId
    runtimes := s.runtimes.modify threadId fun rt =>
      { rt with pendingApprovals := ∅, pendingAskUserQuestions := ∅ } }

def setThreadStatus (s : RelayState) (now : Nat) (threadId status : String)
    (activeFlags : List String) : RelayState :=
  let s := s.ensureRuntimeForThread now threadId
  let s := { s with
    runtimes := s.runtimes.modify threadId (ThreadRuntime.noteStatus now status activeFlags) }
  let s := if threadStatusIsSettled status then s.dropPendingRequestsForThread threadId else s
  let s := { s with
    threads := modifyFirst (·.id = threadId) (fun t => { t with status := status }) s.threads }
  s.syncIfSelected threadId

def applyCustomThreadName (s : RelayState) (thread : ThreadSummaryView) : ThreadSummaryView :=
  match s.threadMeta.threadCustomName[thread.id]? with
  | some name => { thread with name := some name, renamed := true }
  | none => { thread with renamed := false }

def fillFromListed (s : RelayState) (thread : ThreadSummaryView) : ThreadSummaryView :=
  match s.threads.find? (·.id = thread.id) with
  | none => thread
  | some existing =>
    { thread with
      name := thread.name.or existing.name
      preview := if thread.preview = "" then existing.preview else thread.preview
      cwd := if thread.cwd = "" then existing.cwd else thread.cwd
      source := if thread.source = "" then existing.source else thread.source
      modelProvider :=
        if thread.modelProvider = "" then existing.modelProvider else thread.modelProvider }

def knownProvider (s : RelayState) (threadId : String) : Option String :=
  let ofRuntime := (s.runtimes[threadId]?.bind (·.summary)).map (·.provider)
  let ofRow := (s.threads.find? (·.id = threadId)).map (·.provider)
  (ofRuntime.filter (· ≠ "")).or (ofRow.filter (· ≠ ""))

def keepProvider (s : RelayState) (thread : ThreadSummaryView) : ThreadSummaryView :=
  if thread.provider = "" then
    { thread with provider := (s.knownProvider thread.id).getD thread.provider }
  else thread

def upsertThread (s : RelayState) (thread : ThreadSummaryView) : RelayState :=
  if s.threadMeta.locallyDeletedThreadIds.contains thread.id then s
  else
    let thread := s.keepProvider (s.fillFromListed (s.applyCustomThreadName thread))
    { s with
      runtimes := s.runtimes.modify thread.id (ThreadRuntime.noteSummary thread)
      threads :=
        if s.threads.any (·.id = thread.id) then
          modifyFirst (·.id = thread.id) (fun _ => thread) s.threads
        else thread :: s.threads }

def rememberThreadSettings (s : RelayState) (threadId : String)
    (settings : ThreadSessionSettings) : RelayState :=
  { s with
    threadMeta.threadSettings := s.threadMeta.threadSettings.insert threadId settings
    runtimes := s.runtimes.modify threadId (ThreadRuntime.adoptSettings settings) }

def assignActiveController (s : RelayState) (now : Nat) (deviceId : String) : RelayState :=
  { s with activeControllerDeviceId := some deviceId, activeControllerLastSeenAt := some now }

/-- Put a freshly read runtime in place, or merge it into the one that is there. The
revision moves to the fresh one only when the transcript changed. -/
def mergeLoadedRuntime (s : RelayState) (threadId : String) (fresh : ThreadRuntime) : RelayState :=
  match s.runtimes[threadId]? with
  | none => { s with runtimes := s.runtimes.insert threadId fresh }
  | some existing =>
    let merged := existing.mergeFreshHistory fresh
    let runtime := if merged.2 then
        { merged.1 with transcriptRevision := fresh.transcriptRevision }
      else merged.1
    { s with runtimes := s.runtimes.insert threadId runtime }

def loadThreadData (s : RelayState) (now : Nat) (data : ThreadSyncData)
    (settings : ThreadSessionSettings) (deviceId : String) : RelayState :=
  let threadId := data.thread.id
  let settings := { settings with model := if settings.model = "" then s.model else settings.model }
  let s := s.materializeSelectedRuntimeFromFields now
  let s := s.assignActiveController now deviceId
  let s := { s with activeThreadId := some threadId }
  let (s, revision) := s.nextTranscriptRevision
  let s := s.mergeLoadedRuntime threadId (ThreadRuntime.fromSyncData data settings now revision)
  let s := s.rememberThreadSettings threadId settings
  let s := s.syncSelectedRuntimeToFields
  s.upsertThread data.thread

def hydrateBackgroundRuntimeInner (s : RelayState) (now : Nat) (data : ThreadSyncData)
    (settings : ThreadSessionSettings) (rememberSettings : Bool) : RelayState :=
  let threadId := data.thread.id
  if s.runtimes.contains threadId then s
  else
    let (s, revision) := s.nextTranscriptRevision
    let fresh := ThreadRuntime.fromSyncData data settings now revision
    let s := { s with runtimes := s.runtimes.insert threadId fresh }
    let s := if rememberSettings then s.rememberThreadSettings threadId settings else s
    s.upsertThread data.thread

def hydrateBackgroundRuntime (s : RelayState) (now : Nat) (data : ThreadSyncData)
    (settings : ThreadSessionSettings) : RelayState :=
  s.hydrateBackgroundRuntimeInner now data settings true

/-- Drop the selected session with its runtime; the mirror parks at the clock. -/
def clearActiveSession (s : RelayState) : RelayState :=
  { s with
    runtimes := match s.activeThreadId with
      | some threadId => s.runtimes.erase threadId
      | none => s.runtimes
    activeThreadId := none, activeControllerDeviceId := none, activeControllerLastSeenAt := none
    activeTurnId := none, currentStatus := "idle", currentPhase := none, currentTool := none
    lastProgressAt := none, activeFlags := [], transcriptRevision := s.transcriptClock
    transcript := [], applyStates := ∅, pendingApprovals := ∅, pendingAskUserQuestions := ∅ }

def moveEntry {V : Type} (m : Table V) (pendingId realId : String) : Table V :=
  match m[pendingId]? with
  | some value => (m.erase pendingId).insertIfNew realId value
  | none => m

/-- The runtime the real id ends up with when the pending runtime meets an existing one.
The longer transcript wins; the revision never falls below the existing one. -/
def promoteOnto (existing pending : ThreadRuntime) : ThreadRuntime :=
  if pending.transcript.length ≤ existing.transcript.length then
    { existing with
      activeTurnId := existing.activeTurnId.or pending.activeTurnId
      turnRevision := max existing.turnRevision pending.turnRevision }
  else
    { pending with
      turnRevision := max pending.turnRevision existing.turnRevision
      transcriptRevision := max pending.transcriptRevision existing.transcriptRevision }

def promoteRuntime (runtimes : Table ThreadRuntime) (pendingId realId : String) :
    Table ThreadRuntime :=
  match runtimes[pendingId]? with
  | none => runtimes
  | some pending =>
    let pending := { pending with
      summary := pending.summary.map fun summary => { summary with id := realId } }
    match runtimes[realId]? with
    | some existing =>
      (runtimes.erase pendingId).insert realId (promoteOnto existing pending)
    | none => (runtimes.erase pendingId).insert realId pending

def promoteMeta (m : ThreadMeta) (pendingId realId : String) : ThreadMeta :=
  { m with
    threadPromotedFrom := m.threadPromotedFrom.insert realId pendingId
    orchestratorThreadId :=
      if m.orchestratorThreadId = some pendingId then some realId else m.orchestratorThreadId
    threadSettings := moveEntry m.threadSettings pendingId realId
    threadLastActivityAt := match m.threadLastActivityAt[pendingId]? with
      | some activity =>
        let m' := m.threadLastActivityAt.erase pendingId
        m'.insert realId (max (m'[realId]?.getD activity) activity)
      | none => m.threadLastActivityAt
    threadProjectId := moveEntry m.threadProjectId pendingId realId
    projectsRevision :=
      if m.threadProjectId.contains pendingId then (m.projectsRevision + 1) % 2 ^ 64
      else m.projectsRevision
    threadCustomName := moveEntry m.threadCustomName pendingId realId
    threadForkedFrom := moveEntry m.threadForkedFrom pendingId realId
    threadWorkspace := moveEntry m.threadWorkspace pendingId realId }

def promoteJobs (now : Nat) (j : ThreadJobs) (pendingId realId : String) : ThreadJobs :=
  let rename := fun id => if id = pendingId then realId else id
  { j with
    reviewJobs := j.reviewJobs.map fun _ job =>
      { job with
        reviewerThreadId := job.reviewerThreadId.map rename
        parentThreadId := rename job.parentThreadId }
    workflowJobs := j.workflowJobs.map fun _ run =>
      { run with
        stepThreads := run.stepThreads.map fun _ id => rename id
        parentThreadId := rename run.parentThreadId }
    teamRuns := j.teamRuns.map fun _ run => (run.rekeyThread now pendingId realId).1
    reviewerThreads := match j.reviewerThreads[pendingId]? with
      | some record => (j.reviewerThreads.erase pendingId).insert realId record
      | none => j.reviewerThreads }

def promotePending (requests : Table PendingRequest) (pendingId realId : String) :
    Table PendingRequest :=
  requests.map fun _ request =>
    if request.threadId = pendingId then { request with threadId := realId } else request

def promoteBackgroundThread (s : RelayState) (now : Nat) (pendingId realId : String) :
    RelayState :=
  if pendingId = realId ∨ pendingId = "" ∨ realId = "" then s
  else
    let s := { s with
      runtimes := promoteRuntime s.runtimes pendingId realId
      threadMeta := promoteMeta s.threadMeta pendingId realId
      threads := s.threads.filter (·.id ≠ pendingId)
      pendingApprovals := promotePending s.pendingApprovals pendingId realId
      pendingAskUserQuestions := promotePending s.pendingAskUserQuestions pendingId realId
      jobs := promoteJobs now s.jobs pendingId realId }
    s.setThreadStatus now realId "active" []

end RelayState

structure PersistedRelayState where
  activeThreadId : Option String := none
  currentCwd : String := ""
  activeControllerDeviceId : Option String := none
  activeControllerLastSeenAt : Option Nat := none
  model : String := ""
  approvalPolicy : String := ""
  sandbox : String := ""
  reasoningEffort : String := ""
  transcriptClock : Nat := 0
  threadSettings : Table ThreadSessionSettings := ∅
  threadForkedFrom : Table String := ∅
  threadPromotedFrom : Table String := ∅
  threadWorkspace : Table ThreadWorkspace := ∅
  threadLastActivityAt : Table Nat := ∅
  projects : Table String := ∅
  threadProjectId : Table String := ∅
  threadCustomName : Table String := ∅
  projectsRevision : Nat := 0
  allowedRoots : List String := []
  deviceRecords : Table DeviceRecord := ∅
  pairedDevices : Table PairedDevice := ∅
  reviewerThreads : Table ReviewerThread := ∅
  reviewJobs : Table ReviewJob := ∅
  workflowJobs : Table WorkflowRun := ∅
  teamRuns : Table Team.TeamRun := ∅
  orchestratorThreadId : Option String := none
  orchestratorDeviceId : Option String := none

namespace PersistedRelayState

def settingsForThread (p : PersistedRelayState) (threadId : String) : ThreadSessionSettings :=
  let settings := p.threadSettings[threadId]?.getD
    ⟨p.approvalPolicy, p.sandbox, p.reasoningEffort, p.model⟩
  { settings with model := if settings.model = "" then p.model else settings.model }

def restoredMeta (p : PersistedRelayState) (m : ThreadMeta) (threadId : String) : ThreadMeta :=
  { m with
    threadSettings := p.threadSettings.insertIfNew threadId (p.settingsForThread threadId)
    threadForkedFrom := p.threadForkedFrom
    threadPromotedFrom := p.threadPromotedFrom
    threadWorkspace := p.threadWorkspace
    projects := p.projects
    threadProjectId := p.threadProjectId
    threadCustomName := p.threadCustomName
    projectsRevision :=
      if p.projectsRevision = 0 ∧ ¬(p.projects.isEmpty ∧ p.threadProjectId.isEmpty) then 1
      else p.projectsRevision
    orchestratorThreadId :=
      p.orchestratorThreadId.filter fun id => !Text.startsWith id "claude-pending-"
    orchestratorDeviceId := p.orchestratorDeviceId
    locallyDeletedThreadIds := ∅ }

/-- Reviewer records of an older save learn whether they show in the navigation. -/
def restoredReviewerThreads (p : PersistedRelayState) (teamRuns : Table Team.TeamRun) :
    Table ReviewerThread :=
  let taskThreadIds := teamRuns.values.flatMap (·.ownedThreadIds)
  p.reviewerThreads.map fun threadId reviewer =>
    { reviewer with
      navigationVisible := some (reviewer.navigationVisible.getD (taskThreadIds.contains threadId)) }

def restoredJobs (p : PersistedRelayState) (now : Nat) : ThreadJobs :=
  let teamRuns := p.teamRuns.map fun _ run => (run.reconcileAfterRestore now).1
  { reviewJobs := p.reviewJobs.filter fun _ job => job.status.isTerminal
    workflowJobs := p.workflowJobs.map fun _ run => run.markInterruptedIfStranded now
    teamRuns := teamRuns
    reviewerThreads := p.restoredReviewerThreads teamRuns
    reviewerThreadSeq := ((p.reviewerThreads.values.map (·.seq + 1)).max?).getD 0 }

def restoredSurfaces (p : PersistedRelayState) (s : SurfaceState) : SurfaceState :=
  { s with
    allowedRoots := p.allowedRoots
    pairedDevices := p.pairedDevices
    deviceRecords := p.pairedDevices.values.foldl
      (fun records device => records.insertIfNew device.deviceId device.toRecord) p.deviceRecords
    onlineSurfacePeerIds := ∅
    onlineSurfacePeerDevices := ∅
    pendingPairings := ∅
    pendingPairingRequests := ∅
    pendingClaimChallenges := ∅ }

end PersistedRelayState

namespace RelayState

def restoreThreadData (s : RelayState) (now : Nat) (data : ThreadSyncData)
    (persisted : PersistedRelayState) : RelayState :=
  let threadId := data.thread.id
  let settings := persisted.settingsForThread threadId
  let s := { s with
    activeThreadId := some threadId
    activeControllerDeviceId := persisted.activeControllerDeviceId
    activeControllerLastSeenAt := persisted.activeControllerLastSeenAt
    -- The clock resumes before a revision is drawn from it.
    transcriptClock := max s.transcriptClock persisted.transcriptClock }
  let (s, revision) := s.nextTranscriptRevision
  let fresh := ThreadRuntime.fromSyncData data settings now revision
  let s := { s with
    runtimes := s.runtimes.insert threadId fresh
    transcriptClock := max s.transcriptClock persisted.transcriptClock
    transcriptRevision := max s.transcriptClock persisted.transcriptClock
    threadMeta := persisted.restoredMeta s.threadMeta threadId
    jobs := persisted.restoredJobs now
    surfaces := persisted.restoredSurfaces s.surfaces
    pendingApprovals := ∅
    pendingAskUserQuestions := ∅ }
  let s := s.syncSelectedRuntimeToFields
  s.upsertThread data.thread

/-- Take over a saved state at boot, with no thread read yet. -/
def applyPersisted (s : RelayState) (now : Nat) (p : PersistedRelayState) : RelayState :=
  let settings := match p.activeThreadId with
    | some threadId => p.settingsForThread threadId
    | none => ⟨p.approvalPolicy, p.sandbox, p.reasoningEffort, p.model⟩
  let threadMeta := match p.activeThreadId with
    | some threadId => p.restoredMeta s.threadMeta threadId
    | none => { p.restoredMeta s.threadMeta "" with threadSettings := p.threadSettings }
  { s with
    activeThreadId := p.activeThreadId
    activeControllerDeviceId := p.activeControllerDeviceId
    activeControllerLastSeenAt := p.activeControllerLastSeenAt
    currentCwd := p.currentCwd
    model := settings.model
    approvalPolicy := settings.approvalPolicy
    sandbox := settings.sandbox
    reasoningEffort := settings.reasoningEffort
    threadMeta := { threadMeta with threadLastActivityAt := p.threadLastActivityAt }
    transcriptClock := max s.transcriptClock p.transcriptClock
    transcriptRevision := max s.transcriptClock p.transcriptClock
    jobs := p.restoredJobs now
    -- Claim challenges in flight are not dropped here.
    surfaces := { p.restoredSurfaces s.surfaces with
      pendingClaimChallenges := s.surfaces.pendingClaimChallenges }
    pendingApprovals := ∅
    pendingAskUserQuestions := ∅
    runtimes := ∅ }

end RelayState

end AgentRelay.Relay

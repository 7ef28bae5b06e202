import AgentRelay.RunReconcile
import AgentRelay.TranscriptMints

/-! Save and load: what both readers of the state file restore is one function of the file, what
they restored is saved as it is, and the clock resumes above every revision handed out before a
crash. -/
namespace AgentRelay.Relay
open Text Std StepRun

namespace WorkflowRun

def timeless (run : WorkflowRun) : WorkflowRun := { run with updatedAt := 0 }

theorem isTerminal_markInterruptedIfStranded (run : WorkflowRun) (now : Nat) :
    (run.markInterruptedIfStranded now).status.isTerminal := by
  unfold markInterruptedIfStranded
  split_ifs with h
  · exact h
  · rfl

theorem markInterruptedIfStranded_of_isTerminal {run : WorkflowRun} (h : run.status.isTerminal)
    (now : Nat) : run.markInterruptedIfStranded now = run :=
  if_pos h

theorem timeless_markInterruptedIfStranded (run : WorkflowRun) (now later : Nat) :
    (run.markInterruptedIfStranded now).timeless =
      (run.markInterruptedIfStranded later).timeless := by
  unfold markInterruptedIfStranded
  split_ifs <;> rfl

end WorkflowRun

/-- The settings a new message goes out with. -/
def RelayState.settings (s : RelayState) : ThreadSessionSettings :=
  ⟨s.approvalPolicy, s.sandbox, s.reasoningEffort, s.model⟩

/-- The settings both readers select: the active thread's, or those of the session. -/
def PersistedRelayState.settings (p : PersistedRelayState) : ThreadSessionSettings :=
  match p.activeThreadId with
  | some threadId => p.settingsForThread threadId
  | none => ⟨p.approvalPolicy, p.sandbox, p.reasoningEffort, p.model⟩

@[ext] structure Durable where
  activeThreadId : Option String
  activeControllerDeviceId : Option String
  activeControllerLastSeenAt : Option Nat
  settings : ThreadSessionSettings
  threadSettings : Table ThreadSessionSettings
  threadForkedFrom : Table String
  threadPromotedFrom : Table String
  threadWorkspace : Table ThreadWorkspace
  threadLastActivityAt : Table Nat
  projects : Table String
  threadProjectId : Table String
  projectsRevision : Nat
  threadCustomName : Table String
  allowedRoots : List String
  usageBudget : BudgetSettings
  trustedWorkspaces : List String
  allowedRootsTrustMigrated : Bool
  deviceRecords : Table DeviceRecord
  pairedDevices : Table PairedDevice
  pushSubscriptions : Table (List PushSubscription)
  reviewerThreads : Table ReviewerThread
  reviewJobs : Table ReviewJob
  workflowJobs : Table WorkflowRun
  teamRuns : Table Team.TeamRun
  orchestratorThreadId : Option String
  orchestratorDeviceId : Option String
  orchestratorSystemPrompt : Option String
  orchestratorSystemPromptVersion : Option Nat
  orchestratorProposals : List OrchestratorProposal

namespace DurableRelay

def durable (d : DurableRelay) : Durable where
  activeThreadId := d.relay.activeThreadId
  activeControllerDeviceId := d.relay.activeControllerDeviceId
  activeControllerLastSeenAt := d.relay.activeControllerLastSeenAt
  settings := d.relay.settings
  threadSettings := d.relay.threadMeta.threadSettings
  threadForkedFrom := d.relay.threadMeta.threadForkedFrom
  threadPromotedFrom := d.relay.threadMeta.threadPromotedFrom
  threadWorkspace := d.relay.threadMeta.threadWorkspace
  threadLastActivityAt := d.relay.threadMeta.threadLastActivityAt
  projects := d.relay.threadMeta.projects
  threadProjectId := d.relay.threadMeta.threadProjectId
  projectsRevision := d.relay.threadMeta.projectsRevision
  threadCustomName := d.relay.threadMeta.threadCustomName
  allowedRoots := d.relay.surfaces.allowedRoots
  usageBudget := d.usageBudget
  trustedWorkspaces := d.trustedWorkspaces
  allowedRootsTrustMigrated := d.allowedRootsTrustMigrated
  deviceRecords := d.relay.surfaces.deviceRecords
  pairedDevices := d.relay.surfaces.pairedDevices
  pushSubscriptions := d.pushSubscriptions
  reviewerThreads := d.relay.jobs.reviewerThreads
  reviewJobs := d.relay.jobs.reviewJobs
  workflowJobs := d.relay.jobs.workflowJobs.map fun _ run => run.timeless
  teamRuns := d.relay.jobs.teamRuns.map fun _ run => run.timeless
  orchestratorThreadId := d.relay.threadMeta.orchestratorThreadId
  orchestratorDeviceId := d.relay.threadMeta.orchestratorDeviceId
  orchestratorSystemPrompt := d.orchestratorSystemPrompt
  orchestratorSystemPromptVersion := d.orchestratorSystemPromptVersion
  orchestratorProposals := d.orchestratorProposals

end DurableRelay

inductive LoadedFrom (p : StateFile) : DurableRelay → Prop
  | applied (currentCwd : String) (now : Nat) :
    LoadedFrom p ((DurableRelay.new currentCwd).applyPersisted now p)
  | restored (currentCwd : String) (now later : Nat) (data : ThreadSyncData)
      (hactive : p.relay.activeThreadId = some data.thread.id) :
    LoadedFrom p
      (((DurableRelay.new currentCwd).applyPersisted now p).restoreThreadData later data p)

def StateFile.restored (p : StateFile) : Durable where
  activeThreadId := p.relay.activeThreadId
  activeControllerDeviceId := p.relay.activeControllerDeviceId
  activeControllerLastSeenAt := p.relay.activeControllerLastSeenAt
  settings := p.relay.settings
  threadSettings := match p.relay.activeThreadId with
    | some id => p.relay.threadSettings.insertIfNew id (p.relay.settingsForThread id)
    | none => p.relay.threadSettings
  threadForkedFrom := p.relay.threadForkedFrom
  threadPromotedFrom := p.relay.threadPromotedFrom
  threadWorkspace := p.relay.threadWorkspace
  threadLastActivityAt := p.relay.threadLastActivityAt
  projects := p.relay.projects
  threadProjectId := p.relay.threadProjectId
  projectsRevision :=
    if p.relay.projectsRevision = 0 ∧ ¬(p.relay.projects.isEmpty ∧ p.relay.threadProjectId.isEmpty)
    then 1 else p.relay.projectsRevision
  threadCustomName := p.relay.threadCustomName
  allowedRoots := p.relay.allowedRoots
  usageBudget := ⟨p.usageDailyCap, .parse p.usageBudgetPolicy⟩
  trustedWorkspaces := p.migrateAllowedRootsIntoTrust
  allowedRootsTrustMigrated := true
  deviceRecords := p.relay.pairedDevices.values.foldl
    (fun records device => records.insertIfNew device.deviceId device.toRecord)
    p.relay.deviceRecords
  pairedDevices := p.relay.pairedDevices
  pushSubscriptions := p.pushSubscriptions.filter fun id _ => p.relay.pairedDevices.contains id
  reviewerThreads := (p.relay.restoredJobs 0).reviewerThreads
  reviewJobs := p.relay.reviewJobs.filter fun _ job => job.status.isTerminal
  workflowJobs := p.relay.workflowJobs.map fun _ run => (run.markInterruptedIfStranded 0).timeless
  teamRuns := p.relay.teamRuns.map fun _ run => (run.reconcileAfterRestore 0).1.timeless
  orchestratorThreadId := p.relay.orchestratorThreadId.filter fun id => !isPendingId id
  orchestratorDeviceId := p.relay.orchestratorDeviceId
  orchestratorSystemPrompt := p.orchestratorSystemPrompt
  orchestratorSystemPromptVersion := p.orchestratorSystemPromptVersion
  orchestratorProposals := p.orchestratorProposals

section tables

variable {V W : Type}

theorem Table.map_map (m : Table V) (f : V → V) (g : V → W) :
    (m.map fun _ v => f v).map (fun _ v => g v) = m.map fun _ v => g (f v) := by
  apply ExtTreeMap.ext_getElem?
  intro id
  simp only [ExtTreeMap.getElem?_map, Option.map_map]
  rfl

theorem Table.values_map (m : Table V) (f : V → W) :
    (m.map fun _ v => f v).values = m.values.map f := by
  rw [Table.values_eq, Table.values_eq, ExtTreeMap.toList_map, List.map_map, List.map_map]
  rfl

theorem Table.filter_eq_self {m : Table V} {keep : String → V → Bool}
    (h : ∀ (id : String) (v : V), m[id]? = some v → keep id v) : m.filter keep = m := by
  apply ExtTreeMap.ext_getElem?
  intro id
  rw [ExtTreeMap.getElem?_filter']
  cases hv : m[id]? with
  | none => rfl
  | some v => simp [h id v hv]

theorem Table.getElem?_filter_eq_some {m : Table V} {keep : String → V → Bool} {id : String}
    {v : V} (h : (m.filter keep)[id]? = some v) : m[id]? = some v ∧ keep id v := by
  rw [ExtTreeMap.getElem?_filter', Option.filter_eq_some_iff] at h
  exact h

theorem Table.filter_filter (m : Table V) (keep : String → V → Bool) :
    (m.filter keep).filter keep = m.filter keep :=
  Table.filter_eq_self fun _ _ h => (Table.getElem?_filter_eq_some h).2

theorem Table.getElem?_insertIfNew (m : Table V) (id : String) (v : V) (key : String) :
    (m.insertIfNew id v)[key]? = (m[key]?).or (if id = key then some v else none) := by
  rw [ExtTreeMap.getElem?_insertIfNew]
  by_cases hkey : id = key
  · subst hkey
    cases hv : m[id]? with
    | none => simp [ExtTreeMap.mem_iff_isSome_getElem?, hv]
    | some w => simp [ExtTreeMap.mem_iff_isSome_getElem?, hv]
  · simp [hkey]

theorem Table.getElem?_foldl_insertIfNew (key : W → String) (value : W → V) (ws : List W)
    (m : Table V) (id : String) :
    (ws.foldl (fun m w => m.insertIfNew (key w) (value w)) m)[id]? =
      (m[id]?).or ((ws.find? (key · = id)).map value) := by
  induction ws generalizing m with
  | nil => simp
  | cons w ws ih =>
    rw [List.foldl_cons, ih, Table.getElem?_insertIfNew, List.find?_cons]
    by_cases hkey : key w = id
    · cases m[id]? <;> simp [hkey]
    · simp [hkey]

end tables

/-- The records that learn their visibility learn it from the threads the runs own, whatever
the time of the restart. -/
theorem restoredReviewerThreads_restoredJobs (p : PersistedRelayState) (now later : Nat) :
    (p.restoredJobs now).reviewerThreads = (p.restoredJobs later).reviewerThreads := by
  have howned : ∀ now, (p.teamRuns.map fun _ run => (run.reconcileAfterRestore now).1).values.flatMap
      (·.ownedThreadIds) = p.teamRuns.values.flatMap fun run =>
        (run.reconcileAfterRestore 0).1.timeless.ownedThreadIds := by
    intro now
    rw [Table.values_map, List.flatMap_map]
    congr 1
    funext run
    rw [← Team.TeamRun.ownedThreadIds_timeless, Team.TeamRun.timeless_reconcileAfterRestore]
  simp only [PersistedRelayState.restoredJobs, PersistedRelayState.restoredReviewerThreads, howned]

theorem timeless_workflowJobs (p : PersistedRelayState) (now : Nat) :
    ((p.restoredJobs now).workflowJobs.map fun _ run => run.timeless) =
      p.workflowJobs.map fun _ run => (run.markInterruptedIfStranded 0).timeless := by
  rw [PersistedRelayState.restoredJobs, Table.map_map]
  congr 1
  funext _ run
  exact run.timeless_markInterruptedIfStranded now 0

theorem timeless_teamRuns (p : PersistedRelayState) (now : Nat) :
    ((p.restoredJobs now).teamRuns.map fun _ run => run.timeless) =
      p.teamRuns.map fun _ run => (run.reconcileAfterRestore 0).1.timeless := by
  rw [PersistedRelayState.restoredJobs, Table.map_map]
  congr 1
  funext _ run
  exact run.timeless_reconcileAfterRestore now 0

namespace RelayState

theorem syncSelectedRuntimeToFields_kept (s : RelayState) :
    s.syncSelectedRuntimeToFields.threadMeta = s.threadMeta ∧
      s.syncSelectedRuntimeToFields.jobs = s.jobs ∧
      s.syncSelectedRuntimeToFields.surfaces = s.surfaces := by
  unfold syncSelectedRuntimeToFields
  split
  · exact ⟨rfl, rfl, rfl⟩
  · exact ⟨rfl, rfl, rfl⟩

/-- The selected thread, who controls it, its settings and its directory. -/
def session (s : RelayState) :
    (Option String × Option String × Option Nat) × ThreadSessionSettings × String :=
  ((s.activeThreadId, s.activeControllerDeviceId, s.activeControllerLastSeenAt), s.settings,
    s.currentCwd)

theorem session_sync {s : RelayState} (rt : ThreadRuntime) (h : s.selectedRuntime = some rt) :
    s.syncSelectedRuntimeToFields.session =
      ((s.activeThreadId, s.activeControllerDeviceId, s.activeControllerLastSeenAt),
        ⟨rt.approvalPolicy, rt.sandbox, rt.reasoningEffort, rt.model⟩, rt.currentCwd) := by
  unfold syncSelectedRuntimeToFields
  rw [h]
  rfl

theorem upsertThread_kept (s : RelayState) (thread : ThreadSummaryView) :
    (s.upsertThread thread).threadMeta = s.threadMeta ∧
      (s.upsertThread thread).jobs = s.jobs ∧
      (s.upsertThread thread).surfaces = s.surfaces ∧
      (s.upsertThread thread).session = s.session := by
  unfold upsertThread
  split_ifs <;> exact ⟨rfl, rfl, rfl, rfl⟩

theorem restoreThreadData_kept (s : RelayState) (now : Nat) (data : ThreadSyncData)
    (p : PersistedRelayState) :
    (s.restoreThreadData now data p).threadMeta = p.restoredMeta s.threadMeta data.thread.id ∧
      (s.restoreThreadData now data p).jobs = p.restoredJobs now ∧
      (s.restoreThreadData now data p).surfaces = p.restoredSurfaces s.surfaces ∧
      (s.restoreThreadData now data p).session =
        ((some data.thread.id, p.activeControllerDeviceId, p.activeControllerLastSeenAt),
          p.settingsForThread data.thread.id, data.thread.cwd) := by
  unfold restoreThreadData
  dsimp only
  refine ⟨?_, ?_, ?_, ?_⟩
  · rw [(upsertThread_kept _ _).1, (syncSelectedRuntimeToFields_kept _).1]
    rfl
  · rw [(upsertThread_kept _ _).2.1, (syncSelectedRuntimeToFields_kept _).2.1]
  · rw [(upsertThread_kept _ _).2.2.1, (syncSelectedRuntimeToFields_kept _).2.2]
    rfl
  · -- The runtime just made from the history is the selected one.
    rw [(upsertThread_kept _ _).2.2.2, session_sync (.fromSyncData data
      (p.settingsForThread data.thread.id) now (RelayState.nextTranscriptRevision
        { s with transcriptClock := max s.transcriptClock p.transcriptClock }).2)]
    · rfl
    · simp [selectedRuntime, nextTranscriptRevision]

end RelayState

theorem applyPersisted_threadMeta (s : RelayState) (now : Nat) (p : PersistedRelayState) :
    (s.applyPersisted now p).threadMeta =
      { p.restoredMeta s.threadMeta "" with
        threadSettings := match p.activeThreadId with
          | some id => p.threadSettings.insertIfNew id (p.settingsForThread id)
          | none => p.threadSettings
        threadLastActivityAt := p.threadLastActivityAt } := by
  unfold RelayState.applyPersisted PersistedRelayState.restoredMeta
  cases p.activeThreadId <;> rfl

theorem durable_of_loadedFrom {p : StateFile} {s : DurableRelay} (h : LoadedFrom p s) :
    s.durable = p.restored := by
  cases h with
  | applied currentCwd now =>
    have hmeta : ((DurableRelay.new currentCwd).applyPersisted now p).relay.threadMeta = _ :=
      applyPersisted_threadMeta (DurableRelay.new currentCwd).relay now p.relay
    have hjobs : ((DurableRelay.new currentCwd).applyPersisted now p).relay.jobs =
        p.relay.restoredJobs now := rfl
    unfold DurableRelay.durable StateFile.restored
    rw [hmeta, hjobs, timeless_workflowJobs, timeless_teamRuns,
      restoredReviewerThreads_restoredJobs _ now 0]
    rfl
  | restored currentCwd now later data hactive =>
    have hfirst : ((DurableRelay.new currentCwd).applyPersisted now p).relay.threadMeta = _ :=
      applyPersisted_threadMeta (DurableRelay.new currentCwd).relay now p.relay
    obtain ⟨hmeta, hjobs, hsurfaces, hsession⟩ := RelayState.restoreThreadData_kept
      ((DurableRelay.new currentCwd).applyPersisted now p).relay later data p.relay
    rw [hfirst] at hmeta
    simp only [RelayState.session, Prod.mk.injEq] at hsession
    obtain ⟨⟨hid, hdevice, hseen⟩, hsettings, -⟩ := hsession
    unfold DurableRelay.durable StateFile.restored DurableRelay.restoreThreadData
      PersistedRelayState.settings
    dsimp only
    rw [hmeta, hjobs, hsurfaces, hid, hdevice, hseen, hsettings, timeless_workflowJobs,
      timeless_teamRuns, restoredReviewerThreads_restoredJobs _ later 0, hactive]
    rfl

structure Carries (p : StateFile) (s : Durable) : Prop where
  activeThreadId : s.activeThreadId = p.relay.activeThreadId
  activeControllerDeviceId : s.activeControllerDeviceId = p.relay.activeControllerDeviceId
  activeControllerLastSeenAt : s.activeControllerLastSeenAt = p.relay.activeControllerLastSeenAt
  settings : s.settings = p.relay.settings
  /-- The active thread gets the session's settings where the file has none for it. -/
  threadSettings : ∀ id : String, s.threadSettings[id]? = (p.relay.threadSettings[id]?).or
    (if p.relay.activeThreadId = some id then some (p.relay.settingsForThread id) else none)
  threadForkedFrom : s.threadForkedFrom = p.relay.threadForkedFrom
  threadPromotedFrom : s.threadPromotedFrom = p.relay.threadPromotedFrom
  threadWorkspace : s.threadWorkspace = p.relay.threadWorkspace
  threadLastActivityAt : s.threadLastActivityAt = p.relay.threadLastActivityAt
  projects : s.projects = p.relay.projects
  threadProjectId : s.threadProjectId = p.relay.threadProjectId
  /-- A revision of zero would hide the projects from a client that starts there. -/
  projectsRevision : s.projectsRevision = p.relay.projectsRevision ∨
    p.relay.projectsRevision = 0 ∧ s.projectsRevision = 1
  threadCustomName : s.threadCustomName = p.relay.threadCustomName
  allowedRoots : s.allowedRoots = p.relay.allowedRoots
  usageBudget : s.usageBudget = ⟨p.usageDailyCap, .parse p.usageBudgetPolicy⟩
  /-- A file from before the split has its roots granted, and is marked. -/
  trustedWorkspaces : ∀ root, root ∈ s.trustedWorkspaces ↔ root ∈ p.trustedWorkspaces ∨
    p.allowedRootsTrustMigrated = false ∧ root ∈ p.relay.allowedRoots
  trustOnce : p.allowedRootsTrustMigrated → s.trustedWorkspaces = p.trustedWorkspaces
  allowedRootsTrustMigrated : s.allowedRootsTrustMigrated
  pairedDevices : s.pairedDevices = p.relay.pairedDevices
  /-- A paired device without a record gets one. -/
  deviceRecords : ∀ id : String, s.deviceRecords[id]? = (p.relay.deviceRecords[id]?).or
    ((p.relay.pairedDevices.values.find? (·.deviceId = id)).map (·.toRecord))
  pushSubscriptions : ∀ id : String, s.pushSubscriptions[id]? =
    if p.relay.pairedDevices.contains id then p.pushSubscriptions[id]? else none
  /-- A record of an older file learns whether it shows in the navigation. -/
  reviewerThreads : ∀ id : String, ∃ shown : ReviewerThread → Bool, s.reviewerThreads[id]? =
    (p.relay.reviewerThreads[id]?).map fun record =>
      { record with navigationVisible := some (record.navigationVisible.getD (shown record)) }
  reviewJobs : s.reviewJobs = p.relay.reviewJobs
  /-- Runs that ended stay, the others come back interrupted. -/
  workflowJobs : ∀ id : String, ∀ run, p.relay.workflowJobs[id]? = some run →
    ∃ loaded, s.workflowJobs[id]? = some loaded ∧ loaded.status.isTerminal ∧
      loaded.parentThreadId = run.parentThreadId ∧ loaded.stepThreads = run.stepThreads ∧
      (run.status.isTerminal → loaded = run.timeless)
  /-- Runs with nothing to settle stay, the others keep their work. -/
  teamRuns : ∀ id : String, ∀ run, p.relay.teamRuns[id]? = some run →
    ∃ loaded, s.teamRuns[id]? = some loaded ∧ loaded.Quiet ∧ run.SameWork loaded ∧
      (run.Quiet → loaded = run.timeless)
  noMoreRuns : ∀ id : String, (s.workflowJobs.contains id = p.relay.workflowJobs.contains id) ∧
    (s.teamRuns.contains id = p.relay.teamRuns.contains id)
  orchestratorThreadId : s.orchestratorThreadId = p.relay.orchestratorThreadId
  orchestratorDeviceId : s.orchestratorDeviceId = p.relay.orchestratorDeviceId
  orchestratorSystemPrompt : s.orchestratorSystemPrompt = p.orchestratorSystemPrompt
  orchestratorSystemPromptVersion :
    s.orchestratorSystemPromptVersion = p.orchestratorSystemPromptVersion
  orchestratorProposals : s.orchestratorProposals = p.orchestratorProposals

/-- The readers differ in the directory: the first takes the file's, the second the one of the
thread whose history it was given. -/
structure ComesUpIn (p : StateFile) (s : DurableRelay) : Prop where
  applied : ∀ currentCwd now, s = (DurableRelay.new currentCwd).applyPersisted now p →
    s.relay.currentCwd = p.relay.currentCwd
  restored : ∀ currentCwd now later data,
    s = ((DurableRelay.new currentCwd).applyPersisted now p).restoreThreadData later data p →
      s.relay.currentCwd = data.thread.cwd

theorem comesUpIn (p : StateFile) (s : DurableRelay) : ComesUpIn p s where
  applied currentCwd now h := by
    rw [h]
    rfl
  restored currentCwd now later data h := by
    rw [h]
    have hsession := (RelayState.restoreThreadData_kept
      ((DurableRelay.new currentCwd).applyPersisted now p).relay later data p.relay).2.2.2
    exact (congrArg (·.2.2) hsession :)

section carries

variable (t : Nat) (d : DurableRelay)

theorem mem_foldl_grant (roots trusted : List String) (root : String) :
    root ∈ roots.foldl (fun trusted root =>
      if trusted.contains root then trusted else trusted ++ [root]) trusted ↔
      root ∈ trusted ∨ root ∈ roots := by
  induction roots generalizing trusted with
  | nil => simp
  | cons head roots ih =>
    rw [List.foldl_cons, ih]
    split_ifs with hhead
    · have hmem : head ∈ trusted := by simpa using hhead
      constructor
      · rintro (h | h)
        · exact Or.inl h
        · exact Or.inr (List.mem_cons_of_mem _ h)
      · rintro (h | h)
        · exact Or.inl h
        · rcases List.mem_cons.mp h with rfl | h
          · exact Or.inl hmem
          · exact Or.inr h
    · simp [or_assoc]

/-- The file the writer leaves is carried over whole. -/
theorem carries_fromRelay : Carries (d.fromRelay t) (d.fromRelay t).restored where
  activeThreadId := rfl
  activeControllerDeviceId := rfl
  activeControllerLastSeenAt := rfl
  settings := rfl
  threadSettings id := by
    unfold StateFile.restored
    dsimp only
    cases hactive : (d.fromRelay t).relay.activeThreadId with
    | none => simp
    | some active =>
      dsimp only
      rw [Table.getElem?_insertIfNew]
      by_cases hid : active = id
      · simp [hid]
      · simp [hid]
  threadForkedFrom := rfl
  threadPromotedFrom := rfl
  threadWorkspace := rfl
  threadLastActivityAt := rfl
  projects := rfl
  threadProjectId := rfl
  projectsRevision := by
    unfold StateFile.restored
    dsimp only
    split_ifs with h
    · exact Or.inr ⟨h.1, rfl⟩
    · exact Or.inl rfl
  threadCustomName := rfl
  allowedRoots := rfl
  usageBudget := rfl
  trustedWorkspaces root := by
    unfold StateFile.restored StateFile.migrateAllowedRootsIntoTrust
    dsimp only
    split_ifs with hmigrated
    · simp [hmigrated]
    · rw [mem_foldl_grant]
      simp [hmigrated]
  trustOnce hmigrated := if_pos hmigrated
  allowedRootsTrustMigrated := rfl
  pairedDevices := rfl
  deviceRecords id := Table.getElem?_foldl_insertIfNew PairedDevice.deviceId _ _ _ id
  pushSubscriptions id := by
    unfold StateFile.restored
    dsimp only
    rw [ExtTreeMap.getElem?_filter']
    cases (d.fromRelay t).pushSubscriptions[id]? with
    | none => simp
    | some subscriptions => simp [Option.filter]
  reviewerThreads id := by
    refine ⟨fun _ => ((d.fromRelay t).relay.restoredJobs 0).teamRuns.values.flatMap
      (·.ownedThreadIds) |>.contains id, ?_⟩
    unfold StateFile.restored PersistedRelayState.restoredJobs
      PersistedRelayState.restoredReviewerThreads
    dsimp only
    rw [ExtTreeMap.getElem?_map]
  reviewJobs := Table.filter_filter _ _
  workflowJobs id run hrun := by
    refine ⟨(run.markInterruptedIfStranded 0).timeless, ?_, ?_, ?_, ?_, ?_⟩
    · unfold StateFile.restored
      dsimp only
      rw [ExtTreeMap.getElem?_map, hrun]
      rfl
    · exact run.isTerminal_markInterruptedIfStranded 0
    · unfold WorkflowRun.markInterruptedIfStranded
      split_ifs <;> rfl
    · unfold WorkflowRun.markInterruptedIfStranded
      split_ifs <;> rfl
    · intro hterminal
      rw [WorkflowRun.markInterruptedIfStranded_of_isTerminal hterminal]
  teamRuns id run hrun := by
    have hreconciles := run.reconciles_reconcileAfterRestore 0
    refine ⟨(run.reconcileAfterRestore 0).1.timeless, ?_, hreconciles.quiet, ?_, ?_⟩
    · unfold StateFile.restored
      dsimp only
      rw [ExtTreeMap.getElem?_map, hrun]
      rfl
    · exact ⟨(hreconciles.sameWork.work :), hreconciles.sameWork.subTasks⟩
    · intro hquiet
      rw [Team.TeamRun.reconcileAfterRestore_of_quiet hquiet]
  noMoreRuns id := by
    unfold StateFile.restored
    simp
  orchestratorThreadId := by
    show Option.filter _ (Option.filter _ _) = Option.filter _ _
    rw [Option.filter_filter]
    simp
  orchestratorDeviceId := rfl
  orchestratorSystemPrompt := rfl
  orchestratorSystemPromptVersion := rfl
  orchestratorProposals := rfl

end carries

structure Settled (s : DurableRelay) : Prop where
  active : ∀ id, s.relay.activeThreadId = some id → isPendingId id = false ∧
    ∃ own, s.relay.threadMeta.threadSettings[id]? = some own ∧ s.relay.settings =
      { own with model := if own.model = "" then s.relay.model else own.model }
  workspaces : (s.relay.threadMeta.threadWorkspace.filter fun id _ => !isPendingId id) =
    s.relay.threadMeta.threadWorkspace
  names : (s.relay.threadMeta.threadCustomName.filter fun id _ => !isPendingId id) =
    s.relay.threadMeta.threadCustomName
  revision : ¬(s.relay.threadMeta.projectsRevision = 0 ∧
    ¬(s.relay.threadMeta.projects.isEmpty ∧ s.relay.threadMeta.threadProjectId.isEmpty))
  orchestrator : (s.relay.threadMeta.orchestratorThreadId.filter fun id => !isPendingId id) =
    s.relay.threadMeta.orchestratorThreadId
  migrated : s.allowedRootsTrustMigrated
  devices : ∀ device ∈ s.relay.surfaces.pairedDevices.values,
    s.relay.surfaces.deviceRecords.contains device.deviceId
  subscriptions : (s.pushSubscriptions.filter fun id _ =>
    s.relay.surfaces.pairedDevices.contains id) = s.pushSubscriptions
  reviewers : (s.relay.jobs.reviewerThreads.filter fun id _ => !isPendingId id) =
    s.relay.jobs.reviewerThreads
  visibility : ∀ (id : String) (record : ReviewerThread),
    s.relay.jobs.reviewerThreads[id]? = some record → record.navigationVisible.isSome
  reviewJobs : (s.relay.jobs.reviewJobs.filter fun _ job => job.status.isTerminal) =
    s.relay.jobs.reviewJobs
  workflowJobs : ∀ (id : String) (run : WorkflowRun),
    s.relay.jobs.workflowJobs[id]? = some run → run.status.isTerminal
  teamRuns : ∀ (id : String) (run : Team.TeamRun), s.relay.jobs.teamRuns[id]? = some run →
    run.Quiet ∧ isPendingId run.tlThreadId = false
  starting : s.startingScheduledProposals = []

section reload

variable {s : DurableRelay}

theorem Table.map_congr {V W : Type} {m : Table V} {f g : V → W}
    (h : ∀ (id : String) (v : V), m[id]? = some v → f v = g v) :
    (m.map fun _ v => f v) = m.map fun _ v => g v := by
  apply ExtTreeMap.ext_getElem?
  intro id
  rw [ExtTreeMap.getElem?_map, ExtTreeMap.getElem?_map]
  cases hv : m[id]? with
  | none => rfl
  | some v => simp [h id v hv]

theorem Table.insertIfNew_of_contains {V : Type} {m : Table V} {id : String} (v : V)
    (h : m.contains id) : m.insertIfNew id v = m := by
  apply ExtTreeMap.ext_getElem?
  intro key
  rw [Table.getElem?_insertIfNew]
  by_cases hkey : id = key
  · subst hkey
    rw [ExtTreeMap.contains_eq_isSome_getElem?] at h
    obtain ⟨w, hw⟩ := Option.isSome_iff_exists.mp h
    rw [hw]
    rfl
  · simp [hkey]

theorem Table.foldl_insertIfNew_of_contains {V W : Type} (key : W → String) (value : W → V)
    {ws : List W} {m : Table V} (h : ∀ w ∈ ws, m.contains (key w)) :
    ws.foldl (fun m w => m.insertIfNew (key w) (value w)) m = m := by
  induction ws with
  | nil => rfl
  | cons w ws ih =>
    rw [List.foldl_cons, Table.insertIfNew_of_contains _ (h w List.mem_cons_self)]
    exact ih fun w' hw' => h w' (List.mem_cons_of_mem w hw')

/-- The selected thread has settings of its own, but for a model it may leave to the session. -/
theorem PersistedRelayState.exists_own (p : PersistedRelayState) (id : String) :
    ∃ own, (p.threadSettings.insertIfNew id (p.settingsForThread id))[id]? = some own ∧
      p.settingsForThread id = { own with
        model := if own.model = "" then (p.settingsForThread id).model else own.model } := by
  rw [Table.getElem?_insertIfNew, if_pos rfl]
  cases hown : p.threadSettings[id]? with
  | none =>
    refine ⟨_, rfl, ?_⟩
    split_ifs <;> rfl
  | some own =>
    refine ⟨own, rfl, ?_⟩
    simp only [settingsForThread, hown, Option.getD_some]
    split_ifs <;> rfl

theorem Settled.savedProposals (h : Settled s) : s.savedProposals = s.orchestratorProposals := by
  unfold DurableRelay.savedProposals ProposalBoard.savedProposals
  simp [h.starting]

theorem Settled.savedTeamRuns (h : Settled s) (t : Nat) :
    (PersistedRelayState.fromRelay t s.relay).teamRuns = s.relay.jobs.teamRuns := by
  unfold PersistedRelayState.fromRelay
  dsimp only
  rw [Table.map_congr (g := id)]
  · simp
  · intro key run hrun
    simp [(h.teamRuns key run hrun).2]

theorem Settled.savedReviewers (h : Settled s) (t : Nat) :
    ((PersistedRelayState.fromRelay t s.relay).restoredJobs 0).reviewerThreads =
      s.relay.jobs.reviewerThreads := by
  unfold PersistedRelayState.restoredJobs PersistedRelayState.restoredReviewerThreads
  dsimp only
  have hsaved : (PersistedRelayState.fromRelay t s.relay).reviewerThreads =
      s.relay.jobs.reviewerThreads := h.reviewers
  rw [hsaved]
  apply ExtTreeMap.ext_getElem?
  intro id
  rw [ExtTreeMap.getElem?_map]
  cases hrecord : s.relay.jobs.reviewerThreads[id]? with
  | none => rfl
  | some record =>
    obtain ⟨visible, hvisible⟩ := Option.isSome_iff_exists.mp (h.visibility id record hrecord)
    simp only [Option.map_some, hvisible, Option.getD_some]
    rw [← hvisible]

theorem Settled.restored_fromRelay (h : Settled s) (t : Nat) :
    (s.fromRelay t).restored = s.durable := by
  apply Durable.ext
  case activeThreadId =>
    show s.relay.activeThreadId.filter (fun id => !isPendingId id) = s.relay.activeThreadId
    cases hactive : s.relay.activeThreadId with
    | none => rfl
    | some id => simp [(h.active id hactive).1]
  case settings =>
    show PersistedRelayState.settings (.fromRelay t s.relay) = s.relay.settings
    unfold PersistedRelayState.settings PersistedRelayState.fromRelay
    dsimp only
    cases hactive : s.relay.activeThreadId with
    | none => rfl
    | some id =>
      obtain ⟨hpending, own, hown, hsettings⟩ := h.active id hactive
      simp only [Option.filter_some, hpending, Bool.not_false, if_true,
        PersistedRelayState.settingsForThread, hown, Option.getD_some, hsettings]
  case threadSettings =>
    show (match s.relay.activeThreadId.filter (fun id => !isPendingId id) with
      | some id => _
      | none => _) = s.relay.threadMeta.threadSettings
    cases hactive : s.relay.activeThreadId with
    | none => rfl
    | some id =>
      obtain ⟨hpending, own, hown, -⟩ := h.active id hactive
      have hcontains : s.relay.threadMeta.threadSettings.contains id := by
        rw [ExtTreeMap.contains_eq_isSome_getElem?, hown]
        rfl
      simp only [Option.filter_some, hpending, Bool.not_false, if_true]
      exact Table.insertIfNew_of_contains _ hcontains
  case threadWorkspace => exact h.workspaces
  case projectsRevision => exact if_neg h.revision
  case threadCustomName => exact h.names
  case usageBudget =>
    show BudgetSettings.mk _ (BudgetPolicy.parse s.usageBudget.policy.asStr) = _
    rw [BudgetPolicy.parse_asStr]
    rfl
  case trustedWorkspaces => exact if_pos h.migrated
  case allowedRootsTrustMigrated => exact h.migrated.symm
  case deviceRecords => exact Table.foldl_insertIfNew_of_contains _ _ h.devices
  case pushSubscriptions => exact h.subscriptions
  case reviewerThreads => exact h.savedReviewers t
  case reviewJobs =>
    show ((s.relay.jobs.reviewJobs.filter _).filter _) = _
    rw [Table.filter_filter, h.reviewJobs]
    rfl
  case workflowJobs =>
    refine Table.map_congr ?_
    intro id run hrun
    rw [WorkflowRun.markInterruptedIfStranded_of_isTerminal (h.workflowJobs id run hrun)]
  case teamRuns =>
    show ((PersistedRelayState.fromRelay t s.relay).teamRuns.map _) = _
    rw [h.savedTeamRuns]
    refine Table.map_congr ?_
    intro id run hrun
    rw [Team.TeamRun.reconcileAfterRestore_of_quiet (h.teamRuns id run hrun).1]
  case orchestratorThreadId =>
    show Option.filter _ (s.relay.threadMeta.orchestratorThreadId.filter _) = _
    rw [h.orchestrator]
    exact h.orchestrator
  case orchestratorProposals => exact h.savedProposals
  all_goals rfl

theorem LoadedFrom.parts {p : StateFile} (h : LoadedFrom p s) :
    (∃ now, s.relay.jobs = p.relay.restoredJobs now) ∧ s.startingScheduledProposals = [] := by
  cases h with
  | applied currentCwd now => exact ⟨⟨now, rfl⟩, rfl⟩
  | restored currentCwd now later data hactive =>
    exact ⟨⟨later, (RelayState.restoreThreadData_kept
      ((DurableRelay.new currentCwd).applyPersisted now p).relay later data p.relay).2.1⟩, rfl⟩

theorem isPendingId_savedTeamRun {t : Nat} {d : DurableRelay} {id : String} {run : Team.TeamRun}
    (h : (d.fromRelay t).relay.teamRuns[id]? = some run) : isPendingId run.tlThreadId = false := by
  have hmap : (d.fromRelay t).relay.teamRuns[id]? = d.relay.jobs.teamRuns[id]?.map fun run =>
      if isPendingId run.tlThreadId then run.detachUnresumableTl t else run :=
    ExtTreeMap.getElem?_map
  rw [hmap, Option.map_eq_some_iff] at h
  obtain ⟨live, -, rfl⟩ := h
  split_ifs with hpending
  · have hcleared : (live.detachUnresumableTl t).tlThreadId = "" := by
      unfold Team.TeamRun.detachUnresumableTl
      dsimp only
      split_ifs <;> rfl
    rw [hcleared]
    decide
  · simpa using hpending

/-- A relay brought up from a file the writer left is settled. -/
theorem settled_of_loadedFrom {t : Nat} {d : DurableRelay} (h : LoadedFrom (d.fromRelay t) s) :
    Settled s := by
  have hdurable := durable_of_loadedFrom h
  obtain ⟨⟨now, hjobs⟩, hstarting⟩ := h.parts
  have hactive : s.relay.activeThreadId = _ := congrArg Durable.activeThreadId hdurable
  have hsession : s.relay.settings = _ := congrArg Durable.settings hdurable
  have hsettings : s.relay.threadMeta.threadSettings = _ :=
    congrArg Durable.threadSettings hdurable
  have hpush : s.pushSubscriptions = _ := congrArg Durable.pushSubscriptions hdurable
  have hpaired : s.relay.surfaces.pairedDevices = _ := congrArg Durable.pairedDevices hdurable
  have hrecords : s.relay.surfaces.deviceRecords = _ := congrArg Durable.deviceRecords hdurable
  have hworkspace : s.relay.threadMeta.threadWorkspace = _ :=
    congrArg Durable.threadWorkspace hdurable
  have hnames : s.relay.threadMeta.threadCustomName = _ :=
    congrArg Durable.threadCustomName hdurable
  have hrevision : s.relay.threadMeta.projectsRevision = _ :=
    congrArg Durable.projectsRevision hdurable
  have hprojects : s.relay.threadMeta.projects = _ := congrArg Durable.projects hdurable
  have hmembers : s.relay.threadMeta.threadProjectId = _ :=
    congrArg Durable.threadProjectId hdurable
  have hpin : s.relay.threadMeta.orchestratorThreadId = _ :=
    congrArg Durable.orchestratorThreadId hdurable
  refine {
    active := ?_
    workspaces := ?_
    names := ?_
    revision := ?_
    orchestrator := ?_
    migrated := congrArg Durable.allowedRootsTrustMigrated hdurable
    devices := ?_
    subscriptions := ?_
    reviewers := ?_
    visibility := ?_
    reviewJobs := ?_
    workflowJobs := ?_
    teamRuns := ?_
    starting := hstarting }
  · intro id hid
    rw [hactive] at hid
    refine ⟨?_, ?_⟩
    · have hsaved : d.relay.activeThreadId.filter (fun id => !isPendingId id) = some id := hid
      rw [Option.filter_eq_some_iff] at hsaved
      simpa using hsaved.2
    · have hmodel : s.relay.model = _ := congrArg ThreadSessionSettings.model hsession
      have hselected : (d.fromRelay t).relay.activeThreadId = some id := hid
      rw [hsettings, hsession, hmodel]
      simp only [StateFile.restored, PersistedRelayState.settings, hselected]
      exact (d.fromRelay t).relay.exists_own id
  · rw [hworkspace]
    exact Table.filter_filter _ _
  · rw [hnames]
    exact Table.filter_filter _ _
  · rw [hrevision, hprojects, hmembers]
    unfold StateFile.restored
    dsimp only
    split_ifs with hzero
    · simp
    · exact hzero
  · rw [hpin]
    show Option.filter _ (Option.filter _ _) = Option.filter _ _
    rw [Option.filter_filter]
    simp
  · rw [hpaired, hrecords]
    intro device hdevice
    unfold StateFile.restored at hdevice ⊢
    dsimp only at hdevice ⊢
    rw [ExtTreeMap.contains_eq_isSome_getElem?, Table.getElem?_foldl_insertIfNew
      PairedDevice.deviceId PairedDevice.toRecord]
    have hfound : ((d.fromRelay t).relay.pairedDevices.values.find?
        (·.deviceId = device.deviceId)).isSome := by
      rw [List.find?_isSome]
      exact ⟨device, hdevice, by simp⟩
    simp [hfound]
  · rw [hpush, hpaired]
    exact Table.filter_filter _ _
  · rw [hjobs]
    refine Table.filter_eq_self ?_
    intro id record hrecord
    unfold PersistedRelayState.restoredJobs PersistedRelayState.restoredReviewerThreads at hrecord
    dsimp only at hrecord
    rw [ExtTreeMap.getElem?_map, Option.map_eq_some_iff] at hrecord
    obtain ⟨saved, hsaved, -⟩ := hrecord
    exact (Table.getElem?_filter_eq_some hsaved).2
  · rw [hjobs]
    intro id record hrecord
    unfold PersistedRelayState.restoredJobs PersistedRelayState.restoredReviewerThreads at hrecord
    dsimp only at hrecord
    rw [ExtTreeMap.getElem?_map, Option.map_eq_some_iff] at hrecord
    obtain ⟨saved, -, rfl⟩ := hrecord
    rfl
  · rw [hjobs]
    exact Table.filter_filter _ _
  · rw [hjobs]
    intro id run hrun
    unfold PersistedRelayState.restoredJobs at hrun
    dsimp only at hrun
    rw [ExtTreeMap.getElem?_map, Option.map_eq_some_iff] at hrun
    obtain ⟨saved, -, rfl⟩ := hrun
    exact saved.isTerminal_markInterruptedIfStranded now
  · rw [hjobs]
    intro id run hrun
    unfold PersistedRelayState.restoredJobs at hrun
    dsimp only at hrun
    rw [ExtTreeMap.getElem?_map, Option.map_eq_some_iff] at hrun
    obtain ⟨saved, hsaved, rfl⟩ := hrun
    have hreconciles := saved.reconciles_reconcileAfterRestore now
    refine ⟨hreconciles.quiet, ?_⟩
    have hlead : (saved.reconcileAfterRestore now).1.tlThreadId = saved.tlThreadId :=
      (congrArg Team.TeamRun.tlThreadId hreconciles.sameWork.work :)
    rw [hlead]
    exact isPendingId_savedTeamRun hsaved

def Restarts (s s' : DurableRelay) : Prop := ∃ t, LoadedFrom (s.fromRelay t) s'

theorem Settled.restarts {s' : DurableRelay} (h : Settled s)
    (hrun : Relation.ReflTransGen Restarts s s') : Settled s' ∧ s'.durable = s.durable := by
  induction hrun with
  | refl => exact ⟨h, rfl⟩
  | tail _ hrestart ih =>
    obtain ⟨t, hloaded⟩ := hrestart
    have hsame := ih.1.restored_fromRelay t
    exact ⟨settled_of_loadedFrom hloaded, ((durable_of_loadedFrom hloaded).trans hsame).trans ih.2⟩

end reload

/-- The second reader taking the file over, which happens only as a process boots. -/
def RelayOp.isRestore : RelayOp → Bool
  | .restoreThreadData .. => true
  | _ => false

section clock

theorem draws_run {s : RelayState} {ops : List (Nat × RelayOp)}
    (hops : ∀ op ∈ ops, op.2.isRestore = false) :
    s.transcripts.Draws (run RelayState.step s ops).transcripts := by
  induction ops generalizing s with
  | nil => exact .of_eq rfl
  | cons op ops ih =>
    have hop : ∀ data persisted, op.2 ≠ .restoreThreadData data persisted := by
      intro data persisted heq
      have hboot := hops op List.mem_cons_self
      rw [heq] at hboot
      cases hboot
    exact (s.draws_step op.1 hop).trans (ih fun op' hop' => hops op' (List.mem_cons_of_mem op hop'))

theorem issued_le_of_draws {s s' : RelayState} (h : s.transcripts.Draws s'.transcripts)
    (hissued : ∀ r ∈ s.issued, r ≤ s.transcriptClock) :
    ∀ r ∈ s'.issued, r ≤ s.transcriptClock + (s'.issued.length - s.issued.length) := by
  have hkept := h.keeps (P := fun c => s.issued.length ≤ c.2.length ∧
    c.1 ≤ s.transcriptClock + (c.2.length - s.issued.length) ∧
    ∀ r ∈ c.2, r ≤ s.transcriptClock + (c.2.length - s.issued.length)) ?_ ?_
  · exact hkept.2.2
  · rintro ⟨clock, issued⟩ ⟨hlength, hclock, hle⟩
    have hminted : saturatingAdd clock 1 ≤ clock + 1 := Nat.min_le_left _ _
    dsimp only [Clocked.mint] at *
    simp only [List.length_append, List.length_singleton, List.mem_append, List.mem_singleton]
    refine ⟨by omega, by omega, ?_⟩
    rintro r (hr | rfl)
    · have := hle r hr
      omega
    · omega
  · refine ⟨le_rfl, Nat.le_add_right _ _, ?_⟩
    intro r hr
    exact (hissued r hr).trans (Nat.le_add_right _ _)

def PastMark (mark : Nat) (c : Clocked) : Prop := mark ≤ c.1 ∧ ∀ r ∈ c.2, mark ≤ r

theorem PastMark.mint {mark : Nat} (hmark : mark ≤ u64Max) (c : Clocked) (h : PastMark mark c) :
    PastMark mark c.mint := by
  have hnext : mark ≤ saturatingAdd c.1 1 := Nat.le_min.mpr ⟨Nat.le_succ_of_le h.1, hmark⟩
  refine ⟨hnext, ?_⟩
  intro r hr
  rcases List.mem_append.mp hr with hr | hr
  · exact h.2 r hr
  · rw [List.mem_singleton.mp hr]
    exact hnext

theorem PastMark.raise {mark : Nat} {c : Clocked} (h : PastMark mark c) (saved : Nat) :
    PastMark mark (max c.1 saved, c.2) :=
  ⟨h.1.trans (le_max_left _ _), h.2⟩

theorem PastMark.restore {mark : Nat} (hmark : mark ≤ u64Max) {s : RelayState}
    (now : Nat) (data : ThreadSyncData) (persisted : PersistedRelayState)
    (h : PastMark mark (max s.transcriptClock persisted.transcriptClock, s.issued)) :
    PastMark mark (s.restoreThreadData now data persisted).transcripts.clocked := by
  rw [s.clocked_restore now data persisted]
  exact (PastMark.mint hmark _ h).raise _

theorem PastMark.run {mark : Nat} (hmark : mark ≤ u64Max) {s : RelayState}
    (h : PastMark mark s.transcripts.clocked) (ops : List (Nat × RelayOp)) :
    PastMark mark (run RelayState.step s ops).transcripts.clocked := by
  refine run_of_step (I := fun s : RelayState => PastMark mark s.transcripts.clocked) ?_ h ops
  rintro s ⟨now, op⟩ hs
  by_cases hboot : ∃ data persisted, op = .restoreThreadData data persisted
  · obtain ⟨data, persisted, rfl⟩ := hboot
    exact PastMark.restore hmark now data persisted (hs.raise persisted.transcriptClock)
  · have hdraws : s.transcripts.Draws (s.step (now, op)).transcripts :=
      s.draws_step now fun data persisted heq => hboot ⟨data, persisted, heq⟩
    exact hdraws.keeps (PastMark.mint hmark) hs

theorem LoadedFrom.pastMark {p : StateFile} {s : DurableRelay} (h : LoadedFrom p s)
    (hmark : p.relay.transcriptClock ≤ u64Max) :
    PastMark p.relay.transcriptClock s.relay.transcripts.clocked := by
  have hfirst : ∀ currentCwd now, PastMark p.relay.transcriptClock
      ((DurableRelay.new currentCwd).applyPersisted now p).relay.transcripts.clocked :=
    fun _ _ => ⟨le_max_right _ _, fun r hr => absurd hr List.not_mem_nil⟩
  cases h with
  | applied currentCwd now => exact hfirst currentCwd now
  | restored currentCwd now later data hactive =>
    exact PastMark.restore hmark later data p.relay
      ((hfirst currentCwd now).raise p.relay.transcriptClock)

end clock

/-- What a relay saves comes back: both readers restore the same, and all the file holds; later
restarts change nothing; and the clock resumes above every revision handed out before a crash,
as long as fewer were handed out since the save than the clock is saved ahead. -/
theorem restart_round_trip (d : DurableRelay) (t : Nat) (s : DurableRelay)
    (hloaded : LoadedFrom (d.fromRelay t) s) :
    (∀ s', LoadedFrom (d.fromRelay t) s' → s'.durable = s.durable) ∧
    Carries (d.fromRelay t) s.durable ∧ ComesUpIn (d.fromRelay t) s ∧
    (∀ s', Relation.ReflTransGen Restarts s s' → s'.durable = s.durable) ∧
    ∀ crashed booted : List (Nat × RelayOp),
      (∀ r ∈ d.relay.issued, r ≤ d.relay.transcriptClock) →
      d.relay.transcriptClock + transcriptClockPersistHeadroom ≤ u64Max →
      (∀ op ∈ crashed, op.2.isRestore = false) →
      (run RelayState.step d.relay crashed).issued.length <
        d.relay.issued.length + transcriptClockPersistHeadroom →
      ∀ before ∈ (run RelayState.step d.relay crashed).issued,
        ∀ after ∈ (run RelayState.step s.relay booted).issued, before < after := by
  have hdurable := durable_of_loadedFrom hloaded
  refine ⟨?_, ?_, comesUpIn _ s, ?_, ?_⟩
  · intro s' hloaded'
    exact (durable_of_loadedFrom hloaded').trans hdurable.symm
  · rw [hdurable]
    exact carries_fromRelay t d
  · intro s' hrestarts
    exact ((settled_of_loadedFrom hloaded).restarts hrestarts).2
  · intro crashed booted hissued hroom hcrashed hfew before hbefore after hafter
    have hmark : (d.fromRelay t).relay.transcriptClock =
        d.relay.transcriptClock + transcriptClockPersistHeadroom := Nat.min_eq_left hroom
    have hle := issued_le_of_draws (draws_run hcrashed) hissued before hbefore
    have hpast := PastMark.run (hmark ▸ hroom) (hloaded.pastMark (hmark ▸ hroom)) booted
    have hge := hpast.2 after hafter
    rw [hmark] at hge
    have hahead : 0 < transcriptClockPersistHeadroom := by decide
    omega

def bareThread : DurableRelay :=
  { relay := { activeThreadId := some "thread", transcriptClock := 1, issued := [1] } }

theorem restart_round_trip_bareThread :
    Carries (bareThread.fromRelay 6)
      ((DurableRelay.new "/repo").applyPersisted 7 (bareThread.fromRelay 6)).durable ∧
    ∀ after ∈ (run RelayState.step
        ((DurableRelay.new "/repo").applyPersisted 7 (bareThread.fromRelay 6)).relay
        [(9, .bumpThreadTranscriptRevision "thread")]).issued, 3 < after := by
  have h := restart_round_trip bareThread 6 _ (.applied "/repo" 7)
  refine ⟨h.2.1, ?_⟩
  exact h.2.2.2.2 [(8, .bumpThreadTranscriptRevision "thread")] _ (by decide) (by decide)
    (by decide) (by decide +kernel) 3 (by decide +kernel)

/-- The settings the readers give the selected thread are not in the file. -/
theorem active_thread_gains_settings :
    ¬ ∀ (d : DurableRelay) (t : Nat) (s : DurableRelay), LoadedFrom (d.fromRelay t) s →
      s.durable.threadSettings = (d.fromRelay t).relay.threadSettings := by
  intro h
  have hsame := h bareThread 6 _ (.applied "/repo" 7)
  have hcontains := congrArg (·.contains "thread") hsame
  revert hcontains
  decide +kernel

end AgentRelay.Relay

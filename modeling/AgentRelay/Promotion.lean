import AgentRelay.RequestAgreement

/-! Promotion of a pending thread id: every place that names a thread, the locks that
read those places, and what a complete promotion owes each of them. -/
namespace AgentRelay.Team.TeamRun
open Std

/-- The seats of a run, in the order a rekey visits them; its role table apart. -/
def seats (r : TeamRun) : List String :=
  r.tlThreadId :: r.tlSuccession.map (·.threadId) ++ r.runOwnedThreadIds
    ++ r.mrDevThreadId.toList
    ++ r.subTasks.flatMap (fun task =>
        task.devThreadId.toList ++ task.reviewerThreadId.toList ++ task.ownedThreadIds)
    ++ r.inFlightThread.toList ++ r.awaiting.toList.map (·.threadId)

theorem mem_rekeyedThreads {r : TeamRun} {id : String} :
    id ∈ r.rekeyedThreads ↔ id ∈ r.seats ∨ r.runOwnedThreadRoles.contains id := by
  simp only [rekeyedThreads, seats, List.mem_append, List.mem_cons, ExtTreeMap.mem_keys,
    ExtTreeMap.contains_iff_mem]
  tauto

/-- The seats that count as owned: all but the turn in flight and the parked question. -/
def ownedSeats (r : TeamRun) : List String :=
  r.tlThreadId :: r.tlSuccession.map (·.threadId) ++ r.runOwnedThreadIds
    ++ r.mrDevThreadId.toList
    ++ r.subTasks.flatMap (fun task =>
        task.ownedThreadIds ++ task.devThreadId.toList ++ task.reviewerThreadId.toList)

theorem mem_ownedThreadIds {r : TeamRun} {id : String} :
    id ∈ r.ownedThreadIds ↔ id ≠ "" ∧ id ∈ r.ownedSeats := by
  change id ∈ r.ownedSeats.foldl _ [] ↔ _
  generalize r.ownedSeats = ids
  -- Over the candidates, with any list collected so far.
  suffices hacc : ∀ acc : List String, id ∈ ids.foldl (fun ids id =>
      if id = "" ∨ id ∈ ids then ids else ids ++ [id]) acc ↔ id ∈ acc ∨ id ≠ "" ∧ id ∈ ids by
    simpa using hacc []
  induction ids with
  | nil => simp
  | cons x xs ih =>
    intro acc
    rw [List.foldl_cons, ih]
    split_ifs with hx
    · rcases hx with rfl | hx
      · simp
        tauto
      · simp only [List.mem_cons]
        constructor
        · tauto
        · rintro (h | ⟨hne, rfl | h⟩)
          · exact Or.inl h
          · exact Or.inl hx
          · exact Or.inr ⟨hne, h⟩
    · simp only [not_or] at hx
      simp only [List.mem_append, List.mem_cons, List.not_mem_nil, or_false]
      constructor
      · rintro ((h | rfl) | h)
        · exact Or.inl h
        · exact Or.inr ⟨hx.1, Or.inl rfl⟩
        · exact Or.inr ⟨h.1, Or.inr h.2⟩
      · tauto

section rekey
variable {pendingId realId : String}

theorem swapThread_of_ne {slot : String} (h : slot ≠ pendingId) :
    swapThread pendingId realId slot = slot := if_neg h

theorem swapThread_ne (hne : pendingId ≠ realId) (slot : String) :
    swapThread pendingId realId slot ≠ pendingId := by
  unfold swapThread
  split_ifs with h
  · exact Ne.symm hne
  · exact h

theorem map_swap_of_not_mem {ids : List String} (h : pendingId ∉ ids) :
    ids.map (swapThread pendingId realId) = ids := by
  refine (List.map_congr_left ?_).trans (List.map_id ids)
  rintro slot hslot
  exact swapThread_of_ne (fun he => h (he ▸ hslot))

theorem mem_map_swap {ids : List String} {id : String} (hne : pendingId ≠ realId) :
    id ∈ ids.map (swapThread pendingId realId) ↔
      id ≠ pendingId ∧ (id ∈ ids ∨ id = realId ∧ pendingId ∈ ids) := by
  rw [List.mem_map]
  constructor
  · rintro ⟨slot, hslot, rfl⟩
    refine ⟨swapThread_ne hne slot, ?_⟩
    unfold swapThread
    split_ifs with h
    · exact Or.inr ⟨rfl, h ▸ hslot⟩
    · exact Or.inl hslot
  · rintro ⟨hid, hmem | ⟨rfl, hmem⟩⟩
    · exact ⟨id, hmem, swapThread_of_ne hid⟩
    · exact ⟨pendingId, hmem, if_pos rfl⟩

theorem rekeyThread_of_not_mem {r : TeamRun} (now : Nat) (h : pendingId ∉ r.rekeyedThreads) :
    (r.rekeyThread now pendingId realId).1 = r := by
  unfold rekeyThread
  split_ifs <;> rfl

theorem seats_rekeyThread (r : TeamRun) (now : Nat) (hp : pendingId ≠ "")
    (hne : pendingId ≠ realId) :
    (r.rekeyThread now pendingId realId).1.seats = r.seats.map (swapThread pendingId realId) := by
  by_cases hmem : pendingId ∈ r.rekeyedThreads
  · rw [rekeyThread, if_neg (by simp [hp, hne]), if_neg (by simpa using hmem)]
    simp only [seats, rekeySubTask, List.map_append, List.map_cons, List.map_map,
      Option.toList_map, List.map_flatMap, List.flatMap_map]
    rfl
  · rw [rekeyThread_of_not_mem now hmem, map_swap_of_not_mem]
    exact fun h => hmem (mem_rekeyedThreads.mpr (Or.inl h))

theorem ownedSeats_rekeyThread (r : TeamRun) (now : Nat) (hp : pendingId ≠ "")
    (hne : pendingId ≠ realId) : (r.rekeyThread now pendingId realId).1.ownedSeats =
      r.ownedSeats.map (swapThread pendingId realId) := by
  by_cases hmem : pendingId ∈ r.rekeyedThreads
  · rw [rekeyThread, if_neg (by simp [hp, hne]), if_neg (by simpa using hmem)]
    simp only [ownedSeats, rekeySubTask, List.map_append, List.map_cons, List.map_map,
      Option.toList_map, List.map_flatMap, List.flatMap_map]
    rfl
  · rw [rekeyThread_of_not_mem now hmem, map_swap_of_not_mem]
    intro h
    apply hmem
    rw [mem_rekeyedThreads]
    simp only [ownedSeats, seats, List.mem_append, List.mem_flatMap] at h ⊢
    grind

theorem roles_rekeyThread (r : TeamRun) (now : Nat) (hp : pendingId ≠ "")
    (hne : pendingId ≠ realId) :
    (r.rekeyThread now pendingId realId).1.runOwnedThreadRoles =
      match r.runOwnedThreadRoles[pendingId]? with
      | some role => (r.runOwnedThreadRoles.erase pendingId).insert realId role
      | none => r.runOwnedThreadRoles := by
  by_cases hmem : pendingId ∈ r.rekeyedThreads
  · unfold rekeyThread
    split_ifs with hid
    · simp [hp, hne] at hid
    · rfl
  · have hnone : r.runOwnedThreadRoles[pendingId]? = none := by
      rw [mem_rekeyedThreads, not_or, ExtTreeMap.contains_eq_isSome_getElem?,
        Option.not_isSome_iff_eq_none] at hmem
      exact hmem.2
    rw [rekeyThread_of_not_mem now hmem, hnone]

theorem live_rekeyThread (r : TeamRun) (now : Nat) :
    (r.rekeyThread now pendingId realId).1.isLiveInCurrentBuild = r.isLiveInCurrentBuild := by
  unfold rekeyThread
  split_ifs <;> rfl

theorem not_mem_rekeyThread (r : TeamRun) (now : Nat) (hp : pendingId ≠ "")
    (hne : pendingId ≠ realId) :
    pendingId ∉ (r.rekeyThread now pendingId realId).1.rekeyedThreads := by
  rw [mem_rekeyedThreads, seats_rekeyThread r now hp hne, mem_map_swap hne,
    roles_rekeyThread r now hp hne]
  simp only [ne_eq, not_true_eq_false, false_and, false_or,
    ExtTreeMap.contains_eq_isSome_getElem?]
  cases hrole : r.runOwnedThreadRoles[pendingId]? with
  | none => simp [hrole]
  | some role => simp [Table.getElem?_insert_of, hne]

theorem owned_rekeyThread (r : TeamRun) (now : Nat) (hp : pendingId ≠ "") (hr : realId ≠ "")
    (hne : pendingId ≠ realId) :
    realId ∈ (r.rekeyThread now pendingId realId).1.ownedThreadIds ↔
      pendingId ∈ r.ownedThreadIds ∨ realId ∈ r.ownedThreadIds := by
  simp only [mem_ownedThreadIds, ownedSeats_rekeyThread r now hp hne, mem_map_swap hne]
  have := Ne.symm hne
  tauto

end rekey

end AgentRelay.Team.TeamRun

namespace AgentRelay.Relay
open Std

namespace RelayState

def isThreadReviewLocked (s : RelayState) (threadId : String) : Bool :=
  s.jobs.reviewJobs.values.any fun job =>
    !job.status.isTerminal &&
      (job.parentThreadId = threadId || job.reviewerThreadId = some threadId)

def isThreadWorkflowLocked (s : RelayState) (threadId : String) : Bool :=
  s.jobs.workflowJobs.values.any fun run =>
    !run.status.isTerminal &&
      (run.parentThreadId = threadId || run.stepThreads.values.any (· = threadId))

/-- Owned by a live team run, in any seat. -/
def isThreadTeamLocked (s : RelayState) (threadId : String) : Bool :=
  s.jobs.teamRuns.values.any fun run =>
    run.isLiveInCurrentBuild && run.ownedThreadIds.any (· = threadId)

inductive Names (s : RelayState) (id : String) : Prop
  | runtime (h : s.runtimes.contains id)
  | runtimeSummary {key : String} {rt : ThreadRuntime} (h : s.runtimes[key]? = some rt)
      {summary : ThreadSummaryView} (hs : rt.summary = some summary) (hid : summary.id = id)
  | summaryFork {key : String} {rt : ThreadRuntime} (h : s.runtimes[key]? = some rt)
      {summary : ThreadSummaryView} (hs : rt.summary = some summary)
      (hid : summary.forkedFrom = some id)
  | runtimeRequest {key : String} {rt : ThreadRuntime} (h : s.runtimes[key]? = some rt)
      {k : RequestKind} {requestId : String} {p : PendingRequest}
      (hp : (rt.requests k)[requestId]? = some p) (hid : p.threadId = id)
  | threadRow {row : ThreadSummaryView} (h : row ∈ s.threads) (hid : row.id = id)
  | rowFork {row : ThreadSummaryView} (h : row ∈ s.threads) (hid : row.forkedFrom = some id)
  | request {k : RequestKind} {requestId : String} (h : s.requestThread k requestId = some id)
  | settings (h : s.threadMeta.threadSettings.contains id)
  | lastActivity (h : s.threadMeta.threadLastActivityAt.contains id)
  | project (h : s.threadMeta.threadProjectId.contains id)
  | customName (h : s.threadMeta.threadCustomName.contains id)
  | fork (h : s.threadMeta.threadForkedFrom.contains id)
  | forkSource {key : String} (h : s.threadMeta.threadForkedFrom[key]? = some id)
  | workspace (h : s.threadMeta.threadWorkspace.contains id)
  | reviewParent {key : String} {job : ReviewJob} (h : s.jobs.reviewJobs[key]? = some job)
      (hid : job.parentThreadId = id)
  | reviewer {key : String} {job : ReviewJob} (h : s.jobs.reviewJobs[key]? = some job)
      (hid : job.reviewerThreadId = some id)
  | workflowParent {key : String} {run : WorkflowRun} (h : s.jobs.workflowJobs[key]? = some run)
      (hid : run.parentThreadId = id)
  | workflowStep {key : String} {run : WorkflowRun} (h : s.jobs.workflowJobs[key]? = some run)
      {step : String} (hid : run.stepThreads[step]? = some id)
  | teamRun {key : String} {run : Team.TeamRun} (h : s.jobs.teamRuns[key]? = some run)
      (hid : id ∈ run.rekeyedThreads)
  | reviewerThread (h : s.jobs.reviewerThreads.contains id)
  | reviewerThreadParent {key : String} {record : ReviewerThread}
      (h : s.jobs.reviewerThreads[key]? = some record) (hid : record.parentThreadId = id)
  | orchestrator (h : s.threadMeta.orchestratorThreadId = some id)

/-- With runtimes under both ids a promotion drops the one with the shorter transcript. -/
def promotionDropped (s : RelayState) (pendingId realId : String) : Option String :=
  match s.runtimes[pendingId]?, s.runtimes[realId]? with
  | some pending, some existing =>
    some (if pending.transcript.length ≤ existing.transcript.length then pendingId else realId)
  | _, _ => none

end RelayState

def ThreadRuntime.withoutRequests (rt : ThreadRuntime) : ThreadRuntime :=
  { rt with pendingApprovals := ∅, pendingAskUserQuestions := ∅ }

def ThreadRuntime.rename (realId : String) (rt : ThreadRuntime) : ThreadRuntime :=
  { rt with summary := rt.summary.map fun summary => { summary with id := realId } }

section rename
variable (pendingId realId : String)

def ReviewJob.rename (job : ReviewJob) : ReviewJob :=
  { job with
    reviewerThreadId := job.reviewerThreadId.map (Team.TeamRun.swapThread pendingId realId)
    parentThreadId := Team.TeamRun.swapThread pendingId realId job.parentThreadId }

def WorkflowRun.rename (run : WorkflowRun) : WorkflowRun :=
  { run with
    stepThreads := run.stepThreads.map fun _ id => Team.TeamRun.swapThread pendingId realId id
    parentThreadId := Team.TeamRun.swapThread pendingId realId run.parentThreadId }

def ReviewerThread.rename (record : ReviewerThread) : ReviewerThread :=
  { record with
    parentThreadId := Team.TeamRun.swapThread pendingId realId record.parentThreadId }

structure RenamesSeats (run run' : Team.TeamRun) : Prop where
  seats : run'.seats = run.seats.map (Team.TeamRun.swapThread pendingId realId)
  role : run'.runOwnedThreadRoles[realId]? =
    run.runOwnedThreadRoles[realId]?.or run.runOwnedThreadRoles[pendingId]?
  otherRole : ∀ id, id ≠ pendingId → id ≠ realId →
    run'.runOwnedThreadRoles[id]? = run.runOwnedThreadRoles[id]?
  status : run'.status = run.status
  unchanged : pendingId ∉ run.rekeyedThreads → run' = run

/-- What the promotion of `pendingId` to `realId` at `now` owes every place that names a
thread: the pending id is gone, what named it names the real id unless that had its own
value, and the records of all other threads are as they were. -/
structure PromotionComplete (now : Nat) (s t : RelayState) : Prop where
  unnamed : ¬t.Names pendingId
  lineage : t.threadMeta.threadPromotedFrom[realId]? = some pendingId
  runtime : ∀ rt, s.runtimes[pendingId]? = some rt → s.runtimes[realId]? = none →
    t.runtimes[realId]?.map ThreadRuntime.withoutRequests =
      some (((rt.rename realId).noteStatus now "active" []).withoutRequests)
  heldRequests : ∀ k requestId,
    (s.held pendingId k).contains requestId ∨ (s.held realId k).contains requestId →
      (t.held realId k).contains requestId
  requests : ∀ k requestId, t.requestThread k requestId =
    (s.requestThread k requestId).map (Team.TeamRun.swapThread pendingId realId)
  settings : t.threadMeta.threadSettings[realId]? =
    s.threadMeta.threadSettings[realId]?.or s.threadMeta.threadSettings[pendingId]?
  lastActivity : t.threadMeta.threadLastActivityAt[realId]? =
    Option.merge max s.threadMeta.threadLastActivityAt[realId]?
      s.threadMeta.threadLastActivityAt[pendingId]?
  project : t.threadMeta.threadProjectId[realId]? =
    s.threadMeta.threadProjectId[realId]?.or s.threadMeta.threadProjectId[pendingId]?
  customName : t.threadMeta.threadCustomName[realId]? =
    s.threadMeta.threadCustomName[realId]?.or s.threadMeta.threadCustomName[pendingId]?
  workspace : t.threadMeta.threadWorkspace[realId]? =
    s.threadMeta.threadWorkspace[realId]?.or s.threadMeta.threadWorkspace[pendingId]?
  fork : t.threadMeta.threadForkedFrom[realId]? =
    (s.threadMeta.threadForkedFrom[realId]?.or s.threadMeta.threadForkedFrom[pendingId]?).map
      (Team.TeamRun.swapThread pendingId realId)
  reviewerThread : t.jobs.reviewerThreads[realId]? =
    (s.jobs.reviewerThreads[realId]?.or s.jobs.reviewerThreads[pendingId]?).map
      (ReviewerThread.rename pendingId realId)
  reviewJobs : ∀ key : String, t.jobs.reviewJobs[key]? =
    s.jobs.reviewJobs[key]?.map (ReviewJob.rename pendingId realId)
  workflowJobs : ∀ key : String, t.jobs.workflowJobs[key]? =
    s.jobs.workflowJobs[key]?.map (WorkflowRun.rename pendingId realId)
  teamRuns : ∀ key : String, Option.Rel (RenamesSeats pendingId realId)
    s.jobs.teamRuns[key]? t.jobs.teamRuns[key]?
  orchestrator : t.threadMeta.orchestratorThreadId =
    s.threadMeta.orchestratorThreadId.map (Team.TeamRun.swapThread pendingId realId)
  otherRuntimes : ∀ id, id ≠ pendingId → id ≠ realId → t.runtimes[id]? = s.runtimes[id]?
  otherRows : t.threads.filter (fun row => row.id ≠ pendingId ∧ row.id ≠ realId) =
    s.threads.filter fun row => row.id ≠ pendingId ∧ row.id ≠ realId
  otherMeta : ∀ id, id ≠ pendingId → id ≠ realId →
    t.threadMeta.threadSettings[id]? = s.threadMeta.threadSettings[id]? ∧
    t.threadMeta.threadLastActivityAt[id]? = s.threadMeta.threadLastActivityAt[id]? ∧
    t.threadMeta.threadProjectId[id]? = s.threadMeta.threadProjectId[id]? ∧
    t.threadMeta.threadCustomName[id]? = s.threadMeta.threadCustomName[id]? ∧
    t.threadMeta.threadWorkspace[id]? = s.threadMeta.threadWorkspace[id]? ∧
    t.threadMeta.threadPromotedFrom[id]? = s.threadMeta.threadPromotedFrom[id]?
  otherForks : ∀ id, id ≠ pendingId → id ≠ realId → t.threadMeta.threadForkedFrom[id]? =
    s.threadMeta.threadForkedFrom[id]?.map (Team.TeamRun.swapThread pendingId realId)
  otherReviewers : ∀ id, id ≠ pendingId → id ≠ realId → t.jobs.reviewerThreads[id]? =
    s.jobs.reviewerThreads[id]?.map (ReviewerThread.rename pendingId realId)
  reviewLock : t.isThreadReviewLocked realId ↔
    s.isThreadReviewLocked pendingId ∨ s.isThreadReviewLocked realId
  workflowLock : t.isThreadWorkflowLocked realId ↔
    s.isThreadWorkflowLocked pendingId ∨ s.isThreadWorkflowLocked realId
  teamLock : t.isThreadTeamLocked realId ↔
    s.isThreadTeamLocked pendingId ∨ s.isThreadTeamLocked realId

/-- The states in which a promotion misses nothing: no surviving fork source (in the map, a row
or a summary), reviewer's parent, request copy or foreign summary names the pending id, the real
id has neither a reviewer record nor a team role that would be overwritten, and every request of
the two runtimes is held by one that survives. -/
structure Promotable (s : RelayState) : Prop where
  forkSource : ∀ id : String, s.threadMeta.threadForkedFrom[id]? = some pendingId →
    id = pendingId ∧ s.threadMeta.threadForkedFrom.contains realId
  rows : ∀ row ∈ s.threads, row.forkedFrom = some pendingId → row.id = pendingId
  reviewerParent : ∀ (id : String) record, s.jobs.reviewerThreads[id]? = some record →
    record.parentThreadId = pendingId → id = realId ∧ s.jobs.reviewerThreads.contains pendingId
  reviewerOwn : ∀ a b, s.jobs.reviewerThreads[pendingId]? = some a →
    s.jobs.reviewerThreads[realId]? = some b → a = b.rename pendingId realId
  roleOwn : ∀ (key : String) (run : Team.TeamRun) (a b : String),
    s.jobs.teamRuns[key]? = some run → run.runOwnedThreadRoles[pendingId]? = some a →
      run.runOwnedThreadRoles[realId]? = some b → a = b
  requestCopies : ∀ (id : String) (rt : ThreadRuntime), s.runtimes[id]? = some rt →
    s.promotionDropped pendingId realId ≠ some id →
      ∀ k (requestId : String) p, (rt.requests k)[requestId]? = some p → p.threadId ≠ pendingId
  summaries : ∀ (id : String) (rt : ThreadRuntime), s.runtimes[id]? = some rt →
    s.promotionDropped pendingId realId ≠ some id → ∀ summary, rt.summary = some summary →
      summary.forkedFrom ≠ some pendingId ∧ (id ≠ pendingId → summary.id ≠ pendingId)
  heldRequests : ∀ k requestId,
    (s.held pendingId k).contains requestId ∨ (s.held realId k).contains requestId →
      ∃ id, (id = pendingId ∨ id = realId) ∧ s.promotionDropped pendingId realId ≠ some id ∧
        (s.held id k).contains requestId

end rename

end AgentRelay.Relay

import AgentRelay.Promotion

/-! Re-keying a team run as a renaming: every place that names a thread, the seats the driver
addresses by slot, and what the renaming leaves alone. -/
namespace AgentRelay.Team

section firstOccurrences
variable {α β : Type} [BEq α] [LawfulBEq α] [BEq β] [LawfulBEq β]

theorem eraseDups_concat [DecidableEq α] (xs : List α) (x : α) :
    (xs ++ [x]).eraseDups = if x ∈ xs then xs.eraseDups else xs.eraseDups ++ [x] := by
  rw [List.eraseDups_append]
  by_cases h : x ∈ xs
  · simp [h, List.removeAll]
  · simp [h, List.removeAll, List.eraseDups_cons]

theorem eraseDups_map_eraseDups [DecidableEq α] [DecidableEq β] (f : α → β) (xs : List α) :
    (xs.eraseDups.map f).eraseDups = (xs.map f).eraseDups := by
  induction xs using List.reverseRecOn with
  | nil => rfl
  | append_singleton xs x ih =>
    rw [eraseDups_concat, List.map_append, List.map_singleton, eraseDups_concat (xs.map f)]
    by_cases hx : x ∈ xs
    · have hfx : f x ∈ xs.map f := List.mem_map_of_mem hx
      rw [if_pos hx, if_pos hfx, ih]
    · rw [if_neg hx, List.map_append, List.map_singleton, eraseDups_concat, ih]
      simp only [List.mem_map, List.mem_eraseDups]

end firstOccurrences

inductive TeamThreadSlot
  | tl
  | subTaskDev (index : Nat)
  | subTaskReviewer (index : Nat)
  | runOwned (index : Nat)
  | mrDev
  deriving DecidableEq, Repr

namespace TeamRun

/-- The id in a seat right now; an empty one is none. -/
def threadInSlot (r : TeamRun) (slot : TeamThreadSlot) : Option String :=
  let id := match slot with
    | .tl => some r.tlThreadId
    | .subTaskDev index => r.subTasks[index]?.bind (·.devThreadId)
    | .subTaskReviewer index => r.subTasks[index]?.bind (·.reviewerThreadId)
    | .runOwned index => r.runOwnedThreadIds[index]?
    | .mrDev => r.mrDevThreadId
  id.filter (· ≠ "")

inductive NamesThread (r : TeamRun) (id : String) : Prop
  | tl (h : r.tlThreadId = id)
  | retiredTl {generation : TlGeneration} (h : generation ∈ r.tlSuccession)
      (hid : generation.threadId = id)
  | runOwned (h : id ∈ r.runOwnedThreadIds)
  | role (h : r.runOwnedThreadRoles.contains id)
  | mrDev (h : r.mrDevThreadId = some id)
  | dev {task : SubTask} (h : task ∈ r.subTasks) (hid : task.devThreadId = some id)
  | reviewer {task : SubTask} (h : task ∈ r.subTasks) (hid : task.reviewerThreadId = some id)
  | subTaskOwned {task : SubTask} (h : task ∈ r.subTasks) (hid : id ∈ task.ownedThreadIds)
  | inFlight (h : r.inFlightThread = some id)
  | awaiting {question : AwaitingUser} (h : r.awaiting = some question)
      (hid : question.threadId = id)

def withoutThreads (r : TeamRun) : TeamRun :=
  { r with
    tlThreadId := ""
    tlSuccession := r.tlSuccession.map fun generation => { generation with threadId := "" }
    runOwnedThreadIds := r.runOwnedThreadIds.map fun _ => ""
    runOwnedThreadRoles := ∅
    mrDevThreadId := r.mrDevThreadId.map fun _ => ""
    subTasks := r.subTasks.map fun task =>
      { task with
        devThreadId := task.devThreadId.map fun _ => ""
        reviewerThreadId := task.reviewerThreadId.map fun _ => ""
        ownedThreadIds := task.ownedThreadIds.map fun _ => "" }
    inFlightThread := r.inFlightThread.map fun _ => ""
    awaiting := r.awaiting.map fun question => { question with threadId := "" }
    updatedAt := 0 }

theorem namesThread_iff {r : TeamRun} {id : String} :
    r.NamesThread id ↔ id ∈ r.rekeyedThreads := by
  rw [mem_rekeyedThreads]
  simp only [seats, List.mem_append, List.mem_cons, List.mem_map, List.mem_flatMap,
    Option.mem_toList]
  constructor
  · intro h
    cases h with
    | tl h => simp [h]
    | retiredTl h hid => exact Or.inl (by grind)
    | runOwned h => simp [h]
    | role h => exact Or.inr h
    | mrDev h => simp [h]
    | dev h hid => exact Or.inl (by grind)
    | reviewer h hid => exact Or.inl (by grind)
    | subTaskOwned h hid => exact Or.inl (by grind)
    | inFlight h => simp [h]
    | awaiting h hid => exact Or.inl (by grind)
  · rintro (((((((htl | ⟨generation, hmem, hid⟩) | howned) | hmrDev) | ⟨task, hmem, hseat⟩)
      | hflight) | ⟨question, hmem, hid⟩) | hrole)
    · exact .tl htl.symm
    · exact .retiredTl hmem hid
    · exact .runOwned howned
    · exact .mrDev hmrDev
    · rcases hseat with (hdev | hreviewer) | howned
      · exact .dev hmem hdev
      · exact .reviewer hmem hreviewer
      · exact .subTaskOwned hmem howned
    · exact .inFlight hflight
    · exact .awaiting hmem hid
    · exact .role hrole

theorem ownedThreadIds_eq (r : TeamRun) :
    r.ownedThreadIds = (r.ownedSeats.filter (· ≠ "")).eraseDups := by
  change r.ownedSeats.foldl _ [] = _
  generalize r.ownedSeats = ids
  induction ids using List.reverseRecOn with
  | nil => rfl
  | append_singleton ids id ih =>
    rw [List.foldl_append, ih, List.filter_append]
    by_cases hempty : id = ""
    · simp [hempty]
    · rw [List.filter_singleton, decide_eq_true hempty, cond_true, eraseDups_concat]
      simp [hempty, List.mem_eraseDups]

section rename
variable {pendingId realId : String}

theorem swapThread_eq_empty (hp : pendingId ≠ "") (hr : realId ≠ "") (slot : String) :
    swapThread pendingId realId slot = "" ↔ slot = "" := by
  unfold swapThread
  split_ifs with h
  · subst h
    simp [hp, hr]
  · rfl

theorem filter_map_swap (hp : pendingId ≠ "") (hr : realId ≠ "") (ids : List String) :
    (ids.map (swapThread pendingId realId)).filter (· ≠ "") =
      (ids.filter (· ≠ "")).map (swapThread pendingId realId) := by
  rw [List.filter_map]
  congr 1
  apply List.filter_congr
  intro id _
  simp [swapThread_eq_empty hp hr]

theorem rekeyThread_of_mem {r : TeamRun} (now : Nat) (hp : pendingId ≠ "")
    (hne : pendingId ≠ realId) (hmem : pendingId ∈ r.rekeyedThreads) :
    (r.rekeyThread now pendingId realId).2 = true := by
  rw [rekeyThread, if_neg (by simp [hp, hne]), if_neg (by simpa using hmem)]

theorem threadInSlot_rekeyThread (r : TeamRun) (now : Nat) (hp : pendingId ≠ "")
    (hr : realId ≠ "") (hne : pendingId ≠ realId) (slot : TeamThreadSlot) :
    (r.rekeyThread now pendingId realId).1.threadInSlot slot =
      (r.threadInSlot slot).map (swapThread pendingId realId) := by
  have hfilter : ∀ id : Option String, (id.map (swapThread pendingId realId)).filter (· ≠ "") =
      (id.filter (· ≠ "")).map (swapThread pendingId realId) := by
    intro id
    cases id with
    | none => rfl
    | some id => by_cases h : id = "" <;> simp [Option.filter, swapThread_eq_empty hp hr, h]
  by_cases hmem : pendingId ∈ r.rekeyedThreads
  · rw [rekeyThread, if_neg (by simp [hp, hne]), if_neg (by simpa using hmem)]
    unfold threadInSlot
    rw [← hfilter]
    cases slot with
    | tl | mrDev | runOwned index => simp
    | subTaskDev index | subTaskReviewer index =>
      cases h : r.subTasks[index]? <;> simp [h, rekeySubTask]
  · rw [rekeyThread_of_not_mem now hmem]
    cases hslot : r.threadInSlot slot with
    | none => rfl
    | some id =>
      have hid : id ≠ pendingId := by
        rintro rfl
        apply hmem
        rw [← namesThread_iff]
        unfold threadInSlot at hslot
        rw [Option.filter_eq_some_iff] at hslot
        cases slot with
        | tl => exact .tl (by simpa using hslot.1)
        | mrDev => exact .mrDev hslot.1
        | runOwned index => exact .runOwned (List.mem_of_getElem? hslot.1)
        | subTaskDev index =>
          obtain ⟨task, htask, hdev⟩ := Option.bind_eq_some_iff.mp hslot.1
          exact .dev (List.mem_of_getElem? htask) hdev
        | subTaskReviewer index =>
          obtain ⟨task, htask, hreviewer⟩ := Option.bind_eq_some_iff.mp hslot.1
          exact .reviewer (List.mem_of_getElem? htask) hreviewer
      rw [Option.map_some, swapThread_of_ne hid]

theorem ownedThreadIds_rekeyThread (r : TeamRun) (now : Nat) (hp : pendingId ≠ "")
    (hr : realId ≠ "") (hne : pendingId ≠ realId) :
    (r.rekeyThread now pendingId realId).1.ownedThreadIds =
      (r.ownedThreadIds.map (swapThread pendingId realId)).eraseDups := by
  rw [ownedThreadIds_eq, ownedThreadIds_eq, ownedSeats_rekeyThread r now hp hne,
    filter_map_swap hp hr, eraseDups_map_eraseDups]

theorem withoutThreads_rekeyThread (r : TeamRun) (now : Nat) :
    (r.rekeyThread now pendingId realId).1.withoutThreads = r.withoutThreads := by
  unfold rekeyThread
  split_ifs
  · rfl
  · simp [withoutThreads, rekeySubTask, Function.comp_def]
  · rfl

end rename

/-- Re-keying is renaming. The pending id is named nowhere any more, each slot and the owned list
hold the image of what they held, the roles move along, nothing else changes, and the answer says
whether there was anything to rename. -/
theorem rekeyThread_renames (r : TeamRun) (now : Nat) (pendingId realId : String)
    (hp : pendingId ≠ "") (hr : realId ≠ "") (hne : pendingId ≠ realId) :
    let rekeyed := (r.rekeyThread now pendingId realId).1
    ¬rekeyed.NamesThread pendingId ∧
      (∀ slot, rekeyed.threadInSlot slot =
        (r.threadInSlot slot).map (swapThread pendingId realId)) ∧
      rekeyed.seats = r.seats.map (swapThread pendingId realId) ∧
      rekeyed.ownedThreadIds = (r.ownedThreadIds.map (swapThread pendingId realId)).eraseDups ∧
      (∀ role, r.runOwnedThreadRoles[pendingId]? = some role →
        rekeyed.runOwnedThreadRoles[realId]? = some role) ∧
      (∀ id, id ≠ pendingId → (id = realId → r.runOwnedThreadRoles[pendingId]? = none) →
        rekeyed.runOwnedThreadRoles[id]? = r.runOwnedThreadRoles[id]?) ∧
      rekeyed.withoutThreads = r.withoutThreads ∧
      ((r.rekeyThread now pendingId realId).2 = true ↔ r.NamesThread pendingId) := by
  have hroles := roles_rekeyThread r now hp hne
  refine ⟨?_, threadInSlot_rekeyThread r now hp hr hne, seats_rekeyThread r now hp hne,
    ownedThreadIds_rekeyThread r now hp hr hne, ?_, ?_, withoutThreads_rekeyThread r now, ?_⟩
  · rw [namesThread_iff]
    exact not_mem_rekeyThread r now hp hne
  · intro role hrole
    rw [hroles, hrole]
    simp
  · intro id hid hreal
    rw [hroles]
    cases hrole : r.runOwnedThreadRoles[pendingId]? with
    | none => rfl
    | some role =>
      have hne' : id ≠ realId := fun h => by simp [hreal h] at hrole
      simp [Table.getElem?_insert_of, Table.getElem?_erase_of, hid, hne']
  · rw [namesThread_iff]
    constructor
    · intro hchanged
      by_contra hmem
      rw [rekeyThread] at hchanged
      split_ifs at hchanged
    · exact rekeyThread_of_mem now hp hne

/-- A run whose lead has not had its first turn, and is being started. -/
def unstartedLead : TeamRun where
  status := .running
  tlThreadId := "claude-pending-1"
  runOwnedThreadIds := ["session-2", "claude-pending-1"]
  runOwnedThreadRoles := Std.ExtTreeMap.insert ∅ "claude-pending-1" "tl"
  inFlightThread := some "claude-pending-1"

theorem rekeyThread_renames_unstartedLead :
    let rekeyed := (unstartedLead.rekeyThread 5 "claude-pending-1" "session-1").1
    ¬rekeyed.NamesThread "claude-pending-1" ∧ rekeyed.threadInSlot .tl = some "session-1" ∧
      rekeyed.ownedThreadIds = ["session-1", "session-2"] :=
  have h := rekeyThread_renames unstartedLead 5 "claude-pending-1" "session-1" (by decide)
    (by decide) (by decide)
  ⟨h.1, (h.2.1 .tl).trans (by decide +kernel), h.2.2.2.1.trans (by decide +kernel)⟩

end TeamRun

end AgentRelay.Team

import AgentRelay.Promotion
import AgentRelay.RunRecovery
import AgentRelay.TeamLifecycle

/-! The sub-task list as a record of work: replanning, reviving, closing and rolling back extend
it, and take nothing out of it. -/
namespace AgentRelay.Team
open StepRun

def TeamOp.keepsBooks : TeamOp → Bool
  | replanSubTasks _ | reviveSubTasks _ | holdPhaseForWaitingSubTasks | rollbackCurrentRound => true
  | _ => false

/-- The operation is a revival that takes this sub-task: by name, or with all escalated ones. -/
def TeamOp.Revives (task : SubTask) : TeamOp → Prop
  | reviveSubTasks none => task.status = .escalated
  | reviveSubTasks (some ids) => task.id ∈ ids
  | _ => False

def SubTask.Retired (task : SubTask) : Prop := task.status = .superseded → task.digested

def SubTask.DevRecorded (task : SubTask) : Prop :=
  ∀ id, task.devThreadId = some id → id ∈ task.ownedThreadIds

def SubTask.record (task : SubTask) : SubTask :=
  { task with
    status := .pending, roundsUsed := 0, digested := false, devTurnsLanded := 0
    devThreadId := none, reruns := 0, cycle := 0 }

namespace TeamRun

def MintsFresh (cycle : Nat) : List SubTask → List (SubTask × String) → Prop
  | _, [] => True
  | tasks, planned :: rest =>
    (tasks.any (·.id = planned.1.id) → planned.2 ∉ tasks.map (·.id)) ∧
      MintsFresh cycle (appendPlanned cycle tasks planned) rest

instance decidableMintsFresh (cycle : Nat) : (tasks : List SubTask) →
    (planned : List (SubTask × String)) → Decidable (MintsFresh cycle tasks planned)
  | _, [] => isTrue trivial
  | tasks, planned :: rest =>
    have := decidableMintsFresh cycle (appendPlanned cycle tasks planned) rest
    inferInstanceAs (Decidable (_ ∧ _))

def freshMints (r : TeamRun) : Nat × TeamOp → Prop
  | (_, .replanSubTasks planned) => MintsFresh r.reopenedCount (r.subTasks.map supersede) planned
  | _ => True

structure Kept (o : TeamOp) (before after : SubTask) : Prop where
  record : after.record = before.record
  outcome : before.status.isTerminal → ¬o.Revives before → after = before
  retired : before.Retired → after.Retired
  dev : after.devThreadId = before.devThreadId ∨ after.devThreadId = none

section records
variable {o : TeamOp} {before after : SubTask}

theorem Kept.id_eq (h : Kept o before after) : after.id = before.id :=
  congrArg (fun task => task.id) h.record

theorem Kept.refl (o : TeamOp) (task : SubTask) : Kept o task task :=
  ⟨rfl, fun _ _ => rfl, fun h => h, .inl rfl⟩

theorem kept_supersede (o : TeamOp) (task : SubTask) : Kept o task (supersede task) := by
  unfold supersede
  split_ifs with h
  · exact .refl o task
  · exact ⟨rfl, fun hterminal => absurd hterminal h, fun _ _ => rfl, .inl rfl⟩

theorem kept_pending (o : TeamOp) (task : SubTask) :
    Kept o task (if task.status.isTerminal then task else { task with status := .pending }) := by
  split_ifs with h
  · exact .refl o task
  · exact ⟨rfl, fun hterminal => absurd hterminal h, fun _ => nofun, .inl rfl⟩

theorem kept_reviveSubTask (cycle : Nat) (only : Option (List String)) (task : SubTask) :
    Kept (.reviveSubTasks only) task
      (if selectsForRevival only task then reviveSubTask cycle task else task) := by
  split_ifs with h
  · refine ⟨rfl, fun _ hrevives => absurd ?_ hrevives, fun _ => nofun, .inr rfl⟩
    cases only with
    | none => simpa [selectsForRevival, TeamOp.Revives] using h
    | some ids =>
      simp only [selectsForRevival, Bool.and_eq_true, List.any_eq_true, decide_eq_true_eq] at h
      obtain ⟨-, id, hmem, rfl⟩ := h
      exact hmem
  · exact .refl _ task

end records

theorem foldl_appendPlanned (cycle : Nat) (planned : List (SubTask × String))
    (tasks : List SubTask) :
    ∃ later, planned.foldl (appendPlanned cycle) tasks = tasks ++ later ∧
      List.Forall₂ (fun entry task => ∃ id, task = { entry.1 with id := id, cycle := cycle })
        planned later := by
  induction planned generalizing tasks with
  | nil => exact ⟨[], by simp, .nil⟩
  | cons entry rest ih =>
    obtain ⟨later, hfold, hlater⟩ := ih (appendPlanned cycle tasks entry)
    let id := if tasks.any (·.id = entry.1.id) then entry.2 else entry.1.id
    refine ⟨{ entry.1 with id := id, cycle := cycle } :: later, ?_, .cons ⟨id, rfl⟩ hlater⟩
    rw [List.foldl_cons, hfold]
    simp only [appendPlanned, List.append_assoc, List.singleton_append]
    rfl

theorem nodup_foldl_appendPlanned (cycle : Nat) (planned : List (SubTask × String))
    {tasks : List SubTask} (hids : (tasks.map (·.id)).Nodup)
    (hfresh : MintsFresh cycle tasks planned) :
    ((planned.foldl (appendPlanned cycle) tasks).map (·.id)).Nodup := by
  induction planned generalizing tasks with
  | nil => exact hids
  | cons entry rest ih =>
    refine ih ?_ hfresh.2
    simp only [appendPlanned, List.map_append, List.map_cons, List.map_nil]
    rw [List.nodup_append]
    refine ⟨hids, List.nodup_singleton _, ?_⟩
    rintro used hused id hid rfl
    rw [List.mem_singleton] at hid
    split_ifs at hid with huse
    · exact hfresh.1 huse (hid ▸ hused)
    · simp only [List.any_eq_true, decide_eq_true_eq, not_exists, not_and] at huse
      obtain ⟨task, htask, rfl⟩ := List.mem_map.mp hused
      exact huse task htask hid

/-- One bookkeeping step: every record stays in its place, and what is new stands behind. -/
theorem subTasks_step (r : TeamRun) (now : Nat) {o : TeamOp} (ho : o.keepsBooks) :
    ∃ kept later, (r.step (now, o)).subTasks = kept ++ later ∧
      List.Forall₂ (Kept o) r.subTasks kept ∧
      ∀ task ∈ later, ∃ planned, o = .replanSubTasks planned ∧
        ∃ entry ∈ planned, ∃ id, task = { entry.1 with id := id, cycle := r.reopenedCount } := by
  have hsame : List.Forall₂ (Kept o) r.subTasks r.subTasks :=
    List.forall₂_same.mpr fun task _ => .refl o task
  cases o with
  | replanSubTasks planned =>
    obtain ⟨later, hfold, hlater⟩ :=
      foldl_appendPlanned r.reopenedCount planned (r.subTasks.map supersede)
    refine ⟨r.subTasks.map supersede, later, hfold, ?_, ?_⟩
    · rw [List.forall₂_map_right_iff]
      exact List.forall₂_same.mpr fun task _ => kept_supersede _ task
    · intro task htask
      obtain ⟨index, hindex, rfl⟩ := List.getElem_of_mem htask
      have hlength := hlater.length_eq
      obtain ⟨id, hid⟩ := (List.forall₂_iff_get.mp hlater).2 index (by omega) hindex
      exact ⟨planned, rfl, planned[index], List.getElem_mem _, id, hid⟩
  | reviveSubTasks only =>
    by_cases hany : r.subTasks.any (selectsForRevival only)
    · have hrevived : List.Forall₂ (Kept (.reviveSubTasks only)) r.subTasks
          (r.step (now, .reviveSubTasks only)).subTasks := by
        simp only [step, reviveSubTasks, if_pos hany]
        rw [List.forall₂_map_right_iff]
        exact List.forall₂_same.mpr fun task _ => kept_reviveSubTask r.reopenedCount only task
      exact ⟨_, [], (List.append_nil _).symm, hrevived, by simp⟩
    · exact ⟨r.subTasks, [], by simp [step, reviveSubTasks, hany], hsame, by simp⟩
  | holdPhaseForWaitingSubTasks =>
    refine ⟨r.subTasks, [], ?_, hsame, by simp⟩
    simp only [step, holdPhaseForWaitingSubTasks, List.append_nil]
    split_ifs <;> rfl
  | rollbackCurrentRound =>
    cases hcurrent : r.currentSubTask with
    | none =>
      exact ⟨r.subTasks, [], by simp [step, rollbackCurrentRound, hcurrent], hsame, by simp⟩
    | some index =>
      have hrolled : List.Forall₂ (Kept .rollbackCurrentRound) r.subTasks
          (r.step (now, .rollbackCurrentRound)).subTasks := by
        simp only [step, rollbackCurrentRound, hcurrent]
        exact forall₂_modify (Kept.refl _) (kept_pending _) r.subTasks index
      exact ⟨_, [], (List.append_nil _).symm, hrolled, by simp⟩
  | _ => simp [TeamOp.keepsBooks] at ho

theorem map_id_of_kept {o : TeamOp} {tasks kept : List SubTask}
    (h : List.Forall₂ (Kept o) tasks kept) : kept.map (·.id) = tasks.map (·.id) := by
  induction h with
  | nil => rfl
  | cons hkept _ ih => rw [List.map_cons, List.map_cons, hkept.id_eq, ih]

theorem nodup_step {r : TeamRun} {o : Nat × TeamOp} (ho : o.2.keepsBooks)
    (hids : (r.subTasks.map (·.id)).Nodup) (hfresh : r.freshMints o) :
    ((r.step o).subTasks.map (·.id)).Nodup := by
  obtain ⟨now, o⟩ := o
  obtain ⟨kept, later, hstep, hkept, hlater⟩ := subTasks_step r now ho
  by_cases hreplan : ∃ planned, o = .replanSubTasks planned
  · obtain ⟨planned, rfl⟩ := hreplan
    refine nodup_foldl_appendPlanned r.reopenedCount planned ?_ hfresh
    have hsupersede : (r.subTasks.map supersede).map (·.id) = r.subTasks.map (·.id) := by
      rw [List.map_map]
      exact List.map_congr_left fun task _ =>
        (kept_supersede (.replanSubTasks planned) task).id_eq
    rwa [hsupersede]
  · have hnil : later = [] := List.eq_nil_iff_forall_not_mem.mpr fun task htask =>
      hreplan ((hlater task htask).imp fun _ h => h.1)
    rw [hstep, hnil, List.append_nil, map_id_of_kept hkept]
    exact hids

theorem runSeats_step (r : TeamRun) (now : Nat) {o : TeamOp} (ho : o.keepsBooks) :
    ((r.step (now, o)).tlThreadId, (r.step (now, o)).tlSuccession,
      (r.step (now, o)).runOwnedThreadIds, (r.step (now, o)).mrDevThreadId) =
      (r.tlThreadId, r.tlSuccession, r.runOwnedThreadIds, r.mrDevThreadId) := by
  cases o with
  | replanSubTasks planned => rfl
  | reviveSubTasks only =>
    simp only [step, reviveSubTasks]
    split_ifs <;> rfl
  | holdPhaseForWaitingSubTasks =>
    simp only [step, holdPhaseForWaitingSubTasks]
    split_ifs <;> rfl
  | rollbackCurrentRound =>
    simp only [step, rollbackCurrentRound]
    split <;> rfl
  | _ => simp [TeamOp.keepsBooks] at ho

theorem getElem?_step {r : TeamRun} {o : Nat × TeamOp} (ho : o.2.keepsBooks) {index : Nat}
    {task : SubTask} (htask : r.subTasks[index]? = some task) :
    ∃ after, (r.step o).subTasks[index]? = some after ∧ Kept o.2 task after := by
  obtain ⟨kept, later, hstep, hkept, -⟩ := subTasks_step r o.1 ho
  obtain ⟨hindex, rfl⟩ := List.getElem?_eq_some_iff.mp htask
  have hlength : index < kept.length := hkept.length_eq ▸ hindex
  refine ⟨kept[index], ?_, (List.forall₂_iff_get.mp hkept).2 index hindex hlength⟩
  rw [hstep, List.getElem?_append_left hlength, List.getElem?_eq_getElem hlength]

theorem mem_step {r : TeamRun} {o : Nat × TeamOp} (ho : o.2.keepsBooks) {after : SubTask}
    (hafter : after ∈ (r.step o).subTasks) :
    (∃ task ∈ r.subTasks, Kept o.2 task after) ∨
      ∃ planned, o.2 = .replanSubTasks planned ∧
        ∃ entry ∈ planned, ∃ id, after = { entry.1 with id := id, cycle := r.reopenedCount } := by
  obtain ⟨kept, later, hstep, hkept, hlater⟩ := subTasks_step r o.1 ho
  rw [hstep, List.mem_append] at hafter
  rcases hafter with hmem | hmem
  · obtain ⟨index, hindex, rfl⟩ := List.getElem_of_mem hmem
    have hlength : index < r.subTasks.length := hkept.length_eq ▸ hindex
    exact .inl ⟨_, List.getElem_mem hlength,
      (List.forall₂_iff_get.mp hkept).2 index hlength hindex⟩
  · exact .inr (hlater after hmem)

structure Extends (earlier later : TeamRun) : Prop where
  records : ∀ (index : Nat) task, earlier.subTasks[index]? = some task →
    ∃ after, later.subTasks[index]? = some after ∧ after.record = task.record ∧
      (after.devThreadId = task.devThreadId ∨ after.devThreadId = none)
  runSeats : (later.tlThreadId, later.tlSuccession, later.runOwnedThreadIds, later.mrDevThreadId) =
    (earlier.tlThreadId, earlier.tlSuccession, earlier.runOwnedThreadIds, earlier.mrDevThreadId)

theorem Extends.refl (r : TeamRun) : r.Extends r :=
  ⟨fun _ task htask => ⟨task, htask, rfl, .inl rfl⟩, rfl⟩

theorem Extends.step {r s : TeamRun} (h : r.Extends s) {o : Nat × TeamOp} (ho : o.2.keepsBooks) :
    r.Extends (s.step o) := by
  refine ⟨fun index task htask => ?_, (runSeats_step s o.1 ho).trans h.runSeats⟩
  obtain ⟨between, hbetween, hrecord, hdev⟩ := h.records index task htask
  obtain ⟨after, hafter, hkept⟩ := getElem?_step ho hbetween
  refine ⟨after, hafter, hkept.record.trans hrecord, ?_⟩
  rcases hkept.dev with hsame | hnone
  · rwa [hsame]
  · exact .inr hnone

theorem extends_run (r : TeamRun) {ops : List (Nat × TeamOp)} (hops : ∀ o ∈ ops, o.2.keepsBooks) :
    r.Extends (run step r ops) := by
  induction ops using List.reverseRecOn with
  | nil => exact .refl r
  | append_singleton ops o ih =>
    rw [run_concat]
    refine (ih fun o' ho' => hops o' (List.mem_append_left _ ho')).step (hops o ?_)
    exact List.mem_append_right _ (List.mem_singleton_self o)

theorem Extends.mem_ownedThreadIds {r s : TeamRun} (h : r.Extends s)
    (hrecorded : ∀ task ∈ r.subTasks, task.DevRecorded) {id : String}
    (hid : id ∈ r.ownedThreadIds) : id ∈ s.ownedThreadIds := by
  rw [TeamRun.mem_ownedThreadIds] at hid ⊢
  refine ⟨hid.1, ?_⟩
  obtain ⟨htl, hsuccession, howned, hmrDev⟩ := by simpa only [Prod.mk.injEq] using h.runSeats
  have hmem := hid.2
  simp only [ownedSeats, List.mem_append, htl, hsuccession, howned, hmrDev] at hmem ⊢
  refine hmem.imp_right fun hseat => ?_
  obtain ⟨task, htask, hid⟩ := List.mem_flatMap.mp hseat
  obtain ⟨index, hindex⟩ := List.getElem?_of_mem htask
  obtain ⟨after, hafter, hrecord, -⟩ := h.records index task hindex
  have hownedIds : after.ownedThreadIds = task.ownedThreadIds :=
    congrArg (fun task => task.ownedThreadIds) hrecord
  have hreviewer : after.reviewerThreadId = task.reviewerThreadId :=
    congrArg (fun task => task.reviewerThreadId) hrecord
  refine List.mem_flatMap.mpr ⟨after, List.mem_of_getElem? hafter, ?_⟩
  simp only [List.mem_append, Option.mem_toList, hownedIds, hreviewer] at hid ⊢
  rcases hid with (hid | hid) | hid
  · exact .inl (.inl hid)
  · exact .inl (.inl (hrecorded task htask id hid))
  · exact .inr hid

theorem currentSubTask_retired {r : TeamRun} (h : ∀ task ∈ r.subTasks, task.Retired) {index : Nat}
    {task : SubTask} (hcurrent : r.currentSubTask = some index)
    (htask : r.subTasks[index]? = some task) : task.status ≠ .superseded := by
  obtain ⟨hindex, hselected, -⟩ := List.findIdx?_eq_some_iff_getElem.mp hcurrent
  obtain ⟨-, rfl⟩ := List.getElem?_eq_some_iff.mp htask
  intro hsuperseded
  have hdigested := h _ (List.getElem_mem hindex) hsuperseded
  simp [hsuperseded, SubTaskStatus.isTerminal, hdigested] at hselected

theorem phase_holdPhaseForWaitingSubTasks (r : TeamRun) (now : Nat)
    (hwaiting : (r.holdPhaseForWaitingSubTasks now).1.currentSubTask.isSome) :
    (r.holdPhaseForWaitingSubTasks now).1.phase ∉
      ([.mrGate, .wrapping, .finished] : List TeamPhase) := by
  unfold holdPhaseForWaitingSubTasks at hwaiting ⊢
  split_ifs at hwaiting ⊢ with hclosing
  · simp
  · simp only [List.mem_cons, List.not_mem_nil, or_false]
    exact fun hphase => hclosing ⟨hphase, hwaiting⟩

/-- The books of the sub-tasks lose nothing. Ids stay distinct, every record stays in its place,
what ended changes only by a revival that takes it, what was replaced is not worked on, threads
once owned stay owned, and a closing phase does not stand over waiting work. -/
theorem bookkeeping_losesNothing (r : TeamRun) (ops : List (Nat × TeamOp))
    (hops : ∀ o ∈ ops, o.2.keepsBooks) (hids : (r.subTasks.map (·.id)).Nodup)
    (hmints : Along step freshMints r ops) :
    Always step (fun s => (s.subTasks.map (·.id)).Nodup) r ops ∧
      (∀ (index : Nat) task, r.subTasks[index]? = some task → ∃ after,
        (run step r ops).subTasks[index]? = some after ∧ after.record = task.record) ∧
      Along step (fun s o => ∀ (index : Nat) task, s.subTasks[index]? = some task →
        task.status.isTerminal → ¬o.2.Revives task →
          (s.step o).subTasks[index]? = some task) r ops ∧
      ((∀ task ∈ r.subTasks, task.Retired) →
        (∀ o ∈ ops, ∀ planned, o.2 = .replanSubTasks planned → ∀ entry ∈ planned,
          entry.1.Retired) →
        Always step (fun s => ∀ (index : Nat) task, s.currentSubTask = some index →
          s.subTasks[index]? = some task → task.status ≠ .superseded) r ops) ∧
      ((∀ task ∈ r.subTasks, task.DevRecorded) →
        ∀ id ∈ r.ownedThreadIds, id ∈ (run step r ops).ownedThreadIds) ∧
      Along step (fun s o => o.2 = .holdPhaseForWaitingSubTasks →
        (s.step o).currentSubTask.isSome →
          (s.step o).phase ∉ ([.mrGate, .wrapping, .finished] : List TeamPhase)) r ops := by
  have hall : Along step (fun _ _ => True) r ops := along_of_forall (fun _ _ => trivial) r ops
  have hbooks := (hall.and_mem hops).mono fun _ _ h => h.2
  have hextends := r.extends_run hops
  refine ⟨?_, ?_, ?_, ?_, fun hrecorded id hid => hextends.mem_ownedThreadIds hrecorded hid, ?_⟩
  · exact always_of_step (I := fun s => (s.subTasks.map (·.id)).Nodup)
      (fun s o hs ho => nodup_step ho.1 hs ho.2) hids (along_and hbooks hmints)
  · intro index task htask
    obtain ⟨after, hafter, hrecord, -⟩ := hextends.records index task htask
    exact ⟨after, hafter, hrecord⟩
  · refine hbooks.mono fun s o ho index task htask hterminal hrevives => ?_
    obtain ⟨after, hafter, hkept⟩ := getElem?_step ho htask
    rw [hafter, hkept.outcome hterminal hrevives]
  · intro hretired hplanned
    refine Always.mono (P := fun s => ∀ task ∈ s.subTasks, task.Retired) ?_
      fun s hs index task => currentSubTask_retired hs
    refine always_of_step (fun s o hs ho after hafter => ?_) hretired (hbooks.and_mem hplanned)
    rcases mem_step ho.1 hafter with ⟨task, htask, hkept⟩ | ⟨planned, hreplan, entry, hentry, hnew⟩
    · exact hkept.retired (hs task htask)
    · obtain ⟨id, rfl⟩ := hnew
      exact ho.2 planned hreplan entry hentry
  · refine along_of_forall (fun s o hhold hwaiting => ?_) r ops
    obtain ⟨now, o⟩ := o
    obtain rfl : o = .holdPhaseForWaitingSubTasks := hhold
    exact phase_holdPhaseForWaitingSubTasks s now hwaiting

def reopenedAtGate : TeamRun where
  status := .running
  phase := .mrGate
  reopenedCount := 1
  subTasks := [
    { id := "st-1", status := .done, digested := true, devThreadId := some "dev-1"
      ownedThreadIds := ["dev-1"] },
    { id := "st-2", status := .implementing }]

/-- A new plan under an id in use, a rerun of the finished sub-task and what follows a turn. -/
def replanAndRerun : List (Nat × TeamOp) :=
  [(1, .replanSubTasks [({ id := "st-1" }, "st-3")]), (2, .reviveSubTasks (some ["st-1"])),
    (3, .holdPhaseForWaitingSubTasks), (4, .rollbackCurrentRound)]

theorem bookkeeping_losesNothing_replanAndRerun :
    ((run step reopenedAtGate replanAndRerun).subTasks.map (·.id)).Nodup ∧
      "dev-1" ∈ (run step reopenedAtGate replanAndRerun).ownedThreadIds := by
  have hmints : Along step freshMints reopenedAtGate replanAndRerun :=
    ⟨by simp only [freshMints]; decide +kernel, trivial, trivial, trivial, trivial⟩
  have h := bookkeeping_losesNothing reopenedAtGate replanAndRerun (by decide +kernel)
    (by decide +kernel) hmints
  refine ⟨h.1.last, h.2.2.2.2.1 ?_ "dev-1" (by decide +kernel)⟩
  simp [reopenedAtGate, SubTask.DevRecorded]

/-- A record written by hand: a replaced sub-task that no report was given about. -/
def replacedUndigested : TeamRun where
  status := .running
  phase := .subTasks
  subTasks := [{ id := "st-1", status := .superseded }]

theorem replacedUndigested_selected :
    (replacedUndigested.subTasks.map (·.id)).Nodup ∧
      ¬Always step (fun s => ∀ (index : Nat) task, s.currentSubTask = some index →
        s.subTasks[index]? = some task → task.status ≠ .superseded)
        replacedUndigested [(1, .rollbackCurrentRound)] := by
  refine ⟨by decide, fun h => ?_⟩
  exact h.last 0 { id := "st-1", status := .superseded } (by decide) rfl rfl

end TeamRun
end AgentRelay.Team

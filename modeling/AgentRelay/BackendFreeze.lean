import AgentRelay.DriverProgress
import AgentRelay.RunRekey
import AgentRelay.SubTaskRecords

/-! The backend a run is driven by, from the first sign of work on. The guard of the relay looks
at the record before and after a closure; what the closure did to the rest of it stands. -/
namespace AgentRelay.Team

def TaskSpec.applyUpdates (spec : TaskSpec) (updates : Relay.TaskSpecUpdates) : TaskSpec where
  title := updates.title.getD spec.title
  context := updates.context.getD spec.context
  acceptanceCriteria := updates.acceptanceCriteria.getD spec.acceptanceCriteria
  agreedScope := updates.agreedScope.getD spec.agreedScope
  qualityRules := updates.qualityRules.getD spec.qualityRules

inductive TeamRole
  | tl
  | dev
  | reviewer
  deriving DecidableEq, Repr

def TeamRole.asStr : TeamRole → String
  | tl => "tl"
  | dev => "dev"
  | reviewer => "reviewer"

def TeamRunStatus.isReopenable : TeamRunStatus → Bool
  | done | escalated | interrupted | failed => true
  | _ => false

namespace TeamRun

def maxTlGenerations : Nat := 8

/-- Ask for a fresh lead; the first reason wins. -/
def requestTlReseed (now : Nat) (reason : String) (r : TeamRun) : TeamRun :=
  if r.tlReseedReason.isSome then r
  else { r with tlReseedReason := some reason, updatedAt := now }

def tlGenerationCount (r : TeamRun) : Nat := r.tlSuccession.length + 1

/-- Retire the lead, unless the chain of leads is at its cap. -/
def retireTl (now : Nat) (reason : String) (r : TeamRun) : TeamRun × Bool :=
  if r.tlGenerationCount ≥ maxTlGenerations then (r, false)
  else
    ({ r with
        tlSuccession :=
          if r.tlThreadId = "" then r.tlSuccession
          else r.tlSuccession ++ [⟨r.tlThreadId, reason, now⟩]
        tlThreadId := "", tlTurnsThisGeneration := 0, tlReseedReason := none
        updatedAt := now }, true)

def recordRunThread (now : Nat) (threadId : String) (r : TeamRun) : TeamRun :=
  if threadId = "" ∨ threadId ∈ r.runOwnedThreadIds then r
  else { r with runOwnedThreadIds := r.runOwnedThreadIds ++ [threadId], updatedAt := now }

def recordRunThreadRole (now : Nat) (threadId : String) (role : TeamRole) (r : TeamRun) :
    TeamRun :=
  if threadId = "" then r
  else
    { r with
      runOwnedThreadRoles := r.runOwnedThreadRoles.insert threadId role.asStr, updatedAt := now }

def reopen (updates : Relay.TaskSpecUpdates) (r : TeamRun) : TeamRun :=
  if r.status.isReopenable then
    { r with
      status := .paused, phase := .intake, spec := r.spec.applyUpdates updates
      reopenedCount := min (r.reopenedCount + 1) (2 ^ 32 - 1), error := none
      designReviewRounds := 0, mrRoundsUsed := 0, unresolved := [], mrVerdict := none
      designVerdict := none }
  else r

end TeamRun
end AgentRelay.Team

namespace AgentRelay.Orchestration
open Team StepRun

inductive RunChange
  | op (o : TeamOp)
  | rekeyThread (pendingId realId : String)
  | requestTlReseed (reason : String)
  | retireTl (reason : String)
  | recordRunThread (threadId : String)
  | recordRunThreadRole (threadId : String) (role : TeamRole)
  | detachUnresumableTl
  | setOrchestrationBackend (backend : Team.OrchestrationBackendRef)
  | reopen (updates : Relay.TaskSpecUpdates)

namespace DrivenRun

def orchestrationExecutionStarted (d : DrivenRun) : Bool :=
  d.run.status ≠ .queued
    || d.run.phase ≠ .intake
    || d.run.tlThreadId ≠ ""
    || !d.run.tlSuccession.isEmpty
    || !d.run.runOwnedThreadIds.isEmpty
    || d.run.mrDevThreadId.isSome
    || !d.run.subTasks.isEmpty
    || d.driverProgress.stateRevision ≠ 0
    || d.driverProgress.lastCommandSeq ≠ 0
    || d.driverProgress.lastEventSeq ≠ 0
    || d.driverProgress.inFlightCommandId.isSome
    || d.driverProgress.malformed
    || d.run.complex.isSome
    || d.run.designVerdict.isSome
    || d.run.mrVerdict.isSome
    || !d.run.unresolved.isEmpty
    || d.run.headCommit.isSome
    || d.run.awaiting.isSome
    || d.run.pauseRequested
    || d.run.stopping
    || d.run.error.isSome

def setOrchestrationBackend (now : Nat) (backend : Team.OrchestrationBackendRef)
    (d : DrivenRun) : DrivenRun × Except String Bool :=
  if d.run.orchestrationBackend = backend then (d, .ok false)
  else if d.orchestrationExecutionStarted then
    (d, .error "orchestration backend cannot change after execution begins")
  else
    ({ d with run := { d.run with orchestrationBackend := backend, updatedAt := now } }, .ok true)

/-- Apply one operation at the given clock reading. -/
def change (d : DrivenRun) : Nat × RunChange → DrivenRun
  | (now, .op o) => { d with run := d.run.step (now, o) }
  | (now, .rekeyThread pendingId realId) =>
    { d with run := (d.run.rekeyThread now pendingId realId).1 }
  | (now, .requestTlReseed reason) => { d with run := d.run.requestTlReseed now reason }
  | (now, .retireTl reason) => { d with run := (d.run.retireTl now reason).1 }
  | (now, .recordRunThread threadId) => { d with run := d.run.recordRunThread now threadId }
  | (now, .recordRunThreadRole threadId role) =>
    { d with run := d.run.recordRunThreadRole now threadId role }
  | (now, .detachUnresumableTl) => { d with run := d.run.detachUnresumableTl now }
  | (now, .setOrchestrationBackend backend) => (d.setOrchestrationBackend now backend).1
  | (_, .reopen updates) => { d with run := d.run.reopen updates }

/-- One save and one load: a lead without a session is detached, the progress goes through its
own loader and the run is reconciled. -/
def saveAndLoad (now : Nat) (d : DrivenRun) : DrivenRun :=
  let saved :=
    if Relay.isPendingId d.run.tlThreadId then d.run.detachUnresumableTl now else d.run
  { run := (saved.reconcileAfterRestore now).1
    driverProgress := d.driverProgress.reload.toOption.getD {} }

end DrivenRun

/-- The closure runs on the stored record; only a changed backend of a started run is undone. -/
def updateTeamRun (id : String) (update : DrivenRun → DrivenRun) (runs : Table DrivenRun) :
    Table DrivenRun × Bool :=
  match runs[id]? with
  | none => (runs, false)
  | some d =>
    let updated := update d
    if d.orchestrationExecutionStarted ∧
        updated.run.orchestrationBackend ≠ d.run.orchestrationBackend then
      let restored := { updated.run with orchestrationBackend := d.run.orchestrationBackend }
      (runs.insert id { updated with run := restored }, false)
    else (runs.insert id updated, true)

inductive RunsStep
  | apply (id : String) (now : Nat) (c : RunChange)
  | update (id : String) (changes : List (Nat × RunChange))
  | restart (now : Nat)

def stepRuns (runs : Table DrivenRun) : RunsStep → Table DrivenRun
  | .apply id now c =>
    match runs[id]? with
    | some d => runs.insert id (d.change (now, c))
    | none => runs
  | .update id changes => (updateTeamRun id (fun d => run DrivenRun.change d changes) runs).1
  | .restart now => runs.map fun _ d => d.saveAndLoad now

/-- Neither puts a run back in the queue nor gives a seat an empty id. -/
def RunChange.goesOn : RunChange → Prop
  | op (.setStatus status) => status ≠ .queued
  | rekeyThread _ realId => realId ≠ ""
  | _ => True

def RunsStep.goesOn : RunsStep → Prop
  | apply _ _ c => c.goesOn
  | update _ changes => ∀ c ∈ changes, c.2.goesOn
  | restart _ => True

namespace DrivenRun

/-- Work has begun, and not just as a question that was asked. -/
def Begun (d : DrivenRun) : Prop :=
  ({ d with run := { d.run with awaiting := none } } : DrivenRun).orchestrationExecutionStarted

section begun
variable {d : DrivenRun}

theorem begun_iff : d.Begun ↔
    ¬(d.run.status = .queued ∧ d.run.phase = .intake ∧ d.run.tlThreadId = "" ∧
      d.run.tlSuccession = [] ∧ d.run.runOwnedThreadIds = [] ∧ d.run.mrDevThreadId = none ∧
      d.run.subTasks = [] ∧ d.driverProgress.stateRevision = 0 ∧
      d.driverProgress.lastCommandSeq = 0 ∧ d.driverProgress.lastEventSeq = 0 ∧
      d.driverProgress.inFlightCommandId = none ∧ d.driverProgress.malformed = false ∧
      d.run.complex = none ∧ d.run.designVerdict = none ∧ d.run.mrVerdict = none ∧
      d.run.unresolved = [] ∧ d.run.headCommit = none ∧ d.run.pauseRequested = false ∧
      d.run.stopping = false ∧ d.run.error = none) := by
  simp only [Begun, orchestrationExecutionStarted, ← Bool.not_eq_false, Bool.or_eq_false_iff,
    decide_eq_false_iff_not, not_not, Bool.not_eq_false',
    Option.isSome_eq_false_iff, and_assoc]
  simp only [Bool.not_eq_false, List.isEmpty_iff, Option.isNone_iff_eq_none, true_and]

theorem Begun.started (h : d.Begun) : d.orchestrationExecutionStarted := by
  cases hawaiting : d.run.awaiting with
  | none =>
    have hsame : ({ d with run := { d.run with awaiting := none } } : DrivenRun) = d := by
      rw [← hawaiting]
    rwa [Begun, hsame] at h
  | some question => simp [orchestrationExecutionStarted, hawaiting]

theorem begun_of_status (h : d.run.status ≠ .queued) : d.Begun :=
  begun_iff.mpr fun hnone => h hnone.1

theorem begun_of_subTasks (h : d.run.subTasks ≠ []) : d.Begun :=
  begun_iff.mpr fun hnone => h hnone.2.2.2.2.2.2.1

theorem begun_of_error (h : d.run.error ≠ none) : d.Begun :=
  begun_iff.mpr fun hnone => h (by tauto)

theorem reconcileAfterRestore_not_queued (r : TeamRun) (now : Nat) :
    (r.reconcileAfterRestore now).1.status ≠ .queued := by
  intro hqueued
  rcases (r.reconciles_reconcileAfterRestore now).quiet with hterminal | ⟨hpaused, -⟩
  · simp [hqueued, TeamRunStatus.isTerminal] at hterminal
  · simp [hqueued] at hpaused

theorem begun_op (h : d.Begun) (now : Nat) (o : TeamOp) (ho : (RunChange.op o).goesOn) :
    (d.change (now, .op o)).Begun := by
  cases o with
  | setStatus status =>
    simp only [change, TeamRun.step, TeamRun.setStatus]
    split_ifs
    · exact begun_of_status ho
    · exact h
  | fail error =>
    simp only [change, TeamRun.step, TeamRun.fail, TeamRun.setStatus]
    split_ifs <;> first
      | exact h
      | exact begun_of_error (by simp)
  | block error | cancel reason =>
    simp only [change, TeamRun.step, TeamRun.block, TeamRun.cancel]
    split_ifs
    · exact h
    · exact begun_of_status (by simp)
  | requestPause deviceId | requestStop deviceId =>
    by_cases hmovable : d.run.isMovable
    · refine begun_of_status ?_
      have hwritten : TeamRun.isMovable { d.run with
          pauseRequested := true, pauseRequestedBy := deviceId } := hmovable
      simp [change, TeamRun.step, TeamRun.requestStop, TeamRun.requestPause, TeamRun.setStatus,
        hmovable, hwritten]
    · simpa [change, TeamRun.step, TeamRun.requestStop, TeamRun.requestPause, hmovable] using h
  | settlePaused reason kind | resume | beginResolvingBlocked | resolveAsPaused reason kind =>
    simp only [change, TeamRun.step, TeamRun.settlePaused, TeamRun.resume,
      TeamRun.beginResolvingBlocked, TeamRun.resolveAsPaused]
    split_ifs <;> first
      | exact h
      | exact begun_of_status (by simp)
  | forceMarkStatus status =>
    by_cases hother : status ≠ .done ∧ status ≠ .cancelled
    · simpa only [change, TeamRun.step, TeamRun.forceMarkStatus, if_pos hother] using h
    by_cases hsame : d.run.status = status
    · simpa only [change, TeamRun.step, TeamRun.forceMarkStatus, if_neg hother, if_pos hsame]
        using h
    · simp only [change, TeamRun.step, TeamRun.forceMarkStatus, if_neg hother, if_neg hsame]
      exact begun_of_status fun hqueued => hother (by simp_all)
  | restoreResolvingAsBlocked error =>
    simp only [change, TeamRun.step, TeamRun.restoreResolvingAsBlocked, TeamRun.block]
    split_ifs <;> first
      | exact h
      | exact begun_of_status (by simp)
  | markInterruptedIfStranded =>
    simp only [change, TeamRun.step, TeamRun.markInterruptedIfStranded]
    split_ifs
    · exact h
    · exact begun_of_status (by simp)
  | reconcileAfterRestore =>
    exact begun_of_status (reconcileAfterRestore_not_queued d.run now)
  | rollbackCurrentRound =>
    by_cases htasks : d.run.subTasks = []
    · have hcurrent : d.run.currentSubTask = none := by simp [TeamRun.currentSubTask, htasks]
      simpa [change, TeamRun.step, TeamRun.rollbackCurrentRound, hcurrent, Begun,
        orchestrationExecutionStarted] using h
    · refine begun_of_subTasks ?_
      simp only [change, TeamRun.step, TeamRun.rollbackCurrentRound]
      split
      · exact htasks
      · rwa [Ne, List.modify_eq_nil_iff]
  | reviveSubTasks only =>
    by_cases hany : d.run.subTasks.any (TeamRun.selectsForRevival only)
    · simp only [change, TeamRun.step, TeamRun.reviveSubTasks, if_pos hany]
      refine begun_of_subTasks fun hnone => ?_
      rw [List.map_eq_nil_iff.mp hnone] at hany
      simp at hany
    · simpa only [change, TeamRun.step, TeamRun.reviveSubTasks, if_neg hany] using h
  | replanSubTasks planned =>
    by_cases htasks : (d.run.replanSubTasks now planned).subTasks = []
    · obtain ⟨later, hfold, -⟩ := TeamRun.foldl_appendPlanned d.run.reopenedCount planned
        (d.run.subTasks.map TeamRun.supersede)
      have hbefore : d.run.subTasks = [] := by
        rw [TeamRun.replanSubTasks, hfold] at htasks
        simpa using (List.append_eq_nil_iff.mp htasks).1
      rw [TeamRun.replanSubTasks, hbefore] at htasks
      rw [begun_iff] at h ⊢
      simpa only [change, TeamRun.step, TeamRun.replanSubTasks, htasks, hbefore] using h
    · exact begun_of_subTasks htasks
  | holdPhaseForWaitingSubTasks =>
    simp only [change, TeamRun.step, TeamRun.holdPhaseForWaitingSubTasks]
    split_ifs
    · exact begun_iff.mpr fun hnone => by simp at hnone
    · exact h

theorem begun_change (h : d.Begun) {c : Nat × RunChange} (hc : c.2.goesOn) :
    (d.change c).Begun := by
  obtain ⟨now, c⟩ := c
  cases c with
  | op o => exact begun_op h now o hc
  | rekeyThread pendingId realId =>
    simp only [change, TeamRun.rekeyThread]
    split_ifs with hsame hmem
    · exact h
    · simp only [not_or] at hsame
      rw [begun_iff] at h ⊢
      simpa only [TeamRun.swapThread_eq_empty hsame.1 hc, List.map_eq_nil_iff,
        Option.map_eq_none_iff] using h
    · exact h
  | requestTlReseed reason | recordRunThreadRole threadId role =>
    simp only [change, TeamRun.requestTlReseed, TeamRun.recordRunThreadRole]
    split_ifs <;> exact h
  | retireTl reason =>
    by_cases hcap : d.run.tlGenerationCount ≥ TeamRun.maxTlGenerations
    · simpa only [change, TeamRun.retireTl, if_pos hcap] using h
    simp only [change, TeamRun.retireTl, if_neg hcap]
    by_cases htl : d.run.tlThreadId = ""
    · rw [begun_iff] at h ⊢
      simpa only [htl, if_true] using h
    · exact begun_iff.mpr fun hnone => by simp [htl] at hnone
  | recordRunThread threadId =>
    simp only [change, TeamRun.recordRunThread]
    split_ifs
    · exact h
    · exact begun_iff.mpr fun hnone => by simp at hnone
  | detachUnresumableTl =>
    simp only [change, TeamRun.detachUnresumableTl]
    split_ifs with hterminal
    · refine begun_of_status fun hqueued => ?_
      simp only at hqueued
      simp [hqueued, TeamRunStatus.isTerminal] at hterminal
    · exact begun_of_status (by simp)
  | setOrchestrationBackend backend =>
    simp only [change, setOrchestrationBackend]
    split_ifs
    · exact h
    · exact h
    · exact h
  | reopen updates =>
    simp only [change, TeamRun.reopen]
    split_ifs
    · exact begun_of_status (by simp)
    · exact h

theorem begun_saveAndLoad (d : DrivenRun) (now : Nat) : (d.saveAndLoad now).Begun :=
  begun_of_status (reconcileAfterRestore_not_queued _ now)

theorem begun_run (h : d.Begun) {changes : List (Nat × RunChange)}
    (hchanges : ∀ c ∈ changes, c.2.goesOn) : (StepRun.run change d changes).Begun := by
  induction changes generalizing d with
  | nil => exact h
  | cons c changes ih =>
    exact ih (begun_change h (hchanges c List.mem_cons_self))
      fun c' hc' => hchanges c' (List.mem_cons_of_mem c hc')

theorem begun_restored (h : d.Begun) (backend : Team.OrchestrationBackendRef) :
    ({ d with run := { d.run with orchestrationBackend := backend } } : DrivenRun).Begun := h

end begun

section backend
variable {d : DrivenRun}

theorem backend_step (r : TeamRun) (now : Nat) (o : TeamOp) :
    (r.step (now, o)).orchestrationBackend = r.orchestrationBackend := by
  cases o with
  | reconcileAfterRestore =>
    exact (r.reconciles_reconcileAfterRestore now).sameWork.backend
  | rollbackCurrentRound =>
    simp only [TeamRun.step, TeamRun.rollbackCurrentRound]
    split <;> rfl
  | replanSubTasks planned => rfl
  | fail error | requestPause deviceId | requestStop deviceId =>
    simp only [TeamRun.step, TeamRun.fail, TeamRun.requestStop, TeamRun.requestPause,
      TeamRun.setStatus]
    split_ifs <;> rfl
  | _ =>
    simp only [TeamRun.step, TeamRun.setStatus, TeamRun.block, TeamRun.settlePaused,
      TeamRun.resume, TeamRun.cancel, TeamRun.forceMarkStatus, TeamRun.beginResolvingBlocked,
      TeamRun.resolveAsPaused, TeamRun.restoreResolvingAsBlocked,
      TeamRun.markInterruptedIfStranded, TeamRun.reviveSubTasks,
      TeamRun.holdPhaseForWaitingSubTasks]
    split_ifs <;> rfl

theorem backend_detachUnresumableTl (r : TeamRun) (now : Nat) :
    (r.detachUnresumableTl now).orchestrationBackend = r.orchestrationBackend := by
  unfold TeamRun.detachUnresumableTl
  dsimp only
  split_ifs <;> rfl

theorem backend_change (h : d.Begun) (c : Nat × RunChange) :
    (d.change c).run.orchestrationBackend = d.run.orchestrationBackend := by
  obtain ⟨now, c⟩ := c
  cases c with
  | op o => exact backend_step d.run now o
  | rekeyThread pendingId realId =>
    simp only [change, TeamRun.rekeyThread]
    split_ifs <;> rfl
  | detachUnresumableTl => exact backend_detachUnresumableTl d.run now
  | setOrchestrationBackend backend =>
    simp only [change, setOrchestrationBackend, if_pos h.started]
    split_ifs <;> rfl
  | requestTlReseed reason | retireTl reason | recordRunThread threadId
  | recordRunThreadRole threadId role | reopen updates =>
    simp only [change, TeamRun.requestTlReseed, TeamRun.retireTl, TeamRun.recordRunThread,
      TeamRun.recordRunThreadRole, TeamRun.reopen]
    split_ifs <;> rfl

theorem backend_saveAndLoad (d : DrivenRun) (now : Nat) :
    (d.saveAndLoad now).run.orchestrationBackend = d.run.orchestrationBackend := by
  unfold saveAndLoad
  dsimp only
  rw [(TeamRun.reconciles_reconcileAfterRestore _ now).sameWork.backend]
  split_ifs
  · exact backend_detachUnresumableTl d.run now
  · rfl

end backend

end DrivenRun

section guard
variable {id : String} {runs : Table DrivenRun} {d : DrivenRun}

theorem updateTeamRun_refused (hd : runs[id]? = some d) {update : DrivenRun → DrivenRun}
    (hrefused : (updateTeamRun id update runs).2 = false) :
    d.orchestrationExecutionStarted ∧ (updateTeamRun id update runs).1[id]? =
      some { update d with
        run := { (update d).run with orchestrationBackend := d.run.orchestrationBackend } } := by
  simp only [updateTeamRun, hd] at hrefused ⊢
  split_ifs at hrefused ⊢ with hguard
  · exact ⟨hguard.1, by simp⟩

theorem updateTeamRun_backend (hd : runs[id]? = some d) (hstarted : d.orchestrationExecutionStarted)
    (update : DrivenRun → DrivenRun) : ∃ stored,
      (updateTeamRun id update runs).1[id]? = some stored ∧ stored.run.orchestrationBackend =
        d.run.orchestrationBackend := by
  simp only [updateTeamRun, hd, hstarted, true_and]
  split_ifs with hbackend
  · exact ⟨_, Std.ExtTreeMap.getElem?_insert_self, rfl⟩
  · exact ⟨_, Std.ExtTreeMap.getElem?_insert_self, not_not.mp hbackend⟩

theorem updateTeamRun_other {other : String} (hne : other ≠ id) (update : DrivenRun → DrivenRun) :
    (updateTeamRun other update runs).1[id]? = runs[id]? := by
  unfold updateTeamRun
  split
  · rfl
  · dsimp only
    split_ifs <;> simp [Table.getElem?_insert_of, hne.symm]

theorem stepRuns_begun (hd : runs[id]? = some d) (h : d.Begun) {s : RunsStep} (hs : s.goesOn) :
    ∃ next, (stepRuns runs s)[id]? = some next ∧ next.Begun ∧
      next.run.orchestrationBackend = d.run.orchestrationBackend := by
  cases s with
  | apply other now c =>
    by_cases heq : other = id
    · subst heq
      exact ⟨d.change (now, c), by simp [stepRuns, hd],
        DrivenRun.begun_change (c := (now, c)) h hs, DrivenRun.backend_change h (now, c)⟩
    · refine ⟨d, ?_, h, rfl⟩
      simp only [stepRuns]
      split
      · simp [Table.getElem?_insert_of, Ne.symm heq, hd]
      · exact hd
  | update other changes =>
    by_cases heq : other = id
    · subst heq
      have hrun := DrivenRun.begun_run h hs
      obtain ⟨stored, hstored, hbackend⟩ :=
        updateTeamRun_backend hd h.started (fun d => run DrivenRun.change d changes)
      refine ⟨stored, hstored, ?_, hbackend⟩
      simp only [updateTeamRun, hd] at hstored
      split_ifs at hstored <;> simp only [Table.getElem?_insert_of, if_true, Option.some.injEq]
        at hstored <;> subst hstored
      · exact DrivenRun.begun_restored hrun _
      · exact hrun
    · exact ⟨d, (updateTeamRun_other heq _).trans hd, h, rfl⟩
  | restart now =>
    refine ⟨d.saveAndLoad now, ?_, d.begun_saveAndLoad now, d.backend_saveAndLoad now⟩
    simp [stepRuns, hd]

end guard

/-- Once work has begun it stays begun and its backend stays what it is, over every run of
operations, closures and restarts; and a refusal undoes the backend alone. -/
theorem backendPin_frozen (runs : Table DrivenRun) (id : String) (d : DrivenRun)
    (hd : runs[id]? = some d) :
    (d.Begun → ∀ steps : List RunsStep, (∀ s ∈ steps, s.goesOn) →
      Always stepRuns (fun runs => ∃ later, runs[id]? = some later ∧
        later.orchestrationExecutionStarted ∧
        later.run.orchestrationBackend = d.run.orchestrationBackend) runs steps) ∧
      (d.orchestrationExecutionStarted → ∀ update : DrivenRun → DrivenRun,
        ∃ later, (updateTeamRun id update runs).1[id]? = some later ∧
          later.run.orchestrationBackend = d.run.orchestrationBackend) ∧
      ∀ update : DrivenRun → DrivenRun, (updateTeamRun id update runs).2 = false →
        d.orchestrationExecutionStarted ∧ (updateTeamRun id update runs).1[id]? =
          some { update d with
            run := { (update d).run with
              orchestrationBackend := d.run.orchestrationBackend } } := by
  refine ⟨fun hbegun steps hsteps => ?_, fun hstarted => updateTeamRun_backend hd hstarted,
    fun update hrefused => updateTeamRun_refused hd hrefused⟩
  let Kept (runs : Table DrivenRun) : Prop := ∃ later, runs[id]? = some later ∧ later.Begun ∧
    later.run.orchestrationBackend = d.run.orchestrationBackend
  have hall : Along stepRuns (fun _ _ => True) runs steps :=
    along_of_forall (fun _ _ => trivial) runs steps
  have hkept : Always stepRuns Kept runs steps := by
    refine always_of_step (fun runs s ⟨later, hlater, hbegun, hbackend⟩ hs => ?_)
      ⟨d, hd, hbegun, rfl⟩ (hall.and_mem hsteps)
    obtain ⟨next, hnext, hbegun', hbackend'⟩ := stepRuns_begun hlater hbegun hs.2
    exact ⟨next, hnext, hbegun', hbackend'.trans hbackend⟩
  exact hkept.mono fun runs ⟨later, hlater, hbegun, hbackend⟩ =>
    ⟨later, hlater, hbegun.started, hbackend⟩

def runningRun : DrivenRun where run := { id := "t1", status := .running }

theorem backendPin_frozen_runningRun :
    Always stepRuns (fun runs => ∃ later, runs["t1"]? = some later ∧
      later.orchestrationExecutionStarted ∧ later.run.orchestrationBackend = .legacyEmbedded)
      (Std.ExtTreeMap.insert ∅ "t1" runningRun)
      [.update "t1" [(1, .op (.settlePaused "paused by the user" .user))], .restart 2,
        .apply "t1" 3 (.op .resume), .apply "t1" 4 (.setOrchestrationBackend
          (.localSidecar 1 "driver.1"))] := by
  have hd : (Std.ExtTreeMap.insert ∅ "t1" runningRun : Table DrivenRun)["t1"]? = some runningRun :=
    Std.ExtTreeMap.getElem?_insert_self
  refine (backendPin_frozen _ "t1" runningRun hd).1 (DrivenRun.begun_of_status (by decide)) _ ?_
  simp [RunsStep.goesOn, RunChange.goesOn]

/-- A retarget of the backend, with the move to the next phase beside it. -/
def retargetAtGate (d : DrivenRun) : DrivenRun :=
  { d with
    run := { d.run with
      orchestrationBackend := .localSidecar 1 "driver.1", phase := .mrGate } }

def queuedQuestion : DrivenRun where
  run := { id := "t1", status := .queued, awaiting := some ⟨"session-1", "request-1", "dev", 1⟩ }

def queuedLead : DrivenRun where
  run := { id := "t1", status := .queued, tlThreadId := "claude-pending-1" }

/-- A refused update keeps the phase its closure wrote; dropping the only question of a queued task
takes its start back, and so does a lead renamed to nothing. -/
theorem refusal_and_start_do_not_hold :
    (∃ runs : Table DrivenRun, runs["t1"]? = some runningRun ∧
      (updateTeamRun "t1" retargetAtGate runs).2 = false ∧
      ∃ stored, (updateTeamRun "t1" retargetAtGate runs).1["t1"]? = some stored ∧
        runningRun.run.phase = .intake ∧ stored.run.phase = .mrGate) ∧
      queuedQuestion.orchestrationExecutionStarted ∧
      ¬(queuedQuestion.change (1, .op .rollbackCurrentRound)).orchestrationExecutionStarted ∧
      queuedLead.orchestrationExecutionStarted ∧
      ¬(queuedLead.change
        (1, .rekeyThread "claude-pending-1" "")).orchestrationExecutionStarted := by
  refine ⟨⟨Std.ExtTreeMap.insert ∅ "t1" runningRun, Std.ExtTreeMap.getElem?_insert_self, ?_⟩,
    by decide +kernel, by decide +kernel, by decide +kernel, by decide +kernel⟩
  have hd : (Std.ExtTreeMap.insert ∅ "t1" runningRun : Table DrivenRun)["t1"]? = some runningRun :=
    Std.ExtTreeMap.getElem?_insert_self
  have hguard : runningRun.orchestrationExecutionStarted ∧
      (retargetAtGate runningRun).run.orchestrationBackend ≠
        runningRun.run.orchestrationBackend := by decide +kernel
  simp only [updateTeamRun, hd, if_pos hguard]
  exact ⟨trivial, _, Std.ExtTreeMap.getElem?_insert_self, rfl, rfl⟩

end AgentRelay.Orchestration

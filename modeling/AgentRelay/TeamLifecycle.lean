import AgentRelay.StepRun
import AgentRelay.TeamRun

namespace AgentRelay.Team
open StepRun

inductive TeamOp
  | setStatus (status : TeamRunStatus)
  | fail (error : String)
  | block (error : String)
  | requestPause (deviceId : String)
  | requestStop (deviceId : String)
  | settlePaused (reason : String) (kind : TeamPauseKind)
  | resume
  | cancel (reason : String)
  | forceMarkStatus (status : TeamRunStatus)
  | beginResolvingBlocked
  | resolveAsPaused (reason : String) (kind : TeamPauseKind)
  | restoreResolvingAsBlocked (error : String)
  | markInterruptedIfStranded
  | reconcileAfterRestore
  | rollbackCurrentRound
  | reviveSubTasks (only : Option (List String))
  | replanSubTasks (planned : List (SubTask × String))
  | holdPhaseForWaitingSubTasks

def TeamOp.isDriverWrite : TeamOp → Bool
  | setStatus _ | fail _ | requestPause _ | requestStop _ | settlePaused .. => true
  | _ => false

namespace TeamRun

/-- Apply one operation at the given clock reading. -/
def step (r : TeamRun) : Nat × TeamOp → TeamRun
  | (now, .setStatus status) => r.setStatus now status
  | (now, .fail error) => r.fail now error
  | (now, .block error) => r.block now error
  | (now, .requestPause deviceId) => r.requestPause now deviceId
  | (now, .requestStop deviceId) => r.requestStop now deviceId
  | (now, .settlePaused reason kind) => (r.settlePaused now reason kind).1
  | (now, .resume) => (r.resume now).1
  | (now, .cancel reason) => (r.cancel now reason).1
  | (now, .forceMarkStatus status) => (r.forceMarkStatus now status).1
  | (now, .beginResolvingBlocked) => (r.beginResolvingBlocked now).1
  | (now, .resolveAsPaused reason kind) => (r.resolveAsPaused now reason kind).1
  | (now, .restoreResolvingAsBlocked error) => (r.restoreResolvingAsBlocked now error).1
  | (now, .markInterruptedIfStranded) => (r.markInterruptedIfStranded now).1
  | (now, .reconcileAfterRestore) => (r.reconcileAfterRestore now).1
  | (_, .rollbackCurrentRound) => r.rollbackCurrentRound
  | (now, .reviveSubTasks only) => (r.reviveSubTasks now only).1
  | (now, .replanSubTasks planned) => r.replanSubTasks now planned
  | (now, .holdPhaseForWaitingSubTasks) => (r.holdPhaseForWaitingSubTasks now).1

def pauseFields (r : TeamRun) : Bool × Bool × String × Option String × Option TeamPauseKind :=
  (r.pauseRequested, r.stopping, r.pauseRequestedBy, r.pauseReason, r.pauseKind)

end TeamRun

structure Lifecycle where
  status : TeamRunStatus
  pauseRequested : Bool
  stopping : Bool
  asked : Bool
  inFlight : Bool
  deriving DecidableEq, Repr

namespace Lifecycle

/-- Paused with nothing pending: no question, no turn, no stop. -/
def quiet (status : TeamRunStatus) : Lifecycle := ⟨status, false, false, false, false⟩

/-- The lifecycle automaton the record's operations implement; `executable` says
whether this build can drive the run's backend. -/
def step (executable : Bool) (l : Lifecycle) : TeamOp → Lifecycle
  | .setStatus status => if l.status.isSettled then l else { l with status := status }
  | .fail _ => if l.status.isSettled || l.stopping then l else { l with status := .failed }
  | .block _ =>
    if l.status.isTerminal then l else { l with stopping := false, status := .blocked }
  | .requestPause _ =>
    if l.status.isSettled then l else { l with pauseRequested := true, status := .pausePending }
  | .requestStop _ =>
    if l.status.isSettled then l
    else { l with pauseRequested := true, stopping := true, status := .pausePending }
  | .settlePaused .. => if l.status.isSettled then l else quiet .paused
  | .resume =>
    if l.status.isResumable then
      { l with pauseRequested := false, stopping := false, status := .running }
    else l
  | .cancel _ => if l.status.isTerminal then l else quiet .cancelled
  | .forceMarkStatus status =>
    if (status ≠ .done ∧ status ≠ .cancelled) ∨ l.status = status then l else quiet status
  | .beginResolvingBlocked =>
    if l.status = .blocked then { l with status := .resolving } else l
  | .resolveAsPaused .. =>
    if l.status = .resolving then { quiet .paused with asked := l.asked } else l
  | .restoreResolvingAsBlocked _ =>
    if l.status = .resolving then { l with stopping := false, status := .blocked } else l
  | .markInterruptedIfStranded =>
    if l.status.isTerminal || l.status.isResumable then l else { l with status := .interrupted }
  | .reconcileAfterRestore =>
    if l.status.isTerminal then l
    else match l.status with
    | .paused => { quiet .paused with inFlight := l.inFlight }
    | .pausePending | .awaitingUser => quiet .paused
    | _ =>
      if executable then { l with status := .interrupted }
      else { quiet .failed with inFlight := l.inFlight }
  | .rollbackCurrentRound => { l with asked := false }
  | .reviveSubTasks _ | .replanSubTasks _ | .holdPhaseForWaitingSubTasks => l

variable {executable : Bool} {l : Lifecycle} {o : TeamOp}

inductive Moves : TeamRunStatus → TeamOp → TeamRunStatus → Prop
  | stays (s : TeamRunStatus) (o : TeamOp) : Moves s o s
  | written {s t : TeamRunStatus} : ¬s.isSettled → Moves s (.setStatus t) t
  | driven {s t : TeamRunStatus} {o : TeamOp} :
      ¬s.isSettled → t = .failed ∨ t = .pausePending ∨ t = .paused → Moves s o t
  | stopped {s t : TeamRunStatus} {o : TeamOp} :
      ¬s.isTerminal → t = .blocked ∨ t.isTerminal → Moves s o t
  | resumed : Moves .paused .resume .running
  | forced {s t : TeamRunStatus} : t = .done ∨ t = .cancelled → Moves s (.forceMarkStatus t) t
  | recovering : Moves .blocked .beginResolvingBlocked .resolving
  | drained (reason : String) (kind : TeamPauseKind) :
      Moves .resolving (.resolveAsPaused reason kind) .paused

theorem step_moves (executable : Bool) (l : Lifecycle) (o : TeamOp) :
    Moves l.status o (l.step executable o).status := by
  cases o with
  | setStatus status =>
    simp only [step]
    split_ifs with h
    · exact .stays _ _
    · exact .written h
  | fail error =>
    simp only [step]
    split_ifs with h
    · exact .stays _ _
    · simp only [Bool.or_eq_true, not_or] at h
      exact .driven h.1 (.inl rfl)
  | requestPause deviceId | requestStop deviceId =>
    simp only [step]
    split_ifs with h
    · exact .stays _ _
    · exact .driven h (.inr (.inl rfl))
  | settlePaused reason kind =>
    simp only [step]
    split_ifs with h
    · exact .stays _ _
    · exact .driven h (.inr (.inr rfl))
  | block error =>
    simp only [step]
    split_ifs with h
    · exact .stays _ _
    · exact .stopped h (.inl rfl)
  | cancel reason =>
    simp only [step]
    split_ifs with h
    · exact .stays _ _
    · exact .stopped h (.inr rfl)
  | resume =>
    simp only [step]
    split_ifs with h
    · have hp : l.status = .paused := by
        cases hs : l.status <;> simp [hs, TeamRunStatus.isResumable] at h ⊢
      rw [hp]
      exact .resumed
    · exact .stays _ _
  | forceMarkStatus status =>
    simp only [step]
    split_ifs with h
    · exact .stays _ _
    · exact .forced (by tauto)
  | beginResolvingBlocked =>
    simp only [step]
    split_ifs with h
    · rw [h]
      exact .recovering
    · exact .stays _ _
  | resolveAsPaused reason kind =>
    simp only [step]
    split_ifs with h
    · rw [h]
      exact .drained reason kind
    · exact .stays _ _
  | restoreResolvingAsBlocked error =>
    simp only [step]
    split_ifs with h
    · exact .stopped (by simp [h, TeamRunStatus.isTerminal]) (.inl rfl)
    · exact .stays _ _
  | markInterruptedIfStranded =>
    simp only [step]
    split_ifs with h
    · exact .stays _ _
    · simp only [Bool.or_eq_true, not_or] at h
      exact .stopped h.1 (.inr rfl)
  | reconcileAfterRestore =>
    by_cases h : l.status.isTerminal
    · rw [step, if_pos h]
      exact .stays _ _
    · rw [step, if_neg h]
      split
      · rename_i hs
        rw [hs]
        exact .stays _ _
      · rename_i hs
        rw [hs]
        exact .driven (by decide) (.inr (.inr rfl))
      · rename_i hs
        rw [hs]
        exact .driven (by decide) (.inr (.inr rfl))
      · cases executable
        · exact .stopped h (.inr rfl)
        · exact .stopped h (.inr rfl)
  | rollbackCurrentRound | reviveSubTasks only | replanSubTasks planned
  | holdPhaseForWaitingSubTasks => exact .stays _ _

theorem Moves.terminal {s t : TeamRunStatus} {o : TeamOp} (h : Moves s o t)
    (hs : s.isTerminal) :
    t = s ∨ ∃ status, o = .forceMarkStatus status ∧
      (status = .done ∨ status = .cancelled) ∧ t = status := by
  have hsettled : s.isSettled := by simp [TeamRunStatus.isSettled, hs]
  cases h with
  | stays => exact .inl rfl
  | written h | driven h => exact absurd hsettled h
  | stopped h => exact absurd hs h
  | forced h => exact .inr ⟨t, rfl, h, rfl⟩
  | resumed | recovering | drained => simp [TeamRunStatus.isTerminal] at hs

theorem Moves.unsettles {s t : TeamRunStatus} {o : TeamOp} (h : Moves s o t)
    (hs : s.isSettled) (ht : ¬t.isSettled) : o = .resume ∧ s = .paused := by
  cases h with
  | stays => exact absurd hs ht
  | written h | driven h => exact absurd hs h
  | stopped _ h =>
    obtain rfl | h := h
    · exact absurd rfl ht
    · simp [TeamRunStatus.isSettled, h] at ht
  | resumed => exact ⟨rfl, rfl⟩
  | forced h =>
    obtain rfl | rfl := h <;> exact absurd rfl ht
  | recovering | drained => exact absurd rfl ht

theorem Moves.to_resolving {s : TeamRunStatus} {o : TeamOp} (h : Moves s o .resolving) :
    s = .resolving ∨ s = .blocked ∨ (o = .setStatus .resolving ∧ ¬s.isSettled) := by
  cases h with
  | stays => exact .inl rfl
  | written h => exact .inr (.inr ⟨rfl, h⟩)
  | recovering => exact .inr (.inl rfl)
  | driven _ h => simp at h
  | stopped _ h => simp [TeamRunStatus.isTerminal] at h
  | forced h => simp at h

theorem step_paused (executable : Bool) (l : Lifecycle) (o : TeamOp)
    (hl : l.status = .paused → l = quiet .paused)
    (h : (l.step executable o).status = .paused) :
    l.step executable o = quiet .paused ∨
    (l.status = .resolving ∧ (∃ reason kind, o = .resolveAsPaused reason kind) ∧
      l.step executable o = { quiet .paused with asked := l.asked }) ∨
    (¬l.status.isSettled ∧ o = .setStatus .paused ∧
      l.step executable o = { l with status := .paused }) := by
  cases o <;> grind [step, quiet, TeamRunStatus.isSettled, TeamRunStatus.isTerminal,
    TeamRunStatus.isSettledWithoutDriver, TeamRunStatus.isResumable]

theorem step_stopping (executable : Bool) (l : Lifecycle) (o : TeamOp)
    (hl : ¬l.status.isSettled) (h : l.stopping)
    (hw : ¬(l.step executable o).status.isSettled) : (l.step executable o).stopping := by
  cases o <;> grind [step, quiet, TeamRunStatus.isSettled, TeamRunStatus.isTerminal,
    TeamRunStatus.isSettledWithoutDriver, TeamRunStatus.isResumable]

end Lifecycle

namespace TeamRun

def lifecycle (r : TeamRun) : Lifecycle :=
  ⟨r.status, r.pauseRequested, r.stopping, r.awaiting.isSome, r.inFlightThread.isSome⟩

theorem isMovable_eq (r : TeamRun) : r.isMovable = !r.status.isSettled := rfl

theorem lifecycle_setStatus (now : Nat) (status : TeamRunStatus) (r : TeamRun) :
    (r.setStatus now status).lifecycle =
      if r.status.isSettled then r.lifecycle else { r.lifecycle with status := status } := by
  by_cases h : r.status.isSettled <;> simp [setStatus, isMovable_eq, lifecycle, h]

theorem lifecycle_settlePaused (now : Nat) (reason : String) (kind : TeamPauseKind)
    (r : TeamRun) : (r.settlePaused now reason kind).1.lifecycle =
      if r.status.isSettled then r.lifecycle else .quiet .paused := by
  by_cases h : r.status.isSettled <;>
    simp [settlePaused, isMovable_eq, lifecycle, Lifecycle.quiet, h]

theorem lifecycle_markInterruptedIfStranded (now : Nat) (r : TeamRun) :
    (r.markInterruptedIfStranded now).1.lifecycle =
      if r.status.isTerminal || r.status.isResumable then r.lifecycle
      else { r.lifecycle with status := .interrupted } := by
  by_cases h : r.status.isTerminal || r.status.isResumable <;>
    simp [markInterruptedIfStranded, lifecycle, h]

theorem lifecycle_noteNonExecutingBackend (r : TeamRun) :
    r.noteNonExecutingBackend.lifecycle = r.lifecycle := by
  unfold noteNonExecutingBackend appendRestoreError
  repeat' split
  all_goals rfl

theorem lifecycle_rollbackCurrentRound (r : TeamRun) :
    r.rollbackCurrentRound.lifecycle = { r.lifecycle with asked := false } := by
  unfold rollbackCurrentRound
  split <;> rfl

theorem lifecycle_reconcileAfterRestore (now : Nat) (r : TeamRun) :
    (r.reconcileAfterRestore now).1.lifecycle =
      r.lifecycle.step r.orchestrationBackend.isExecutableByCurrentBuild
        .reconcileAfterRestore := by
  have hnote := lifecycle_noteNonExecutingBackend r
  have hstatus : r.noteNonExecutingBackend.status = r.status :=
    congrArg Lifecycle.status hnote
  have hflight : r.noteNonExecutingBackend.inFlightThread.isSome = r.inFlightThread.isSome :=
    congrArg Lifecycle.inFlight hnote
  have hrolled : r.noteNonExecutingBackend.rollbackCurrentRound.status = r.status := by
    rw [← hstatus]
    exact congrArg Lifecycle.status (lifecycle_rollbackCurrentRound _)
  cases hs : r.status with
  | paused =>
    simp only [reconcileAfterRestore, hs, Lifecycle.step, lifecycle, TeamRunStatus.isTerminal]
    split_ifs <;> simp_all [Lifecycle.quiet]
  | pausePending =>
    simp [reconcileAfterRestore, hs, Lifecycle.step, lifecycle_settlePaused, hstatus,
      TeamRunStatus.isTerminal, TeamRunStatus.isSettled, TeamRunStatus.isSettledWithoutDriver]
    simp [lifecycle, hs]
  | awaitingUser =>
    simp [reconcileAfterRestore, hs, Lifecycle.step, lifecycle_settlePaused, hrolled,
      TeamRunStatus.isTerminal, TeamRunStatus.isSettled, TeamRunStatus.isSettledWithoutDriver]
    simp [lifecycle, hs]
  | queued | running | blocked | resolving =>
    have hmark := lifecycle_markInterruptedIfStranded now r.noteNonExecutingBackend
    simp only [hstatus, hs, hnote, TeamRunStatus.isTerminal, TeamRunStatus.isResumable] at hmark
    cases he : r.orchestrationBackend.isExecutableByCurrentBuild with
    | true =>
      simpa [reconcileAfterRestore, hs, he, Lifecycle.step, lifecycle,
        TeamRunStatus.isTerminal] using hmark
    | false =>
      simp [reconcileAfterRestore, hs, he, Lifecycle.step, lifecycle, Lifecycle.quiet,
        TeamRunStatus.isTerminal, hflight]
  | done | escalated | failed | interrupted | cancelled =>
    simp [reconcileAfterRestore, hs, Lifecycle.step, lifecycle, TeamRunStatus.isTerminal]

/-- The record's operations are the automaton's, seen through `lifecycle`. -/
theorem lifecycle_step (r : TeamRun) (now : Nat) (o : TeamOp) :
    (r.step (now, o)).lifecycle =
      r.lifecycle.step r.orchestrationBackend.isExecutableByCurrentBuild o := by
  cases o with
  | setStatus status => exact lifecycle_setStatus now status r
  | settlePaused reason kind => exact lifecycle_settlePaused now reason kind r
  | markInterruptedIfStranded => exact lifecycle_markInterruptedIfStranded now r
  | reconcileAfterRestore => exact lifecycle_reconcileAfterRestore now r
  | rollbackCurrentRound => exact lifecycle_rollbackCurrentRound r
  | replanSubTasks planned => rfl
  | fail error =>
    by_cases h : r.status.isSettled <;> cases hd : r.stopping <;>
      simp [step, fail, setStatus, isMovable_eq, lifecycle, Lifecycle.step, h, hd]
  | requestPause deviceId =>
    by_cases h : r.status.isSettled <;>
      simp [step, requestPause, setStatus, isMovable_eq, lifecycle, Lifecycle.step, h]
  | requestStop deviceId =>
    by_cases h : r.status.isSettled <;>
      simp [step, requestStop, requestPause, setStatus, isMovable_eq, lifecycle,
        Lifecycle.step, h]
  | block error | cancel reason =>
    by_cases h : r.status.isTerminal <;>
      simp [step, block, cancel, lifecycle, Lifecycle.step, Lifecycle.quiet, h]
  | resume =>
    by_cases h : r.status.isResumable <;> simp [step, resume, lifecycle, Lifecycle.step, h]
  | forceMarkStatus status =>
    by_cases h : status ≠ .done ∧ status ≠ .cancelled
    · simp [step, forceMarkStatus, Lifecycle.step, h]
    · by_cases hs : r.status = status <;>
        simp [step, forceMarkStatus, lifecycle, Lifecycle.step, Lifecycle.quiet, h, hs]
  | beginResolvingBlocked =>
    by_cases h : r.status = .blocked <;>
      simp [step, beginResolvingBlocked, lifecycle, Lifecycle.step, h]
  | resolveAsPaused reason kind =>
    by_cases h : r.status = .resolving <;>
      simp [step, resolveAsPaused, lifecycle, Lifecycle.step, Lifecycle.quiet, h]
  | restoreResolvingAsBlocked error =>
    by_cases h : r.status = .resolving <;>
      simp [step, restoreResolvingAsBlocked, block, lifecycle, Lifecycle.step,
        TeamRunStatus.isTerminal, h]
  | reviveSubTasks only =>
    simp only [step, reviveSubTasks, Lifecycle.step]
    split_ifs <;> rfl
  | holdPhaseForWaitingSubTasks =>
    simp only [step, holdPhaseForWaitingSubTasks, Lifecycle.step]
    split_ifs <;> rfl

theorem step_driverWrite (r : TeamRun) (now : Nat) (o : TeamOp) (ho : o.isDriverWrite)
    (hr : ¬r.isMovable) : r.step (now, o) = r := by
  cases o with
  | setStatus | fail | requestPause | requestStop | settlePaused =>
    simp [step, setStatus, fail, requestPause, requestStop, settlePaused, hr]
  | _ => simp [TeamOp.isDriverWrite] at ho

theorem moves_step (r : TeamRun) (o : Nat × TeamOp) :
    Lifecycle.Moves r.status o.2 (r.step o).status := by
  have h := Lifecycle.step_moves r.orchestrationBackend.isExecutableByCurrentBuild r.lifecycle o.2
  rw [← lifecycle_step r o.1 o.2] at h
  exact h

theorem stopping_step (r : TeamRun) (o : Nat × TeamOp) (hr : ¬r.status.isSettled)
    (h : r.stopping) (hw : ¬(r.step o).status.isSettled) : (r.step o).stopping := by
  have hl := lifecycle_step r o.1 o.2
  have hs : (r.step o).stopping = (r.lifecycle.step
      r.orchestrationBackend.isExecutableByCurrentBuild o.2).stopping :=
    congrArg Lifecycle.stopping hl
  have ht : (r.step o).status = (r.lifecycle.step
      r.orchestrationBackend.isExecutableByCurrentBuild o.2).status :=
    congrArg Lifecycle.status hl
  rw [ht] at hw
  rw [hs]
  exact Lifecycle.step_stopping _ _ _ hr h hw

structure LifecycleStep (r : TeamRun) (o : Nat × TeamOp) : Prop where
  terminal_left_by_force : r.status.isTerminal →
    (r.step o).status = r.status ∨
      ∃ status, o.2 = .forceMarkStatus status ∧ (status = .done ∨ status = .cancelled) ∧
        (r.step o).status = status
  driver_refused : o.2.isDriverWrite → r.status.isSettledWithoutDriver →
    (r.step o).status = r.status ∧ (r.step o).pauseFields = r.pauseFields
  restarted_by_resume : r.status.isSettled → ¬(r.step o).status.isSettled →
    o.2 = .resume ∧ r.status = .paused
  resolving_from_blocked : (r.step o).status = .resolving →
    r.status = .resolving ∨ r.status = .blocked

/-- Between a stop that took and the run settling, no `fail` makes the run fail. -/
def StopOutranksFailure (r : TeamRun) (ops : List (Nat × TeamOp)) : Prop :=
  ∀ before between after now deviceId now' error,
    ops = before ++ (now, .requestStop deviceId) :: between ++ (now', .fail error) :: after →
    (run step r before).isMovable →
    Always step (fun r => ¬r.status.isSettled)
      (run step r (before ++ [(now, .requestStop deviceId)])) between →
    (run step r (before ++ (now, .requestStop deviceId) :: between
      ++ [(now', .fail error)])).status ≠ .failed

theorem requestStop_stopping {r : TeamRun} (now : Nat) (deviceId : String)
    (h : r.isMovable) : (r.step (now, .requestStop deviceId)).stopping := by
  simp [step, requestStop, h]

theorem stopping_run {r : TeamRun} {ops : List (Nat × TeamOp)} (h : r.stopping)
    (hops : Always step (fun r => ¬r.status.isSettled) r ops) : (run step r ops).stopping := by
  induction ops generalizing r with
  | nil => exact h
  | cons o os ih => exact ih (stopping_step r o hops.1 h hops.2.head) hops.2

theorem fail_stopping {r : TeamRun} (now : Nat) (error : String) (h : r.stopping) :
    (r.step (now, .fail error)).status = r.status := by
  simp only [step, fail, h, if_true]
  split_ifs <;> rfl

theorem stopOutranksFailure (r : TeamRun) (ops : List (Nat × TeamOp)) :
    StopOutranksFailure r ops := by
  intro before between after now deviceId now' error _ hmov hbetween
  have hsplit : run step r (before ++ (now, .requestStop deviceId) :: between) =
      run step (run step r (before ++ [(now, .requestStop deviceId)])) between := by
    simp [run_append]
  have hstop : (run step r (before ++ (now, .requestStop deviceId) :: between)).stopping := by
    rw [hsplit]
    exact stopping_run (by simpa using requestStop_stopping now deviceId hmov) hbetween
  have hlive := hbetween.last
  rw [← hsplit] at hlive
  rw [run_concat, fail_stopping now' error hstop]
  intro hf
  exact hlive (by rw [hf]; rfl)

/-- Whether the driver's generic write would put a working run into `resolving`. -/
def bypassesRecovery (r : TeamRun) (o : Nat × TeamOp) : Prop :=
  o.2 = .setStatus .resolving ∧ r.isMovable

theorem lifecycleStep_iff (r : TeamRun) (o : Nat × TeamOp) :
    LifecycleStep r o ↔ ¬bypassesRecovery r o := by
  have hm := moves_step r o
  constructor
  · rintro h ⟨ho, hr⟩
    obtain ⟨now, op⟩ := o
    obtain rfl : op = .setStatus .resolving := ho
    have hs : (r.step (now, .setStatus .resolving)).status = .resolving := by
      simp [step, setStatus, hr]
    obtain hl | hl := h.resolving_from_blocked hs <;>
      simp [isMovable, hl, TeamRunStatus.isSettledWithoutDriver] at hr
  · intro h
    refine ⟨hm.terminal, ?_, hm.unsettles, ?_⟩
    · intro ho hr
      have hkept := step_driverWrite r o.1 o.2 ho (by simp [isMovable, hr])
      exact ⟨congrArg TeamRun.status hkept, congrArg pauseFields hkept⟩
    · intro hs
      rw [hs] at hm
      obtain hl | hl | ⟨ho, hl⟩ := hm.to_resolving
      · exact .inl hl
      · exact .inr hl
      · exact absurd ⟨ho, by simp [isMovable_eq, hl]⟩ h

/-- The lifecycle holds over a whole run exactly when no step of it writes
`resolving` straight onto a run that is still being worked. -/
theorem teamRun_lifecycle_iff (r : TeamRun) (ops : List (Nat × TeamOp)) :
    (Along step LifecycleStep r ops ∧ StopOutranksFailure r ops) ↔
      Along step (fun r o => ¬bypassesRecovery r o) r ops := by
  constructor
  · rintro ⟨h, _⟩
    exact h.mono fun r o => (lifecycleStep_iff r o).mp
  · intro h
    exact ⟨h.mono fun r o => (lifecycleStep_iff r o).mpr, stopOutranksFailure r ops⟩

/-- A queued run told `resolving` by the generic status write enters it unblocked. -/
theorem queued_set_resolving_breaks_lifecycle :
    ¬(Along step LifecycleStep (TeamRun.new 0 "run-1" {} "/work" "device-1")
          [(1, .setStatus .resolving)] ∧
        StopOutranksFailure (TeamRun.new 0 "run-1" {} "/work" "device-1")
          [(1, .setStatus .resolving)]) := by
  rintro ⟨h, _⟩
  have hs := h.1.resolving_from_blocked rfl
  revert hs
  decide

end TeamRun

/-- The operations of a run together with the writes the relay makes to its fields
directly: parking and unparking a question, the in-flight marker, an abandoned stop
and the rekeying of a promoted thread. -/
inductive RunWrite
  | op (o : TeamOp)
  | parkOnQuestion (awaiting : AwaitingUser)
  | unpark
  | setInFlightThread (threadId : Option String)
  | abandonStop
  | rekeyThread (pendingId realId : String)

namespace TeamRun

def write (r : TeamRun) : Nat × RunWrite → TeamRun
  | (now, .op o) => r.step (now, o)
  | (now, .parkOnQuestion awaiting) => r.parkOnQuestion now awaiting
  | (now, .unpark) => r.unpark now
  | (_, .setInFlightThread threadId) => r.setInFlightThread threadId
  | (_, .abandonStop) => r.abandonStop
  | (now, .rekeyThread pendingId realId) => (r.rekeyThread now pendingId realId).1

/-- No question, no turn, no stop and no pause pending. -/
def isQuiet (r : TeamRun) : Prop :=
  r.awaiting = none ∧ r.inFlightThread = none ∧ r.pauseRequested = false ∧ r.stopping = false

def QuiescentWhenPaused (r : TeamRun) : Prop := r.status = .paused → r.isQuiet

def ResumesClean (r : TeamRun) (w : Nat × RunWrite) : Prop :=
  w.2 = .op .resume → r.status = .paused → (r.write w).isQuiet

def leavesPauseQuiet (r : TeamRun) : RunWrite → Prop
  | .op (.resolveAsPaused ..) => r.status = .resolving → r.awaiting = none
  | .op (.setStatus .paused) => r.isMovable → r.isQuiet
  | .parkOnQuestion _ | .setInFlightThread (some _) => r.status ≠ .paused
  | _ => True

theorem isQuiet_iff (r : TeamRun) : r.isQuiet ↔ r.lifecycle = .quiet r.status := by
  simp only [isQuiet, lifecycle, Lifecycle.quiet, Lifecycle.mk.injEq, true_and,
    Option.isSome_eq_false_iff, Option.isNone_iff_eq_none]
  tauto

theorem quiescentWhenPaused_iff (r : TeamRun) :
    r.QuiescentWhenPaused ↔ (r.lifecycle.status = .paused → r.lifecycle = .quiet .paused) := by
  constructor
  · intro h hs
    have hs' : r.status = .paused := hs
    rw [(isQuiet_iff r).mp (h hs'), hs']
  · intro h hs
    rw [isQuiet_iff, h hs, hs]

theorem step_quiescent_iff {r : TeamRun} (hr : r.QuiescentWhenPaused) (now : Nat) (o : TeamOp) :
    (r.step (now, o)).QuiescentWhenPaused ↔ r.leavesPauseQuiet (.op o) := by
  rw [quiescentWhenPaused_iff] at hr
  rw [quiescentWhenPaused_iff, lifecycle_step]
  constructor
  · intro h
    cases o with
    | resolveAsPaused reason kind =>
      intro hs
      have hquiet := h (by simp [Lifecycle.step, lifecycle, hs, Lifecycle.quiet])
      simpa [Lifecycle.step, lifecycle, hs, Lifecycle.quiet] using hquiet
    | setStatus status =>
      cases status with
      | paused =>
        intro hm
        have hlive : ¬r.status.isSettled := by simpa [isMovable_eq] using hm
        have hquiet := h (by simp [Lifecycle.step, lifecycle, hlive])
        simpa [Lifecycle.step, lifecycle, hlive, Lifecycle.quiet, isQuiet, and_comm,
          and_left_comm, and_assoc] using hquiet
      | _ => trivial
    | _ => trivial
  · intro h hs
    obtain hq | ⟨hres, ⟨reason, kind, rfl⟩, hq⟩ | ⟨hlive, rfl, hq⟩ :=
      Lifecycle.step_paused _ _ _ hr hs
    · exact hq
    · have hasked : r.lifecycle.asked = false := by simp [lifecycle, h hres]
      rw [hq, hasked]
      rfl
    · have hm : r.isMovable := by
        have hs' : ¬r.status.isSettled := hlive
        simpa [isMovable_eq] using hs'
      have hquiet := (isQuiet_iff r).mp (h hm)
      rw [hq, hquiet]
      rfl

theorem rekeyThread_lifecycle (now : Nat) (pendingId realId : String) (r : TeamRun) :
    (r.rekeyThread now pendingId realId).1.lifecycle = r.lifecycle := by
  unfold rekeyThread
  split_ifs <;> simp [lifecycle]

theorem write_quiescent_iff {r : TeamRun} (hr : r.QuiescentWhenPaused) (w : Nat × RunWrite) :
    (r.write w).QuiescentWhenPaused ↔ r.leavesPauseQuiet w.2 := by
  obtain ⟨now, w⟩ := w
  cases w with
  | op o => exact step_quiescent_iff hr now o
  | parkOnQuestion awaiting =>
    constructor
    · intro h hs
      have hq := h (by simp [write, parkOnQuestion, setStatus, isMovable, hs,
        TeamRunStatus.isSettledWithoutDriver])
      simp [isQuiet, write, parkOnQuestion, setStatus, isMovable, hs,
        TeamRunStatus.isSettledWithoutDriver] at hq
    · intro h hs
      simp only [write, parkOnQuestion, setStatus] at hs
      split_ifs at hs
      exact absurd hs h
  | unpark =>
    refine iff_of_true (fun hs => ?_) trivial
    simp only [write, unpark, setStatus] at hs ⊢
    by_cases ha : r.status = .awaitingUser
    · simp [ha, isMovable, TeamRunStatus.isTerminal, TeamRunStatus.isSettledWithoutDriver] at hs
    · simp only [ha, if_false] at hs ⊢
      exact ⟨rfl, (hr hs).2⟩
  | setInFlightThread threadId =>
    cases threadId with
    | none =>
      refine iff_of_true (fun hs => ?_) trivial
      obtain ⟨ha, _, hp, hd⟩ := hr hs
      exact ⟨ha, rfl, hp, hd⟩
    | some threadId =>
      constructor
      · intro h hs
        simpa [isQuiet, write, setInFlightThread] using h hs
      · intro h hs
        exact absurd hs h
  | abandonStop =>
    refine iff_of_true (fun hs => ?_) trivial
    simp only [write, abandonStop] at hs ⊢
    split_ifs at hs ⊢
    · obtain ⟨ha, hf, hp, _⟩ := hr hs
      exact ⟨ha, hf, hp, rfl⟩
    · exact hr hs
  | rekeyThread pendingId realId =>
    refine iff_of_true ?_ trivial
    rw [quiescentWhenPaused_iff] at hr ⊢
    rw [write, rekeyThread_lifecycle]
    exact hr

theorem resumesClean {r : TeamRun} (hr : r.QuiescentWhenPaused) (w : Nat × RunWrite) :
    ResumesClean r w := by
  obtain ⟨now, w⟩ := w
  rintro rfl hs
  obtain ⟨ha, hf, -, -⟩ := hr hs
  simp [write, step, resume, hs, TeamRunStatus.isResumable, isQuiet, ha, hf]

/-- Paused runs stay quiet over a whole run exactly when no write reaches a pause
with leftovers: no recovery drains a run that still carries a question, the generic
write pauses only a quiet run, and nothing is parked or started on a paused one. -/
theorem paused_quiescent_iff (now : Nat) (id : String) (spec : TaskSpec) (cwd deviceId : String)
    (ws : List (Nat × RunWrite)) :
    (Always write QuiescentWhenPaused (TeamRun.new now id spec cwd deviceId) ws ∧
      Along write ResumesClean (TeamRun.new now id spec cwd deviceId) ws) ↔
      Along write (fun r w => r.leavesPauseQuiet w.2) (TeamRun.new now id spec cwd deviceId) ws := by
  have hnew : (TeamRun.new now id spec cwd deviceId).QuiescentWhenPaused := by
    intro h
    simp [TeamRun.new] at h
  generalize TeamRun.new now id spec cwd deviceId = r at hnew ⊢
  constructor
  · rintro ⟨h, -⟩
    induction ws generalizing r with
    | nil => trivial
    | cons w ws ih =>
      exact ⟨(write_quiescent_iff hnew w).mp h.2.head, ih _ h.2.head h.2⟩
  · intro h
    refine ⟨always_of_step (fun s w hs hw => (write_quiescent_iff hs w).mpr hw) hnew h, ?_⟩
    exact along_of_step (fun s w hs hw =>
      ⟨(write_quiescent_iff hs w).mpr hw, resumesClean hs w⟩) hnew h

/-- A question parked before the block survives the recovery into the pause. -/
theorem recovered_question_breaks_quiescence :
    ¬Always write QuiescentWhenPaused (TeamRun.new 0 "run-1" {} "/work" "device-1")
      [(1, .parkOnQuestion ⟨"thread-1", "request-1", "dev", 1⟩),
       (2, .op (.block "a turn did not stop")),
       (3, .op .beginResolvingBlocked),
       (4, .op (.resolveAsPaused "recovered" .user))] := by
  intro h
  have hq := h.last rfl
  exact absurd hq.1 (by decide)

end TeamRun

end AgentRelay.Team

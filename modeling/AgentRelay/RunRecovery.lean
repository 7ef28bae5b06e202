import AgentRelay.RunReconcile

/-! Recovery of team runs: whatever a restart finds comes back ended or paused, with its work, its
finished sub-tasks and its diagnostics, and the next restart has nothing left to do. -/
namespace AgentRelay.Team.TeamRun
open Text

def workPlace (r : TeamRun) :
    (String × String × String × String × String × String × Bool) × String × String × String :=
  ((r.slug, r.branch, r.targetRef, r.baseCommit, r.repoMainWorktree, r.cwd, r.sourceDirty),
    r.planRelPath, r.designRelPath, r.reportRelPath)

theorem nonExecutingReason_eq_none {backend : OrchestrationBackendRef} :
    backend.nonExecutingReason = none ↔ backend.isExecutableByCurrentBuild := by
  cases backend <;> simp [OrchestrationBackendRef.nonExecutingReason,
    OrchestrationBackendRef.isExecutableByCurrentBuild]

theorem contains_append_left (text pattern : String) : contains (pattern ++ text) pattern := by
  simp [contains, List.prefix_append, List.IsPrefix.isInfix]

/-- The note is added to what was there, unless that was blank. -/
theorem keepsError_noteNonExecutingBackend {r : TeamRun} {error : String}
    (herror : r.error = some error)
    (hblank : trim error = "" → r.orchestrationBackend.isExecutableByCurrentBuild) :
    ∃ noted, r.noteNonExecutingBackend.error = some noted ∧ contains noted error := by
  have hself : contains error error := by simp [contains]
  unfold noteNonExecutingBackend
  cases hreason : r.orchestrationBackend.nonExecutingReason with
  | none => exact ⟨error, herror, hself⟩
  | some reason =>
    have htext : trim error ≠ "" := by
      intro hempty
      rw [nonExecutingReason_eq_none.mpr (hblank hempty)] at hreason
      cases hreason
    simp only [appendRestoreError, herror, if_neg htext]
    split_ifs
    · exact ⟨error, herror, hself⟩
    · refine ⟨_, rfl, ?_⟩
      rw [String.append_assoc]
      exact contains_append_left _ error

theorem error_reconcileAfterRestore {r : TeamRun} {error : String} (now : Nat)
    (hterminal : ¬r.status.isTerminal) (herror : r.noteNonExecutingBackend.error = some error) :
    (r.reconcileAfterRestore now).1.error = some error := by
  obtain ⟨subTasks, hrolled, -⟩ := r.noteNonExecutingBackend.rollbackCurrentRound_eq
  unfold reconcileAfterRestore
  rw [if_neg hterminal]
  dsimp only
  split
  · split_ifs <;> exact herror
  · unfold settlePaused
    split_ifs <;> exact herror
  · rw [hrolled]
    unfold settlePaused
    split_ifs <;> exact herror
  · unfold markInterruptedIfStranded
    split_ifs
    · exact herror
    · simp [herror]
    · exact herror

/-- What a restart makes of any run. -/
theorem reconcileAfterRestore_recovers (r : TeamRun) (now : Nat) :
    let loaded := (r.reconcileAfterRestore now).1
    (loaded.status.isTerminal ∨ loaded.status = .paused) ∧
      loaded.orchestrationBackend = r.orchestrationBackend ∧
      List.Forall₂ SameOutcome r.subTasks loaded.subTasks ∧
      loaded.workPlace = r.workPlace ∧
      (∀ error, r.error = some error →
        (trim error = "" → r.orchestrationBackend.isExecutableByCurrentBuild) →
          ∃ text, loaded.error = some text ∧ contains text error) ∧
      (loaded.status = .paused →
        loaded.pauseRequested = false ∧ loaded.stopping = false ∧ loaded.awaiting = none) ∧
      ∀ later, loaded.reconcileAfterRestore later = (loaded, false) := by
  have hreconciles := r.reconciles_reconcileAfterRestore now
  have hquiet := hreconciles.quiet
  refine ⟨hquiet.imp_right And.left, hreconciles.sameWork.backend, hreconciles.sameWork.subTasks,
    (congrArg workPlace hreconciles.sameWork.work :), ?_, ?_, reconcileAfterRestore_of_quiet hquiet⟩
  · intro error herror hblank
    by_cases hterminal : r.status.isTerminal
    · rw [reconcileAfterRestore, if_pos hterminal]
      exact ⟨error, herror, by simp [contains]⟩
    · obtain ⟨noted, hnoted, hcontains⟩ := keepsError_noteNonExecutingBackend herror hblank
      exact ⟨noted, error_reconcileAfterRestore now hterminal hnoted, hcontains⟩
  · intro hpaused
    rcases hquiet with hterminal | ⟨-, hpause, hstop, hawaiting, -⟩
    · simp [hpaused, TeamRunStatus.isTerminal] at hterminal
    · exact ⟨hpause, hstop, hawaiting⟩

/-- A running task of a newer build, with nothing but a line break for an error. -/
def blankError : TeamRun where
  status := .running
  orchestrationBackend := .unknownNonExecuting none none none none
  error := some "\n"

theorem blank_error_replaced :
    blankError.error = some "\n" ∧
      ∀ text, (blankError.reconcileAfterRestore 5).1.error = some text → ¬contains text "\n" := by
  refine ⟨rfl, fun text htext => ?_⟩
  have hreason : text = "this task is pinned to an orchestration backend this relay build " ++
      "does not understand" := Option.some.inj (htext.symm.trans (by decide +kernel))
  rw [hreason]
  decide +kernel

end AgentRelay.Team.TeamRun

import AgentRelay.Persistence

/-! What a restart makes of the runs it finds. A run whose driver is gone is settled once: it
comes back ended or paused, and the next restart finds nothing left to do. -/
namespace AgentRelay.Team.TeamRun
open Text

def timeless (r : TeamRun) : TeamRun := { r with updatedAt := 0 }

/-- The note about a backend this build cannot drive has been made. -/
def Noted (r : TeamRun) : Prop :=
  ∀ reason, r.orchestrationBackend.nonExecutingReason = some reason →
    ∃ error, r.error = some error ∧ contains error reason

/-- A run a restart has nothing to do for: it has ended, or it waits for the user to resume. -/
def Quiet (r : TeamRun) : Prop :=
  r.status.isTerminal ∨ r.status = .paused ∧ r.pauseRequested = false ∧ r.stopping = false ∧
    r.awaiting = none ∧ r.Noted

/-- A sub-task as it was, or back to pending where it had not ended. -/
def SameOutcome (before after : SubTask) : Prop :=
  after = before ∨ ¬before.status.isTerminal ∧ after = { before with status := .pending }

/-- A run without what belongs to its drive: how it stands, who was to pause or answer it, and
its sub-tasks. -/
def work (r : TeamRun) : TeamRun :=
  { r with
    status := .failed, pauseRequested := false, stopping := false, pauseReason := none
    pauseKind := none, awaiting := none, inFlightThread := none, error := none, updatedAt := 0
    subTasks := [] }

structure SameWork (saved loaded : TeamRun) : Prop where
  work : loaded.work = saved.work
  subTasks : List.Forall₂ SameOutcome saved.subTasks loaded.subTasks

theorem SameOutcome.refl (task : SubTask) : SameOutcome task task := Or.inl rfl

theorem sameOutcome_refl (subTasks : List SubTask) :
    List.Forall₂ SameOutcome subTasks subTasks :=
  List.forall₂_same.mpr fun task _ => .refl task

theorem SameWork.backend {saved loaded : TeamRun} (h : saved.SameWork loaded) :
    loaded.orchestrationBackend = saved.orchestrationBackend :=
  (congrArg TeamRun.orchestrationBackend h.work :)

theorem contains_append_right (text pattern : String) : contains (text ++ pattern) pattern := by
  simp [contains, List.suffix_append, List.IsSuffix.isInfix]

theorem noteNonExecutingBackend_of_noted {r : TeamRun} (h : r.Noted) :
    r.noteNonExecutingBackend = r := by
  unfold noteNonExecutingBackend
  split
  · rename_i reason hreason
    obtain ⟨error, herror, hcontains⟩ := h reason hreason
    simp [appendRestoreError, herror, hcontains]
  · rfl

theorem noteNonExecutingBackend_eq (r : TeamRun) :
    ∃ error, r.noteNonExecutingBackend = { r with error := error } := by
  unfold noteNonExecutingBackend appendRestoreError
  split
  · split
    · split_ifs
      · exact ⟨r.error, rfl⟩
      · exact ⟨_, rfl⟩
      · exact ⟨_, rfl⟩
    · exact ⟨_, rfl⟩
  · exact ⟨r.error, rfl⟩

theorem noted_noteNonExecutingBackend (r : TeamRun) : r.noteNonExecutingBackend.Noted := by
  intro reason hreason
  have hbackend : r.orchestrationBackend.nonExecutingReason = some reason := by
    obtain ⟨error, heq⟩ := r.noteNonExecutingBackend_eq
    rwa [heq] at hreason
  have hself : contains reason reason := by simp [contains]
  simp only [noteNonExecutingBackend, hbackend, appendRestoreError]
  split
  · rename_i error herror
    split_ifs with hcontains
    · exact ⟨error, herror, hcontains⟩
    · exact ⟨reason, rfl, hself⟩
    · exact ⟨_, rfl, contains_append_right _ _⟩
  · exact ⟨reason, rfl, hself⟩

theorem forall₂_modify {α : Type} {R : α → α → Prop} {f : α → α} (hrefl : ∀ x, R x x)
    (hf : ∀ x, R x (f x)) (xs : List α) (index : Nat) : List.Forall₂ R xs (xs.modify index f) := by
  induction xs generalizing index with
  | nil => simp
  | cons x xs ih =>
    cases index with
    | zero => exact .cons (hf x) (List.forall₂_same.mpr fun y _ => hrefl y)
    | succ index => exact .cons (hrefl x) (ih index)

theorem rollbackCurrentRound_eq (r : TeamRun) :
    ∃ subTasks, r.rollbackCurrentRound = { r with awaiting := none, subTasks := subTasks } ∧
      List.Forall₂ SameOutcome r.subTasks subTasks := by
  unfold rollbackCurrentRound
  split
  · exact ⟨r.subTasks, rfl, sameOutcome_refl r.subTasks⟩
  · refine ⟨_, rfl, ?_⟩
    apply forall₂_modify SameOutcome.refl
    intro task
    split_ifs with hterminal
    · exact Or.inl rfl
    · exact Or.inr ⟨hterminal, rfl⟩

/-- What a restart can make of a run: nothing of an ended one, and of the others a paused or an
ended one with the flags of its driver cleared. -/
inductive Reconciles (r : TeamRun) : TeamRun → Prop
  | ended (h : r.status.isTerminal) : Reconciles r r
  | paused (h : r.status = .paused) (updatedAt : Nat) :
    Reconciles r { r.noteNonExecutingBackend with
      pauseRequested := false, stopping := false, awaiting := none, updatedAt := updatedAt }
  | settled (subTasks : List SubTask) (reason : String) (updatedAt : Nat)
      (h : List.Forall₂ SameOutcome r.subTasks subTasks) :
    Reconciles r { r.noteNonExecutingBackend with
      pauseRequested := false, stopping := false, awaiting := none, inFlightThread := none
      pauseReason := some reason, pauseKind := some .boundary, subTasks := subTasks
      status := .paused, updatedAt := updatedAt }
  | closed (status : TeamRunStatus) (error : Option String) (pauseRequested stopping : Bool)
      (awaiting : Option AwaitingUser) (updatedAt : Nat) (h : status.isTerminal) :
    Reconciles r { r with
      pauseRequested := pauseRequested, stopping := stopping, awaiting := awaiting
      error := error, status := status, updatedAt := updatedAt }

theorem reconciles_reconcileAfterRestore (r : TeamRun) (now : Nat) :
    r.Reconciles (r.reconcileAfterRestore now).1 := by
  obtain ⟨error, hnote⟩ := r.noteNonExecutingBackend_eq
  unfold reconcileAfterRestore
  by_cases hterminal : r.status.isTerminal
  · rw [if_pos hterminal]
    exact .ended hterminal
  rw [if_neg hterminal]
  dsimp only
  split
  · rename_i hstatus
    split_ifs
    · exact .paused hstatus r.noteNonExecutingBackend.updatedAt
    · exact .paused hstatus now
  · rename_i hstatus
    have hmovable : r.noteNonExecutingBackend.isMovable := by
      rw [hnote]
      simp [isMovable, hstatus, TeamRunStatus.isTerminal, TeamRunStatus.isSettledWithoutDriver]
    rw [settlePaused, if_pos hmovable]
    have hsame : r.noteNonExecutingBackend.subTasks = r.subTasks := by rw [hnote]
    exact .settled r.noteNonExecutingBackend.subTasks _ now (hsame ▸ sameOutcome_refl r.subTasks)
  · rename_i hstatus
    obtain ⟨subTasks, hrolled, hshape⟩ := r.noteNonExecutingBackend.rollbackCurrentRound_eq
    have hmovable : r.noteNonExecutingBackend.rollbackCurrentRound.isMovable := by
      rw [hrolled, hnote]
      simp [isMovable, hstatus, TeamRunStatus.isTerminal, TeamRunStatus.isSettledWithoutDriver]
    rw [settlePaused, if_pos hmovable, hrolled]
    refine .settled subTasks _ now ?_
    rwa [hnote] at hshape
  · rename_i hpaused hpausing hawaiting
    split_ifs
    · have hmark : (r.noteNonExecutingBackend.status.isTerminal ||
          r.noteNonExecutingBackend.status.isResumable) = false := by
        rw [hnote]
        cases hstatus : r.status <;> simp_all [TeamRunStatus.isTerminal, TeamRunStatus.isResumable]
      rw [markInterruptedIfStranded, hmark, hnote]
      exact .closed .interrupted _ _ _ _ now rfl
    · rw [hnote]
      exact .closed .failed _ _ _ _ now rfl

theorem Reconciles.quiet {r loaded : TeamRun} (h : r.Reconciles loaded) : loaded.Quiet := by
  have hnoted := r.noted_noteNonExecutingBackend
  obtain ⟨error, hnote⟩ := r.noteNonExecutingBackend_eq
  cases h with
  | ended h => exact Or.inl h
  | paused h updatedAt => exact Or.inr ⟨by rw [hnote]; exact h, rfl, rfl, rfl, hnoted⟩
  | settled subTasks reason updatedAt h => exact Or.inr ⟨rfl, rfl, rfl, rfl, hnoted⟩
  | closed status error pauseRequested stopping awaiting updatedAt h => exact Or.inl h

theorem Reconciles.sameWork {r loaded : TeamRun} (h : r.Reconciles loaded) :
    r.SameWork loaded := by
  obtain ⟨error, hnote⟩ := r.noteNonExecutingBackend_eq
  cases h with
  | ended h => exact ⟨rfl, sameOutcome_refl r.subTasks⟩
  | paused h updatedAt =>
    rw [hnote]
    exact ⟨rfl, sameOutcome_refl r.subTasks⟩
  | settled subTasks reason updatedAt h =>
    rw [hnote]
    exact ⟨rfl, h⟩
  | closed status error pauseRequested stopping awaiting updatedAt h =>
    exact ⟨rfl, sameOutcome_refl r.subTasks⟩

theorem reconcileAfterRestore_of_quiet {r : TeamRun} (h : r.Quiet) (now : Nat) :
    r.reconcileAfterRestore now = (r, false) := by
  unfold reconcileAfterRestore
  rcases h with hterminal | ⟨hstatus, hpause, hstop, hawaiting, hnoted⟩
  · rw [if_pos hterminal]
  · rw [if_neg (by simp [hstatus, TeamRunStatus.isTerminal]), hstatus]
    dsimp only
    rw [noteNonExecutingBackend_of_noted hnoted]
    have hsame : { r with pauseRequested := false, stopping := false, awaiting := none } = r := by
      cases r
      simp_all
    rw [hsame, if_pos rfl]

theorem timeless_reconcileAfterRestore (r : TeamRun) (now later : Nat) :
    (r.reconcileAfterRestore now).1.timeless = (r.reconcileAfterRestore later).1.timeless := by
  unfold reconcileAfterRestore
  split_ifs with hterminal hbackend
  · rfl
  · dsimp only
    split
    · split_ifs <;> rfl
    · unfold settlePaused
      split_ifs <;> rfl
    · unfold settlePaused
      split_ifs <;> rfl
    · unfold markInterruptedIfStranded
      split_ifs <;> rfl
  · dsimp only
    split
    · split_ifs <;> rfl
    · unfold settlePaused
      split_ifs <;> rfl
    · unfold settlePaused
      split_ifs <;> rfl
    · rfl

theorem ownedThreadIds_timeless (r : TeamRun) : r.timeless.ownedThreadIds = r.ownedThreadIds := rfl

end AgentRelay.Team.TeamRun

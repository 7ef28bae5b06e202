import AgentRelay.WorkerSessions

/-! What holds of the worker's session map in every run: an entry in it stands under its own key,
so no entry stands there twice, and a turn that runs has an id. -/
namespace AgentRelay.ClaudeWorker
open InsertionMap

/-- An entry in which a turn runs has the turn's id. -/
def SessionEntry.Named (entry : SessionEntry) : Prop :=
  entry.running = true → entry.currentTurnId.isSome = true

structure Inv (w : Worker) : Prop where
  keyed : ∀ e ∈ w.sessions.entries, (w.entryAt e.2).key = e.1
  fresh : ∀ e ∈ w.sessions.entries, e.2 < w.created
  turns : ∀ i, (w.entryAt i).Named

namespace Worker
variable {w : Worker} {i : ℕ}

theorem inv_start : Inv start where
  keyed := by intro e he; cases he
  fresh := by intro e he; cases he
  turns := by intro i h; cases h

theorem inv_emit (h : Inv w) (event : WorkerEvent) : Inv (w.emit event) :=
  ⟨h.keyed, h.fresh, h.turns⟩

theorem inv_sessions (h : Inv w) {sessions : InsertionMap String ℕ}
    (hsub : ∀ e ∈ sessions.entries, e ∈ w.sessions.entries) :
    Inv { w with sessions := sessions } where
  keyed e he := h.keyed e (hsub e he)
  fresh e he := h.fresh e (hsub e he)
  turns := h.turns

theorem inv_delete (h : Inv w) (key : String) :
    Inv { w with sessions := w.sessions.delete key } :=
  inv_sessions h fun _ he => (mem_delete.mp he).1

theorem entryAt_modify (f : SessionEntry → SessionEntry) (j : ℕ) :
    (w.modify i f).entryAt j =
      if j = i ∧ i < w.created then f (w.entryAt i) else w.entryAt j := by
  rw [modify]
  split_ifs with hi hj
  · rw [hj.1]
    exact Function.update_self ..
  · exact Function.update_of_ne (fun h => hj ⟨h, hi⟩) ..
  · rename_i hj
    exact absurd hj.2 hi
  · rfl

@[simp] theorem sessions_modify (f : SessionEntry → SessionEntry) :
    (w.modify i f).sessions = w.sessions := by
  rw [modify]
  split_ifs <;> rfl

@[simp] theorem created_modify (f : SessionEntry → SessionEntry) :
    (w.modify i f).created = w.created := by
  rw [modify]
  split_ifs <;> rfl

@[simp] theorem emitted_modify (f : SessionEntry → SessionEntry) :
    (w.modify i f).emitted = w.emitted := by
  rw [modify]
  split_ifs <;> rfl

theorem inv_modify (h : Inv w) {f : SessionEntry → SessionEntry}
    (hkey : ∀ entry, (f entry).key = entry.key) (hturn : ∀ entry, entry.Named → (f entry).Named) :
    Inv (w.modify i f) where
  keyed := by
    intro e he
    rw [sessions_modify] at he
    rw [entryAt_modify]
    split_ifs with hj
    · rw [hkey, ← hj.1, h.keyed e he]
    · exact h.keyed e he
  fresh := by
    intro e he
    rw [sessions_modify] at he
    rw [created_modify]
    exact h.fresh e he
  turns := by
    intro j
    rw [entryAt_modify]
    split_ifs
    · exact hturn _ (h.turns i)
    · exact h.turns j

theorem inv_add (h : Inv w) {entry : SessionEntry} (hentry : entry.Named) : Inv (w.add entry) where
  keyed := by
    intro e he
    rw [add]
    rcases mem_set he with rfl | he
    · exact congrArg SessionEntry.key (Function.update_self ..)
    · have hne : e.2 ≠ w.created := (h.fresh e he).ne
      rw [← h.keyed e he]
      exact congrArg SessionEntry.key (Function.update_of_ne hne ..)
  fresh := by
    intro e he
    rcases mem_set he with rfl | he
    · exact Nat.lt_succ_self _
    · exact (h.fresh e he).trans (Nat.lt_succ_self _)
  turns := by
    intro j
    by_cases hj : j = w.created
    · have hnew : (w.add entry).entryAt j = entry := by
        rw [hj]
        exact Function.update_self ..
      rw [hnew]
      exact hentry
    · have hold : (w.add entry).entryAt j = w.entryAt j := Function.update_of_ne hj ..
      rw [hold]
      exact h.turns j

theorem inv_promote (h : Inv w) (i : ℕ) (id : String) : Inv (w.promoteSessionEntry i id) := by
  rw [promoteSessionEntry]
  split_ifs with hskip
  · exact h
  · obtain ⟨-, -, hi⟩ := not_or.mp hskip |>.imp_right not_or.mp
    refine ⟨?_, ?_, ?_⟩
    · intro e he
      rcases mem_set he with rfl | he
      · simp only [Function.update_self]
      · obtain ⟨he, hne⟩ := mem_delete.mp he
        have hei : e.2 ≠ i := by
          intro hei
          exact hne (hei ▸ h.keyed e he).symm
        rw [← h.keyed e he]
        exact congrArg SessionEntry.key (Function.update_of_ne hei ..)
    · intro e he
      rcases mem_set he with rfl | he
      · exact not_not.mp hi
      · exact h.fresh e (mem_delete.mp he).1
    · intro j
      by_cases hj : j = i
      · subst hj
        simp only [Function.update_self]
        exact h.turns j
      · simp only [Function.update_of_ne hj]
        exact h.turns j

theorem inv_answerStart (h : Inv w) (i : ℕ) (answer : String → WorkerEvent) :
    Inv (w.answerStart i answer) := by
  rw [answerStart]
  split
  · apply inv_emit
    exact inv_modify h (fun _ => rfl) fun _ hentry => hentry
  · exact h

theorem named_close (entry : SessionEntry) : entry.close.Named := by
  intro hrunning
  cases hrunning

theorem inv_closeAndRemoveSession (h : Inv w) (i : ℕ) : Inv (w.closeAndRemoveSession i) := by
  have hclosed : Inv (w.modify i SessionEntry.close) :=
    inv_modify h (fun _ => rfl) fun entry _ => named_close entry
  exact inv_answerStart (inv_delete hclosed _) ..

theorem inv_releaseSession (h : Inv w) (id : String) : Inv (w.releaseSession id).2 := by
  rw [releaseSession]
  split
  · exact h
  · rename_i i _
    have hclosed := inv_closeAndRemoveSession h i
    dsimp only
    split_ifs
    all_goals first | exact h | exact hclosed

theorem inv_evictRound (h : Inv w) (i : ℕ) : Inv (w.evictRound i) := by
  have hclosed := inv_closeAndRemoveSession h i
  rw [evictRound]
  split
  · exact hclosed
  · exact inv_emit (inv_emit hclosed _) _

theorem inv_evictLoop (fuel : ℕ) (h : Inv w) : Inv (evictLoop fuel w).2 := by
  induction fuel generalizing w with
  | zero => exact h
  | succ fuel ih =>
    rw [evictLoop]
    split_ifs
    · split
      · exact ih (inv_evictRound h _)
      · exact h
    · exact h

theorem inv_beginSessionStop (h : Inv w) (named : String) (i : ℕ) :
    Inv (w.beginSessionStop named i) := by
  refine inv_modify h ?_ ?_
  · intro entry
    split_ifs <;> rfl
  · intro entry hentry
    split_ifs
    · exact hentry
    · exact hentry

theorem inv_settleStop (h : Inv w) (i generation : ℕ) (sameSession : Bool) :
    Inv (w.settleStop i generation sameSession) := by
  rw [settleStop]
  split
  · exact h
  · rename_i operation _
    split
    · have hstopped : Inv (w.modify i fun entry =>
          { entry with
            session := entry.session && !sameSession
            streaming := entry.streaming && !sameSession
            running := false
            stopOperation := some { operation with state := .stopped } }) :=
        inv_modify h (fun _ => rfl) fun _ _ hrunning => Bool.noConfusion hrunning
      dsimp only
      split_ifs
      · split
        · exact inv_emit (inv_delete hstopped _) _
        · exact inv_delete hstopped _
      · split
        · exact inv_emit hstopped _
        · exact hstopped
    · exact h

theorem inv_settleStreamEnd (h : Inv w) (i now : ℕ) : Inv (w.settleStreamEnd i now) := by
  rw [settleStreamEnd]
  split_ifs
  · exact h
  · have hended : Inv (w.modify i fun entry =>
        { entry with
          running := false, currentTurnId := none, session := false, lastUsedAt := now }) :=
      inv_modify h (fun _ => rfl) fun _ _ hrunning => Bool.noConfusion hrunning
    have hanswered := inv_answerStart hended i (.errorResponse · streamEndedMessage)
    dsimp only
    split
    · exact hanswered
    · exact inv_emit (inv_emit hanswered _) _

theorem inv_armSpontaneousTurn (h : Inv w) (i : ℕ) (turnId : TurnId) :
    Inv (w.armSpontaneousTurn i turnId) := by
  rw [armSpontaneousTurn]
  split_ifs
  · exact h
  · apply inv_emit
    exact inv_modify h (fun _ => rfl) fun _ _ _ => rfl

theorem inv_handleSessionEvent (h : Inv w) (i : ℕ) (event : StreamEvent) (now : ℕ) :
    Inv (w.handleSessionEvent i event now) := by
  have htouched : Inv (w.modify i fun entry => { entry with lastUsedAt := now }) :=
    inv_modify h (fun _ => rfl) fun _ hentry => hentry
  cases event with
  | sessionStarted threadId =>
    rw [handleSessionEvent]
    split_ifs
    · exact htouched
    · exact inv_answerStart htouched ..
  | error message => exact inv_answerStart htouched ..
  | done =>
    rw [handleSessionEvent]
    exact inv_modify htouched (fun _ => rfl) fun _ _ hrunning => Bool.noConfusion hrunning
  | other => exact htouched

/-- What one step preserves. -/
theorem inv_step (h : Inv w) (step : Step) : Inv (w.step step) := by
  cases step with
  | start id uuid pendingThreadId now => exact inv_add h fun hrunning => by cases hrunning
  | startFailed i id message =>
    rw [Worker.step]
    split_ifs
    · exact inv_delete h _
    · exact inv_emit (inv_delete h _) _
  | opened i =>
    rw [Worker.step]
    exact inv_modify h (fun _ => rfl) fun _ hentry => hentry
  | resume id now =>
    rw [Worker.step]
    split
    · exact inv_modify h (fun _ => rfl) fun _ hentry => hentry
    · split_ifs
      · exact h
      · exact inv_add h fun hrunning => by cases hrunning
  | send id now =>
    rw [Worker.step]
    split
    · exact h
    · split_ifs
      · exact h
      · exact inv_add h fun hrunning => by cases hrunning
  | touch i now =>
    rw [Worker.step]
    exact inv_modify h (fun _ => rfl) fun _ hentry => hentry
  | optionsChanged i =>
    rw [Worker.step]
    refine inv_modify h ?_ ?_
    · intro entry
      split_ifs <;> rfl
    · intro entry hentry
      split_ifs
      · exact hentry
      · exact named_close entry
  | query i =>
    rw [Worker.step]
    refine inv_modify h ?_ ?_
    · intro entry
      split_ifs <;> rfl
    · intro entry hentry
      split_ifs <;> exact hentry
  | startStream i =>
    rw [Worker.step]
    refine inv_modify h ?_ ?_
    · intro entry
      split_ifs <;> rfl
    · intro entry hentry
      split_ifs <;> exact hentry
  | turn i turnId =>
    rw [Worker.step]
    exact inv_modify h (fun _ => rfl) fun _ _ _ => rfl
  | spontaneousTurn i turnId => exact inv_armSpontaneousTurn h i turnId
  | promote i id => exact inv_promote h i id
  | event i event now => exact inv_handleSessionEvent h i event now
  | backgroundTasks i tasks =>
    rw [Worker.step]
    exact inv_modify h (fun _ => rfl) fun _ hentry => hentry
  | streamEnd i now => exact inv_settleStreamEnd h i now
  | streamDrained i =>
    rw [Worker.step]
    exact inv_modify h (fun _ => rfl) fun _ hentry => hentry
  | cancel id =>
    rw [Worker.step]
    generalize (if id = "" then w.sessions.entries.map (·.2)
      else (w.findSessionEntry id).toList) = targets
    induction targets generalizing w with
    | nil => exact h
    | cons i targets ih => exact ih (inv_beginSessionStop h id i)
  | stopSettled i generation sameSession => exact inv_settleStop h i generation sameSession
  | release id => exact inv_releaseSession h id
  | delete id =>
    rw [Worker.step]
    split
    · exact inv_closeAndRemoveSession h _
    · exact h
  | evict => exact inv_evictLoop _ h

end Worker

end AgentRelay.ClaudeWorker

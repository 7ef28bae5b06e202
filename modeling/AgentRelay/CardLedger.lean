import AgentRelay.OrchestratorProposals

/-! Where each card is: on the list, taken by a confirmation, parked by the watchdog, on
record as a run. The ledger keeps card ids only; one lemma says everything a step of the
board can do to it. -/
namespace AgentRelay.Relay
open StepRun

structure CardLedger where
  pending : List String
  taken : List (String × Option String)
  parked : List String
  queue : List String
  runs : List String
  started : List String
  dismissed : List String
  issued : List String
  savedPending : List String
  savedRuns : List String
  savedDismissed : List String

namespace CardLedger

def toSave (l : CardLedger) : List String := l.pending.filter (· ∉ l.parked) ++ l.parked

inductive Step (l : CardLedger) : CardMove → CardLedger → Prop
  | idle : Step l .none l
  | stage (id : String) :
    Step l (.drawn id) { l with pending := l.pending ++ [id], issued := l.issued ++ [id] }
  | take (n : Nat) (id : String) (hn : l.pending[n]? = some id) :
    Step l .none { l with pending := l.pending.eraseIdx n, taken := l.taken ++ [(id, none)] }
  | record (i : Nat) (id runId : String) (hi : l.taken[i]? = some (id, none)) :
    Step l (.started id)
      { l with
        runs := l.runs ++ [id]
        parked := l.parked.filter (· ≠ id)
        taken := l.taken.set i (id, some runId)
        started := l.started ++ [id] }
  | drop (i : Nat) (id : String) (run : Option String) (hi : l.taken[i]? = some (id, run)) :
    Step l .none { l with taken := l.taken.eraseIdx i }
  | lose (i : Nat) (card : OrchestratorProposal) (hi : l.taken[i]? = some (card.id, none)) :
    Step l (.lost card) { l with taken := l.taken.eraseIdx i }
  | reopen (i : Nat) (id : String) (hi : l.taken[i]? = some (id, none)) :
    Step l (.started id) { l with taken := l.taken.eraseIdx i, started := l.started ++ [id] }
  | restore (i : Nat) (card : OrchestratorProposal) (run : Option String)
      (hi : l.taken[i]? = some (card.id, run)) :
    Step l (.restored card run)
      { l with
        taken := l.taken.eraseIdx i
        pending := if card.id ∈ l.pending then l.pending else l.pending ++ [card.id] }
  | claim (due : List String) (hqueue : l.queue = []) (hdue : due.Sublist l.pending) :
    Step l .none { l with parked := l.parked ++ due, queue := due }
  | settle (id : String) (rest : List String) (hqueue : l.queue = id :: rest) :
    Step l .none { l with parked := l.parked.filter (· ≠ id), queue := rest }
  | dismiss (id : String) (hid : id ∈ l.pending) :
    Step l (.dismissed id)
      { l with pending := l.pending.filter (· ≠ id), dismissed := l.dismissed ++ [id] }
  | save : Step l .none
      { l with savedPending := l.toSave, savedRuns := l.runs, savedDismissed := l.dismissed }
  | restart : Step l .none
      { l with
        pending := l.savedPending
        parked := []
        taken := []
        queue := []
        runs := l.savedRuns
        started := []
        dismissed := l.savedDismissed }

end CardLedger

namespace ProposalBoard

def ids (cards : List OrchestratorProposal) : List String := cards.map (·.id)

def ledger (b : ProposalBoard) : CardLedger where
  pending := ids b.orchestratorProposals
  taken := b.starts.map fun start => (start.card.id, start.run)
  parked := ids b.startingScheduledProposals
  queue := ((b.sweep.map (·.claimed)).getD []).map (·.1)
  runs := b.runs.map (·.cardId)
  started := b.started
  dismissed := b.dismissed
  issued := b.issued
  savedPending := ids b.saved.orchestratorProposals
  savedRuns := b.saved.runs.map (·.cardId)
  savedDismissed := b.saved.dismissed

theorem ids_modifyFirst (cards : List OrchestratorProposal) (proposalId : String)
    (f : OrchestratorProposal → OrchestratorProposal) (hf : ∀ card, (f card).id = card.id) :
    ids (modifyFirst cards proposalId f) = ids cards := by
  induction cards with
  | nil => rfl
  | cons card rest ih =>
    unfold modifyFirst
    split_ifs
    · simp [ids, hf]
    · simp only [ids, List.map_cons, List.cons.injEq, true_and] at ih ⊢
      exact ih

theorem ids_filter_ne (cards : List OrchestratorProposal) (proposalId : String) :
    ids (cards.filter fun card => !decide (card.id = proposalId)) =
      (ids cards).filter fun id => !decide (id = proposalId) := by
  simp [ids, List.filter_map, Function.comp_def]

variable {b : ProposalBoard}

theorem take_cases (proposalId : String) (deviceId : Option String) (bySweep : Bool) :
    (∃ error, b.takeProposal proposalId deviceId bySweep = (b, .error error)) ∨
    ∃ n card, b.orchestratorProposals[n]? = some card ∧ card.id = proposalId ∧
      b.takeProposal proposalId deviceId bySweep =
        ({ b with
            orchestratorProposals := b.orchestratorProposals.eraseIdx n
            starts := b.starts ++ [{ card := card, bySweep := bySweep }] }, .ok card) := by
  unfold takeProposal
  split
  · exact .inl ⟨_, rfl⟩
  · split
    · exact .inl ⟨_, rfl⟩
    · split
      · exact .inl ⟨_, rfl⟩
      · next index hindex =>
        split
        · exact .inl ⟨_, rfl⟩
        · next card hcard =>
          refine .inr ⟨index, card, hcard, ?_, rfl⟩
          obtain ⟨hlt, hid, -⟩ := List.findIdx?_eq_some_iff_getElem.mp hindex
          rw [List.getElem?_eq_getElem hlt] at hcard
          rw [← Option.some.inj hcard]
          simpa using hid

theorem ledger_take {n : Nat} {card : OrchestratorProposal} (bySweep : Bool)
    (hcard : b.orchestratorProposals[n]? = some card) :
    b.ledger.Step .none (ledger { b with
      orchestratorProposals := b.orchestratorProposals.eraseIdx n
      starts := b.starts ++ [{ card := card, bySweep := bySweep }] }) := by
  have hn : b.ledger.pending[n]? = some card.id := by
    simp [ledger, ids, hcard]
  have hstep := CardLedger.Step.take n card.id hn
  simpa [ledger, ids, List.eraseIdx_map] using hstep

theorem ledger_stage (card : OrchestratorProposal) :
    b.ledger.Step (match (b.stage card).2 with
      | .ok card => .drawn card.id
      | .error _ => .none) (b.stage card).1.ledger := by
  unfold stage
  split_ifs
  · exact .idle
  · have hstep := CardLedger.Step.stage (l := b.ledger) card.id
    simpa [ledger, ids] using hstep

/-- A confirmation of a reopen card puts no new run on record. -/
def ReopensUnrecorded (b : ProposalBoard) : Prop :=
  ∀ start ∈ b.starts, start.card.kind = .reopenTask → start.run = none

theorem ledger_record (i : Nat) (runId : String) :
    b.ledger.Step (b.move (.record i runId)) (b.recordRun i runId).ledger := by
  simp only [move, recordRun]
  cases hstart : b.starts[i]? with
  | none => exact .idle
  | some start =>
    dsimp only
    split_ifs with hkind
    · have hi : b.ledger.taken[i]? = some (start.card.id, none) := by
        simp [ledger, hstart, hkind.2]
      have hstep := CardLedger.Step.record i start.card.id runId hi
      simpa [ledger, ids_filter_ne, List.map_set] using hstep
    · exact .idle

theorem ledger_restore {c : ProposalBoard} (card : OrchestratorProposal) :
    (c.restoreCard card).ledger =
      { c.ledger with pending := if card.id ∈ c.ledger.pending then c.ledger.pending
          else c.ledger.pending ++ [card.id] } := by
  have hany : c.orchestratorProposals.any (·.id = card.id) = true ↔ card.id ∈ c.ledger.pending := by
    simp [ledger, ids]
  unfold restoreCard
  by_cases h : card.id ∈ c.ledger.pending
  · rw [if_pos (hany.mpr h), if_pos h]
  · rw [if_neg (fun hc => h (hany.mp hc)), if_neg h]
    simp [ledger, ids]

theorem ledger_finish (hreopens : b.ReopensUnrecorded) (i : Nat) (error : Option String) :
    b.ledger.Step (b.move (.finish i error)) (b.finishStart i error).ledger := by
  simp only [move, finishStart]
  cases hstart : b.starts[i]? with
  | none => exact .idle
  | some start =>
    have hi : b.ledger.taken[i]? = some (start.card.id, start.run) := by
      simp [ledger, hstart]
    -- what is left of the board once the call has returned
    have hleft : ∀ sweep : Option Sweep, (sweep.map (·.claimed)) = b.sweep.map (·.claimed) →
        ledger { b with starts := b.starts.eraseIdx i, sweep := sweep } =
          { b.ledger with taken := b.ledger.taken.eraseIdx i } := by
      intro sweep hsweep
      simp [ledger, hsweep, List.eraseIdx_map]
    have hsweep : ((if start.bySweep then b.sweep.map fun sweep =>
        { sweep with phase := .confirmed error } else b.sweep).map (·.claimed)) =
          b.sweep.map (·.claimed) := by
      split_ifs
      · cases b.sweep <;> rfl
      · rfl
    dsimp only
    cases hkind : start.card.kind with
    | startTask =>
      cases error with
      | none =>
        cases hrun : start.run with
        | none =>
          simp only [and_self, ↓reduceIte]
          exact .idle
        | some runId =>
          simp only [reduceCtorEq, and_true, and_false, ↓reduceIte]
          rw [hleft _ hsweep]
          exact .drop i start.card.id start.run hi
      | some error =>
        simp only [reduceCtorEq, and_false, ↓reduceIte]
        rw [ledger_restore, hleft _ hsweep]
        exact .restore i start.card start.run hi
    | reopenTask =>
      have hrun := hreopens start (List.mem_of_getElem? hstart) hkind
      rw [hrun] at hi
      cases error with
      | none =>
        simp only [reduceCtorEq, false_and, ↓reduceIte]
        have hstep := CardLedger.Step.reopen i start.card.id hi
        generalize (if start.bySweep then _ else b.sweep) = sweep at hsweep ⊢
        simpa [ledger, hsweep, List.eraseIdx_map] using hstep
      | some error =>
        simp only [reduceCtorEq, false_and, ↓reduceIte]
        rw [hleft _ hsweep]
        exact .lose i start.card hi

theorem ledger_tick (now : Nat) :
    b.ledger.Step .none (b.startDueScheduledProposalsAt now).ledger := by
  unfold startDueScheduledProposalsAt
  split
  · exact .idle
  next hbusy =>
  have hsweep : b.sweep = none := by
    simp only [Bool.or_eq_true, not_or, Bool.not_eq_true, Option.isSome_eq_false_iff] at hbusy
    exact Option.isNone_iff_eq_none.mp hbusy.2
  dsimp only
  split
  · exact .idle
  · have hstep := CardLedger.Step.claim (l := b.ledger)
      (ids (b.orchestratorProposals.filter (isDue now))) (by simp [ledger, hsweep])
      (List.filter_sublist.map _)
    have hids : ids (b.orchestratorProposals.map fun card =>
        if isDue now card then { card with autoStart := false } else card) =
          ids b.orchestratorProposals := by
      simp only [ids, List.map_map]
      apply List.map_congr_left
      intro card _
      simp only [Function.comp_apply]
      split_ifs <;> rfl
    simp only [ledger, hids]
    simpa [ledger, ids, Function.comp_def] using hstep

theorem ledger_sweepConfirm : b.ledger.Step .none b.sweepConfirm.ledger := by
  unfold sweepConfirm
  split
  · next proposalId deviceId rest hsweep =>
    obtain ⟨error, heq⟩ | ⟨n, card, hcard, -, heq⟩ :=
      take_cases (b := b) proposalId (some deviceId) true
    · rw [heq]
      have hledger : b.ledger = ledger { b with
          sweep := some ⟨(proposalId, deviceId) :: rest, .confirmed (some error)⟩ } := by
        simp [ledger, hsweep]
      dsimp only
      rw [← hledger]
      exact .idle
    · rw [heq]
      have hstep := ledger_take true hcard
      simpa [ledger, hsweep] using hstep
  · exact .idle

theorem ledger_sweepSettle : b.ledger.Step .none b.sweepSettle.ledger := by
  unfold sweepSettle
  split
  · next proposalId deviceId rest error hsweep =>
    have hqueue : b.ledger.queue = proposalId :: rest.map (·.1) := by
      simp [ledger, hsweep]
    have hstep := CardLedger.Step.settle proposalId (rest.map (·.1)) hqueue
    have hrest : ((if rest = [] then none else some (Sweep.mk rest .ready)).map (·.claimed)).getD
        [] = rest := by
      split_ifs with hnil
      · simp [hnil]
      · rfl
    cases error with
    | none =>
      simp only [ledger, hrest]
      simpa [ledger, ids_filter_ne] using hstep
    | some error =>
      have hids := ids_modifyFirst b.orchestratorProposals proposalId
        (fun card => { card with scheduleError := some ("automatic start failed: " ++ error) })
        fun _ => rfl
      simp only [ledger, hrest, hids]
      simpa [ledger, ids_filter_ne] using hstep
  · exact .idle

theorem ledger_dismiss (proposalId : String) (deviceId : Option String) :
    b.ledger.Step (b.move (.dismiss proposalId deviceId))
      (b.dismissOrchestratorProposal proposalId deviceId).1.ledger := by
  simp only [move, dismissOrchestratorProposal]
  split_ifs with hbeta hlen
  · exact .idle
  · cases requireDeviceId deviceId with
    | error error => exact .idle
    | ok _ => exact .idle
  · cases requireDeviceId deviceId with
    | error error => exact .idle
    | ok _ =>
      have hid : proposalId ∈ b.ledger.pending := by
        by_contra hnot
        apply hlen
        congr 1
        rw [List.filter_eq_self]
        intro card hcard
        have hne : card.id ≠ proposalId := by
          rintro rfl
          exact hnot (List.mem_map_of_mem hcard)
        simpa using hne
      have hstep := CardLedger.Step.dismiss proposalId hid
      simpa [ledger, ids_filter_ne] using hstep

theorem ledger_save : b.ledger.Step .none b.save.ledger := by
  have hsaved : ids b.savedProposals = b.ledger.toSave := by
    simp only [savedProposals, CardLedger.toSave, ledger, ids, List.map_append, List.filter_map]
    congr 2
    apply List.filter_congr
    intro card _
    rw [Bool.eq_iff_iff]
    simp
  have hstep := CardLedger.Step.save (l := b.ledger)
  rw [← hsaved] at hstep
  exact hstep

theorem propose_cases (now : Nat) (suffix : String) (team : ProposalTeam)
    (input : ProposeTaskInput) :
    (∃ error, b.proposeOrchestratorTask now suffix team input = (b, .error error)) ∨
    ∃ card : OrchestratorProposal,
      b.proposeOrchestratorTask now suffix team input = b.stage card := by
  unfold proposeOrchestratorTask
  split
  · exact .inl ⟨_, rfl⟩
  · split
    · exact .inl ⟨_, rfl⟩
    · exact .inl ⟨_, rfl⟩
    · exact .inl ⟨_, rfl⟩
    · exact .inr ⟨_, rfl⟩

theorem proposeReopen_cases (now : Nat) (suffix : String)
    (target : Except String (String × String)) (instruction : String) (updates : TaskSpecUpdates)
    (deviceId : Option String) :
    (∃ error, b.proposeOrchestratorReopen now suffix target instruction updates deviceId =
      (b, .error error)) ∨
    ∃ card : OrchestratorProposal,
      b.proposeOrchestratorReopen now suffix target instruction updates deviceId =
        b.stage card := by
  unfold proposeOrchestratorReopen
  split
  · exact .inl ⟨_, rfl⟩
  · split
    · exact .inl ⟨_, rfl⟩
    · exact .inl ⟨_, rfl⟩
    · exact .inl ⟨_, rfl⟩
    · exact .inr ⟨_, rfl⟩

theorem revise_cases (now : Nat) (proposalId : String) (team : Option ProposalTeam)
    (input : ReviseProposalInput) :
    (b.reviseOrchestratorProposal now proposalId team input).1 = b ∨
    ∃ f : OrchestratorProposal → OrchestratorProposal, (∀ card, (f card).id = card.id) ∧
      (b.reviseOrchestratorProposal now proposalId team input).1 =
        { b with orchestratorProposals := modifyFirst b.orchestratorProposals proposalId f } := by
  unfold reviseOrchestratorProposal
  split
  · exact .inl rfl
  · split
    · exact .inl rfl
    · exact .inl rfl
    · split
      · refine .inr ⟨_, ?_, rfl⟩
        intro card
        rfl
      · exact .inl rfl

theorem step_ledger (hreopens : b.ReopensUnrecorded) (op : ProposalOp) :
    b.ledger.Step (b.move op) (b.step op).ledger := by
  cases op with
  | configure beta driver => exact .idle
  | propose now suffix team input =>
    simp only [move, step]
    obtain ⟨error, heq⟩ | ⟨card, heq⟩ := propose_cases (b := b) now suffix team input
    · rw [heq]
      exact .idle
    · rw [heq]
      exact ledger_stage card
  | proposeReopen now suffix target instruction updates deviceId =>
    simp only [move, step]
    obtain ⟨error, heq⟩ | ⟨card, heq⟩ :=
      proposeReopen_cases (b := b) now suffix target instruction updates deviceId
    · rw [heq]
      exact .idle
    · rw [heq]
      exact ledger_stage card
  | revise now proposalId team input =>
    simp only [move, step]
    obtain heq | ⟨f, hf, heq⟩ := revise_cases (b := b) now proposalId team input
    · rw [heq]
      exact .idle
    · rw [heq]
      simp only [ledger, ids_modifyFirst _ _ _ hf]
      exact .idle
  | confirm proposalId deviceId =>
    simp only [move, step]
    obtain ⟨error, heq⟩ | ⟨n, card, hcard, -, heq⟩ := take_cases (b := b) proposalId deviceId false
    · rw [heq]
      exact .idle
    · rw [heq]
      exact ledger_take false hcard
  | record i runId => exact ledger_record i runId
  | finish i error => exact ledger_finish hreopens i error
  | tick now => exact ledger_tick now
  | sweepConfirm => exact ledger_sweepConfirm
  | sweepSettle => exact ledger_sweepSettle
  | dismiss proposalId deviceId => exact ledger_dismiss proposalId deviceId
  | save => exact ledger_save
  | restart => exact .restart

end ProposalBoard

end AgentRelay.Relay

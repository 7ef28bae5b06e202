import AgentRelay.ProposalStarts

/-! A confirmation that fails. The card came off the list before its start was awaited, so
until it is put back it is nowhere else, and other cards may have taken its place. -/
namespace AgentRelay.Relay
open StepRun

def ProposalOp.isRestart : ProposalOp → Bool
  | .restart => true
  | _ => false

namespace ProposalBoard
variable {b : ProposalBoard}

/-- A confirmation that returns an error after it took its card leaves the card on the list,
once and unchanged, and has started or reopened nothing. -/
def FailLosesNothing (b : ProposalBoard) (op : ProposalOp) : Prop :=
  ∀ i error start, op = .finish i (some error) → b.starts[i]? = some start →
    (b.step op).orchestratorProposals.filter (·.id = start.card.id) = [start.card] ∧
      start.run = none ∧ (b.step op).runs = b.runs ∧ (b.step op).started = b.started

/-- What fails is the start of a new task, before its run is on record, and the list still
has room for the card. -/
def HasRoomFor (b : ProposalBoard) : CardMove → Prop
  | .restored _ run => run = none ∧ b.orchestratorProposals.length < maxPendingProposals
  | .lost _ => False
  | _ => True

def RestoresWithRoom (b : ProposalBoard) (op : ProposalOp) : Prop := b.HasRoomFor (b.move op)

instance (b : ProposalBoard) : (m : CardMove) → Decidable (b.HasRoomFor m)
  | .restored _ run => inferInstanceAs (Decidable (run = none ∧ _))
  | .lost _ => isFalse id
  | .none => isTrue trivial
  | .drawn _ => isTrue trivial
  | .started _ => isTrue trivial
  | .dismissed _ => isTrue trivial

instance (b : ProposalBoard) (op : ProposalOp) : Decidable (b.RestoresWithRoom op) :=
  inferInstanceAs (Decidable (b.HasRoomFor (b.move op)))

theorem length_stage (h : b.orchestratorProposals.length ≤ maxPendingProposals)
    (card : OrchestratorProposal) :
    (b.stage card).1.orchestratorProposals.length ≤ maxPendingProposals := by
  unfold stage
  split_ifs with hfull
  · exact h
  · simp only [List.length_append, List.length_singleton]
    omega

theorem length_restoreCard {card : OrchestratorProposal}
    (h : b.orchestratorProposals.length < maxPendingProposals) :
    (b.restoreCard card).orchestratorProposals.length ≤ maxPendingProposals := by
  unfold restoreCard
  split
  · omega
  · simp only [List.length_append, List.length_singleton]
    omega

/-- Only a card that is put back can overfill the list. -/
theorem length_step (h : b.orchestratorProposals.length ≤ maxPendingProposals) {op : ProposalOp}
    (hroom : b.RestoresWithRoom op) (hprocess : op.isRestart = false) :
    (b.step op).orchestratorProposals.length ≤ maxPendingProposals := by
  have hmoved := b.moved op
  generalize b.step op = b' at hmoved ⊢
  cases hmoved with
  | kept _ _ hlength hstarts => exact hlength.trans h
  | staged _ card => exact length_stage h card
  | taken _ _ start hrun hlength hstarts => exact hlength.trans h
  | recorded i runId =>
    unfold recordRun
    split
    · exact h
    · split
      · exact h
      · exact h
  | finished i error =>
    simp only [finishStart]
    cases hstart : b.starts[i]? with
    | none => exact h
    | some start =>
      dsimp only
      split
      · exact h
      · cases hkind : start.card.kind with
        | startTask =>
          cases error with
          | none => exact h
          | some error =>
            simp only [RestoresWithRoom, HasRoomFor, move, hstart, hkind] at hroom
            exact length_restoreCard hroom.2
        | reopenTask =>
          cases error with
          | none => exact h
          | some error => exact h
  | restarted => cases hprocess

theorem failLosesNothing_step (hunique : b.ledger.Unique) {op : ProposalOp}
    (hroom : b.RestoresWithRoom op) : b.FailLosesNothing op := by
  rintro i error start rfl hstart
  have hi : b.ledger.taken[i]? = some (start.card.id, start.run) := by
    simp [ledger, hstart]
  obtain ⟨-, hpending, -⟩ := CardLedger.takenIds_eraseIdx hunique.openNodup hi
  cases hkind : start.card.kind with
  | reopenTask => simp [RestoresWithRoom, HasRoomFor, move, hstart, hkind] at hroom
  | startTask =>
    simp only [RestoresWithRoom, HasRoomFor, move, hstart, hkind] at hroom
    have hnone : ∀ card ∈ b.orchestratorProposals, card.id ≠ start.card.id := by
      intro card hcard hid
      exact hpending (hid ▸ List.mem_map_of_mem hcard)
    have hany : b.orchestratorProposals.any (·.id = start.card.id) = false := by
      simpa using hnone
    simp only [step, finishStart, hstart, hkind, reduceCtorEq, and_false, ↓reduceIte, restoreCard,
      hany, Bool.false_eq_true]
    refine ⟨?_, hroom.1, trivial, trivial⟩
    rw [List.filter_append, List.filter_eq_nil_iff.mpr]
    · simp
    · intro card hcard
      simpa using hnone card hcard

/-- In every run of one process in which only starts of new tasks fail, before their run is
on record and while the list has room, a failed confirmation loses nothing and the list
stays within its bound. -/
theorem failed_confirm_loses_nothing (ops : List ProposalOp)
    (hprocess : ∀ op ∈ ops, op.isRestart = false) (hfresh : Along step DrawsFresh {} ops)
    (hroom : Along step RestoresWithRoom {} ops) :
    Along step FailLosesNothing {} ops ∧
      Always step (fun b => b.orchestratorProposals.length ≤ maxPendingProposals) {} ops := by
  have hsteps := (along_and hfresh hroom).and_mem hprocess
  have hunique : ∀ (b : ProposalBoard) (op : ProposalOp),
      b.ReopensUnrecorded ∧ b.ledger.Unique → b.DrawsFresh op →
        (b.step op).ReopensUnrecorded ∧ (b.step op).ledger.Unique := by
    rintro b op ⟨hreopens, hunique⟩ hop
    exact ⟨reopens_step hreopens op, hunique.step (step_ledger hreopens op) hop⟩
  constructor
  · refine along_of_step (I := fun b => b.ReopensUnrecorded ∧ b.ledger.Unique) ?_
      ⟨kept_new.reopens, kept_new.unique⟩ hsteps
    intro b op hb hop
    exact ⟨hunique b op hb hop.1.1, failLosesNothing_step hb.2 hop.1.2⟩
  · refine always_of_step ?_ (Nat.zero_le _) hsteps
    intro b op hb hop
    exact length_step hb hop.1.2 hop.2

/-- While the start of one card is awaited another one is staged and dismissed; then the
start fails. -/
theorem failed_confirm_loses_nothing_restored :
    Along step FailLosesNothing {}
      [.propose 100 "a" {} { title := "Parser", deviceId := some "phone" },
        .confirm "orch_prop_a" (some "phone"),
        .propose 101 "b" {} { title := "Docs", deviceId := some "phone" },
        .dismiss "orch_prop_a" (some "phone"),
        .finish 0 (some "not a git repository"),
        .dismiss "orch_prop_b" (some "phone")] :=
  (failed_confirm_loses_nothing _ (by decide) (by decide +kernel) (by decide +kernel)).1

/-- A reopen that fails takes its card with it. -/
theorem failed_confirm_loses_reopen :
    ¬∀ ops : List ProposalOp, (∀ op ∈ ops, op.isRestart = false) →
      Along step DrawsFresh {} ops →
        Along step FailLosesNothing {} ops ∧
          Always step (fun b => b.orchestratorProposals.length ≤ maxPendingProposals) {} ops := by
  intro h
  have hrun := (h ([.proposeReopen 100 "a" (.ok ("team_1", "Parser")) "add the flag" {}
      (some "phone"), .confirm "orch_prop_a" (some "phone")] ++
    [.finish 0 (some "this task already has a driver")]) (by decide) (by decide +kernel)).1
  have hlast := (along_append.mp hrun).2.1
  have hkept := (hlast 0 _ { card :=
    { id := "orch_prop_a", kind := .reopenTask, reopenRunId := some "team_1", title := "Parser"
      context := "add the flag", agents := defaultTaskSeatAgents, createdAt := 100
      proposedByDeviceId := "phone" }, bySweep := false } rfl (by decide +kernel)).1
  revert hkept
  decide +kernel

end ProposalBoard

end AgentRelay.Relay

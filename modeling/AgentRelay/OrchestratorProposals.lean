import AgentRelay.DeliveryRun
import AgentRelay.StepRun

/-! Proposal cards of the orchestrator: staged, revised, dismissed, confirmed by hand or by
the watchdog when they come due, saved, and found again after a restart. A confirmation
takes its card off the list, awaits the start of the task, and puts the card back when that
fails; every other call may come in between. Starting a task is a call that may fail. -/
namespace AgentRelay.Relay
open Text StepRun

def tasksLockedMessage : String :=
  "Tasks is still in development and is off in this build; relaunch with " ++
    "`sealwire --beta` to try it"

def maxPendingProposals : Nat := 16
def maxProposalTitleChars : Nat := 200
def maxProposalFieldChars : Nat := 8000

inductive ProposalKind
  | startTask
  | reopenTask
  deriving DecidableEq, Repr

structure SeatAgent where
  provider : Option String := none
  model : Option String := none
  effort : Option String := none
  deriving DecidableEq, Repr

structure TaskSeatAgents where
  tl : SeatAgent := {}
  dev : SeatAgent := {}
  reviewer : SeatAgent := {}
  deriving DecidableEq, Repr

structure TaskSpecUpdates where
  title : Option String := none
  context : Option String := none
  acceptanceCriteria : Option String := none
  agreedScope : Option String := none
  qualityRules : Option String := none
  deriving DecidableEq, Repr

structure OrchestratorProposal where
  id : String
  kind : ProposalKind
  reopenRunId : Option String := none
  title : String
  context : String := ""
  acceptanceCriteria : String := ""
  agreedScope : String := ""
  qualityRules : String := ""
  teamId : String := ""
  teamVersionId : String := ""
  teamName : String := ""
  why : Option String := none
  specUpdates : TaskSpecUpdates := {}
  agents : TaskSeatAgents := {}
  createdAt : Nat := 0
  autoStart : Bool := false
  scheduledStartAt : Option Nat := none
  proposedByDeviceId : String := ""
  scheduleError : Option String := none
  deriving DecidableEq, Repr

/-- The fields `next` names, over the ones that were staged. -/
def SeatAgent.merge (seat next : SeatAgent) : SeatAgent :=
  { provider := next.provider.or seat.provider
    model := next.model.or seat.model
    effort := next.effort.or seat.effort }

def TaskSeatAgents.merge (seats next : TaskSeatAgents) : TaskSeatAgents :=
  { tl := seats.tl.merge next.tl
    dev := seats.dev.merge next.dev
    reviewer := seats.reviewer.merge next.reviewer }

def defaultTaskSeatAgents : TaskSeatAgents :=
  { tl := ⟨some "claude_code", some "opus[1m]", some "xhigh"⟩
    dev := ⟨some "claude_code", some "opus[1m]", some "xhigh"⟩
    reviewer := ⟨some "codex", some "gpt-5.6-sol", some "high"⟩ }

def truncateChars (value : String) (maxChars : Nat) : String :=
  String.ofList (value.toList.take maxChars)

/-- Minutes from now as a second of the clock; what does not fit is refused. -/
def resolveScheduledStartAt (now : Nat) (startInMinutes : Option Int) :
    Except String (Option Nat) :=
  match startInMinutes with
  | none => .ok none
  | some minutes =>
    if minutes ≤ 0 then
      .error "start_in_minutes must be a whole number of minutes in the future"
    else if u64Max < minutes.toNat * 60 ∨ u64Max < now + minutes.toNat * 60 then
      .error "start_in_minutes is too far in the future"
    else .ok (some (now + minutes.toNat * 60))

structure ProposeTaskInput where
  title : String
  context : Option String := none
  acceptanceCriteria : Option String := none
  agreedScope : Option String := none
  qualityRules : Option String := none
  why : Option String := none
  agents : TaskSeatAgents := {}
  deviceId : Option String
  autoStart : Option Bool := none
  startInMinutes : Option Int := none
  deriving DecidableEq, Repr

structure ReviseProposalInput where
  title : Option String := none
  context : Option String := none
  acceptanceCriteria : Option String := none
  why : Option String := none
  agents : TaskSeatAgents := {}
  deviceId : Option String
  autoStart : Option Bool := none
  startInMinutes : Option Int := none
  deriving DecidableEq, Repr

structure ProposalTeam where
  teamId : String := "builtin"
  teamVersionId : String := "builtin-v1"
  teamName : String := "Default"
  deriving DecidableEq, Repr

structure CardStart where
  card : OrchestratorProposal
  bySweep : Bool
  run : Option String := none
  deriving DecidableEq, Repr

/-- Where the watchdog is with the card at the head of the ones it claimed. -/
inductive SweepPhase
  | ready
  | confirming
  | confirmed (error : Option String)
  deriving DecidableEq, Repr

structure Sweep where
  claimed : List (String × String)
  phase : SweepPhase
  deriving DecidableEq, Repr

structure RecordedRun where
  runId : String
  cardId : String
  deriving DecidableEq, Repr

structure SavedBoard where
  orchestratorProposals : List OrchestratorProposal := []
  runs : List RecordedRun := []
  dismissed : List String := []
  deriving DecidableEq, Repr

structure ProposalBoard where
  betaFeaturesEnabled : Bool := true
  hasTeamDriver : Bool := true
  orchestratorProposals : List OrchestratorProposal := []
  startingScheduledProposals : List OrchestratorProposal := []
  starts : List CardStart := []
  sweep : Option Sweep := none
  runs : List RecordedRun := []
  saved : SavedBoard := {}
  /-- History: every card id drawn so far. -/
  issued : List String := []
  /-- History: the cards this process started a run for or reopened one with. -/
  started : List String := []
  /-- History: the cards whose dismissal succeeded. -/
  dismissed : List String := []
  deriving DecidableEq, Repr

namespace ProposalBoard

def tooManyProposals : String :=
  "too many pending Orchestrator proposals (max 16); confirm or dismiss one first"

def gone (proposalId : String) : String :=
  "proposal `" ++ proposalId ++ "` is gone or already settled"

/-- Put a new card on the list, if there is room. -/
def stage (b : ProposalBoard) (proposal : OrchestratorProposal) :
    ProposalBoard × Except String OrchestratorProposal :=
  if maxPendingProposals ≤ b.orchestratorProposals.length then (b, .error tooManyProposals)
  else
    ({ b with
        orchestratorProposals := b.orchestratorProposals ++ [proposal]
        issued := b.issued ++ [proposal.id] }, .ok proposal)

def proposalId (suffix : String) : String := "orch_prop_" ++ suffix

def proposeOrchestratorTask (b : ProposalBoard) (now : Nat) (suffix : String)
    (team : ProposalTeam) (input : ProposeTaskInput) :
    ProposalBoard × Except String OrchestratorProposal :=
  if !b.betaFeaturesEnabled then (b, .error tasksLockedMessage)
  else
    match requireDeviceId input.deviceId, resolveScheduledStartAt now input.startInMinutes,
        nonEmpty (some input.title) with
    | .error error, _, _ => (b, .error error)
    | .ok _, .error error, _ => (b, .error error)
    | .ok _, .ok _, none => (b, .error "title is required")
    | .ok deviceId, .ok scheduledStartAt, some title =>
      b.stage
        { id := proposalId suffix
          kind := .startTask
          title := truncateChars title maxProposalTitleChars
          context := truncateChars (input.context.getD "") maxProposalFieldChars
          acceptanceCriteria :=
            truncateChars (input.acceptanceCriteria.getD "") maxProposalFieldChars
          agreedScope := truncateChars (input.agreedScope.getD "") maxProposalFieldChars
          qualityRules := truncateChars (input.qualityRules.getD "") maxProposalFieldChars
          teamId := team.teamId
          teamVersionId := team.teamVersionId
          teamName := team.teamName
          why := (nonEmpty input.why).map (truncateChars · maxProposalFieldChars)
          agents := defaultTaskSeatAgents.merge input.agents
          createdAt := now
          autoStart := input.autoStart.getD false
          scheduledStartAt := scheduledStartAt
          proposedByDeviceId := deviceId }

/-- Stage a card for a finished run; which run it is, with its title, was looked up. -/
def proposeOrchestratorReopen (b : ProposalBoard) (now : Nat) (suffix : String)
    (target : Except String (String × String)) (instruction : String) (updates : TaskSpecUpdates)
    (deviceId : Option String) : ProposalBoard × Except String OrchestratorProposal :=
  if !b.betaFeaturesEnabled then (b, .error tasksLockedMessage)
  else
    match requireDeviceId deviceId, nonEmpty (some instruction), target with
    | .error error, _, _ => (b, .error error)
    | .ok _, none, _ => (b, .error "say what the team should do now")
    | .ok _, some _, .error error => (b, .error error)
    | .ok deviceId, some instruction, .ok (runId, runTitle) =>
      b.stage
        { id := proposalId suffix
          kind := .reopenTask
          reopenRunId := some runId
          title := updates.title.getD runTitle
          context := truncateChars instruction maxProposalFieldChars
          specUpdates := updates
          agents := defaultTaskSeatAgents.merge {}
          createdAt := now
          proposedByDeviceId := deviceId }

def modifyFirst (proposals : List OrchestratorProposal) (proposalId : String)
    (f : OrchestratorProposal → OrchestratorProposal) : List OrchestratorProposal :=
  match proposals with
  | [] => []
  | card :: rest =>
    if card.id = proposalId then f card :: rest else card :: modifyFirst rest proposalId f

def revised (card : OrchestratorProposal) (scheduledStartAt : Option Nat)
    (team : Option ProposalTeam) (input : ReviseProposalInput) : OrchestratorProposal :=
  { card with
    title := ((nonEmpty input.title).map (truncateChars · maxProposalTitleChars)).getD card.title
    context := (input.context.map (truncateChars · maxProposalFieldChars)).getD card.context
    acceptanceCriteria :=
      (input.acceptanceCriteria.map (truncateChars · maxProposalFieldChars)).getD
        card.acceptanceCriteria
    why := match input.why with
      | some why => (nonEmpty (some why)).map (truncateChars · maxProposalFieldChars)
      | none => card.why
    autoStart := input.autoStart.getD card.autoStart
    scheduledStartAt := scheduledStartAt.or card.scheduledStartAt
    agents := card.agents.merge input.agents
    teamId := (team.map (·.teamId)).getD card.teamId
    teamVersionId := (team.map (·.teamVersionId)).getD card.teamVersionId
    teamName := (team.map (·.teamName)).getD card.teamName }

def reviseOrchestratorProposal (b : ProposalBoard) (now : Nat) (proposalId : String)
    (team : Option ProposalTeam) (input : ReviseProposalInput) :
    ProposalBoard × Except String Unit :=
  if !b.betaFeaturesEnabled then (b, .error tasksLockedMessage)
  else
    match requireDeviceId input.deviceId, resolveScheduledStartAt now input.startInMinutes with
    | .error error, _ => (b, .error error)
    | .ok _, .error error => (b, .error error)
    | .ok _, .ok scheduledStartAt =>
      if b.orchestratorProposals.any (·.id = proposalId) then
        ({ b with orchestratorProposals :=
            modifyFirst b.orchestratorProposals proposalId fun card =>
              revised card scheduledStartAt team input }, .ok ())
      else (b, .error ("no pending proposal '" ++ proposalId ++ "'"))

/-- The first half of a confirmation: the card comes off the list before its start is
awaited, so that it cannot be started twice. -/
def takeProposal (b : ProposalBoard) (proposalId : String) (deviceId : Option String)
    (bySweep : Bool) : ProposalBoard × Except String OrchestratorProposal :=
  if !b.betaFeaturesEnabled then (b, .error tasksLockedMessage)
  else
    match requireDeviceId deviceId with
    | .error error => (b, .error error)
    | .ok _ =>
      match b.orchestratorProposals.findIdx? (·.id = proposalId) with
      | none => (b, .error (gone proposalId))
      | some index =>
        match b.orchestratorProposals[index]? with
        | none => (b, .error (gone proposalId))
        | some card =>
          ({ b with
              orchestratorProposals := b.orchestratorProposals.eraseIdx index
              starts := b.starts ++ [{ card := card, bySweep := bySweep }] }, .ok card)

/-- The write that puts the new run on record takes the armed copy of its card with it. -/
def recordRun (b : ProposalBoard) (i : Nat) (runId : String) : ProposalBoard :=
  match b.starts[i]? with
  | none => b
  | some start =>
    if start.card.kind = .startTask ∧ start.run = none then
      { b with
        runs := b.runs ++ [⟨runId, start.card.id⟩]
        startingScheduledProposals :=
          b.startingScheduledProposals.filter (·.id ≠ start.card.id)
        starts := b.starts.set i { start with run := some runId }
        started := b.started ++ [start.card.id] }
    else b

/-- A failed start puts its card back, at the end and if no such card is there. -/
def restoreCard (b : ProposalBoard) (card : OrchestratorProposal) : ProposalBoard :=
  if b.orchestratorProposals.any (·.id = card.id) then b
  else { b with orchestratorProposals := b.orchestratorProposals ++ [card] }

/-- The awaited start returns. A task that starts is on record by then; a run that is
reopened counts as started by its card; the error of a reopen is passed on at once. -/
def finishStart (b : ProposalBoard) (i : Nat) (error : Option String) : ProposalBoard :=
  match b.starts[i]? with
  | none => b
  | some start =>
    if start.card.kind = .startTask ∧ start.run = none ∧ error = none then b
    else
      let b := { b with
        starts := b.starts.eraseIdx i
        sweep := if start.bySweep then b.sweep.map fun sweep =>
            { sweep with phase := .confirmed error }
          else b.sweep }
      match start.card.kind, error with
      | .startTask, none => b
      | .startTask, some _ => b.restoreCard start.card
      | .reopenTask, none => { b with started := b.started ++ [start.card.id] }
      | .reopenTask, some _ => b

def isDue (now : Nat) (card : OrchestratorProposal) : Bool :=
  card.autoStart && match card.scheduledStartAt with
    | some dueAt => decide (dueAt ≤ now)
    | none => false

/-- The watchdog claims every due card under one lock: the list keeps it disarmed, the armed
copy is parked. It does not look again before it is through with the ones it claimed. -/
def startDueScheduledProposalsAt (b : ProposalBoard) (now : Nat) : ProposalBoard :=
  if !b.hasTeamDriver || !b.betaFeaturesEnabled || b.sweep.isSome then b
  else
    let due := b.orchestratorProposals.filter (isDue now)
    if due = [] then b
    else
      { b with
        orchestratorProposals := b.orchestratorProposals.map fun card =>
          if isDue now card then { card with autoStart := false } else card
        startingScheduledProposals := b.startingScheduledProposals ++ due
        sweep := some ⟨due.map fun card => (card.id, card.proposedByDeviceId), .ready⟩ }

/-- The watchdog confirms the next card it claimed. -/
def sweepConfirm (b : ProposalBoard) : ProposalBoard :=
  match b.sweep with
  | some ⟨(proposalId, deviceId) :: rest, .ready⟩ =>
    match b.takeProposal proposalId (some deviceId) true with
    | (b, .error error) =>
      { b with sweep := some ⟨(proposalId, deviceId) :: rest, .confirmed (some error)⟩ }
    | (b, .ok _) => { b with sweep := some ⟨(proposalId, deviceId) :: rest, .confirming⟩ }
  | _ => b

/-- After its confirmation returned, a claimed card is no longer parked. -/
def sweepSettle (b : ProposalBoard) : ProposalBoard :=
  match b.sweep with
  | some ⟨(proposalId, _) :: rest, .confirmed error⟩ =>
    { b with
      startingScheduledProposals := b.startingScheduledProposals.filter (·.id ≠ proposalId)
      orchestratorProposals := match error with
        | some error => modifyFirst b.orchestratorProposals proposalId fun card =>
            { card with scheduleError := some ("automatic start failed: " ++ error) }
        | none => b.orchestratorProposals
      sweep := if rest = [] then none else some ⟨rest, .ready⟩ }
  | _ => b

def dismissOrchestratorProposal (b : ProposalBoard) (proposalId : String)
    (deviceId : Option String) : ProposalBoard × Except String Unit :=
  if !b.betaFeaturesEnabled then (b, .error tasksLockedMessage)
  else
    match requireDeviceId deviceId with
    | .error error => (b, .error error)
    | .ok _ =>
      let kept := b.orchestratorProposals.filter (·.id ≠ proposalId)
      if kept.length = b.orchestratorProposals.length then (b, .error (gone proposalId))
      else
        ({ b with
            orchestratorProposals := kept
            dismissed := b.dismissed ++ [proposalId] }, .ok ())

/-- The cards a snapshot holds; the parked copy wins an id that is on both lists. -/
def savedProposals (b : ProposalBoard) : List OrchestratorProposal :=
  b.orchestratorProposals.filter (fun card =>
    !b.startingScheduledProposals.any (·.id = card.id)) ++ b.startingScheduledProposals

def save (b : ProposalBoard) : ProposalBoard :=
  { b with saved := ⟨b.savedProposals, b.runs, b.dismissed⟩ }

/-- A new process, from the last snapshot. -/
def restart (b : ProposalBoard) : ProposalBoard :=
  { b with
    orchestratorProposals := b.saved.orchestratorProposals
    startingScheduledProposals := []
    starts := []
    sweep := none
    runs := b.saved.runs
    started := []
    dismissed := b.saved.dismissed }

end ProposalBoard

inductive CardMove
  | none
  | drawn (cardId : String)
  | started (cardId : String)
  | restored (card : OrchestratorProposal) (run : Option String)
  | lost (card : OrchestratorProposal)
  | dismissed (cardId : String)
  deriving DecidableEq, Repr

/-- A call on the board, or one of the places where an awaited call goes on. -/
inductive ProposalOp
  | configure (beta driver : Bool)
  | propose (now : Nat) (suffix : String) (team : ProposalTeam) (input : ProposeTaskInput)
  | proposeReopen (now : Nat) (suffix : String) (target : Except String (String × String))
      (instruction : String) (updates : TaskSpecUpdates) (deviceId : Option String)
  | revise (now : Nat) (proposalId : String) (team : Option ProposalTeam)
      (input : ReviseProposalInput)
  | confirm (proposalId : String) (deviceId : Option String)
  | record (start : Nat) (runId : String)
  | finish (start : Nat) (error : Option String)
  | tick (now : Nat)
  | sweepConfirm
  | sweepSettle
  | dismiss (proposalId : String) (deviceId : Option String)
  | save
  | restart

namespace ProposalBoard

def step (b : ProposalBoard) : ProposalOp → ProposalBoard
  | .configure beta driver => { b with betaFeaturesEnabled := beta, hasTeamDriver := driver }
  | .propose now suffix team input => (b.proposeOrchestratorTask now suffix team input).1
  | .proposeReopen now suffix target instruction updates deviceId =>
    (b.proposeOrchestratorReopen now suffix target instruction updates deviceId).1
  | .revise now proposalId team input => (b.reviseOrchestratorProposal now proposalId team input).1
  | .confirm proposalId deviceId => (b.takeProposal proposalId deviceId false).1
  | .record i runId => b.recordRun i runId
  | .finish i error => b.finishStart i error
  | .tick now => b.startDueScheduledProposalsAt now
  | .sweepConfirm => b.sweepConfirm
  | .sweepSettle => b.sweepSettle
  | .dismiss proposalId deviceId => (b.dismissOrchestratorProposal proposalId deviceId).1
  | .save => b.save
  | .restart => b.restart

/-- A card is drawn, started, given back by a failed start with the run it recorded, given up
by a failed one, or dismissed. -/
def move (b : ProposalBoard) : ProposalOp → CardMove
  | .propose now suffix team input =>
    match (b.proposeOrchestratorTask now suffix team input).2 with
    | .ok card => .drawn card.id
    | .error _ => .none
  | .proposeReopen now suffix target instruction updates deviceId =>
    match (b.proposeOrchestratorReopen now suffix target instruction updates deviceId).2 with
    | .ok card => .drawn card.id
    | .error _ => .none
  | .record i _ =>
    match b.starts[i]? with
    | some start =>
      if start.card.kind = .startTask ∧ start.run = none then .started start.card.id else .none
    | none => .none
  | .finish i error =>
    match b.starts[i]? with
    | some start =>
      match start.card.kind, error with
      | .startTask, none => .none
      | .startTask, some _ => .restored start.card start.run
      | .reopenTask, none => .started start.card.id
      | .reopenTask, some _ => .lost start.card
    | none => .none
  | .dismiss proposalId deviceId =>
    match (b.dismissOrchestratorProposal proposalId deviceId).2 with
    | .ok () => .dismissed proposalId
    | .error _ => .none
  | _ => .none

end ProposalBoard

end AgentRelay.Relay

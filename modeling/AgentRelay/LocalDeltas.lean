import AgentRelay.DeltaReducer
import AgentRelay.WindowOrder
import AgentRelay.PublishedDeltas

/-! A live delta on the local surface: it goes to the conversation on screen, into its hydration
window or its rendered transcript, or to the places that show another thread. -/
namespace AgentRelay.Relay

def DeltaCall.isAgent : DeltaCall → Bool
  | agent .. | agentForThread .. => true
  | command .. | commandForThread .. => false

end AgentRelay.Relay

namespace AgentRelay.Hydration
open Text Relay StepRun

/-- A thread viewed beside the active one. The reducer of its deltas marks a refused entry as a
preview, which nothing here reads. -/
structure ViewOnlyPin where
  threadId : Option String
  entries : Option (List RenderedEntry)
  transcriptRevision : Option Nat := none
  activeTurnId : Option String := none
  wasWorking : Bool := false
  loading : Bool := false
  tailGap : Bool := false
  deltaDuringFetch : Bool := false
  deriving DecidableEq, Repr

structure LocalClient where
  session : RenderedSession
  window : Window := {}
  viewOnlyThread : Option ViewOnlyPin := none
  orchestratorEntriesThreadId : Option String := none
  orchestratorEntries : Option (List RenderedEntry) := none
  orchestratorEntriesLoading : Bool := false
  orchestratorWasWorking : Bool := false
  orchestratorDeltaRaisedWorking : Bool := false
  orchestratorDeltaDuringFetch : Bool := false
  orchestratorTailGap : Bool := false
  transcriptRefusalEpoch : Nat := 0
  transcriptWindowProjectionPending : Bool := false

def Entry.toRow (entry : Entry) : RenderedEntry :=
  { itemId := some entry.itemId, turnId := entry.turnId, text := entry.text
    kind := some entry.kind, status := some entry.status, tool := entry.tool
    entrySeq := entry.entrySeq }

def windowDeltaPolicy : DeltaPolicy :=
  { buildTranscript := false, appendEmptyOffsetlessDelta := true }

def pinDeltaPolicy : DeltaPolicy := { requireEventThreadId := true }

/-- The pin after a delta; `none` when it is the same pin. -/
def applyDeltaToViewOnlyPin (pin : ViewOnlyPin) (event : DeltaEvent) : Option ViewOnlyPin :=
  match truthy event.itemId, pin.entries with
  | some _, some entries =>
    let outcome := reduceTranscriptDeltaEvent pinDeltaPolicy
      (some { activeThreadId := pin.threadId, transcriptRevision := pin.transcriptRevision
              transcript := some entries })
      event pin.threadId none
    match outcome.kind with
    | .noop | .duplicate => none
    | .needsRepair =>
      some { pin with tailGap := true, deltaDuringFetch := pin.loading || pin.deltaDuringFetch }
    | .append =>
      some { pin with
        entries := outcome.nextTranscript
        activeTurnId := (truthy pin.activeTurnId).or (truthy event.turnId)
        wasWorking := true
        deltaDuringFetch := pin.loading || pin.deltaDuringFetch }
  | _, _ => none

namespace LocalClient

/-- Rows of the rendered transcript laid under the window: a full entry of the window, else what
the rows show for the item. -/
def projectedRows (w : Window) (rows : List RenderedEntry) : List RenderedEntry :=
  let named := rows.filterMap fun row => (truthy row.itemId).map (·, row)
  let byItemId : Table RenderedEntry := named.foldl (fun m e => m.insert e.1 e.2) ∅
  let arrayOnly := (named.map (·.1)).filter fun id => !w.entries.contains id
  let order := if arrayOnly = [] then w.order
    else placeOrderedTailIds (fun id => id ∈ arrayOnly) w.order none arrayOnly
  order.filterMap fun id =>
    match w.entries[id]? with
    | some windowEntry =>
      if windowEntry.contentState = .full then some windowEntry.toRow
      else (byItemId[id]?).or (some windowEntry.toRow)
    | none => byItemId[id]?

/-- A pending projection is written to the session of the window's thread. -/
def settleTranscriptProjection (c : LocalClient) : LocalClient :=
  if !c.transcriptWindowProjectionPending then c
  else
    let settled := { c with transcriptWindowProjectionPending := false }
    if (truthy c.window.threadId).any c.window.transcriptWindowIsLoaded
        && c.session.activeThreadId = c.window.threadId then
      { settled with session := { c.session with
          transcript := some (projectedRows c.window (c.session.transcript.getD [])) } }
    else settled

/-- The entries of the Orchestrator are reduced as a pin; `none` when nothing changed. -/
def applyDeltaToOrchestratorEntries (c : LocalClient) (event : DeltaEvent) : Option LocalClient :=
  match truthy c.orchestratorEntriesThreadId, c.orchestratorEntries with
  | some threadId, some entries =>
    (applyDeltaToViewOnlyPin { threadId := some threadId, entries := some entries } event).map
      fun next => { c with
        orchestratorEntries := next.entries
        orchestratorWasWorking := next.wasWorking || c.orchestratorWasWorking
        orchestratorDeltaRaisedWorking := next.wasWorking || c.orchestratorDeltaRaisedWorking
        orchestratorTailGap := next.tailGap || c.orchestratorTailGap
        orchestratorDeltaDuringFetch :=
          ((next.wasWorking || next.tailGap) && c.orchestratorEntriesLoading)
            || c.orchestratorDeltaDuringFetch }
  | _, _ => none

def Elsewhere (c : LocalClient) (event : DeltaEvent) : Bool :=
  (truthy event.threadId).isSome && (truthy c.session.activeThreadId).isSome
    && event.threadId != c.session.activeThreadId

/-- Another thread's delta goes to the pin and to the Orchestrator, whichever shows it. -/
def applyDeltaElsewhere (c : LocalClient) (event : DeltaEvent) : LocalClient :=
  let pinned := { c with
    viewOnlyThread := (c.viewOnlyThread.bind (applyDeltaToViewOnlyPin · event)).or
      c.viewOnlyThread }
  (pinned.applyDeltaToOrchestratorEntries event).getD pinned

/-- The session's revision follows an event that carries one. -/
def revised (session : RenderedSession) (outcome : DeltaOutcome) : RenderedSession :=
  { session with
    transcriptRevision :=
      if outcome.eventRevision.isSome then outcome.nextRevision else session.transcriptRevision }

/-- An empty delta that the reducer accepted settles the entry the window holds; an item the
window lacks was given its entry before. -/
def applyAcceptedEmptyOffsetlessDeltaToWindow (w : Window) (event : DeltaEvent) (itemId : String)
    (outcome : DeltaOutcome) : Window :=
  if outcome.kind ≠ .append ∨ outcome.appendText ≠ some [] ∨ event.delta.getD [] ≠ [] ∨
      event.textOffset.isSome then w
  else
    match w.entries[itemId]?, outcome.entryPatch with
    | some existing, some patch =>
      { w with
        entries := w.entries.insert itemId { existing with
          kind := patch.kind.getD existing.kind
          status := patch.status.getD existing.status
          text := patch.text
          turnId := patch.turnId
          entrySeq := patch.entrySeq } }
    | _, _ => w

/-- What the window knows is brought to the session before a refused delta downgrades an entry,
and fetches begun before the refusal are outdated. -/
def settleForRefusal (c : LocalClient) (outcome : DeltaOutcome) : LocalClient :=
  if outcome.kind = .needsRepair then
    let settled := c.settleTranscriptProjection
    { settled with transcriptRefusalEpoch := settled.transcriptRefusalEpoch + 1 }
  else c

def windowAfterDelta (w : Window) (event : DeltaEvent) (itemId : String)
    (outcome : DeltaOutcome) : Window :=
  let applied := w.applyTranscriptDeltaToWindow event.toDelta
  if applied.2 then applied.1
  else applyAcceptedEmptyOffsetlessDeltaToWindow applied.1 event itemId outcome

def applyDeltaToLoadedWindow (c : LocalClient) (event : DeltaEvent) (itemId : String)
    (currentThreadId : Option String) : LocalClient :=
  let outcome := reduceTranscriptDeltaEvent windowDeltaPolicy (some c.session) event
    currentThreadId (some (c.window.entries[itemId]?.map Entry.toRow))
  if outcome.kind = .noop then c
  else
    let settled := c.settleForRefusal outcome
    { settled with
      window := windowAfterDelta settled.window event itemId outcome
      session := revised settled.session outcome
      transcriptWindowProjectionPending :=
        if outcome.kind = .needsRepair then settled.transcriptWindowProjectionPending else true }

def applyDeltaToRenderedTranscript (c : LocalClient) (event : DeltaEvent)
    (currentThreadId : Option String) : LocalClient :=
  let outcome := reduceTranscriptDeltaEvent {} (some c.session) event currentThreadId none
  match outcome.kind with
  | .noop | .duplicate => c
  | .needsRepair =>
    { c with
      transcriptRefusalEpoch := c.transcriptRefusalEpoch + 1
      session := revised c.session outcome }
  | .append => { c with session := outcome.nextSession.getD c.session }

def applyLocalTranscriptEntryDelta (c : LocalClient) (event : DeltaEvent) : LocalClient :=
  match truthy event.itemId, c.session.transcript with
  | some itemId, some _ =>
    let currentThreadId := truthy c.session.activeThreadId
    if c.Elsewhere event then c.applyDeltaElsewhere event
    else if currentThreadId.any c.window.transcriptWindowIsLoaded then
      c.applyDeltaToLoadedWindow event itemId currentThreadId
    else c.applyDeltaToRenderedTranscript event currentThreadId
  | _, _ => c

end LocalClient

def publishedEvent (s : RelayState) (now : Nat) (threadId : String) (turnId : Option String)
    (call : DeltaCall) : DeltaEvent :=
  let mutation := (s.deltaCall now call).2
  { threadId := some threadId
    itemId := some call.itemId
    turnId := turnId
    delta := some (utf16 (mutation.wireDelta call.delta))
    deltaKind := some (if call.isAgent then "agent_text" else "command_output")
    textOffset := mutation.textOffset
    entrySeq := some mutation.entrySeq
    revision := some mutation.revision
    baseRevision := some mutation.baseRevision }

end AgentRelay.Hydration

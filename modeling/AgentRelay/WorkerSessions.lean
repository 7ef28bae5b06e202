import AgentRelay.InsertionMap
import AgentRelay.StableSort

/-! The sessions of the Claude worker. An entry is an object that its stream, its commands and the
session map refer to, so entries are numbered, and an entry may outlive its place in the map. -/
namespace AgentRelay.ClaudeWorker
open StableSort

abbrev TurnId := { id : String // id ≠ "" }

inductive StopState
  | cancelling
  | stopped
  deriving DecidableEq, Repr

structure StopOperation where
  generation : ℕ
  state : StopState
  isPending : Bool
  doneSessionId : Option String
  stoppedTurnId : Option TurnId
  deriving DecidableEq, Repr

structure SessionEntry where
  key : String
  providerSessionId : Option String
  pendingThreadId : Option String
  /-- The id of the start command that is not answered yet. -/
  pendingStart : Option String
  currentTurnId : Option TurnId := none
  running : Bool := false
  /-- Whether there is a live query, and a consumer of its stream. -/
  session : Bool := false
  streaming : Bool := false
  cancelled : Bool := false
  stopGeneration : ℕ := 0
  stopOperation : Option StopOperation := none
  lastUsedAt : ℕ
  backgroundTasks : List String := []
  deriving DecidableEq, Repr

inductive WorkerEvent
  | response (id threadId : String)
  | errorResponse (id message : String)
  | error (message providerSessionId : String)
  | done (providerSessionId : String) (turnId : Option TurnId) (failed : Bool)
  | sessionStopped (providerSessionId : String) (turnId : Option TurnId)
  | turnStarted (turnId : TurnId) (providerSessionId : Option String)
  deriving DecidableEq, Repr

structure Worker where
  entryAt : ℕ → SessionEntry
  created : ℕ
  sessions : InsertionMap String ℕ
  emitted : List WorkerEvent

def sessionLimit : ℕ := 8

def sessionKey (providerSessionId : String) : String := "session:" ++ providerSessionId

/-- `pending:${id || randomUUID()}`. -/
def pendingKey (id uuid : String) : String := "pending:" ++ if id = "" then uuid else id

/-- `value || null`. -/
def orNull (text : String) : Option String := if text = "" then none else some text

def SessionEntry.isCancelling (entry : SessionEntry) : Bool :=
  entry.stopOperation.any (·.state = .cancelling)

/-- Neither in a turn nor waiting for its start: what eviction prefers. -/
def SessionEntry.isIdle (entry : SessionEntry) : Bool :=
  !entry.running && entry.pendingStart.isNone

def SessionEntry.close (entry : SessionEntry) : SessionEntry :=
  { entry with
    stopGeneration := entry.stopGeneration + 1, stopOperation := none, cancelled := true
    session := false, streaming := false, running := false }

def SessionEntry.reportId (entry : SessionEntry) : Option String :=
  entry.providerSessionId.or entry.pendingThreadId

namespace Worker

def start : Worker where
  entryAt _ := { key := "", providerSessionId := none, pendingThreadId := none
                 pendingStart := none, lastUsedAt := 0 }
  created := 0
  sessions := .empty
  emitted := []

def emit (w : Worker) (event : WorkerEvent) : Worker := { w with emitted := w.emitted ++ [event] }

def modify (w : Worker) (i : ℕ) (f : SessionEntry → SessionEntry) : Worker :=
  if i < w.created then { w with entryAt := Function.update w.entryAt i (f (w.entryAt i)) } else w

/-- `createSessionEntry` and `sessions.set`. -/
def add (w : Worker) (entry : SessionEntry) : Worker :=
  { w with
    entryAt := Function.update w.entryAt w.created entry
    created := w.created + 1
    sessions := w.sessions.set entry.key w.created }

def findSessionEntry (w : Worker) (providerSessionId : String) : Option ℕ :=
  if providerSessionId = "" then none
  else (w.sessions.get (sessionKey providerSessionId)).or
    ((w.sessions.entries.map (·.2)).find? fun i =>
      (w.entryAt i).pendingThreadId = some providerSessionId)

def promoteSessionEntry (w : Worker) (i : ℕ) (providerSessionId : String) : Worker :=
  if providerSessionId = "" ∨ (w.entryAt i).providerSessionId = some providerSessionId ∨
      ¬i < w.created then w
  else
    { w with
      entryAt := Function.update w.entryAt i
        { w.entryAt i with
          providerSessionId := some providerSessionId, key := sessionKey providerSessionId }
      sessions := (w.sessions.delete (w.entryAt i).key).set (sessionKey providerSessionId) i }

def answerStart (w : Worker) (i : ℕ) (answer : String → WorkerEvent) : Worker :=
  match (w.entryAt i).pendingStart with
  | some id => (w.modify i fun entry => { entry with pendingStart := none }).emit (answer id)
  | none => w

def closeAndRemoveSession (w : Worker) (i : ℕ) : Worker :=
  let w := w.modify i SessionEntry.close
  let w := { w with sessions := w.sessions.delete (w.entryAt i).key }
  w.answerStart i (.errorResponse · "Claude session evicted")

structure ReleaseResult where
  released : Bool
  noop : Bool := false
  reason : String := ""
  deriving DecidableEq, Repr

def releaseSession (w : Worker) (providerSessionId : String) : ReleaseResult × Worker :=
  match w.findSessionEntry providerSessionId with
  | none => (⟨false, true, "no live session for that id"⟩, w)
  | some i =>
    let entry := w.entryAt i
    if entry.running ∨ entry.pendingStart.isSome then (⟨false, false, "session is mid-turn"⟩, w)
    else if entry.backgroundTasks ≠ [] then
      (⟨false, false, "session has live background work"⟩, w)
    else if ¬entry.session then
      (⟨false, true, "session had no live process"⟩, w.closeAndRemoveSession i)
    else if entry.isCancelling then (⟨false, false, "session is still stopping"⟩, w)
    else (⟨true, false, ""⟩, w.closeAndRemoveSession i)

/-- The sessions that are not cancelling, the least recently used first. -/
def candidates (w : Worker) : List ℕ :=
  byAge (fun i => (w.entryAt i).lastUsedAt)
    ((w.sessions.entries.map (·.2)).filter fun i => !(w.entryAt i).isCancelling)

/-- The session that eviction takes. -/
def evict? (w : Worker) : Option ℕ :=
  (w.candidates.find? fun i => (w.entryAt i).isIdle).or
    ((w.candidates.find? fun i => (w.entryAt i).pendingStart.isNone).or w.candidates.head?)

def evictedMessage : String :=
  "Claude background session was evicted because the session limit was reached"

def evictRound (w : Worker) (i : ℕ) : Worker :=
  let entry := w.entryAt i
  let w := w.closeAndRemoveSession i
  match entry.providerSessionId with
  | none => w
  | some id => (w.emit (.error evictedMessage id)).emit
      (.done id entry.currentTurnId entry.currentTurnId.isSome)

/-- The rounds of the loop: the worker before each of them, and the session that it closes. -/
def evictLoop : ℕ → Worker → List (Worker × ℕ) × Worker
  | 0, w => ([], w)
  | fuel + 1, w =>
    if sessionLimit < w.sessions.entries.length then
      match w.evict? with
      | some i =>
        let (rounds, last) := evictLoop fuel (w.evictRound i)
        ((w, i) :: rounds, last)
      | none => ([], w)
    else ([], w)

def evictSessionsIfNeeded (w : Worker) : List (Worker × ℕ) × Worker :=
  evictLoop w.sessions.entries.length w

/-- `beginSessionStop`, from a cancel that names an entry or none. -/
def beginSessionStop (w : Worker) (named : String) (i : ℕ) : Worker :=
  w.modify i fun entry =>
    if entry.stopOperation.isSome then entry
    else
      { entry with
        stopGeneration := entry.stopGeneration + 1
        cancelled := true
        stopOperation := some
          { generation := entry.stopGeneration + 1
            state := .cancelling
            isPending := entry.providerSessionId.isNone && entry.pendingThreadId.isSome
            doneSessionId := entry.reportId.or (orNull named)
            stoppedTurnId := entry.currentTurnId } }

/-- A stop whose stream has drained. Another query may have come up for the entry meanwhile. -/
def settleStop (w : Worker) (i generation : ℕ) (sameSession : Bool) : Worker :=
  match (w.entryAt i).stopOperation with
  | none => w
  | some operation =>
    if operation.state = .cancelling ∧ operation.generation = generation ∧
        (w.entryAt i).stopGeneration = generation then
      let w := w.modify i fun entry =>
        { entry with
          session := entry.session && !sameSession
          streaming := entry.streaming && !sameSession
          running := false
          stopOperation := some { operation with state := .stopped } }
      let w := if operation.isPending
        then { w with sessions := w.sessions.delete (w.entryAt i).key } else w
      match operation.doneSessionId with
      | some id => w.emit (.sessionStopped id operation.stoppedTurnId)
      | none => w
    else w

def streamEndedMessage : String := "Claude session stream ended before the turn became idle"

/-- `settleUnexpectedStreamEnd`, up to the eviction. -/
def settleStreamEnd (w : Worker) (i now : ℕ) : Worker :=
  let entry := w.entryAt i
  if entry.cancelled ∨ ¬entry.running then w
  else
    let w := w.modify i fun entry =>
      { entry with running := false, currentTurnId := none, session := false, lastUsedAt := now }
    let w := w.answerStart i (.errorResponse · streamEndedMessage)
    match entry.reportId with
    | none => w
    | some id => (w.emit (.error streamEndedMessage id)).emit
        (.sessionStopped id entry.currentTurnId)

/-- `armSpontaneousTurn`, for an event that reveals a turn. -/
def armSpontaneousTurn (w : Worker) (i : ℕ) (turnId : TurnId) : Worker :=
  let entry := w.entryAt i
  if entry.running ∨ entry.cancelled then w
  else (w.modify i fun entry =>
    { entry with currentTurnId := some turnId, running := true }).emit
      (.turnStarted turnId entry.reportId)

end Worker

inductive StreamEvent
  | sessionStarted (threadId : String)
  | error (message : String)
  | done
  | other
  deriving DecidableEq, Repr

/-- `handleSessionEvent`, apart from the promotion and the eviction. -/
def Worker.handleSessionEvent (w : Worker) (i : ℕ) (event : StreamEvent) (now : ℕ) : Worker :=
  let w := w.modify i fun entry => { entry with lastUsedAt := now }
  match event with
  | .sessionStarted threadId =>
    if threadId = "" then w else w.answerStart i (.response · threadId)
  | .error message =>
    w.answerStart i (.errorResponse · (if message = "" then "Claude stream failed" else message))
  | .done => w.modify i fun entry => { entry with running := false, currentTurnId := none }
  | .other => w

/-- What happens to the sessions between two points at which the worker waits, in the parts that a
command or an event of a stream consists of. -/
inductive Step
  | start (id uuid pendingThreadId : String) (now : ℕ)
  | startFailed (i : ℕ) (id message : String)
  | opened (i : ℕ)
  | resume (providerSessionId : String) (now : ℕ)
  | send (providerSessionId : String) (now : ℕ)
  | touch (i now : ℕ)
  | optionsChanged (i : ℕ)
  | query (i : ℕ)
  | startStream (i : ℕ)
  | turn (i : ℕ) (turnId : TurnId)
  | spontaneousTurn (i : ℕ) (turnId : TurnId)
  | promote (i : ℕ) (providerSessionId : String)
  | event (i : ℕ) (event : StreamEvent) (now : ℕ)
  | backgroundTasks (i : ℕ) (tasks : List String)
  | streamEnd (i now : ℕ)
  | streamDrained (i : ℕ)
  | cancel (providerSessionId : String)
  | stopSettled (i generation : ℕ) (sameSession : Bool)
  | release (providerSessionId : String)
  | delete (providerSessionId : String)
  | evict

namespace Worker

def step (w : Worker) : Step → Worker
  | .start id uuid pendingThreadId now => w.add
      { key := pendingKey id uuid, providerSessionId := none
        pendingThreadId := orNull pendingThreadId, pendingStart := orNull id, lastUsedAt := now }
  | .startFailed i id message =>
    let failed := { w with sessions := w.sessions.delete (w.entryAt i).key }
    if (w.entryAt i).cancelled then failed else failed.emit (.errorResponse id message)
  | .opened i => w.modify i fun entry => { entry with session := true }
  | .resume id now => match w.findSessionEntry id with
    | some i => w.modify i fun entry => { entry with lastUsedAt := now }
    | none => if id = "" then w else w.add
        { key := sessionKey id, providerSessionId := some id, pendingThreadId := none
          pendingStart := none, lastUsedAt := now }
  | .send id now => match w.findSessionEntry id with
    | some _ => w
    | none => if id = "" then w else w.add
        { key := sessionKey id, providerSessionId := some id, pendingThreadId := none
          pendingStart := none, lastUsedAt := now }
  | .touch i now => w.modify i fun entry => { entry with lastUsedAt := now }
  | .optionsChanged i => w.modify i fun entry =>
      if entry.isCancelling || !entry.session then entry else entry.close
  | .query i => w.modify i fun entry =>
      if entry.isCancelling || entry.session then entry
      else
        { entry with
          stopGeneration := entry.stopGeneration + 1, stopOperation := none, cancelled := false
          backgroundTasks := [] }
  | .startStream i => w.modify i fun entry =>
      if !entry.session || entry.streaming then entry
      else { entry with cancelled := false, streaming := true }
  | .turn i turnId => w.modify i fun entry =>
      { entry with currentTurnId := some turnId, running := true }
  | .spontaneousTurn i turnId => w.armSpontaneousTurn i turnId
  | .promote i id => w.promoteSessionEntry i id
  | .event i event now => w.handleSessionEvent i event now
  | .backgroundTasks i tasks => w.modify i fun entry => { entry with backgroundTasks := tasks }
  | .streamEnd i now => w.settleStreamEnd i now
  | .streamDrained i => w.modify i fun entry => { entry with streaming := false }
  | .cancel id =>
    let targets := if id = "" then w.sessions.entries.map (·.2) else (w.findSessionEntry id).toList
    targets.foldl (·.beginSessionStop id) w
  | .stopSettled i generation sameSession => w.settleStop i generation sameSession
  | .release id => (w.releaseSession id).2
  | .delete id => match w.findSessionEntry id with
    | some i => w.closeAndRemoveSession i
    | none => w
  | .evict => w.evictSessionsIfNeeded.2

def run (w : Worker) (steps : List Step) : Worker := steps.foldl step w

end Worker

end AgentRelay.ClaudeWorker

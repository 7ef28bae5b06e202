import AgentRelay.RelayThreads

/-! Writes to a thread's transcript. Each one lands in the thread's runtime, draws a
revision and refreshes the mirror of the selected thread; with no thread selected the
legacy transcript takes the write. -/
namespace AgentRelay.Relay
open Text

structure TranscriptMutationMeta where
  baseRevision : Nat
  revision : Nat
  entrySeq : Nat
  serverTime : Nat
  textOffset : Option Nat := none
  separatorInserted : Bool := false
  deriving DecidableEq, Repr

def TranscriptMutationMeta.wireDelta (m : TranscriptMutationMeta) (delta : String) : String :=
  if m.separatorInserted then "\n" ++ delta else delta

def isGenericToolTitle (title name : String) : Bool :=
  eqIgnoreAsciiCase (trim title) name || eqIgnoreAsciiCase (trim title) (name ++ " call")

def selectToolTitle (existing incoming name : String) : String :=
  if trim incoming = "" then existing
  else if trim existing = "" then incoming
  else if isGenericToolTitle incoming name && !isGenericToolTitle existing name then existing
  else incoming

def mergeToolCallView : Option ToolCallView → Option ToolCallView → Option ToolCallView
  | none, none => none
  | some existing, none => some existing
  | none, some incoming => some incoming
  | some existing, some incoming =>
    let name := if trim incoming.name = "" then existing.name else incoming.name
    some
      { itemType := if trim incoming.itemType = "" then existing.itemType else incoming.itemType
        name := name
        title := selectToolTitle existing.title incoming.title name
        kind := incoming.kind.or existing.kind
        detail := incoming.detail.or existing.detail
        query := incoming.query.or existing.query
        path := incoming.path.or existing.path
        url := incoming.url.or existing.url
        command := incoming.command.or existing.command
        inputPreview := incoming.inputPreview.or existing.inputPreview
        resultPreview := incoming.resultPreview.or existing.resultPreview
        diff := incoming.diff.or existing.diff
        fileChanges :=
          if incoming.fileChanges.isEmpty then existing.fileChanges else incoming.fileChanges
        applyState := incoming.applyState.or existing.applyState
        fileChangesOmitted := incoming.fileChangesOmitted || existing.fileChangesOmitted
        canApply := none }

structure ItemWrite where
  kind : TranscriptEntryKind
  text : Option String
  status : String
  turnId : Option String
  tool : Option ToolCallView
  deriving DecidableEq, Repr

def ItemWrite.onto (w : ItemWrite) (entry : TranscriptRecord) : TranscriptRecord :=
  { entry with
    kind := w.kind
    text := w.text.or entry.text
    status := w.status
    turnId := w.turnId
    tool := if w.kind = .toolCall then mergeToolCallView entry.tool w.tool else w.tool }

def ItemWrite.fresh (w : ItemWrite) (itemId : String) (seq : Option Nat) : TranscriptRecord :=
  { itemId := itemId, kind := w.kind, text := w.text, status := w.status, turnId := w.turnId,
    tool := w.tool, seq := seq }

/-- Change the record of an item, or append a new one; returns its place counted from one. -/
def writeItem (records : List TranscriptRecord) (itemId : String)
    (onto : TranscriptRecord → TranscriptRecord) (fresh : TranscriptRecord) :
    List TranscriptRecord × Nat :=
  match records.findIdx? (·.itemId = itemId) with
  | some index => (records.modify index onto, index + 1)
  | none => (records ++ [fresh], records.length + 1)

/-- The text an agent delta is appended to; a record without one starts empty. -/
def itemText (records : List TranscriptRecord) (itemId : String) : String :=
  ((records.find? (·.itemId = itemId)).bind (·.text)).getD ""

def agentDeltaOnto (delta turnId : String) (entry : TranscriptRecord) : TranscriptRecord :=
  { entry with
    kind := .agentText
    text := some (entry.text.getD "" ++ delta)
    status := "streaming"
    turnId := some (entry.turnId.getD turnId)
    tool := none }

def freshAgentDelta (itemId delta turnId : String) : TranscriptRecord :=
  { itemId := itemId, kind := .agentText, text := some delta, status := "streaming",
    turnId := some turnId, tool := none }

/-- Command output is separated from what stands before it by a newline. -/
def needsSeparator (text delta : String) : Bool :=
  text ≠ "" && text.toList.getLast? ≠ some '\n' && delta.toList.head? ≠ some '\n'

def appendCommandText (text delta : String) : String :=
  if needsSeparator text delta then text ++ "\n" ++ delta else text ++ delta

def commandDeltaOnto (delta : String) (entry : TranscriptRecord) : TranscriptRecord :=
  { entry with
    kind := .command
    text := some (appendCommandText (entry.text.getD "") delta)
    status :=
      if trim entry.status = "" ∨ entry.status = "completed" then "running" else entry.status
    tool := none }

def freshCommandDelta (itemId delta : String) : TranscriptRecord :=
  { itemId := itemId, kind := .command, text := some delta, status := "running", turnId := none,
    tool := none }

namespace RelayState

def transcriptOf (s : RelayState) (threadId : String) : List TranscriptRecord :=
  (s.runtimes[threadId]?.map (·.transcript)).getD []

def modifyRuntime (s : RelayState) (threadId : String) (f : ThreadRuntime → ThreadRuntime) :
    RelayState :=
  { s with runtimes := s.runtimes.modify threadId f }

def setTranscriptOf (s : RelayState) (threadId : String) (records : List TranscriptRecord) :
    RelayState :=
  s.modifyRuntime threadId fun rt => { rt with transcript := records }

def stampTranscriptItemSeq (s : RelayState) (threadId itemId : String) (revision : Nat) :
    RelayState :=
  s.modifyRuntime threadId fun rt =>
    { rt with
      transcript := modifyFirst (·.itemId = itemId) ({ · with seq := some revision }) rt.transcript }

def upsertTranscriptItemForThread (s : RelayState) (now : Nat) (threadId itemId : String)
    (w : ItemWrite) : RelayState × TranscriptMutationMeta :=
  let s := s.ensureRuntimeForThread now threadId
  let (records, entrySeq) := writeItem (s.transcriptOf threadId) itemId w.onto (w.fresh itemId none)
  let s := s.setTranscriptOf threadId records
  let (s, base, revision) := s.bumpThreadTranscriptRevision now threadId
  let s := (s.stampTranscriptItemSeq threadId itemId revision).syncIfSelected threadId
  (s, { baseRevision := base, revision := revision, entrySeq := entrySeq, serverTime := now })

/-- A write to the legacy transcript: an existing record is changed after the revision
is drawn, a missing one is appended with the revision as its sequence number. -/
def writeLegacyItem (s : RelayState) (now : Nat) (itemId : String)
    (onto : Nat → TranscriptRecord → TranscriptRecord) (fresh : Nat → TranscriptRecord) :
    RelayState × TranscriptMutationMeta :=
  let (s, base, revision) := s.bumpTranscriptRevision now
  let (records, entrySeq) := writeItem s.transcript itemId (onto revision) (fresh revision)
  ({ s with transcript := records },
    { baseRevision := base, revision := revision, entrySeq := entrySeq, serverTime := now })

def upsertTranscriptItemLegacy (s : RelayState) (now : Nat) (itemId : String) (w : ItemWrite) :
    RelayState × TranscriptMutationMeta :=
  s.writeLegacyItem now itemId (fun revision entry => { w.onto entry with seq := some revision })
    (fun revision => w.fresh itemId (some revision))

def upsertTranscriptItem (s : RelayState) (now : Nat) (itemId : String) (w : ItemWrite) :
    RelayState × TranscriptMutationMeta :=
  match s.activeThreadId with
  | none => s.upsertTranscriptItemLegacy now itemId w
  | some threadId => s.upsertTranscriptItemForThread now threadId itemId w

def appendAgentDeltaForThread (s : RelayState) (now : Nat)
    (threadId itemId delta turnId : String) : RelayState × TranscriptMutationMeta :=
  let s := s.ensureRuntimeForThread now threadId
  let textOffset := (utf16 (itemText (s.transcriptOf threadId) itemId)).length
  let (records, entrySeq) := writeItem (s.transcriptOf threadId) itemId
    (agentDeltaOnto delta turnId) (freshAgentDelta itemId delta turnId)
  let s := s.setTranscriptOf threadId records
  let (s, base, revision) := s.bumpThreadTranscriptRevision now threadId
  let s := s.syncIfSelected threadId
  (s, { baseRevision := base, revision := revision, entrySeq := entrySeq, serverTime := now,
        textOffset := some textOffset })

def appendAgentDeltaLegacy (s : RelayState) (now : Nat) (itemId delta turnId : String) :
    RelayState × TranscriptMutationMeta :=
  let textOffset := (utf16 (itemText s.transcript itemId)).length
  let r := s.writeLegacyItem now itemId
    (fun _ entry => { agentDeltaOnto delta turnId entry with turnId := entry.turnId })
    (fun revision => { freshAgentDelta itemId delta turnId with seq := some revision })
  (r.1, { r.2 with textOffset := some textOffset })

def appendAgentDelta (s : RelayState) (now : Nat) (itemId delta turnId : String) :
    RelayState × TranscriptMutationMeta :=
  match s.activeThreadId with
  | none => s.appendAgentDeltaLegacy now itemId delta turnId
  | some threadId => s.appendAgentDeltaForThread now threadId itemId delta turnId

def appendCommandDeltaForThread (s : RelayState) (now : Nat) (threadId itemId delta : String) :
    RelayState × TranscriptMutationMeta :=
  let s := s.ensureRuntimeForThread now threadId
  let separator := needsSeparator (itemText (s.transcriptOf threadId) itemId) delta
  let (records, entrySeq) := writeItem (s.transcriptOf threadId) itemId
    (commandDeltaOnto delta) (freshCommandDelta itemId delta)
  let s := s.setTranscriptOf threadId records
  let (s, base, revision) := s.bumpThreadTranscriptRevision now threadId
  let s := s.syncIfSelected threadId
  (s, { baseRevision := base, revision := revision, entrySeq := entrySeq, serverTime := now,
        separatorInserted := separator })

/-- The legacy path inserts the separator without saying so. -/
def appendCommandDeltaLegacy (s : RelayState) (now : Nat) (itemId delta : String) :
    RelayState × TranscriptMutationMeta :=
  s.writeLegacyItem now itemId (fun _ => commandDeltaOnto delta)
    (fun revision => { freshCommandDelta itemId delta with seq := some revision })

def appendCommandDelta (s : RelayState) (now : Nat) (itemId delta : String) :
    RelayState × TranscriptMutationMeta :=
  match s.activeThreadId with
  | none => s.appendCommandDeltaLegacy now itemId delta
  | some threadId => s.appendCommandDeltaForThread now threadId itemId delta

def hasItem (records : List TranscriptRecord) (itemId : String) : Bool :=
  records.any (·.itemId = itemId)

def setFileChangeApplyStateForThread (s : RelayState) (now : Nat) (threadId itemId : String)
    (state : FileChangeApplyState) : RelayState × Bool :=
  let s := s.ensureRuntimeForThread now threadId
  if hasItem (s.transcriptOf threadId) itemId then
    let s := s.modifyRuntime threadId fun rt =>
      { rt with applyStates := rt.applyStates.insert itemId state }
    ((s.bumpThreadTranscriptRevision now threadId).1.syncIfSelected threadId, true)
  else (s, false)

def setItemStatus (itemId status : String) (records : List TranscriptRecord) :
    List TranscriptRecord :=
  modifyFirst (·.itemId = itemId) (fun entry => { entry with status := status }) records

def setTranscriptItemStatusForThread (s : RelayState) (now : Nat)
    (threadId itemId status : String) : RelayState × Bool :=
  let s := s.ensureRuntimeForThread now threadId
  if hasItem (s.transcriptOf threadId) itemId then
    let s := s.setTranscriptOf threadId (setItemStatus itemId status (s.transcriptOf threadId))
    ((s.bumpThreadTranscriptRevision now threadId).1.syncIfSelected threadId, true)
  else (s, false)

def setTranscriptItemStatusLegacy (s : RelayState) (now : Nat) (itemId status : String) :
    RelayState × Bool :=
  if hasItem s.transcript itemId then
    let s := (s.bumpTranscriptRevision now).1
    ({ s with transcript := setItemStatus itemId status s.transcript }, true)
  else (s, false)

def setTranscriptItemStatus (s : RelayState) (now : Nat) (itemId status : String) :
    RelayState × Bool :=
  match s.activeThreadId with
  | none => s.setTranscriptItemStatusLegacy now itemId status
  | some threadId => s.setTranscriptItemStatusForThread now threadId itemId status

/-- A relay as it boots, with no session and nothing restored. -/
def new (currentCwd : String) : RelayState := { currentCwd := currentCwd }

end RelayState

inductive RelayOp
  | bumpTranscriptRevision
  | bumpThreadTranscriptRevision (threadId : String)
  | upsertTranscriptItem (itemId : String) (w : ItemWrite)
  | upsertTranscriptItemForThread (threadId itemId : String) (w : ItemWrite)
  | appendAgentDelta (itemId delta turnId : String)
  | appendAgentDeltaForThread (threadId itemId delta turnId : String)
  | appendCommandDelta (itemId delta : String)
  | appendCommandDeltaForThread (threadId itemId delta : String)
  | setTranscriptItemStatus (itemId status : String)
  | setTranscriptItemStatusForThread (threadId itemId status : String)
  | setFileChangeApplyStateForThread (threadId itemId : String) (state : FileChangeApplyState)
  | ensureRuntimeForThread (threadId : String)
  | syncSelectedRuntimeToFields
  | materializeSelectedRuntimeFromFields
  | setThreadStatus (threadId status : String) (activeFlags : List String)
  | upsertThread (thread : ThreadSummaryView)
  | rememberThreadSettings (threadId : String) (settings : ThreadSessionSettings)
  | loadThreadData (data : ThreadSyncData) (settings : ThreadSessionSettings) (deviceId : String)
  | hydrateBackgroundRuntime (data : ThreadSyncData) (settings : ThreadSessionSettings)
      (rememberSettings : Bool)
  | restoreThreadData (data : ThreadSyncData) (persisted : PersistedRelayState)
  | promoteBackgroundThread (pendingId realId : String)
  | clearActiveSession

namespace RelayState

/-- One operation at the time it reads from the system clock. -/
def step (s : RelayState) (op : Nat × RelayOp) : RelayState :=
  let now := op.1
  match op.2 with
  | .bumpTranscriptRevision => (s.bumpTranscriptRevision now).1
  | .bumpThreadTranscriptRevision threadId => (s.bumpThreadTranscriptRevision now threadId).1
  | .upsertTranscriptItem itemId w => (s.upsertTranscriptItem now itemId w).1
  | .upsertTranscriptItemForThread threadId itemId w =>
    (s.upsertTranscriptItemForThread now threadId itemId w).1
  | .appendAgentDelta itemId delta turnId => (s.appendAgentDelta now itemId delta turnId).1
  | .appendAgentDeltaForThread threadId itemId delta turnId =>
    (s.appendAgentDeltaForThread now threadId itemId delta turnId).1
  | .appendCommandDelta itemId delta => (s.appendCommandDelta now itemId delta).1
  | .appendCommandDeltaForThread threadId itemId delta =>
    (s.appendCommandDeltaForThread now threadId itemId delta).1
  | .setTranscriptItemStatus itemId status => (s.setTranscriptItemStatus now itemId status).1
  | .setTranscriptItemStatusForThread threadId itemId status =>
    (s.setTranscriptItemStatusForThread now threadId itemId status).1
  | .setFileChangeApplyStateForThread threadId itemId state =>
    (s.setFileChangeApplyStateForThread now threadId itemId state).1
  | .ensureRuntimeForThread threadId => s.ensureRuntimeForThread now threadId
  | .syncSelectedRuntimeToFields => s.syncSelectedRuntimeToFields
  | .materializeSelectedRuntimeFromFields => s.materializeSelectedRuntimeFromFields now
  | .setThreadStatus threadId status activeFlags =>
    s.setThreadStatus now threadId status activeFlags
  | .upsertThread thread => s.upsertThread thread
  | .rememberThreadSettings threadId settings => s.rememberThreadSettings threadId settings
  | .loadThreadData data settings deviceId => s.loadThreadData now data settings deviceId
  | .hydrateBackgroundRuntime data settings rememberSettings =>
    s.hydrateBackgroundRuntimeInner now data settings rememberSettings
  | .restoreThreadData data persisted => s.restoreThreadData now data persisted
  | .promoteBackgroundThread pendingId realId => s.promoteBackgroundThread now pendingId realId
  | .clearActiveSession => s.clearActiveSession

end RelayState

end AgentRelay.Relay

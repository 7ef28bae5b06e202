import AgentRelay.ThreadRuntime
import Mathlib.Data.List.InsertIdx

/-! The client's hydration window: the entries of one thread a browser holds, grown by
snapshots, fetched pages and live deltas. Text is counted in UTF-16 code units, as
JavaScript does. -/
namespace AgentRelay.Hydration
open Text Relay

/-- The largest integer a JavaScript number holds exactly. -/
def maxSafeInteger : Nat := 2 ^ 53 - 1

/-- A number that `Number.isSafeInteger` accepts. -/
def safeInteger (value : Option Nat) : Option Nat := value.filter (· ≤ maxSafeInteger)

/-- A string that counts as present: JavaScript takes the empty one for absent. -/
def truthy (value : Option String) : Option String := value.filter (· ≠ "")

structure FileChange where
  path : String
  changeType : String
  diff : Option JsString
  deriving DecidableEq, Repr

structure ToolView where
  itemType : String
  name : String
  title : String
  kind : Option String := none
  detail : Option JsString := none
  query : Option String := none
  path : Option String := none
  url : Option String := none
  command : Option String := none
  inputPreview : Option JsString := none
  resultPreview : Option JsString := none
  diff : Option JsString := none
  fileChanges : List FileChange := []
  applyState : Option FileChangeApplyState := none
  fileChangesOmitted : Bool := false
  canApply : Option Bool := none
  deriving DecidableEq, Repr

structure Entry where
  itemId : String
  kind : String
  text : Option JsString
  status : String
  turnId : Option String
  tool : Option ToolView
  entrySeq : Option Nat := none
  contentState : TranscriptContentState
  deriving DecidableEq, Repr

structure EntryPart where
  partIndex : Option Nat := none
  text : Option JsString := none
  deriving DecidableEq, Repr

structure WireEntry where
  itemId : Option String
  kind : String
  text : Option JsString
  parts : List EntryPart := []
  status : String
  turnId : Option String := none
  tool : Option ToolView := none
  contentState : Option TranscriptContentState := none
  deriving DecidableEq, Repr

structure Delta where
  threadId : Option String
  itemId : Option String
  delta : JsString
  deltaKind : Option String := none
  textOffset : Option Nat
  turnId : Option String := none
  entrySeq : Option Nat := none
  deriving DecidableEq, Repr

structure Snapshot where
  activeThreadId : Option String
  activeTurnId : Option String := none
  transcriptRevision : Option Nat := none
  transcript : List WireEntry
  deriving DecidableEq, Repr

structure Page where
  entries : List WireEntry
  prevCursor : Option String := none
  deriving DecidableEq, Repr

inductive HydrationStatus
  | idle
  | loading
  | complete
  deriving DecidableEq, Repr

structure Window where
  threadId : Option String := none
  entries : Table Entry := ∅
  order : List String := []
  baseSnapshot : Option Snapshot := none
  signature : Option String := none
  bodyRevision : Option Nat := none
  olderCursor : Option String := none
  status : HydrationStatus := .idle
  tailReady : Bool := false
  lastFetchAt : Nat := 0

def contentStateRank : TranscriptContentState → Nat
  | .omitted => 0
  | .preview => 1
  | .full => 2

def rankToContentState (rank : Nat) : TranscriptContentState :=
  if rank = 0 then .omitted else if rank = 1 then .preview else .full

/-- The parts of an entry joined in order; an empty body counts as none. -/
def collapseEntryParts (parts : List EntryPart) : Option JsString :=
  let sorted := parts.mergeSort fun left right => left.partIndex.getD 0 ≤ right.partIndex.getD 0
  let text := sorted.flatMap fun part => part.text.getD []
  if text = [] then none else some text

def toTranscriptEntry (itemId : String) (entry : WireEntry) : Entry :=
  { itemId := itemId, kind := entry.kind
    text := entry.text.or (collapseEntryParts entry.parts)
    status := entry.status, turnId := truthy entry.turnId, tool := entry.tool
    contentState := entry.contentState.getD .full }

/-- The never-shorten rule for a body that arrives again. -/
def selectTranscriptText (existingText incomingText : Option JsString)
    (existingFull incomingFull : Bool) : Option JsString :=
  match existingText, incomingText with
  | existing, none => existing
  | none, some incoming => some incoming
  | some existing, some incoming =>
    if existingFull ∧ ¬incomingFull ∧ incoming.length ≤ existing.length then some existing
    else if existing.length ≤ incoming.length then some incoming
    else some existing

def mergeFileChange (acc : Table FileChange × List String) (incoming : FileChange) :
    Table FileChange × List String :=
  let existing := acc.1[incoming.path]?
  let merged := { incoming with
    diff := selectTranscriptText (existing.bind (·.diff)) incoming.diff true true }
  (acc.1.insert incoming.path merged,
    if incoming.path ∈ acc.2 then acc.2 else acc.2 ++ [incoming.path])

def mergeFileChanges (existing incoming : List FileChange) : List FileChange :=
  if existing = [] then incoming
  else if incoming = [] then existing
  else
    let byPath := existing.foldl (fun m change => m.insert change.path change) ∅
    let merged := incoming.foldl mergeFileChange (byPath, existing.map (·.path))
    merged.2.filterMap fun path => merged.1[path]?

/-- The incoming tool over the existing one. Fields the relay leaves out of the wire when
they are unset keep what the existing tool has. -/
def mergeToolView (existing incoming : Option ToolView) (existingFull incomingFull : Bool) :
    Option ToolView :=
  match existing, incoming with
  | none, incoming => incoming
  | some existing, none => some existing
  | some existing, some incoming =>
    some { incoming with
      kind := incoming.kind.or existing.kind
      detail := selectTranscriptText existing.detail incoming.detail existingFull incomingFull
      inputPreview :=
        selectTranscriptText existing.inputPreview incoming.inputPreview existingFull incomingFull
      resultPreview :=
        selectTranscriptText existing.resultPreview incoming.resultPreview existingFull incomingFull
      diff := selectTranscriptText existing.diff incoming.diff existingFull incomingFull
      fileChanges := mergeFileChanges existing.fileChanges incoming.fileChanges
      applyState := incoming.applyState.or existing.applyState
      fileChangesOmitted := incoming.fileChangesOmitted || existing.fileChangesOmitted
      canApply := incoming.canApply.or existing.canApply }

def isFullContent (entry : Entry) : Bool := entry.contentState = .full

/-- An incoming entry over the one the window holds: the text is chosen by length and
fullness, the content state is the better of the two. -/
def mergeTranscriptEntry (existing : Option Entry) (incoming : Entry) : Entry :=
  match existing with
  | none => incoming
  | some existing =>
    let existingFull := isFullContent existing
    let incomingFull := isFullContent incoming
    { incoming with
      text := selectTranscriptText existing.text incoming.text existingFull incomingFull
      tool := mergeToolView existing.tool incoming.tool existingFull incomingFull
      turnId := incoming.turnId.or existing.turnId
      entrySeq := existing.entrySeq
      contentState := rankToContentState
        (max (contentStateRank existing.contentState) (contentStateRank incoming.contentState)) }

/-- A snapshot's entry made ready to merge: the text of an omitted one is dropped. -/
def prepareSnapshotOverlayEntry (itemId : String) (entry : WireEntry) : Entry :=
  let incoming := toTranscriptEntry itemId entry
  if incoming.contentState = .omitted then { incoming with text := none } else incoming

/-- The part of a delta the text still lacks; `none` refuses a gap or a divergence. -/
def resolveDeltaAppend (haveText deltaText : JsString) (textOffset : Option Nat) :
    Option JsString :=
  match safeInteger textOffset with
  | none => some deltaText
  | some offset =>
    let haveLen := haveText.length
    let overlapLen := min (haveLen - offset) deltaText.length
    if haveLen < offset then none
    else if 0 < overlapLen ∧ (haveText.drop offset).take overlapLen ≠ deltaText.take overlapLen then
      none
    else if offset + deltaText.length ≤ haveLen then some []
    else some (deltaText.drop (haveLen - offset))

def normalizeTranscriptDeltaKind (kind : Option String) : String :=
  match truthy kind with
  | none => "agent_text"
  | some "command_output" => "command"
  | some kind => kind

/-- The first valid sequence number stays; a later one never overwrites it. -/
def firstValidSeq (existing incoming : Option Nat) : Option Nat :=
  if (safeInteger incoming).isSome && !(safeInteger existing).isSome then incoming else existing

/-- The entry a delta leaves on an item the window holds; the flag says whether it grew. -/
def applyDeltaToEntry (existing : Entry) (delta : Delta) : Entry × Bool :=
  let haveText := existing.text.getD []
  match resolveDeltaAppend haveText delta.delta delta.textOffset with
  | none => ({ existing with contentState := .preview }, false)
  | some [] => (existing, false)
  | some appendText =>
    ({ existing with
        kind := if existing.kind = "" then normalizeTranscriptDeltaKind delta.deltaKind
          else existing.kind
        status := "running"
        text := some (haveText ++ appendText)
        turnId := (truthy existing.turnId).or (truthy delta.turnId)
        entrySeq := firstValidSeq existing.entrySeq delta.entrySeq
        contentState := .full }, true)

/-- A first delta must start at zero to be a body; else only the identity is kept. -/
def startsAtZero (delta : Delta) : Bool := delta.textOffset.getD 0 = 0

def firstDeltaEntry (itemId : String) (delta : Delta) : Entry :=
  { itemId := itemId, kind := normalizeTranscriptDeltaKind delta.deltaKind
    text := some (if startsAtZero delta then delta.delta else [])
    status := "running", turnId := truthy delta.turnId, tool := none
    entrySeq := safeInteger delta.entrySeq
    contentState := if startsAtZero delta then .full else .preview }

/-- The ids of the first occurrences, falsy ones left out. -/
def uniqueItemIds (itemIds : List String) : List String :=
  itemIds.foldl (fun unique id => if id = "" ∨ id ∈ unique then unique else unique ++ [id]) []

/-- Splice a tail page into the order: what stands before its first known id stays above
it, what stands after stays below. -/
def mergeTailPageOrder (existingOrder pageItemIds : List String) : List String :=
  if existingOrder = [] then uniqueItemIds pageItemIds
  else
    let above := existingOrder.takeWhile (· ∉ pageItemIds)
    let rest := existingOrder.dropWhile (· ∉ pageItemIds)
    if rest = [] then uniqueItemIds (pageItemIds ++ above)
    else uniqueItemIds (above ++ pageItemIds ++ rest.filter (· ∉ pageItemIds))

def lastIndexOf (order : List String) (itemId : String) : Option Nat :=
  (order.reverse.findIdx? (· = itemId)).map fun index => order.length - 1 - index

def locateLaterTailId (unordered : String → Bool) (order : List String) :
    List String → Option Nat
  | [] => none
  | itemId :: rest =>
    match if unordered itemId then none else lastIndexOf order itemId with
    | some index => some index
    | none => locateLaterTailId unordered order rest

/-- Merge an ordered run of ids into the order, each new one after the id before it. -/
def placeOrderedTailIds (unordered : String → Bool) (working : List String)
    (anchor : Option Nat) : List String → List String
  | [] => working
  | itemId :: rest =>
    match if unordered itemId then none else lastIndexOf working itemId with
    | some index => placeOrderedTailIds unordered working (some index) rest
    | none =>
      let insertAt := match anchor with
        | some index => some (index + 1)
        | none => locateLaterTailId unordered working rest
      let index := match insertAt with
        | some index => min index working.length
        | none => working.length
      placeOrderedTailIds unordered (working.insertIdx index itemId) (some index) rest

def addressable (entries : List WireEntry) : List (String × WireEntry) :=
  entries.filterMap fun entry => (truthy entry.itemId).map (·, entry)

namespace Window

def applyTranscriptDeltaToWindow (w : Window) (delta : Delta) : Window × Bool :=
  match truthy delta.itemId, truthy w.threadId with
  | some itemId, some threadId =>
    if (truthy delta.threadId).getD threadId ≠ threadId then (w, false)
    else
      match w.entries[itemId]? with
      | some existing =>
        let applied := applyDeltaToEntry existing delta
        ({ w with entries := w.entries.insert itemId applied.1 }, applied.2)
      | none =>
        ({ w with
            entries := w.entries.insert itemId (firstDeltaEntry itemId delta)
            order := w.order ++ [itemId] }, startsAtZero delta)
  | _, _ => (w, false)

def createMergedSnapshotTailPatch (w : Window) (snapshot : Snapshot) (signature : String) :
    Window :=
  let tail := addressable snapshot.transcript
  { w with
    entries := tail.foldl (fun entries e => entries.insert e.1
      (mergeTranscriptEntry entries[e.1]? (prepareSnapshotOverlayEntry e.1 e.2))) w.entries
    order := placeOrderedTailIds (fun id => !w.entries.contains id) w.order none (tail.map (·.1))
    baseSnapshot := some snapshot
    signature := some signature
    threadId := snapshot.activeThreadId }

/-- Whether no turn runs and the transcript moved past the revision last fetched. -/
def turnSettledSinceHydration (w : Window) (snapshot : Snapshot) : Bool :=
  truthy snapshot.activeTurnId = none && snapshot.transcriptRevision.isSome &&
    w.bodyRevision.isSome && snapshot.transcriptRevision != w.bodyRevision

def isTerminalEntryStatus (status : String) : Bool :=
  status ∈ ["completed", "complete", "failed", "error", "cancelled"]

def entryNeedsFetch (w : Window) (snapshot : Snapshot) (entry : WireEntry) : Bool :=
  match entry.contentState.getD .full with
  | .full => false
  | incomingState =>
    match (entry.itemId.bind (w.entries[·]?)).filter isFullContent with
    | none => true
    | some cached =>
      if incomingState = .preview then
        (cached.text.getD []).length < (entry.text.getD []).length
          || w.turnSettledSinceHydration snapshot
      else !isTerminalEntryStatus cached.status

def snapshotTailNeedsFullText (w : Window) (snapshot : Snapshot) : Bool :=
  snapshot.transcript.any (w.entryNeedsFetch snapshot)

def computeSnapshotTranscriptTruncated (w : Window) (snapshot : Snapshot) : Bool :=
  w.olderCursor.isSome || w.snapshotTailNeedsFullText snapshot

/-- Overlay a snapshot's tail on the window: the transcript to render, which is also
written back. Every entry is merged with what the window held before the snapshot. -/
def buildHydratedTranscriptSnapshot (w : Window) (snapshot : Snapshot) :
    Window × Option (List Entry × Bool) :=
  let tail := addressable snapshot.transcript
  let overlay : Table Entry := tail.foldl (fun overlay e => overlay.insert e.1
    (mergeTranscriptEntry w.entries[e.1]? (prepareSnapshotOverlayEntry e.1 e.2))) ∅
  let order :=
    placeOrderedTailIds (fun id => !w.entries.contains id) w.order none (tail.map (·.1))
  let transcript := order.filterMap fun id => (overlay[id]?).or w.entries[id]?
  if transcript = [] then (w, none)
  else
    let truncated := w.computeSnapshotTranscriptTruncated snapshot
    ({ w with
        entries := overlay.foldl (fun entries id entry => entries.insert id entry) w.entries
        order := order },
      some (transcript, truncated))

/-- Merge a fetched page: an older one goes above the window, the tail is spliced in. -/
def createMergedTranscriptHydrationPagePatch (w : Window) (now : Nat) (page : Page)
    (prepend : Bool) : Window :=
  let pageEntries := addressable page.entries
  let pageIds := pageEntries.map (·.1)
  let order := if prepend then uniqueItemIds (pageIds ++ w.order)
    else mergeTailPageOrder w.order pageIds
  { w with
    entries := pageEntries.foldl (fun entries e => entries.insert e.1
      (mergeTranscriptEntry entries[e.1]? (toTranscriptEntry e.1 e.2))) w.entries
    order := order
    lastFetchAt := now
    olderCursor := page.prevCursor
    status :=
      if page.prevCursor = none then .complete
      else if prepend && !w.tailReady then .loading
      else .idle
    tailReady := order ≠ [] }

end Window

end AgentRelay.Hydration

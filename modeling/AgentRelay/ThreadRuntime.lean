import AgentRelay.Text

/-! The per-thread runtime of the relay: its transcript, its settings and its
liveness, and the merge of a freshly read history into it. -/
namespace AgentRelay.Relay
open Text

structure ThreadSummaryView where
  id : String
  name : Option String := none
  preview : String := ""
  cwd : String := ""
  updatedAt : Nat := 0
  source : String := ""
  status : String := ""
  modelProvider : String := ""
  provider : String := ""
  forkedFrom : Option String := none
  renamed : Bool := false
  deriving DecidableEq, Repr

inductive TranscriptEntryKind
  | userText
  | agentText
  | toolCall
  | command
  | reasoning
  | error
  deriving DecidableEq, Repr

inductive TranscriptContentState
  | full
  | preview
  | omitted
  deriving DecidableEq, Repr

inductive FileChangeApplyState
  | applied
  | rolledBack
  deriving DecidableEq, Repr

structure FileChangeDiffView where
  path : String
  changeType : String
  diff : String
  deriving DecidableEq, Repr

structure ToolCallView where
  itemType : String
  name : String
  title : String
  kind : Option String := none
  detail : Option String := none
  query : Option String := none
  path : Option String := none
  url : Option String := none
  command : Option String := none
  inputPreview : Option String := none
  resultPreview : Option String := none
  diff : Option String := none
  fileChanges : List FileChangeDiffView := []
  applyState : Option FileChangeApplyState := none
  fileChangesOmitted : Bool := false
  canApply : Option Bool := none
  deriving DecidableEq, Repr

structure TranscriptRecord where
  itemId : String
  kind : TranscriptEntryKind
  text : Option String
  status : String
  turnId : Option String
  tool : Option ToolCallView
  seq : Option Nat := none
  deriving DecidableEq, Repr

structure TranscriptEntryView where
  itemId : Option String
  kind : TranscriptEntryKind
  text : Option String
  status : String
  turnId : Option String
  tool : Option ToolCallView
  contentState : TranscriptContentState := .full
  deriving DecidableEq, Repr

def TranscriptRecord.toView (r : TranscriptRecord) : TranscriptEntryView :=
  { itemId := some r.itemId, kind := r.kind, text := r.text, status := r.status,
    turnId := r.turnId, tool := r.tool }

def TranscriptRecord.ofHistory (index : Nat) (entry : TranscriptEntryView) : TranscriptRecord :=
  { itemId := entry.itemId.getD ("history-" ++ toString index), kind := entry.kind,
    text := entry.text, status := entry.status, turnId := entry.turnId, tool := entry.tool }

structure ThreadSyncData where
  thread : ThreadSummaryView
  status : String
  activeFlags : List String
  transcript : List TranscriptEntryView
  deriving DecidableEq, Repr

structure ThreadSessionSettings where
  approvalPolicy : String
  sandbox : String
  reasoningEffort : String
  model : String
  deriving DecidableEq, Repr

structure PendingRequest where
  threadId : String
  deriving DecidableEq, Repr

def threadStatusIsWorking (status : String) : Bool :=
  toAsciiLowercase (trim status) ∉ ["", "idle", "viewing", "completed", "unknown", "notloaded"]

def threadStatusIsSettled (status : String) : Bool :=
  trim status ∈ ["", "idle", "viewing"]

structure ThreadRuntime where
  summary : Option ThreadSummaryView
  activeTurnId : Option String := none
  turnRevision : Nat := 0
  currentStatus : String
  currentPhase : Option String := none
  currentTool : Option String := none
  lastProgressAt : Option Nat := none
  livenessTimedOut : Bool := false
  livenessStopRequested : Bool := false
  activeFlags : List String := []
  currentCwd : String := ""
  model : String := ""
  approvalPolicy : String := ""
  sandbox : String := ""
  reasoningEffort : String := ""
  transcriptRevision : Nat
  transcript : List TranscriptRecord := []
  providerHistoryCursor : Option Nat := none
  providerHistoryPaged : Bool := false
  applyStates : Table FileChangeApplyState := ∅
  pendingApprovals : Table PendingRequest := ∅
  pendingAskUserQuestions : Table PendingRequest := ∅
  lastUpdateAt : Nat

def overlayApplyState (applyStates : Table FileChangeApplyState) (r : TranscriptRecord) :
    TranscriptEntryView :=
  match r.tool, applyStates[r.itemId]? with
  | some tool, some state => { r.toView with tool := some { tool with applyState := some state } }
  | _, _ => r.toView

def transcriptViewsOf (transcript : List TranscriptRecord)
    (applyStates : Table FileChangeApplyState) : List TranscriptEntryView :=
  transcript.map (overlayApplyState applyStates)

def textIsLonger : Option String → Option String → Bool
  | some _, none => true
  | some candidate, some baseline => baseline.length < candidate.length
  | _, _ => false

def isCompletedStatus (status : String) : Bool := eqIgnoreAsciiCase status "completed"

def toolCallsEqual : Option ToolCallView → Option ToolCallView → Bool
  | none, none => true
  | some left, some right =>
    { left with fileChangesOmitted := false, canApply := none }
      = { right with fileChangesOmitted := false, canApply := none }
  | _, _ => false

/-- Merge a history record into the live one; the flag says whether anything was written. -/
def mergeRuntimeEntry (existing incoming : TranscriptRecord) : TranscriptRecord × Bool :=
  if existing.kind = incoming.kind ∧ textIsLonger existing.text incoming.text then
    -- The live text is ahead of the history read: only missing metadata is taken.
    let takesStatus := isCompletedStatus incoming.status ∧ existing.status ≠ incoming.status
    let takesTurn := existing.turnId = none ∧ incoming.turnId ≠ none
    let takesTool := existing.tool = none ∧ incoming.tool ≠ none
    ({ existing with
        status := if takesStatus then incoming.status else existing.status
        turnId := if takesTurn then incoming.turnId else existing.turnId
        tool := if takesTool then incoming.tool else existing.tool },
      takesStatus ∨ takesTurn ∨ takesTool)
  else if isCompletedStatus existing.status ∧ ¬isCompletedStatus incoming.status then
    if existing.kind = incoming.kind ∧ textIsLonger incoming.text existing.text then
      ({ existing with text := incoming.text }, true)
    else if existing.tool = none ∧ incoming.tool ≠ none then
      ({ existing with tool := incoming.tool }, true)
    else (existing, false)
  else if existing.kind ≠ incoming.kind ∨ existing.text ≠ incoming.text
      ∨ existing.status ≠ incoming.status ∨ existing.turnId ≠ incoming.turnId
      ∨ ¬toolCallsEqual existing.tool incoming.tool then
    ({ incoming with seq := incoming.seq.or existing.seq }, true)
  else (existing, false)

def hasEquivalentUserMessage (transcript : List TranscriptRecord) (entry : TranscriptRecord) :
    Bool :=
  entry.kind = .userText && entry.text.isSome &&
    transcript.any fun candidate => candidate.kind = .userText && candidate.text = entry.text

def mergeTranscriptRecord (acc : List TranscriptRecord × Bool) (record : TranscriptRecord) :
    List TranscriptRecord × Bool :=
  match acc.1.findIdx? (·.itemId = record.itemId) with
  | some index =>
    match acc.1[index]? with
    | some entry =>
      let merged := mergeRuntimeEntry entry record
      (acc.1.set index merged.1, acc.2 || merged.2)
    | none => acc
  | none =>
    if hasEquivalentUserMessage acc.1 record then acc else (acc.1 ++ [record], true)

/-- The merged transcript and whether it changed; the caller owns the revision. -/
def mergeTranscriptRecords (transcript records : List TranscriptRecord) :
    List TranscriptRecord × Bool :=
  records.foldl mergeTranscriptRecord (transcript, false)

theorem mergeRuntimeEntry_unchanged {existing incoming : TranscriptRecord}
    (h : (mergeRuntimeEntry existing incoming).2 = false) :
    (mergeRuntimeEntry existing incoming).1 = existing := by
  unfold mergeRuntimeEntry at h ⊢
  split_ifs at h ⊢ with hlonger hdone htext htool hdiffers
  · simp only [decide_eq_false_iff_not, not_or] at h
    simp only [if_neg h.1, if_neg h.2.1, if_neg h.2.2]
  · rfl
  · rfl

theorem mergeTranscriptRecord_flag {acc : List TranscriptRecord × Bool}
    {record : TranscriptRecord} (h : (mergeTranscriptRecord acc record).2 = false) :
    acc.2 = false ∧ (mergeTranscriptRecord acc record).1 = acc.1 := by
  unfold mergeTranscriptRecord at h ⊢
  cases hidx : acc.1.findIdx? (·.itemId = record.itemId) with
  | none =>
    simp only [hidx] at h ⊢
    split_ifs at h ⊢ with huser
    exact ⟨h, rfl⟩
  | some index =>
    simp only [hidx] at h ⊢
    cases hget : acc.1[index]? with
    | none =>
      simp only [hget] at h ⊢
      exact ⟨h, trivial⟩
    | some entry =>
      simp only [hget, Bool.or_eq_false_iff] at h ⊢
      refine ⟨h.1, ?_⟩
      rw [mergeRuntimeEntry_unchanged h.2]
      obtain ⟨hlt, rfl⟩ := List.getElem?_eq_some_iff.mp hget
      exact List.set_getElem_self hlt

theorem foldl_mergeTranscriptRecord_flag {records : List TranscriptRecord}
    {acc : List TranscriptRecord × Bool} (h : (records.foldl mergeTranscriptRecord acc).2 = false) :
    acc.2 = false ∧ (records.foldl mergeTranscriptRecord acc).1 = acc.1 := by
  induction records generalizing acc with
  | nil => exact ⟨h, rfl⟩
  | cons record records ih =>
    obtain ⟨hflag, hrest⟩ := ih h
    obtain ⟨hacc, hfirst⟩ := mergeTranscriptRecord_flag hflag
    exact ⟨hacc, hrest.trans hfirst⟩

theorem mergeTranscriptRecords_unchanged {transcript records : List TranscriptRecord}
    (h : (mergeTranscriptRecords transcript records).2 = false) :
    (mergeTranscriptRecords transcript records).1 = transcript :=
  (foldl_mergeTranscriptRecord_flag h).2

namespace ThreadRuntime

def placeholder (threadId : String) (now transcriptRevision : Nat) : ThreadRuntime :=
  { summary := some { id := threadId, updatedAt := now, status := "active" }
    currentStatus := "active", transcriptRevision := transcriptRevision, lastUpdateAt := now }

/-- The runtime a read builds: history without liveness, so a working status settles. -/
def fromSyncData (data : ThreadSyncData) (settings : ThreadSessionSettings)
    (now transcriptRevision : Nat) : ThreadRuntime :=
  { summary := some data.thread
    currentStatus := if threadStatusIsWorking data.status then "idle" else data.status
    currentCwd := data.thread.cwd
    model := settings.model, approvalPolicy := settings.approvalPolicy
    sandbox := settings.sandbox, reasoningEffort := settings.reasoningEffort
    activeFlags := data.activeFlags
    transcriptRevision := transcriptRevision
    transcript := data.transcript.mapIdx TranscriptRecord.ofHistory
    lastUpdateAt := now }

def transcriptViews (rt : ThreadRuntime) : List TranscriptEntryView :=
  transcriptViewsOf rt.transcript rt.applyStates

/-- Merge a freshly read history; the turn stays with the live runtime. The flag says
whether the transcript changed. -/
def mergeFreshHistory (rt fresh : ThreadRuntime) : ThreadRuntime × Bool :=
  let merged := mergeTranscriptRecords rt.transcript fresh.transcript
  ({ rt with
      summary := fresh.summary
      currentCwd := fresh.currentCwd
      approvalPolicy := fresh.approvalPolicy
      sandbox := fresh.sandbox
      reasoningEffort := fresh.reasoningEffort
      model := if fresh.model = "" then rt.model else fresh.model
      currentStatus := fresh.currentStatus
      activeFlags := fresh.activeFlags
      providerHistoryCursor :=
        if fresh.providerHistoryPaged then rt.providerHistoryCursor else none
      providerHistoryPaged := fresh.providerHistoryPaged && rt.providerHistoryPaged
      transcript := merged.1 }, merged.2)

end ThreadRuntime

end AgentRelay.Relay

import AgentRelay.HonestWindow

/-! The compaction of a session snapshot: the passes that cap every collection, and the loop that
gives up what is least needed until the snapshot fits its surface. Fields that compaction carries
along untouched are of the type `Rest`; how long a snapshot is as JSON is a parameter. -/
namespace AgentRelay.Compaction
open Text Relay
open Hydration (truncateWithEllipsis ellipsisLen)

structure ReviewerThreadView (Rest : Type) where
  parentThreadId : String
  rest : Rest

structure ReviewJobView (Rest : Type) where
  id : String
  status : String
  updatedAt : Nat
  rest : Rest

structure ReviewActivityView where
  id : String
  parentThreadId : String
  reviewerThreadId : Option String
  status : String

structure WorkflowVerdictView where
  approved : Bool
  summary : Option String
  findings : List String

structure WorkflowRunView (Rest : Type) where
  id : String
  anchorItemId : String
  status : String
  currentStep : String
  lockedThreadIds : List String
  lastVerdict : Option WorkflowVerdictView
  updatedAt : Nat
  error : Option String
  rest : Rest

structure WorkflowActivityView where
  id : String
  parentThreadId : String
  status : String
  lockedThreadIds : List String

structure AskUserOptionView where
  label : String
  description : String

structure AskUserQuestionView where
  question : String
  header : String
  multiSelect : Bool
  options : List AskUserOptionView

structure AskUserQuestionRequestView where
  requestId : String
  toolUseId : String
  threadId : String
  requestedAt : Nat
  questionCount : Nat
  questionsInlineComplete : Bool
  detailAvailable : Bool
  contentHash : Option String
  questions : List AskUserQuestionView

structure ApprovalRequestView (Rest : Type) where
  summary : String
  detail : Option String
  command : Option String
  contextPreview : Option String
  rest : Rest

structure LogEntryView where
  kind : String
  message : String
  createdAt : Nat
  remoteSafe : Bool

structure ProviderStatusView (Rest : Type) where
  reason : Option String
  rest : Rest

structure SessionSnapshot (Rest : Type) where
  activeThreadId : Option String
  currentCwd : String
  threadWorkspaceCwd : Option String
  providerStatus : List (ProviderStatusView Rest)
  deviceRecords : List Rest
  pairedDevices : List Rest
  pendingPairingRequests : List Rest
  pendingApprovals : List (ApprovalRequestView Rest)
  pendingAskUserQuestions : List AskUserQuestionRequestView
  transcriptTruncated : Bool
  transcript : List TranscriptEntryView
  logs : List LogEntryView
  activeReviewJobs : List (ReviewJobView Rest)
  reviewerThreads : List (ReviewerThreadView Rest)
  reviewActivity : List ReviewActivityView
  activeWorkflowRuns : List (WorkflowRunView Rest)
  workflowActivity : List WorkflowActivityView
  rest : Rest

structure SessionSnapshotCompactBudget where
  maxLogs : Nat
  maxLogChars : Nat
  maxTranscriptEntries : Nat
  maxTranscriptChars : Nat
  maxApprovalSummaryChars : Nat
  maxApprovalDetailChars : Nat
  maxApprovalCommandChars : Nat
  maxApprovalContextChars : Nat
  targetBytes : Nat
  minTranscriptEntriesBeforeTextShrink : Nat
  minLogsBeforeTextShrink : Nat
  fallbackTranscriptChars : Nat
  fallbackLogChars : Nat
  maxFileChanges : Nat
  fallbackFileChanges : Nat
  maxPendingAskUserQuestionInlineBytes : Option Nat
  reviewerThreadsActiveParentOnly : Bool
  dropOperatorOnlyLogs : Bool
  emergencyShellTranscript : Bool
  maxActiveReviewJobs : Nat
  maxReviewActivityJobs : Nat
  maxActiveWorkflowRuns : Nat
  maxWorkflowActivityRuns : Nat
  maxWorkflowActivityLockedThreadIds : Nat
  maxWorkflowFieldBytes : Nat
  maxWorkflowVerdictBytes : Nat
  maxWorkflowVerdictFindings : Nat
  maxReviewerThreads : Nat
  maxDeviceRecords : Nat

def emergencyTranscriptShellChars : Nat := 24

def emergencyTranscriptCwdChars : Nat := 512

def reviewActivityFieldBytes : Nat := 256

def workflowActivityFieldBytes : Nat := 256

def sessionSnapshotRemoteSurfaceBudget : SessionSnapshotCompactBudget where
  maxLogs := 8
  maxLogChars := 180
  maxTranscriptEntries := 6
  maxTranscriptChars := 1200
  maxApprovalSummaryChars := 140
  maxApprovalDetailChars := 320
  maxApprovalCommandChars := 320
  maxApprovalContextChars := 800
  targetBytes := 8000
  minTranscriptEntriesBeforeTextShrink := 3
  minLogsBeforeTextShrink := 4
  fallbackTranscriptChars := 400
  fallbackLogChars := 96
  maxFileChanges := 12
  fallbackFileChanges := 4
  maxPendingAskUserQuestionInlineBytes := some 4000
  reviewerThreadsActiveParentOnly := true
  dropOperatorOnlyLogs := true
  emergencyShellTranscript := true
  maxActiveReviewJobs := 8
  maxReviewActivityJobs := 4
  maxActiveWorkflowRuns := 8
  maxWorkflowActivityRuns := 1
  maxWorkflowActivityLockedThreadIds := 8
  maxWorkflowFieldBytes := 256
  maxWorkflowVerdictBytes := 768
  maxWorkflowVerdictFindings := 4
  maxReviewerThreads := 8
  maxDeviceRecords := 12

def sessionSnapshotLocalWebBudget : SessionSnapshotCompactBudget where
  maxLogs := 16
  maxLogChars := 280
  maxTranscriptEntries := 8
  maxTranscriptChars := 1600
  maxApprovalSummaryChars := 180
  maxApprovalDetailChars := 640
  maxApprovalCommandChars := 640
  maxApprovalContextChars := 1600
  targetBytes := 16000
  minTranscriptEntriesBeforeTextShrink := 4
  minLogsBeforeTextShrink := 8
  fallbackTranscriptChars := 640
  fallbackLogChars := 160
  maxFileChanges := 16
  fallbackFileChanges := 6
  maxPendingAskUserQuestionInlineBytes := none
  reviewerThreadsActiveParentOnly := false
  dropOperatorOnlyLogs := false
  emergencyShellTranscript := true
  maxActiveReviewJobs := 24
  maxReviewActivityJobs := 8
  maxActiveWorkflowRuns := 24
  maxWorkflowActivityRuns := 1
  maxWorkflowActivityLockedThreadIds := 24
  maxWorkflowFieldBytes := 512
  maxWorkflowVerdictBytes := 1536
  maxWorkflowVerdictFindings := 6
  maxReviewerThreads := 48
  maxDeviceRecords := 48

def sessionSnapshotIosSurfaceBudget : SessionSnapshotCompactBudget :=
  sessionSnapshotRemoteSurfaceBudget

inductive SessionSnapshotCompactProfile
  | localWeb
  | remoteSurface
  | iosSurface

def SessionSnapshotCompactProfile.budget :
    SessionSnapshotCompactProfile → SessionSnapshotCompactBudget
  | .localWeb => sessionSnapshotLocalWebBudget
  | .remoteSurface => sessionSnapshotRemoteSurfaceBudget
  | .iosSurface => sessionSnapshotIosSurfaceBudget

section caps

def takeBytes : Nat → List Char → List Char
  | _, [] => []
  | budget, c :: rest =>
    if c.utf8Size ≤ budget then c :: takeBytes (budget - c.utf8Size) rest else []

def truncateUtf8BytesWithEllipsis (value : String) (maxBytes : Nat) : String :=
  if value.utf8ByteSize ≤ maxBytes then value
  else if maxBytes ≤ ellipsisLen then String.ofList (List.replicate maxBytes '.')
  else String.ofList (takeBytes (maxBytes - ellipsisLen) value.toList) ++ "..."

def reviewJobStatusIsTerminal (status : String) : Bool :=
  status ∈ ["complete", "failed", "escalated", "cancelled"]

def workflowRunStatusIsTerminal (status : String) : Bool :=
  status ∈ ["done", "escalated", "failed", "interrupted", "cancelled"]

/-- All items that are not terminal and the first terminal ones, the newest first. -/
def capTerminal {α : Type} (isTerminal : α → Bool) (updatedAt : α → Nat) (id : α → String)
    (max : Nat) (items : List α) : List α :=
  if items.length ≤ max then items
  else
    let nonTerminal := items.filter fun item => !isTerminal item
    let terminal := items.filter isTerminal
    (nonTerminal ++ terminal.take (max - nonTerminal.length)).mergeSort fun left right =>
      updatedAt right < updatedAt left ||
        updatedAt left = updatedAt right && decide (id right ≤ id left)

def compactReviewActivity (activity : List ReviewActivityView) (maxJobs maxFieldBytes : Nat) :
    List ReviewActivityView :=
  (activity.take maxJobs).map fun job =>
    { id := truncateUtf8BytesWithEllipsis job.id maxFieldBytes
      parentThreadId := truncateUtf8BytesWithEllipsis job.parentThreadId maxFieldBytes
      reviewerThreadId :=
        job.reviewerThreadId.map (truncateUtf8BytesWithEllipsis · maxFieldBytes)
      status := truncateUtf8BytesWithEllipsis job.status maxFieldBytes }

variable {Rest : Type}

def compactWorkflowRuns (runs : List (WorkflowRunView Rest))
    (maxFieldBytes maxVerdictBytes maxVerdictFindings : Nat) : List (WorkflowRunView Rest) :=
  runs.map fun run =>
    { run with
      anchorItemId := truncateUtf8BytesWithEllipsis run.anchorItemId maxFieldBytes
      currentStep := truncateUtf8BytesWithEllipsis run.currentStep maxFieldBytes
      error := run.error.map (truncateUtf8BytesWithEllipsis · maxFieldBytes)
      lockedThreadIds := (run.lockedThreadIds.take (maxVerdictFindings * 8)).map
        (truncateUtf8BytesWithEllipsis · maxFieldBytes)
      lastVerdict := run.lastVerdict.map fun verdict =>
        { verdict with
          summary := verdict.summary.map (truncateUtf8BytesWithEllipsis · maxVerdictBytes)
          findings := (verdict.findings.take maxVerdictFindings).map
            (truncateUtf8BytesWithEllipsis · maxVerdictBytes) } }

def compactWorkflowActivity (activity : List WorkflowActivityView)
    (maxRuns maxLockedThreadIds maxFieldBytes : Nat) : List WorkflowActivityView :=
  (activity.take maxRuns).map fun run =>
    { id := truncateUtf8BytesWithEllipsis run.id maxFieldBytes
      parentThreadId := truncateUtf8BytesWithEllipsis run.parentThreadId maxFieldBytes
      status := truncateUtf8BytesWithEllipsis run.status maxFieldBytes
      lockedThreadIds := (run.lockedThreadIds.take maxLockedThreadIds).map
        (truncateUtf8BytesWithEllipsis · maxFieldBytes) }

/-- The reviewers of the active parent first, the rest behind them. -/
def capReviewerThreads (activeThreadId : Option String) (max : Nat)
    (threads : List (ReviewerThreadView Rest)) : List (ReviewerThreadView Rest) :=
  if threads.length ≤ max then threads
  else
    (threads.mergeSort fun left right =>
      decide (some left.parentThreadId = activeThreadId) ||
        decide (some right.parentThreadId ≠ activeThreadId)).take max

end caps

section questions

variable (requestBytes : AskUserQuestionRequestView → Nat)
  (contentHash : List AskUserQuestionView → String)

namespace AskUserQuestionRequestView

def externalizeQuestions (request : AskUserQuestionRequestView) : AskUserQuestionRequestView :=
  { request with
    questionCount := request.questions.length
    contentHash := some (contentHash request.questions)
    questions := []
    questionsInlineComplete := false
    detailAvailable := true }

def inlineQuestions (request : AskUserQuestionRequestView) : Bool :=
  request.questionsInlineComplete && !request.questions.isEmpty

def externalizeQuestionsIfOver (maxInlineBytes : Nat) (request : AskUserQuestionRequestView) :
    AskUserQuestionRequestView :=
  if ¬ request.inlineQuestions then request
  else if requestBytes request ≤ maxInlineBytes then request
  else request.externalizeQuestions contentHash

end AskUserQuestionRequestView

def largestInline : List (Nat × AskUserQuestionRequestView) → Option (Nat × Nat)
  | [] => none
  | (index, request) :: rest =>
    match largestInline rest with
    | none => if request.inlineQuestions then some (index, requestBytes request) else none
    | some (later, bytes) =>
      if request.inlineQuestions ∧ bytes < requestBytes request then
        some (index, requestBytes request)
      else some (later, bytes)

def externalizeLargestPendingAskUserQuestion (requests : List AskUserQuestionRequestView) :
    Option (List AskUserQuestionRequestView) :=
  (largestInline requestBytes (requests.zipIdx.map fun (request, index) => (index, request))).map
    fun (index, _) => requests.modify index (·.externalizeQuestions contentHash)

end questions

section entries

/-- `TranscriptContentState::rank`. -/
def contentRank : TranscriptContentState → Nat
  | .full => 2
  | .preview => 1
  | .omitted => 0

/-- `TranscriptContentState::downgrade_to`. -/
def downgradeTo (current state : TranscriptContentState) : TranscriptContentState :=
  if contentRank state < contentRank current then state else current

def clipOption (maxChars : Nat) : Option String → Option String × Bool
  | none => (none, false)
  | some value => ((truncateWithEllipsis value maxChars).map some id)

def clipTool (maxChars maxFileChanges : Nat) (tool : ToolCallView) : ToolCallView × Bool :=
  let detail := clipOption maxChars tool.detail
  let inputPreview := clipOption maxChars tool.inputPreview
  let resultPreview := clipOption maxChars tool.resultPreview
  let diff := clipOption maxChars tool.diff
  let kept := tool.fileChanges.take maxFileChanges
  ({ tool with
      detail := detail.1
      inputPreview := inputPreview.1
      resultPreview := resultPreview.1
      diff := diff.1
      fileChanges := kept.map fun change =>
        { change with diff := (truncateWithEllipsis change.diff maxChars).1 } },
    detail.2 || inputPreview.2 || resultPreview.2 || diff.2 ||
      decide (maxFileChanges < tool.fileChanges.length) ||
      kept.any fun change => (truncateWithEllipsis change.diff maxChars).2)

/-- The clipped entry, marked a preview if anything of it was lost. Both passes over the transcript
do this; the first leaves alone what the user typed. -/
def clipEntry (clipsText : Bool) (maxChars maxFileChanges : Nat) (entry : TranscriptEntryView) :
    TranscriptEntryView × Bool :=
  let text := if clipsText then clipOption maxChars entry.text else (entry.text, false)
  let tool := (entry.tool.map (clipTool maxChars maxFileChanges))
  let previewed := text.2 || (tool.map (·.2)).getD false
  ({ entry with
      text := text.1
      tool := tool.map (·.1)
      contentState :=
        if previewed then downgradeTo entry.contentState .preview else entry.contentState },
    previewed)

def overlong (maxChars : Nat) (value : Option String) : Bool :=
  (value.map fun value => decide (maxChars < value.length)).getD false

def overlongTool (maxChars maxFileChanges : Nat) (tool : ToolCallView) : Bool :=
  overlong maxChars tool.detail || overlong maxChars tool.inputPreview ||
    overlong maxChars tool.resultPreview || overlong maxChars tool.diff ||
    decide (maxFileChanges < tool.fileChanges.length) ||
    tool.fileChanges.any fun change => maxChars < change.diff.length

/-- The entry has a text the fallback pass would clip. -/
def overlongEntry (maxChars maxFileChanges : Nat) (entry : TranscriptEntryView) : Bool :=
  overlong maxChars entry.text ||
    ((entry.tool.map (overlongTool maxChars maxFileChanges)).getD false)

/-- A completed reasoning marker with no body: it cannot grow and is not rendered. -/
def isSettledEmptyReasoning (entry : TranscriptEntryView) : Bool :=
  entry.kind = .reasoning && entry.status = "completed" && entry.tool.isNone &&
    ((entry.text.map fun text => decide (trim text = "")).getD true)

def shellTool (tool : ToolCallView) : ToolCallView :=
  { tool with
    fileChangesOmitted :=
      tool.fileChangesOmitted || !tool.fileChanges.isEmpty || tool.diff.isSome
    detail := none
    inputPreview := none
    resultPreview := none
    diff := none
    fileChanges := []
    command := (clipOption emergencyTranscriptShellChars tool.command).1
    query := (clipOption emergencyTranscriptShellChars tool.query).1
    url := (clipOption emergencyTranscriptShellChars tool.url).1 }

def shellEntry (entry : TranscriptEntryView) : TranscriptEntryView :=
  if isSettledEmptyReasoning entry then { entry with text := none }
  else
    { entry with
      contentState := downgradeTo entry.contentState .omitted
      text := (clipOption emergencyTranscriptShellChars entry.text).1
      tool := entry.tool.map shellTool }

end entries

/-- A snapshot in the middle of its compaction, with the flag that becomes its
`transcript_truncated` at the end. -/
structure Compacting (Rest : Type) where
  snapshot : SessionSnapshot Rest
  transcriptTruncated : Bool

section passes

variable {Rest : Type} (serializedLen : SessionSnapshot Rest → Nat)
  (requestBytes : AskUserQuestionRequestView → Nat)
  (contentHash : List AskUserQuestionView → String) (budget : SessionSnapshotCompactBudget)

def clipLog (maxChars : Nat) (entry : LogEntryView) : LogEntryView :=
  { entry with message := (truncateWithEllipsis entry.message maxChars).1 }

def clipApproval (approval : ApprovalRequestView Rest) : ApprovalRequestView Rest :=
  { approval with
    summary := (truncateWithEllipsis approval.summary budget.maxApprovalSummaryChars).1
    detail := (clipOption budget.maxApprovalDetailChars approval.detail).1
    command := (clipOption budget.maxApprovalCommandChars approval.command).1
    contextPreview := (clipOption budget.maxApprovalContextChars approval.contextPreview).1 }

def clipProviderStatus (status : ProviderStatusView Rest) : ProviderStatusView Rest :=
  { status with
    reason := if budget.dropOperatorOnlyLogs then none
      else (clipOption budget.maxLogChars status.reason).1 }

/-- The reviewers a surface is told of: on a broker-bound one, those of the active parent. -/
def scopeReviewerThreads (snapshot : SessionSnapshot Rest) : List (ReviewerThreadView Rest) :=
  match snapshot.activeThreadId.filter fun _ => budget.reviewerThreadsActiveParentOnly with
  | some active => snapshot.reviewerThreads.filter (·.parentThreadId = active)
  | none => snapshot.reviewerThreads

/-- The caps on everything but the transcript. -/
def capCollections (snapshot : SessionSnapshot Rest) : SessionSnapshot Rest :=
  let safeLogs := if budget.dropOperatorOnlyLogs then snapshot.logs.filter (·.remoteSafe)
    else snapshot.logs
  { snapshot with
    activeReviewJobs := capTerminal (reviewJobStatusIsTerminal ·.status) (·.updatedAt) (·.id)
      budget.maxActiveReviewJobs snapshot.activeReviewJobs
    reviewActivity := compactReviewActivity snapshot.reviewActivity budget.maxReviewActivityJobs
      reviewActivityFieldBytes
    activeWorkflowRuns := compactWorkflowRuns
      (capTerminal (workflowRunStatusIsTerminal ·.status) (·.updatedAt) (·.id)
        budget.maxActiveWorkflowRuns snapshot.activeWorkflowRuns)
      budget.maxWorkflowFieldBytes budget.maxWorkflowVerdictBytes
      budget.maxWorkflowVerdictFindings
    workflowActivity := compactWorkflowActivity snapshot.workflowActivity
      budget.maxWorkflowActivityRuns budget.maxWorkflowActivityLockedThreadIds
      workflowActivityFieldBytes
    reviewerThreads := capReviewerThreads snapshot.activeThreadId budget.maxReviewerThreads
      (scopeReviewerThreads budget snapshot)
    deviceRecords := snapshot.deviceRecords.take budget.maxDeviceRecords
    pendingAskUserQuestions := match budget.maxPendingAskUserQuestionInlineBytes with
      | some maxInlineBytes => snapshot.pendingAskUserQuestions.map
          (·.externalizeQuestionsIfOver requestBytes contentHash maxInlineBytes)
      | none => snapshot.pendingAskUserQuestions
    logs := (safeLogs.take budget.maxLogs).map (clipLog budget.maxLogChars)
    providerStatus := snapshot.providerStatus.map (clipProviderStatus budget)
    pendingApprovals := snapshot.pendingApprovals.map (clipApproval budget) }

/-- The newest entries, clipped. -/
def capTranscript (s : Compacting Rest) : Compacting Rest :=
  let transcript := s.snapshot.transcript
  let kept := transcript.drop (transcript.length - budget.maxTranscriptEntries)
  let clipped := kept.map fun entry =>
    clipEntry (entry.kind ≠ .userText) budget.maxTranscriptChars budget.maxFileChanges entry
  { snapshot := { s.snapshot with transcript := clipped.map (·.1) }
    transcriptTruncated := s.transcriptTruncated ||
      decide (budget.maxTranscriptEntries < transcript.length) || clipped.any (·.2) }

def shrinkTranscript (s : Compacting Rest) : Compacting Rest :=
  let clipped := s.snapshot.transcript.map
    (clipEntry true budget.fallbackTranscriptChars budget.fallbackFileChanges)
  { snapshot := { s.snapshot with transcript := clipped.map (·.1) }
    transcriptTruncated := s.transcriptTruncated || clipped.any (·.2) }

def popped {α : Type} (items : List α) : Option (List α) :=
  if items.isEmpty then none else some items.dropLast

/-- What has a channel of its own goes first. -/
def dropControlPlane (snapshot : SessionSnapshot Rest) : Option (SessionSnapshot Rest) :=
  (popped snapshot.reviewerThreads).map ({ snapshot with reviewerThreads := · }) <|>
    (popped snapshot.activeWorkflowRuns).map ({ snapshot with activeWorkflowRuns := · }) <|>
    (popped snapshot.activeReviewJobs).map ({ snapshot with activeReviewJobs := · }) <|>
    (popped snapshot.deviceRecords).map ({ snapshot with deviceRecords := · }) <|>
    (popped snapshot.pairedDevices).map ({ snapshot with pairedDevices := · }) <|>
    (popped snapshot.pendingPairingRequests).map
      ({ snapshot with pendingPairingRequests := · })

def dropOldestEntry (s : Compacting Rest) : Option (Compacting Rest) :=
  if budget.minTranscriptEntriesBeforeTextShrink < s.snapshot.transcript.length then
    some
      { snapshot := { s.snapshot with transcript := s.snapshot.transcript.tail }
        transcriptTruncated := true }
  else none

def dropLog (snapshot : SessionSnapshot Rest) : Option (SessionSnapshot Rest) :=
  if budget.minLogsBeforeTextShrink < snapshot.logs.length then
    some { snapshot with logs := snapshot.logs.dropLast }
  else none

def shrinkTexts (s : Compacting Rest) : Option (Compacting Rest) :=
  if s.snapshot.transcript.any
      (overlongEntry budget.fallbackTranscriptChars budget.fallbackFileChanges) then
    some (shrinkTranscript budget s)
  else none

def shrinkLogs (snapshot : SessionSnapshot Rest) : Option (SessionSnapshot Rest) :=
  if snapshot.logs.any fun entry => budget.fallbackLogChars < entry.message.length then
    some { snapshot with logs := snapshot.logs.map (clipLog budget.fallbackLogChars) }
  else none

def externalizeLargest (snapshot : SessionSnapshot Rest) : Option (SessionSnapshot Rest) :=
  if budget.maxPendingAskUserQuestionInlineBytes.isSome then
    (externalizeLargestPendingAskUserQuestion requestBytes contentHash
      snapshot.pendingAskUserQuestions).map ({ snapshot with pendingAskUserQuestions := · })
  else none

/-- One round of the loop: what is given up next, as long as there is something. -/
def reduce (s : Compacting Rest) : Option (Compacting Rest) :=
  ((dropControlPlane s.snapshot).map ({ s with snapshot := · })) <|>
    (dropOldestEntry budget s) <|>
    ((dropLog budget s.snapshot).map ({ s with snapshot := · })) <|>
    (shrinkTexts budget s) <|>
    ((shrinkLogs budget s.snapshot).map ({ s with snapshot := · })) <|>
    (externalizeLargest requestBytes contentHash budget s.snapshot).map
      ({ s with snapshot := · })

/-- The last stage: no logs, and of the transcript only shells. -/
def emergencyShell (s : Compacting Rest) : Compacting Rest :=
  let cleared := { s.snapshot with logs := [] }
  if ¬ budget.emergencyShellTranscript then { s with snapshot := cleared }
  else
    let clamped := { cleared with
      currentCwd := (truncateWithEllipsis cleared.currentCwd emergencyTranscriptCwdChars).1
      threadWorkspaceCwd := (clipOption emergencyTranscriptCwdChars cleared.threadWorkspaceCwd).1 }
    if clamped.transcript.isEmpty then { s with snapshot := clamped }
    else
      { snapshot := { clamped with transcript := clamped.transcript.map shellEntry }
        transcriptTruncated := true }

end passes

section clipping

theorem truncateWithEllipsis_length_le (value : String) (maxChars : Nat) :
    (truncateWithEllipsis value maxChars).1.length ≤ maxChars := by
  unfold truncateWithEllipsis
  split_ifs with hfits hshort
  · exact hfits
  · simp
  · have hdots : ("...").length = 3 := rfl
    have hkept : (String.ofList (value.toList.take (maxChars - ellipsisLen))).length ≤
        maxChars - ellipsisLen := by
      rw [String.length_ofList, List.length_take]
      exact Nat.min_le_left _ _
    have hlen : ellipsisLen = 3 := rfl
    rw [String.length_append, hdots]
    omega

theorem truncateWithEllipsis_of_le {value : String} {maxChars : Nat}
    (h : value.length ≤ maxChars) : truncateWithEllipsis value maxChars = (value, false) :=
  if_pos h

@[simp] theorem truncateWithEllipsis_idem (value : String) (maxChars : Nat) :
    truncateWithEllipsis (truncateWithEllipsis value maxChars).1 maxChars =
      ((truncateWithEllipsis value maxChars).1, false) :=
  truncateWithEllipsis_of_le (truncateWithEllipsis_length_le value maxChars)

@[simp] theorem clipOption_idem (value : Option String) (maxChars : Nat) :
    clipOption maxChars (clipOption maxChars value).1 = ((clipOption maxChars value).1, false) := by
  cases value with
  | none => rfl
  | some value => simp [clipOption]

theorem truncateWithEllipsis_of_kept {value : String} {maxChars : Nat}
    (h : (truncateWithEllipsis value maxChars).2 = false) :
    (truncateWithEllipsis value maxChars).1 = value := by
  unfold truncateWithEllipsis at h ⊢
  split_ifs at h ⊢
  rfl

theorem clipOption_of_kept {value : Option String} {maxChars : Nat}
    (h : (clipOption maxChars value).2 = false) : (clipOption maxChars value).1 = value := by
  cases value with
  | none => rfl
  | some value => exact congrArg some (truncateWithEllipsis_of_kept h)

theorem overlong_clipOption (value : Option String) (maxChars : Nat) :
    overlong maxChars (clipOption maxChars value).1 = false := by
  cases value with
  | none => rfl
  | some value =>
    have hle := truncateWithEllipsis_length_le value maxChars
    simpa [overlong, clipOption] using hle

theorem clipTool_of_kept {tool : ToolCallView} {maxChars maxFileChanges : Nat}
    (h : (clipTool maxChars maxFileChanges tool).2 = false) :
    (clipTool maxChars maxFileChanges tool).1 = tool := by
  unfold clipTool at h ⊢
  simp only [Bool.or_eq_false_iff, decide_eq_false_iff_not, not_lt] at h
  obtain ⟨⟨⟨⟨⟨hdetail, hinput⟩, hresult⟩, hdiff⟩, hcount⟩, hchanges⟩ := h
  have htake : tool.fileChanges.take maxFileChanges = tool.fileChanges :=
    List.take_of_length_le hcount
  rw [htake] at hchanges ⊢
  have hmap : (tool.fileChanges.map fun change =>
      { change with diff := (truncateWithEllipsis change.diff maxChars).1 }) =
        tool.fileChanges := by
    have hsame : ∀ change ∈ tool.fileChanges,
        { change with diff := (truncateWithEllipsis change.diff maxChars).1 } = id change := by
      intro change hmem
      have hkept := List.any_eq_false.mp hchanges change hmem
      rw [Bool.not_eq_true] at hkept
      rw [truncateWithEllipsis_of_kept hkept]
      rfl
    rw [List.map_congr_left hsame, List.map_id]
  dsimp only
  rw [clipOption_of_kept hdetail, clipOption_of_kept hinput, clipOption_of_kept hresult,
    clipOption_of_kept hdiff, hmap]

theorem overlongTool_clipTool (tool : ToolCallView) (maxChars maxFileChanges : Nat) :
    overlongTool maxChars maxFileChanges (clipTool maxChars maxFileChanges tool).1 = false := by
  unfold overlongTool clipTool
  simp only [overlong_clipOption, Bool.false_or, Bool.or_eq_false_iff, decide_eq_false_iff_not,
    not_lt, List.length_map, List.length_take]
  constructor
  · exact Nat.min_le_left _ _
  · rw [List.any_eq_false]
    intro change hmem
    obtain ⟨original, -, rfl⟩ := List.mem_map.mp hmem
    have hle := truncateWithEllipsis_length_le original.diff maxChars
    simpa using hle

variable {clipsText : Bool} {maxChars maxFileChanges : Nat}

theorem clipEntry_of_kept {entry : TranscriptEntryView}
    (h : (clipEntry clipsText maxChars maxFileChanges entry).2 = false) :
    (clipEntry clipsText maxChars maxFileChanges entry).1 = entry := by
  unfold clipEntry at h ⊢
  dsimp only at h ⊢
  rw [h]
  obtain ⟨htext, htool⟩ := Bool.or_eq_false_iff.mp h
  have htext' : (if clipsText = true then clipOption maxChars entry.text
      else (entry.text, false)).1 = entry.text := by
    split_ifs at htext ⊢
    · exact clipOption_of_kept htext
    · rfl
  have htool' : (entry.tool.map (clipTool maxChars maxFileChanges)).map (·.1) = entry.tool := by
    cases hcall : entry.tool with
    | none => rfl
    | some tool =>
      rw [hcall] at htool
      exact congrArg some (clipTool_of_kept htool)
  rw [htext', htool']
  rfl

theorem overlongEntry_clipEntry (entry : TranscriptEntryView) :
    overlongEntry maxChars maxFileChanges
      (clipEntry true maxChars maxFileChanges entry).1 = false := by
  unfold overlongEntry clipEntry
  simp only [if_true, overlong_clipOption, Bool.false_or]
  cases entry.tool with
  | none => rfl
  | some tool => exact overlongTool_clipTool tool maxChars maxFileChanges

end clipping

section weight

variable {Rest : Type} (requestBytes : AskUserQuestionRequestView → Nat)
  (contentHash : List AskUserQuestionView → String) (budget : SessionSnapshotCompactBudget)

/-- What the loop may still give up: a bound on the rounds left. -/
def Compacting.weight (s : Compacting Rest) : Nat :=
  s.snapshot.reviewerThreads.length + s.snapshot.activeWorkflowRuns.length +
    s.snapshot.activeReviewJobs.length + s.snapshot.deviceRecords.length +
    s.snapshot.pairedDevices.length + s.snapshot.pendingPairingRequests.length +
    s.snapshot.transcript.length + s.snapshot.logs.length +
    s.snapshot.transcript.countP
      (overlongEntry budget.fallbackTranscriptChars budget.fallbackFileChanges) +
    s.snapshot.logs.countP (fun entry => budget.fallbackLogChars < entry.message.length) +
    s.snapshot.pendingAskUserQuestions.countP (·.inlineQuestions)

theorem popped_spec {α : Type} {items rest : List α} (h : popped items = some rest) :
    rest.length < items.length := by
  cases items with
  | nil => cases h
  | cons head items =>
    obtain rfl := Option.some.inj h
    simp

theorem orElse_cases {α : Type} {first second : Option α} {a : α}
    (h : (first <|> second) = some a) : first = some a ∨ second = some a := by
  cases first with
  | none => exact Or.inr h
  | some value => exact Or.inl h

theorem largestInline_spec (requests : List (Nat × AskUserQuestionRequestView)) {index bytes : Nat}
    (h : largestInline requestBytes requests = some (index, bytes)) :
    ∃ request, (index, request) ∈ requests ∧ request.inlineQuestions := by
  induction requests generalizing index bytes with
  | nil => cases h
  | cons head requests ih =>
    obtain ⟨place, request⟩ := head
    unfold largestInline at h
    cases hlater : largestInline requestBytes requests with
    | none =>
      rw [hlater] at h
      dsimp only at h
      split_ifs at h with hinline
      obtain ⟨rfl, rfl⟩ := Prod.mk.inj (Option.some.inj h)
      exact ⟨request, List.mem_cons_self, hinline⟩
    | some found =>
      obtain ⟨later, laterBytes⟩ := found
      rw [hlater] at h
      dsimp only at h
      split_ifs at h with hlarger
      · obtain ⟨rfl, rfl⟩ := Prod.mk.inj (Option.some.inj h)
        exact ⟨request, List.mem_cons_self, hlarger.1⟩
      · obtain ⟨rfl, rfl⟩ := Prod.mk.inj (Option.some.inj h)
        obtain ⟨other, hmem, hinline⟩ := ih hlater
        exact ⟨other, List.mem_cons_of_mem _ hmem, hinline⟩

theorem countP_externalize {requests next : List AskUserQuestionRequestView}
    (h : externalizeLargestPendingAskUserQuestion requestBytes contentHash requests = some next) :
    next.countP (·.inlineQuestions) < requests.countP (·.inlineQuestions) := by
  obtain ⟨⟨place, bytes⟩, hlargest, rfl⟩ := Option.map_eq_some_iff.mp h
  obtain ⟨request, hmem, hinline⟩ := largestInline_spec requestBytes _ hlargest
  obtain ⟨⟨held, index⟩, hzip, hpair⟩ := List.mem_map.mp hmem
  obtain ⟨rfl, rfl⟩ := Prod.mk.inj hpair
  have hget : requests[index]? = some held := List.mem_zipIdx_iff_getElem?.mp hzip
  obtain ⟨hlt, hheld⟩ := List.getElem?_eq_some_iff.mp hget
  have hsplit : requests.take index ++ held :: requests.drop (index + 1) = requests := by
    rw [← hheld, List.getElem_cons_drop, List.take_append_drop]
  have hnext : (held.externalizeQuestions contentHash).inlineQuestions = false := rfl
  dsimp only
  rw [List.modify_eq_take_cons_drop hlt, hheld]
  conv_rhs => rw [← hsplit]
  simp [List.countP_append, hnext, hinline]

def SameTranscript (left right : SessionSnapshot Rest) : Prop :=
  left.transcript = right.transcript ∧ left.transcriptTruncated = right.transcriptTruncated

theorem dropControlPlane_weight {s : Compacting Rest} {snapshot : SessionSnapshot Rest}
    (h : dropControlPlane s.snapshot = some snapshot) :
    ({ s with snapshot } : Compacting Rest).weight budget < s.weight budget ∧
      SameTranscript snapshot s.snapshot := by
  have hcases := (orElse_cases h).imp_right fun h => (orElse_cases h).imp_right fun h =>
    (orElse_cases h).imp_right fun h => (orElse_cases h).imp_right orElse_cases
  rcases hcases with h | h | h | h | h | h
  all_goals
    obtain ⟨rest, hpop, rfl⟩ := Option.map_eq_some_iff.mp h
    have hlt := popped_spec hpop
    refine ⟨?_, rfl, rfl⟩
    simp only [Compacting.weight]
    omega

theorem dropOldestEntry_weight {s next : Compacting Rest} (h : dropOldestEntry budget s = some next) :
    next.weight budget < s.weight budget := by
  unfold dropOldestEntry at h
  split_ifs at h with hmore
  obtain rfl := Option.some.inj h
  have hlt : s.snapshot.transcript.tail.length < s.snapshot.transcript.length := by
    rw [List.length_tail]
    omega
  have hle := (List.tail_sublist s.snapshot.transcript).countP_le
    (p := overlongEntry budget.fallbackTranscriptChars budget.fallbackFileChanges)
  simp only [Compacting.weight]
  omega

theorem dropLog_weight {s : Compacting Rest} {snapshot : SessionSnapshot Rest}
    (h : dropLog budget s.snapshot = some snapshot) :
    ({ s with snapshot } : Compacting Rest).weight budget < s.weight budget ∧
      SameTranscript snapshot s.snapshot := by
  unfold dropLog at h
  split_ifs at h with hmore
  obtain rfl := Option.some.inj h
  have hlt : s.snapshot.logs.dropLast.length < s.snapshot.logs.length := by
    rw [List.length_dropLast]
    omega
  have hle := (List.dropLast_sublist s.snapshot.logs).countP_le
    (p := fun entry => decide (budget.fallbackLogChars < entry.message.length))
  refine ⟨?_, rfl, rfl⟩
  simp only [Compacting.weight]
  omega

theorem countP_map_of_none {α : Type} {p : α → Bool} {f : α → α} (hnone : ∀ a, p (f a) = false)
    (items : List α) : (items.map f).countP p = 0 := by
  rw [List.countP_eq_zero]
  intro a hmem
  obtain ⟨b, -, rfl⟩ := List.mem_map.mp hmem
  simp [hnone]

theorem shrinkTexts_weight {s next : Compacting Rest} (h : shrinkTexts budget s = some next) :
    next.weight budget < s.weight budget := by
  unfold shrinkTexts at h
  split_ifs at h with hany
  obtain rfl := Option.some.inj h
  obtain ⟨entry, hmem, hoverlong⟩ := List.any_eq_true.mp hany
  have hpos : 0 < s.snapshot.transcript.countP
      (overlongEntry budget.fallbackTranscriptChars budget.fallbackFileChanges) :=
    List.countP_pos_iff.mpr ⟨entry, hmem, hoverlong⟩
  have hnone := countP_map_of_none
    (p := overlongEntry budget.fallbackTranscriptChars budget.fallbackFileChanges)
    (fun entry => overlongEntry_clipEntry entry) s.snapshot.transcript
  have hlength : ((s.snapshot.transcript.map (clipEntry true budget.fallbackTranscriptChars
      budget.fallbackFileChanges)).map (·.1)).length = s.snapshot.transcript.length := by simp
  have hmap : (s.snapshot.transcript.map (clipEntry true budget.fallbackTranscriptChars
      budget.fallbackFileChanges)).map (·.1) = s.snapshot.transcript.map fun entry =>
        (clipEntry true budget.fallbackTranscriptChars budget.fallbackFileChanges entry).1 := by
    rw [List.map_map]
    rfl
  rw [← hmap] at hnone
  simp only [Compacting.weight, shrinkTranscript]
  omega

theorem shrinkLogs_weight {s : Compacting Rest} {snapshot : SessionSnapshot Rest}
    (h : shrinkLogs budget s.snapshot = some snapshot) :
    ({ s with snapshot } : Compacting Rest).weight budget < s.weight budget ∧
      SameTranscript snapshot s.snapshot := by
  unfold shrinkLogs at h
  split_ifs at h with hany
  obtain rfl := Option.some.inj h
  obtain ⟨entry, hmem, hoverlong⟩ := List.any_eq_true.mp hany
  have hpos : 0 < s.snapshot.logs.countP
      (fun entry => decide (budget.fallbackLogChars < entry.message.length)) :=
    List.countP_pos_iff.mpr ⟨entry, hmem, hoverlong⟩
  have hnone := countP_map_of_none (f := clipLog budget.fallbackLogChars)
    (p := fun entry => decide (budget.fallbackLogChars < entry.message.length)) (by
      intro entry
      exact decide_eq_false (not_lt.mpr (truncateWithEllipsis_length_le _ _))) s.snapshot.logs
  have hlength : (s.snapshot.logs.map (clipLog budget.fallbackLogChars)).length =
      s.snapshot.logs.length := List.length_map _
  refine ⟨?_, rfl, rfl⟩
  simp only [Compacting.weight]
  omega

theorem externalizeLargest_weight {s : Compacting Rest} {snapshot : SessionSnapshot Rest}
    (h : externalizeLargest requestBytes contentHash budget s.snapshot = some snapshot) :
    ({ s with snapshot } : Compacting Rest).weight budget < s.weight budget ∧
      SameTranscript snapshot s.snapshot := by
  unfold externalizeLargest at h
  split_ifs at h with hbounded
  obtain ⟨requests, hrequests, rfl⟩ := Option.map_eq_some_iff.mp h
  have hlt := countP_externalize requestBytes contentHash hrequests
  refine ⟨?_, rfl, rfl⟩
  simp only [Compacting.weight]
  omega

theorem reduce_cases {s next : Compacting Rest}
    (h : reduce requestBytes contentHash budget s = some next) :
    next.weight budget < s.weight budget ∧
      (SameTranscript next.snapshot s.snapshot ∧
          next.transcriptTruncated = s.transcriptTruncated ∨
        dropOldestEntry budget s = some next ∨ shrinkTexts budget s = some next) := by
  rcases orElse_cases h with h | h
  · obtain ⟨snapshot, hdrop, rfl⟩ := Option.map_eq_some_iff.mp h
    obtain ⟨hlt, hsame⟩ := dropControlPlane_weight budget hdrop
    exact ⟨hlt, Or.inl ⟨hsame, rfl⟩⟩
  rcases orElse_cases h with h | h
  · exact ⟨dropOldestEntry_weight budget h, Or.inr (Or.inl h)⟩
  rcases orElse_cases h with h | h
  · obtain ⟨snapshot, hdrop, rfl⟩ := Option.map_eq_some_iff.mp h
    obtain ⟨hlt, hsame⟩ := dropLog_weight budget hdrop
    exact ⟨hlt, Or.inl ⟨hsame, rfl⟩⟩
  rcases orElse_cases h with h | h
  · exact ⟨shrinkTexts_weight budget h, Or.inr (Or.inr h)⟩
  rcases orElse_cases h with h | h
  · obtain ⟨snapshot, hshrink, rfl⟩ := Option.map_eq_some_iff.mp h
    obtain ⟨hlt, hsame⟩ := shrinkLogs_weight budget hshrink
    exact ⟨hlt, Or.inl ⟨hsame, rfl⟩⟩
  · obtain ⟨snapshot, hexternal, rfl⟩ := Option.map_eq_some_iff.mp h
    obtain ⟨hlt, hsame⟩ := externalizeLargest_weight requestBytes contentHash budget hexternal
    exact ⟨hlt, Or.inl ⟨hsame, rfl⟩⟩

end weight

section loop

variable {Rest : Type} (serializedLen : SessionSnapshot Rest → Nat)
  (requestBytes : AskUserQuestionRequestView → Nat)
  (contentHash : List AskUserQuestionView → String) (budget : SessionSnapshotCompactBudget)

/-- The loop; the flag says that it left through the emergency stage. -/
def compactLoop (s : Compacting Rest) : Compacting Rest × Bool :=
  if serializedLen s.snapshot ≤ budget.targetBytes then (s, false)
  else
    match _hround : reduce requestBytes contentHash budget s with
    | some next => compactLoop next
    | none => (emergencyShell budget s, true)
termination_by s.weight budget
decreasing_by exact (reduce_cases requestBytes contentHash budget _hround).1

/-- `compact_for_budget` up to its end, with whether the emergency stage was reached. -/
def compacting (snapshot : SessionSnapshot Rest) : Compacting Rest × Bool :=
  compactLoop serializedLen requestBytes contentHash budget
    (capTranscript budget
      { snapshot := capCollections requestBytes contentHash budget snapshot
        transcriptTruncated := snapshot.transcriptTruncated })

def compactForBudget (snapshot : SessionSnapshot Rest) : SessionSnapshot Rest :=
  let s := (compacting serializedLen requestBytes contentHash budget snapshot).1
  { s.snapshot with transcriptTruncated := s.transcriptTruncated }

def compactFor (profile : SessionSnapshotCompactProfile) (snapshot : SessionSnapshot Rest) :
    SessionSnapshot Rest :=
  compactForBudget serializedLen requestBytes contentHash profile.budget snapshot

def reachesEmergencyShell (profile : SessionSnapshotCompactProfile)
    (snapshot : SessionSnapshot Rest) : Bool :=
  (compacting serializedLen requestBytes contentHash profile.budget snapshot).2

end loop

end AgentRelay.Compaction

import AgentRelay.CompactionHonesty
import AgentRelay.ThreadsCompaction

/-! A compacted snapshot compacts to itself: every cap leaves its own results alone, no later
round undoes a cap, and the loop stops a second time where it stopped the first. -/
namespace AgentRelay.Compaction
open Text Relay
open Hydration (truncateWithEllipsis ellipsisLen)

section texts

theorem takeBytes_size (budget : Nat) (chars : List Char) :
    (String.ofList (takeBytes budget chars)).utf8ByteSize ≤ budget := by
  induction chars generalizing budget with
  | nil => simp [takeBytes]
  | cons c rest ih =>
    unfold takeBytes
    split_ifs with hfits
    · have hrest := ih (budget - c.utf8Size)
      rw [String.ofList_cons, String.utf8ByteSize_append, String.utf8ByteSize_singleton]
      omega
    · simp

theorem dots_size (count : Nat) :
    (String.ofList (List.replicate count '.')).utf8ByteSize = count := by
  induction count with
  | zero => simp
  | succ count ih =>
    have hdot : Char.utf8Size '.' = 1 := by decide
    rw [List.replicate_succ, String.ofList_cons, String.utf8ByteSize_append,
      String.utf8ByteSize_singleton, ih, hdot, Nat.add_comm]

theorem truncateUtf8_size (value : String) (maxBytes : Nat) :
    (truncateUtf8BytesWithEllipsis value maxBytes).utf8ByteSize ≤ maxBytes := by
  unfold truncateUtf8BytesWithEllipsis
  split_ifs with hfits hshort
  · exact hfits
  · exact (dots_size maxBytes).le
  · have hkept := takeBytes_size (maxBytes - ellipsisLen) value.toList
    have hdots : ("...").utf8ByteSize = ellipsisLen := by decide
    rw [String.utf8ByteSize_append, hdots]
    omega

@[simp] theorem truncateUtf8_idem (value : String) (maxBytes : Nat) :
    truncateUtf8BytesWithEllipsis (truncateUtf8BytesWithEllipsis value maxBytes) maxBytes =
      truncateUtf8BytesWithEllipsis value maxBytes :=
  if_pos (truncateUtf8_size value maxBytes)

end texts

section caps

/-- The order in which a capped list is sorted. -/
def newerFirst {α : Type} (updatedAt : α → Nat) (id : α → String) (left right : α) : Bool :=
  updatedAt right < updatedAt left ||
    updatedAt left = updatedAt right && decide (id right ≤ id left)

section order

variable {α : Type} {updatedAt : α → Nat} {id : α → String}

theorem newerFirst_trans (a b c : α) (hab : newerFirst updatedAt id a b = true)
    (hbc : newerFirst updatedAt id b c = true) : newerFirst updatedAt id a c = true := by
  simp only [newerFirst, Bool.or_eq_true, Bool.and_eq_true, decide_eq_true_eq] at hab hbc ⊢
  obtain hab | ⟨hab, hidab⟩ := hab
  · left
    omega
  · obtain hbc | ⟨hbc, hidbc⟩ := hbc
    · left
      omega
    · exact .inr ⟨hab.trans hbc, String.le_trans hidbc hidab⟩

theorem newerFirst_total (a b : α) :
    (newerFirst updatedAt id a b || newerFirst updatedAt id b a) = true := by
  simp only [newerFirst, Bool.or_eq_true, Bool.and_eq_true, decide_eq_true_eq]
  obtain hlt | heq | hgt := Nat.lt_trichotomy (updatedAt a) (updatedAt b)
  · exact .inr (.inl hlt)
  · obtain hid | hid := String.le_total (id b) (id a)
    · exact .inl (.inr ⟨heq, hid⟩)
    · exact .inr (.inr ⟨heq.symm, hid⟩)
  · exact .inl (.inl hgt)

/-- A list that its cap leaves alone: short enough, or sorted with nothing to drop. -/
def SettledList (isTerminal : α → Bool) (updatedAt : α → Nat) (id : α → String) (max : Nat)
    (items : List α) : Prop :=
  items.length ≤ max ∨
    ((∀ item ∈ items, isTerminal item = false) ∧ items.Pairwise (newerFirst updatedAt id · ·))

variable {isTerminal : α → Bool} {max : Nat} {items : List α}

theorem capTerminal_settled (items : List α) :
    SettledList isTerminal updatedAt id max (capTerminal isTerminal updatedAt id max items) := by
  unfold capTerminal
  split_ifs with hfits
  · exact .inl hfits
  · by_cases hroom : (items.filter fun item => !isTerminal item).length ≤ max
    · left
      simp only [List.length_mergeSort, List.length_append, List.length_take]
      omega
    · have hnone : max - (items.filter fun item => !isTerminal item).length = 0 := by omega
      right
      simp only [hnone, List.take_zero, List.append_nil]
      refine ⟨fun item hitem => ?_, List.pairwise_mergeSort newerFirst_trans newerFirst_total _⟩
      have hkept := (List.mergeSort_perm _ _).mem_iff.mp hitem
      simpa using (List.mem_filter.mp hkept).2

theorem SettledList.fixed (h : SettledList isTerminal updatedAt id max items) :
    capTerminal isTerminal updatedAt id max items = items := by
  unfold capTerminal
  split_ifs with hfits
  · rfl
  · obtain ⟨hnone, hsorted⟩ := h.resolve_left hfits
    have hall : (items.filter fun item => !isTerminal item) = items :=
      List.filter_eq_self.mpr fun item hitem => by simp [hnone item hitem]
    have hterminal : items.filter isTerminal = [] :=
      List.filter_eq_nil_iff.mpr fun item hitem => by simp [hnone item hitem]
    simp only [hall, hterminal, List.take_nil, List.append_nil]
    exact List.mergeSort_of_pairwise hsorted

theorem SettledList.dropLast (h : SettledList isTerminal updatedAt id max items) :
    SettledList isTerminal updatedAt id max items.dropLast := by
  obtain hfits | ⟨hnone, hsorted⟩ := h
  · left
    rw [List.length_dropLast]
    omega
  · exact .inr ⟨fun item hitem => hnone item (List.mem_of_mem_dropLast hitem),
      hsorted.sublist (List.dropLast_sublist items)⟩

theorem SettledList.map {f : α → α} (hterminal : ∀ item, isTerminal (f item) = isTerminal item)
    (hupdated : ∀ item, updatedAt (f item) = updatedAt item) (hid : ∀ item, id (f item) = id item)
    (h : SettledList isTerminal updatedAt id max items) :
    SettledList isTerminal updatedAt id max (items.map f) := by
  obtain hfits | ⟨hnone, hsorted⟩ := h
  · exact .inl (by simpa using hfits)
  · refine .inr ⟨fun item hitem => ?_, ?_⟩
    · obtain ⟨source, hsource, rfl⟩ := List.mem_map.mp hitem
      rw [hterminal, hnone source hsource]
    · refine List.pairwise_map.mpr (hsorted.imp fun hab => ?_)
      simpa only [newerFirst, hupdated, hid] using hab

end order

variable {Rest : Type}

theorem capReviewerThreads_length (active : Option String) (max : Nat)
    (threads : List (ReviewerThreadView Rest)) :
    (capReviewerThreads active max threads).length ≤ max := by
  unfold capReviewerThreads
  split_ifs with hfits
  · exact hfits
  · rw [List.length_take]
    exact Nat.min_le_left _ _

theorem mem_of_mem_capReviewerThreads {active : Option String} {max : Nat}
    {threads : List (ReviewerThreadView Rest)} {view : ReviewerThreadView Rest}
    (h : view ∈ capReviewerThreads active max threads) : view ∈ threads := by
  unfold capReviewerThreads at h
  split_ifs at h with hfits
  · exact h
  · exact (List.mergeSort_perm _ _).mem_iff.mp (List.mem_of_mem_take h)

theorem compactReviewActivity_idem (activity : List ReviewActivityView) (maxJobs maxBytes : Nat) :
    compactReviewActivity (compactReviewActivity activity maxJobs maxBytes) maxJobs maxBytes =
      compactReviewActivity activity maxJobs maxBytes := by
  unfold compactReviewActivity
  rw [← List.map_take, List.take_take, Nat.min_self, List.map_map]
  refine List.map_congr_left fun job _ => ?_
  cases job
  simp [Option.map_map, Function.comp_def]

theorem compactWorkflowActivity_idem (activity : List WorkflowActivityView)
    (maxRuns maxIds maxBytes : Nat) :
    compactWorkflowActivity (compactWorkflowActivity activity maxRuns maxIds maxBytes) maxRuns
      maxIds maxBytes = compactWorkflowActivity activity maxRuns maxIds maxBytes := by
  unfold compactWorkflowActivity
  rw [← List.map_take, List.take_take, Nat.min_self, List.map_map]
  refine List.map_congr_left fun run _ => ?_
  cases run
  simp [← List.map_take, List.take_take, Function.comp_def]

abbrev compactRun (maxFieldBytes maxVerdictBytes maxFindings : Nat) (run : WorkflowRunView Rest) :
    WorkflowRunView Rest :=
  { run with
    anchorItemId := truncateUtf8BytesWithEllipsis run.anchorItemId maxFieldBytes
    currentStep := truncateUtf8BytesWithEllipsis run.currentStep maxFieldBytes
    error := run.error.map (truncateUtf8BytesWithEllipsis · maxFieldBytes)
    lockedThreadIds := (run.lockedThreadIds.take (maxFindings * 8)).map
      (truncateUtf8BytesWithEllipsis · maxFieldBytes)
    lastVerdict := run.lastVerdict.map fun verdict =>
      { verdict with
        summary := verdict.summary.map (truncateUtf8BytesWithEllipsis · maxVerdictBytes)
        findings := (verdict.findings.take maxFindings).map
          (truncateUtf8BytesWithEllipsis · maxVerdictBytes) } }

theorem compactRun_idem (maxFieldBytes maxVerdictBytes maxFindings : Nat)
    (run : WorkflowRunView Rest) :
    compactRun maxFieldBytes maxVerdictBytes maxFindings
      (compactRun maxFieldBytes maxVerdictBytes maxFindings run) =
        compactRun maxFieldBytes maxVerdictBytes maxFindings run := by
  cases run
  simp [Option.map_map, Function.comp_def, ← List.map_take, List.take_take]

end caps

section capped

variable {Rest : Type} (requestBytes : AskUserQuestionRequestView → Nat)
  (contentHash : List AskUserQuestionView → String) (budget : SessionSnapshotCompactBudget)

def boundQuestion (request : AskUserQuestionRequestView) : AskUserQuestionRequestView :=
  match budget.maxPendingAskUserQuestionInlineBytes with
  | some maxInlineBytes =>
    request.externalizeQuestionsIfOver requestBytes contentHash maxInlineBytes
  | none => request

structure Capped (s : SessionSnapshot Rest) : Prop where
  jobs : SettledList (reviewJobStatusIsTerminal ·.status) (·.updatedAt) (·.id)
    budget.maxActiveReviewJobs s.activeReviewJobs
  activity : compactReviewActivity s.reviewActivity budget.maxReviewActivityJobs
    reviewActivityFieldBytes = s.reviewActivity
  runs : SettledList (workflowRunStatusIsTerminal ·.status) (·.updatedAt) (·.id)
    budget.maxActiveWorkflowRuns s.activeWorkflowRuns
  runFields : ∀ run ∈ s.activeWorkflowRuns, compactRun budget.maxWorkflowFieldBytes
    budget.maxWorkflowVerdictBytes budget.maxWorkflowVerdictFindings run = run
  workflowActivity : compactWorkflowActivity s.workflowActivity budget.maxWorkflowActivityRuns
    budget.maxWorkflowActivityLockedThreadIds workflowActivityFieldBytes = s.workflowActivity
  ofActive : ∀ active, (s.activeThreadId.filter fun _ => budget.reviewerThreadsActiveParentOnly) =
    some active → ∀ view ∈ s.reviewerThreads, view.parentThreadId = active
  reviewers : s.reviewerThreads.length ≤ budget.maxReviewerThreads
  devices : s.deviceRecords.length ≤ budget.maxDeviceRecords
  questions : ∀ request ∈ s.pendingAskUserQuestions,
    boundQuestion requestBytes contentHash budget request = request
  safeLogs : budget.dropOperatorOnlyLogs = true → ∀ entry ∈ s.logs, entry.remoteSafe = true
  logs : s.logs.length ≤ budget.maxLogs
  messages : ∀ entry ∈ s.logs, entry.message.length ≤ budget.maxLogChars
  providers : ∀ status ∈ s.providerStatus, clipProviderStatus budget status = status
  approvals : ∀ approval ∈ s.pendingApprovals, clipApproval budget approval = approval
  entries : s.transcript.length ≤ budget.maxTranscriptEntries
  texts : ∀ entry ∈ s.transcript, (clipEntry (entry.kind ≠ .userText) budget.maxTranscriptChars
    budget.maxFileChanges entry).2 = false

theorem boundQuestion_idem (request : AskUserQuestionRequestView) :
    boundQuestion requestBytes contentHash budget
        (boundQuestion requestBytes contentHash budget request) =
      boundQuestion requestBytes contentHash budget request := by
  unfold boundQuestion
  cases budget.maxPendingAskUserQuestionInlineBytes with
  | none => rfl
  | some maxInlineBytes =>
    dsimp only
    unfold AskUserQuestionRequestView.externalizeQuestionsIfOver
    by_cases hinline : request.inlineQuestions = true
    · by_cases hfits : requestBytes request ≤ maxInlineBytes
      · simp [hinline, hfits]
      · have hgone : (request.externalizeQuestions contentHash).inlineQuestions = false := rfl
        simp [hinline, hfits, hgone]
    · simp [hinline]

theorem map_eq_self {α : Type} {f : α → α} {items : List α} (h : ∀ item ∈ items, f item = item) :
    items.map f = items := by
  rw [List.map_congr_left h, List.map_id']

theorem clipLog_of_le {maxChars : Nat} {entry : LogEntryView}
    (h : entry.message.length ≤ maxChars) : clipLog maxChars entry = entry := by
  unfold clipLog
  rw [truncateWithEllipsis_of_le h]

theorem clipLog_length (maxChars : Nat) (entry : LogEntryView) :
    (clipLog maxChars entry).message.length ≤ maxChars :=
  truncateWithEllipsis_length_le _ _

theorem Capped.fixed {s : SessionSnapshot Rest} (h : Capped requestBytes contentHash budget s) :
    capCollections requestBytes contentHash budget s = s := by
  have hscope : scopeReviewerThreads budget s = s.reviewerThreads := by
    unfold scopeReviewerThreads
    cases hactive : s.activeThreadId.filter fun _ => budget.reviewerThreadsActiveParentOnly with
    | none => rfl
    | some active =>
      exact List.filter_eq_self.mpr fun view hview => by
        simpa using h.ofActive active hactive view hview
  have hlogs : (if budget.dropOperatorOnlyLogs then s.logs.filter (·.remoteSafe) else s.logs) =
      s.logs := by
    split_ifs with hdrop
    · exact List.filter_eq_self.mpr fun entry hentry => h.safeLogs hdrop entry hentry
    · rfl
  have hmessages : s.logs.map (clipLog budget.maxLogChars) = s.logs :=
    map_eq_self fun entry hentry => clipLog_of_le (h.messages entry hentry)
  have hruns : compactWorkflowRuns s.activeWorkflowRuns budget.maxWorkflowFieldBytes
      budget.maxWorkflowVerdictBytes budget.maxWorkflowVerdictFindings = s.activeWorkflowRuns :=
    map_eq_self h.runFields
  have hreviewers : capReviewerThreads s.activeThreadId budget.maxReviewerThreads
      s.reviewerThreads = s.reviewerThreads := if_pos h.reviewers
  have hquestions := map_eq_self h.questions
  unfold boundQuestion at hquestions
  unfold capCollections
  dsimp only
  rw [h.jobs.fixed, h.activity, h.runs.fixed, hruns, h.workflowActivity, hscope, hreviewers,
    List.take_of_length_le h.devices, hlogs, List.take_of_length_le h.logs, hmessages,
    map_eq_self h.providers, map_eq_self h.approvals]
  cases hbound : budget.maxPendingAskUserQuestionInlineBytes with
  | none => rfl
  | some maxInlineBytes =>
    rw [hbound] at hquestions
    dsimp only at hquestions ⊢
    rw [hquestions]

theorem Capped.fixedTranscript {s : SessionSnapshot Rest} (flag : Bool)
    (h : Capped requestBytes contentHash budget s) :
    capTranscript budget { snapshot := s, transcriptTruncated := flag } =
      { snapshot := s, transcriptTruncated := flag } := by
  have hkept : s.transcript.length - budget.maxTranscriptEntries = 0 :=
    Nat.sub_eq_zero_of_le h.entries
  have hmap : (s.transcript.map fun entry => clipEntry (entry.kind ≠ .userText)
      budget.maxTranscriptChars budget.maxFileChanges entry) = s.transcript.map (·, false) :=
    List.map_congr_left fun entry hentry =>
      Prod.ext (clipEntry_of_kept (h.texts entry hentry)) (h.texts entry hentry)
  unfold capTranscript
  simp only [hkept, List.drop_zero, hmap, List.map_map, Function.comp_def, List.map_id']
  simp [Nat.not_lt.mpr h.entries, Function.comp_def]

end capped

section short

variable {short long fewer more : Nat}

theorem clipOption_kept {value : Option String} (h : overlong short value = false)
    (hchars : short ≤ long) : (clipOption long value).2 = false := by
  cases value with
  | none => rfl
  | some value =>
    have hle : value.length ≤ short := by simpa [overlong] using h
    simp [clipOption, truncateWithEllipsis_of_le (hle.trans hchars)]

theorem clipTool_kept {tool : ToolCallView} (h : overlongTool short fewer tool = false)
    (hchars : short ≤ long) (hchanges : fewer ≤ more) : (clipTool long more tool).2 = false := by
  unfold overlongTool at h
  simp only [Bool.or_eq_false_iff, decide_eq_false_iff_not, not_lt] at h
  obtain ⟨⟨⟨⟨⟨hdetail, hinput⟩, hresult⟩, hdiff⟩, hcount⟩, hbodies⟩ := h
  unfold clipTool
  simp only [clipOption_kept hdetail hchars, clipOption_kept hinput hchars,
    clipOption_kept hresult hchars, clipOption_kept hdiff hchars, Bool.false_or,
    Bool.or_eq_false_iff, decide_eq_false_iff_not, not_lt]
  refine ⟨hcount.trans hchanges, List.any_eq_false.mpr fun change hmem => ?_⟩
  have hshort := List.any_eq_false.mp hbodies change (List.mem_of_mem_take hmem)
  have hle : change.diff.length ≤ short := by simpa using hshort
  rw [truncateWithEllipsis_of_le (hle.trans hchars)]
  simp

theorem clipEntry_kept {entry : TranscriptEntryView} (clipsText : Bool)
    (h : overlongEntry short fewer entry = false) (hchars : short ≤ long)
    (hchanges : fewer ≤ more) : (clipEntry clipsText long more entry).2 = false := by
  obtain ⟨htext, htool⟩ := Bool.or_eq_false_iff.mp h
  unfold clipEntry
  dsimp only
  rw [Bool.or_eq_false_iff]
  constructor
  · split_ifs
    · exact clipOption_kept htext hchars
    · rfl
  · cases hcall : entry.tool with
    | none => rfl
    | some tool =>
      rw [hcall] at htool
      exact clipTool_kept htool hchars hchanges

theorem clipTool_again (tool : ToolCallView) :
    (clipTool long more (clipTool long more tool).1).2 = false :=
  clipTool_kept (overlongTool_clipTool tool long more) le_rfl le_rfl

theorem clipEntry_again (clipsText : Bool) (entry : TranscriptEntryView) :
    (clipEntry clipsText long more (clipEntry clipsText long more entry).1).2 = false := by
  unfold clipEntry
  dsimp only
  rw [Bool.or_eq_false_iff]
  constructor
  · split_ifs <;> simp
  · cases entry.tool with
    | none => rfl
    | some tool => exact clipTool_again tool

theorem overlong_clipped {clip : Nat} (value : Option String) (hchars : clip ≤ short) :
    overlong short (clipOption clip value).1 = false := by
  cases value with
  | none => rfl
  | some value =>
    have hle := (truncateWithEllipsis_length_le value clip).trans hchars
    simpa [overlong, clipOption] using hle

theorem overlongEntry_shellEntry (entry : TranscriptEntryView)
    (hchars : emergencyTranscriptShellChars ≤ short) :
    overlongEntry short fewer (shellEntry entry) = false := by
  unfold overlongEntry shellEntry
  split_ifs with hsettled
  · have htool : entry.tool = none := by
      simp only [isSettledEmptyReasoning, Bool.and_eq_true] at hsettled
      exact Option.isNone_iff_eq_none.mp hsettled.1.2
    simp [overlong, htool]
  · dsimp only
    rw [overlong_clipped entry.text hchars]
    cases entry.tool with
    | none => rfl
    | some tool => simp [overlongTool, shellTool, overlong]

end short

section runs

variable {Rest : Type} {requestBytes : AskUserQuestionRequestView → Nat}
  {contentHash : List AskUserQuestionView → String} {budget : SessionSnapshotCompactBudget}

structure OrderedBudget (budget : SessionSnapshotCompactBudget) : Prop where
  shells : budget.emergencyShellTranscript = true
  shellChars : emergencyTranscriptShellChars ≤ budget.fallbackTranscriptChars
  fallbackChars : budget.fallbackTranscriptChars ≤ budget.maxTranscriptChars
  fallbackChanges : budget.fallbackFileChanges ≤ budget.maxFileChanges
  fallbackLogs : budget.fallbackLogChars ≤ budget.maxLogChars

theorem OrderedBudget.profile (profile : SessionSnapshotCompactProfile) :
    OrderedBudget profile.budget := by
  cases profile <;> constructor <;> decide

/-- The caps leave a capped snapshot. -/
theorem capped_start (s : SessionSnapshot Rest) (flag : Bool) :
    Capped requestBytes contentHash budget (capTranscript budget
      { snapshot := capCollections requestBytes contentHash budget s
        transcriptTruncated := flag }).snapshot where
  jobs := capTerminal_settled s.activeReviewJobs
  activity := compactReviewActivity_idem s.reviewActivity _ _
  runs := (capTerminal_settled s.activeWorkflowRuns).map (fun _ => rfl) (fun _ => rfl) fun _ => rfl
  runFields := by
    intro run hrun
    obtain ⟨source, -, rfl⟩ := List.mem_map.mp hrun
    exact compactRun_idem _ _ _ source
  workflowActivity := compactWorkflowActivity_idem s.workflowActivity _ _ _
  ofActive := by
    intro active hactive view hview
    have hkept := mem_of_mem_capReviewerThreads hview
    have hscope : (s.activeThreadId.filter fun _ => budget.reviewerThreadsActiveParentOnly) =
        some active := hactive
    unfold scopeReviewerThreads at hkept
    rw [hscope] at hkept
    simpa using (List.mem_filter.mp hkept).2
  reviewers := capReviewerThreads_length _ _ _
  devices := by
    simp only [capTranscript, capCollections, List.length_take]
    exact Nat.min_le_left _ _
  questions := by
    intro request hrequest
    have hmap : request ∈ s.pendingAskUserQuestions.map
        (boundQuestion requestBytes contentHash budget) := by
      simp only [capTranscript, capCollections] at hrequest
      unfold boundQuestion
      cases hbound : budget.maxPendingAskUserQuestionInlineBytes with
      | none => simpa [hbound] using hrequest
      | some maxInlineBytes => simpa [hbound] using hrequest
    obtain ⟨source, -, rfl⟩ := List.mem_map.mp hmap
    exact boundQuestion_idem requestBytes contentHash budget source
  safeLogs := by
    intro hdrop entry hentry
    simp only [capTranscript, capCollections, hdrop, if_true] at hentry
    obtain ⟨source, hsource, rfl⟩ := List.mem_map.mp hentry
    exact (List.mem_filter.mp (List.mem_of_mem_take hsource)).2
  logs := by
    simp only [capTranscript, capCollections, List.length_map, List.length_take]
    exact Nat.min_le_left _ _
  messages := by
    intro entry hentry
    obtain ⟨source, -, rfl⟩ := List.mem_map.mp hentry
    exact clipLog_length budget.maxLogChars source
  providers := by
    intro status hstatus
    obtain ⟨source, -, rfl⟩ := List.mem_map.mp hstatus
    unfold clipProviderStatus
    split_ifs <;> simp
  approvals := by
    intro approval happroval
    obtain ⟨source, -, rfl⟩ := List.mem_map.mp happroval
    simp [clipApproval]
  entries := by
    simp only [capTranscript, List.length_map, List.length_drop]
    omega
  texts := by
    intro entry hentry
    obtain ⟨clipped, hclipped, rfl⟩ := List.mem_map.mp hentry
    obtain ⟨source, -, rfl⟩ := List.mem_map.mp hclipped
    exact clipEntry_again (decide (source.kind ≠ .userText)) source

theorem popped_eq {α : Type} {items rest : List α} (h : popped items = some rest) :
    rest = items.dropLast := by
  cases items with
  | nil => cases h
  | cons head items => exact (Option.some.inj h).symm

theorem Capped.dropControlPlane {s next : SessionSnapshot Rest}
    (h : Capped requestBytes contentHash budget s)
    (hdrop : Compaction.dropControlPlane s = some next) :
    Capped requestBytes contentHash budget next := by
  have hcases := (orElse_cases hdrop).imp_right fun h => (orElse_cases h).imp_right fun h =>
    (orElse_cases h).imp_right fun h => (orElse_cases h).imp_right orElse_cases
  obtain hpop | hpop | hpop | hpop | hpop | hpop := hcases
  all_goals
    obtain ⟨rest, hrest, rfl⟩ := Option.map_eq_some_iff.mp hpop
    obtain rfl := popped_eq hrest
  · exact { h with
      ofActive := fun active hactive view hview =>
        h.ofActive active hactive view (List.mem_of_mem_dropLast hview)
      reviewers := (List.dropLast_sublist s.reviewerThreads).length_le.trans h.reviewers }
  · exact { h with
      runs := h.runs.dropLast
      runFields := fun run hrun => h.runFields run (List.mem_of_mem_dropLast hrun) }
  · exact { h with jobs := h.jobs.dropLast }
  · exact { h with devices := (List.dropLast_sublist s.deviceRecords).length_le.trans h.devices }
  · exact { h with }
  · exact { h with }

theorem boundQuestion_externalized (request : AskUserQuestionRequestView) :
    boundQuestion requestBytes contentHash budget (request.externalizeQuestions contentHash) =
      request.externalizeQuestions contentHash := by
  have hgone : (request.externalizeQuestions contentHash).inlineQuestions = false := rfl
  unfold boundQuestion
  cases budget.maxPendingAskUserQuestionInlineBytes with
  | none => rfl
  | some maxInlineBytes => simp [AskUserQuestionRequestView.externalizeQuestionsIfOver, hgone]

theorem externalize_bounded {requests next : List AskUserQuestionRequestView}
    (h : ∀ request ∈ requests, boundQuestion requestBytes contentHash budget request = request)
    (hnext : externalizeLargestPendingAskUserQuestion requestBytes contentHash requests =
      some next) :
    ∀ request ∈ next, boundQuestion requestBytes contentHash budget request = request := by
  obtain ⟨⟨place, bytes⟩, -, rfl⟩ := Option.map_eq_some_iff.mp hnext
  intro request hrequest
  obtain ⟨index, hindex⟩ := List.mem_iff_getElem?.mp hrequest
  rw [List.getElem?_modify] at hindex
  obtain ⟨source, hsource, hsame⟩ := Option.map_eq_some_iff.mp hindex
  have hbounded := h source (List.mem_of_getElem? hsource)
  split_ifs at hsame with hplace
  · rw [← hsame]
    exact boundQuestion_externalized source
  · rw [← hsame]
    exact hbounded

/-- A round keeps a snapshot capped. -/
theorem Capped.reduce {s next : Compacting Rest} (hbudget : OrderedBudget budget)
    (h : Capped requestBytes contentHash budget s.snapshot)
    (hround : Compaction.reduce requestBytes contentHash budget s = some next) :
    Capped requestBytes contentHash budget next.snapshot := by
  obtain hfirst | hround := orElse_cases hround
  · obtain ⟨snapshot, hdrop, rfl⟩ := Option.map_eq_some_iff.mp hfirst
    exact h.dropControlPlane hdrop
  obtain hentry | hround := orElse_cases hround
  · unfold dropOldestEntry at hentry
    split_ifs at hentry
    obtain rfl := Option.some.inj hentry
    exact { h with
      entries := (List.tail_sublist s.snapshot.transcript).length_le.trans h.entries
      texts := fun entry hmem => h.texts entry (List.mem_of_mem_tail hmem) }
  obtain hthird | hround := orElse_cases hround
  · obtain ⟨snapshot, hlog, rfl⟩ := Option.map_eq_some_iff.mp hthird
    unfold dropLog at hlog
    split_ifs at hlog
    obtain rfl := Option.some.inj hlog
    exact { h with
      safeLogs := fun hdrop entry hmem => h.safeLogs hdrop entry (List.mem_of_mem_dropLast hmem)
      logs := (List.dropLast_sublist s.snapshot.logs).length_le.trans h.logs
      messages := fun entry hmem => h.messages entry (List.mem_of_mem_dropLast hmem) }
  obtain htexts | hround := orElse_cases hround
  · unfold shrinkTexts at htexts
    split_ifs at htexts
    obtain rfl := Option.some.inj htexts
    refine { h with entries := ?_, texts := ?_ }
    · simpa [shrinkTranscript] using h.entries
    · intro entry hmem
      obtain ⟨clipped, hclipped, rfl⟩ := List.mem_map.mp hmem
      obtain ⟨source, -, rfl⟩ := List.mem_map.mp hclipped
      exact clipEntry_kept _ (overlongEntry_clipEntry source) hbudget.fallbackChars
        hbudget.fallbackChanges
  obtain hfifth | hlast := orElse_cases hround
  · obtain ⟨snapshot, hlogs, rfl⟩ := Option.map_eq_some_iff.mp hfifth
    unfold shrinkLogs at hlogs
    split_ifs at hlogs
    obtain rfl := Option.some.inj hlogs
    refine { h with safeLogs := ?_, logs := ?_, messages := ?_ }
    · intro hdrop entry hmem
      obtain ⟨source, hsource, rfl⟩ := List.mem_map.mp hmem
      exact h.safeLogs hdrop source hsource
    · simpa using h.logs
    · intro entry hmem
      obtain ⟨source, -, rfl⟩ := List.mem_map.mp hmem
      exact (clipLog_length _ source).trans hbudget.fallbackLogs
  · obtain ⟨snapshot, hquestion, rfl⟩ := Option.map_eq_some_iff.mp hlast
    unfold externalizeLargest at hquestion
    split_ifs at hquestion
    obtain ⟨requests, hrequests, rfl⟩ := Option.map_eq_some_iff.mp hquestion
    exact { h with
      questions := externalize_bounded h.questions hrequests }

end runs

section shells

theorem trim_ne_empty {value : String} {c : Char} (hmem : c ∈ value.toList)
    (hc : isWhitespace c = false) : trim value ≠ "" := by
  intro hempty
  have hnil : (value.toList.dropWhile isWhitespace).rdropWhile isWhitespace = [] := by
    simpa [trim] using hempty
  have hspaces := List.rdropWhile_eq_nil_iff.mp hnil
  have hsplit : value.toList.takeWhile isWhitespace ++ value.toList.dropWhile isWhitespace =
      value.toList := List.takeWhile_append_dropWhile
  rw [← hsplit, List.mem_append] at hmem
  obtain hfront | hback := hmem
  · rw [List.mem_takeWhile_imp hfront] at hc
    cases hc
  · rw [hspaces c hback] at hc
    cases hc

theorem trim_clipped {value : String} (h : trim value ≠ "") :
    trim (truncateWithEllipsis value emergencyTranscriptShellChars).1 ≠ "" := by
  unfold truncateWithEllipsis
  split_ifs with hfits hshort
  · exact h
  · exact absurd hshort (by decide)
  · have hdot : ("...").toList = ['.', '.', '.'] := by decide
    have hmem : '.' ∈ (String.ofList (value.toList.take
        (emergencyTranscriptShellChars - ellipsisLen)) ++ "...").toList := by
      rw [String.toList_append, hdot]
      simp
    exact trim_ne_empty hmem (by decide)

theorem downgradeTo_idem (current state : TranscriptContentState) :
    downgradeTo (downgradeTo current state) state = downgradeTo current state := by
  cases current <;> cases state <;> rfl

theorem shellTool_idem (tool : ToolCallView) : shellTool (shellTool tool) = shellTool tool := by
  simp [shellTool]

theorem shellEntry_idem (entry : TranscriptEntryView) :
    shellEntry (shellEntry entry) = shellEntry entry := by
  by_cases hsettled : isSettledEmptyReasoning entry = true
  · have hshell : shellEntry entry = { entry with text := none } := if_pos hsettled
    have hagain : isSettledEmptyReasoning { entry with text := none } = true := by
      simp only [isSettledEmptyReasoning, Bool.and_eq_true] at hsettled ⊢
      exact ⟨hsettled.1, rfl⟩
    rw [hshell, shellEntry, if_pos hagain]
  · have hshell : shellEntry entry = { entry with
        contentState := downgradeTo entry.contentState .omitted
        text := (clipOption emergencyTranscriptShellChars entry.text).1
        tool := entry.tool.map shellTool } := if_neg hsettled
    have hagain : isSettledEmptyReasoning (shellEntry entry) = false := by
      rw [hshell]
      simp only [isSettledEmptyReasoning, Bool.and_eq_true, not_and, Option.isNone_map,
        Bool.and_eq_false_iff] at hsettled ⊢
      by_cases hshape : (entry.kind = .reasoning ∧ entry.status = "completed") ∧
          entry.tool.isNone = true
      · have hfilled := hsettled (by simpa using hshape)
        right
        cases htext : entry.text with
        | none => simp [htext] at hfilled
        | some value =>
          have hvalue : trim value ≠ "" := by simpa [htext] using hfilled
          simpa [clipOption] using trim_clipped hvalue
      · left
        by_contra hsome
        simp only [not_or, Bool.not_eq_false, decide_eq_true_eq] at hsome
        exact hshape hsome
    rw [shellEntry, if_neg (by simp [hagain]), hshell]
    simp [downgradeTo_idem, shellTool_idem, Function.comp_def]

end shells

section loop

variable {Rest : Type} {serializedLen : SessionSnapshot Rest → Nat}
  {requestBytes : AskUserQuestionRequestView → Nat}
  {contentHash : List AskUserQuestionView → String} {budget : SessionSnapshotCompactBudget}

def shellSnapshot (s : SessionSnapshot Rest) : SessionSnapshot Rest :=
  { s with
    logs := []
    currentCwd := (truncateWithEllipsis s.currentCwd emergencyTranscriptCwdChars).1
    threadWorkspaceCwd := (clipOption emergencyTranscriptCwdChars s.threadWorkspaceCwd).1
    transcript := s.transcript.map shellEntry }

theorem emergencyShell_eq (hshells : budget.emergencyShellTranscript = true)
    (s : Compacting Rest) :
    emergencyShell budget s =
      { snapshot := shellSnapshot s.snapshot
        transcriptTruncated := s.transcriptTruncated || !s.snapshot.transcript.isEmpty } := by
  unfold emergencyShell shellSnapshot
  simp only [hshells, not_true_eq_false, if_false]
  cases htranscript : s.snapshot.transcript with
  | nil => simp
  | cons entry rest => simp

theorem shellSnapshot_idem (s : SessionSnapshot Rest) :
    shellSnapshot (shellSnapshot s) = shellSnapshot s := by
  simp [shellSnapshot, Function.comp_def, shellEntry_idem]

theorem Capped.shell {s : SessionSnapshot Rest} (hbudget : OrderedBudget budget)
    (h : Capped requestBytes contentHash budget s) :
    Capped requestBytes contentHash budget (shellSnapshot s) := by
  refine { h with safeLogs := ?_, logs := ?_, messages := ?_, entries := ?_, texts := ?_ }
  · exact fun _ entry hmem => nomatch hmem
  · exact Nat.zero_le _
  · exact fun entry hmem => nomatch hmem
  · simpa [shellSnapshot] using h.entries
  · intro entry hmem
    obtain ⟨source, -, rfl⟩ := List.mem_map.mp hmem
    exact clipEntry_kept _ (overlongEntry_shellEntry source hbudget.shellChars)
      hbudget.fallbackChars (Nat.zero_le _)

theorem orElse_none {α : Type} {first second : Option α} (h : (first <|> second) = none) :
    first = none ∧ second = none := by
  cases first with
  | none => exact ⟨rfl, h⟩
  | some value => cases h

abbrev flaggedShell (s : SessionSnapshot Rest) (flag : Bool) : SessionSnapshot Rest :=
  { shellSnapshot s with transcriptTruncated := flag }

theorem dropControlPlane_shell {s : SessionSnapshot Rest} (h : dropControlPlane s = none)
    (flag : Bool) : dropControlPlane (flaggedShell s flag) = none := by
  obtain ⟨hreviewers, h⟩ := orElse_none h
  obtain ⟨hruns, h⟩ := orElse_none h
  obtain ⟨hjobs, h⟩ := orElse_none h
  obtain ⟨hdevices, h⟩ := orElse_none h
  obtain ⟨hpaired, hpending⟩ := orElse_none h
  rw [Option.map_eq_none_iff] at hreviewers hruns hjobs hdevices hpaired hpending
  simp only [dropControlPlane, shellSnapshot, hreviewers, hruns, hjobs, hdevices, hpaired,
    hpending, Option.map_none]
  rfl

theorem externalizeLargest_shell {s : SessionSnapshot Rest}
    (h : externalizeLargest requestBytes contentHash budget s = none) (flag : Bool) :
    externalizeLargest requestBytes contentHash budget (flaggedShell s flag) = none := by
  unfold externalizeLargest at h ⊢
  split_ifs at h ⊢ with hbounded
  · rw [Option.map_eq_none_iff] at h ⊢
    exact h
  · rfl

theorem reduce_shell {s : Compacting Rest} (hbudget : OrderedBudget budget)
    (h : reduce requestBytes contentHash budget s = none) (flag : Bool) :
    reduce requestBytes contentHash budget
      { snapshot := flaggedShell s.snapshot flag, transcriptTruncated := flag } = none := by
  obtain ⟨hdrop, h⟩ := orElse_none h
  obtain ⟨hentry, h⟩ := orElse_none h
  obtain ⟨-, h⟩ := orElse_none h
  obtain ⟨-, h⟩ := orElse_none h
  obtain ⟨-, hquestion⟩ := orElse_none h
  have hdropped := dropControlPlane_shell (Option.map_eq_none_iff.mp hdrop) flag
  have hasked := externalizeLargest_shell (Option.map_eq_none_iff.mp hquestion) flag
  have hkept : dropOldestEntry budget
      { snapshot := flaggedShell s.snapshot flag, transcriptTruncated := flag } = none := by
    unfold dropOldestEntry at hentry ⊢
    split_ifs at hentry with hmore
    exact if_neg (by simpa [shellSnapshot] using hmore)
  have hlog : dropLog budget (flaggedShell s.snapshot flag) = none :=
    if_neg (Nat.not_lt_zero _)
  have htexts : shrinkTexts budget
      { snapshot := flaggedShell s.snapshot flag, transcriptTruncated := flag } = none := by
    refine if_neg ?_
    rw [Bool.not_eq_true, List.any_eq_false]
    intro entry hmem
    obtain ⟨source, -, rfl⟩ := List.mem_map.mp hmem
    simp [overlongEntry_shellEntry source hbudget.shellChars]
  have hlogs : shrinkLogs budget (flaggedShell s.snapshot flag) = none :=
    if_neg (by simp [shellSnapshot])
  unfold reduce
  simp only [hdropped, hkept, hlog, htexts, hlogs, hasked, Option.map_none]
  rfl

theorem compactLoop_stays {s : Compacting Rest}
    (h : serializedLen s.snapshot ≤ budget.targetBytes ∨
      (reduce requestBytes contentHash budget s = none ∧ emergencyShell budget s = s)) :
    (compactLoop serializedLen requestBytes contentHash budget s).1 = s := by
  unfold compactLoop
  split_ifs with hfits
  · rfl
  · obtain ⟨hnone, hshell⟩ := h.resolve_left hfits
    split
    · rename_i next hround
      rw [hnone] at hround
      cases hround
    · exact hshell

theorem compactLoop_capped {s : Compacting Rest} (hbudget : OrderedBudget budget)
    (h : Capped requestBytes contentHash budget s.snapshot) :
    let out := (compactLoop serializedLen requestBytes contentHash budget s).1
    Capped requestBytes contentHash budget out.snapshot ∧
      (serializedLen out.snapshot ≤ budget.targetBytes ∨
        ∃ last, reduce requestBytes contentHash budget last = none ∧
          out = emergencyShell budget last) := by
  dsimp only
  generalize hweight : s.weight budget = weight
  induction weight using Nat.strong_induction_on generalizing s with
  | _ weight ih =>
    unfold compactLoop
    split_ifs with hfits
    · exact ⟨h, .inl hfits⟩
    · split
      · rename_i next hround
        have hlt := (reduce_cases requestBytes contentHash budget hround).1
        exact ih _ (hweight ▸ hlt) (h.reduce hbudget hround) rfl
      · rename_i hround
        refine ⟨?_, .inr ⟨s, hround, rfl⟩⟩
        rw [emergencyShell_eq hbudget.shells]
        exact h.shell hbudget

theorem compactLoop_settled {entries : List TranscriptEntryView} {last : Compacting Rest}
    (hbudget : OrderedBudget budget)
    (hflag : ∀ snapshot : SessionSnapshot Rest,
      serializedLen { snapshot with transcriptTruncated := true } ≤ serializedLen snapshot)
    (hkeeps : Keeps entries last)
    (hend : serializedLen last.snapshot ≤ budget.targetBytes ∨
      ∃ prev, reduce requestBytes contentHash budget prev = none ∧
        last = emergencyShell budget prev) :
    let out : Compacting Rest :=
      { last with snapshot := { last.snapshot with
          transcriptTruncated := last.transcriptTruncated } }
    (compactLoop serializedLen requestBytes contentHash budget out).1 = out := by
  apply compactLoop_stays
  obtain hfits | ⟨prev, hnone, rfl⟩ := hend
  · exact .inl (hkeeps.flagged_le hflag hfits)
  · right
    rw [emergencyShell_eq hbudget.shells]
    constructor
    · exact reduce_shell hbudget hnone _
    · rw [emergencyShell_eq hbudget.shells]
      have hempty : (shellSnapshot prev.snapshot).transcript.isEmpty =
          prev.snapshot.transcript.isEmpty := List.isEmpty_map
      have hshell : shellSnapshot (flaggedShell prev.snapshot (prev.transcriptTruncated ||
          !prev.snapshot.transcript.isEmpty)) = flaggedShell prev.snapshot
            (prev.transcriptTruncated || !prev.snapshot.transcript.isEmpty) :=
        congrArg (fun s : SessionSnapshot Rest => { s with
          transcriptTruncated := prev.transcriptTruncated || !prev.snapshot.transcript.isEmpty })
          (shellSnapshot_idem prev.snapshot)
      dsimp only at hshell ⊢
      rw [hshell, hempty, Bool.or_assoc, Bool.or_self]

theorem compactFor_idem (hflag : ∀ snapshot : SessionSnapshot Rest,
      serializedLen { snapshot with transcriptTruncated := true } ≤ serializedLen snapshot)
    (profile : SessionSnapshotCompactProfile) (snapshot : SessionSnapshot Rest) :
    compactFor serializedLen requestBytes contentHash profile
        (compactFor serializedLen requestBytes contentHash profile snapshot) =
      compactFor serializedLen requestBytes contentHash profile snapshot := by
  have hcap : 0 < profile.budget.maxTranscriptEntries := by cases profile <;> decide
  have hsome : 0 < profile.budget.minTranscriptEntriesBeforeTextShrink := by
    cases profile <;> decide
  have hbudget := OrderedBudget.profile profile
  unfold compactFor
  generalize profile.budget = budget at hcap hsome hbudget
  have hfirst : let last := (compacting serializedLen requestBytes contentHash budget snapshot).1
      Capped requestBytes contentHash budget last.snapshot ∧
        (serializedLen last.snapshot ≤ budget.targetBytes ∨
          ∃ prev, reduce requestBytes contentHash budget prev = none ∧
            last = emergencyShell budget prev) :=
    compactLoop_capped hbudget (capped_start snapshot snapshot.transcriptTruncated)
  have hkeeps : Keeps snapshot.transcript
      (compacting serializedLen requestBytes contentHash budget snapshot).1 :=
    (Keeps.compacting snapshot hcap hsome).1
  unfold compactForBudget
  generalize (compacting serializedLen requestBytes contentHash budget snapshot).1 = last
    at hfirst hkeeps ⊢
  obtain ⟨hcapped, hend⟩ := hfirst
  have hout : Capped requestBytes contentHash budget
      { last.snapshot with transcriptTruncated := last.transcriptTruncated } := { hcapped with }
  have hsettled := compactLoop_settled hbudget hflag hkeeps hend
  dsimp only at hsettled ⊢
  unfold compacting
  rw [hout.fixed, hout.fixedTranscript, hsettled]

end loop

end AgentRelay.Compaction

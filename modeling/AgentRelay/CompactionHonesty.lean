import AgentRelay.SnapshotCompaction

/-! What a compacted snapshot says about its transcript is true: every stage of the compaction
that takes something from an entry marks the entry, and one that takes entries sets the flag. -/
namespace AgentRelay.Compaction
open Text Relay

structure Reduced (input output : TranscriptEntryView) : Prop where
  itemId : output.itemId = input.itemId
  kind : output.kind = input.kind
  status : output.status = input.status
  turnId : output.turnId = input.turnId
  full : output.contentState = .full → output.tool = input.tool ∧
    (output.text = input.text ∨ isSettledEmptyReasoning input ∧ output.text = none)
  lowered : contentRank output.contentState ≤ contentRank input.contentState

theorem Reduced.refl (entry : TranscriptEntryView) : Reduced entry entry where
  itemId := rfl
  kind := rfl
  status := rfl
  turnId := rfl
  full := fun _ => ⟨rfl, Or.inl rfl⟩
  lowered := le_rfl

theorem downgradeTo_rank (current state : TranscriptContentState) :
    contentRank (downgradeTo current state) ≤ contentRank current := by
  unfold downgradeTo
  split_ifs with hlower
  · exact hlower.le
  · exact le_rfl

theorem downgradeTo_ne_full {current state : TranscriptContentState} (h : state ≠ .full) :
    downgradeTo current state ≠ .full := by
  cases current <;> cases state <;> simp_all [downgradeTo, contentRank]

variable {input output : TranscriptEntryView}

theorem Reduced.clip (h : Reduced input output) (clipsText : Bool)
    (maxChars maxFileChanges : Nat) :
    Reduced input (clipEntry clipsText maxChars maxFileChanges output).1 := by
  cases hclipped : (clipEntry clipsText maxChars maxFileChanges output).2 with
  | false => rw [clipEntry_of_kept hclipped]; exact h
  | true =>
    have hstate : (clipEntry clipsText maxChars maxFileChanges output).1.contentState =
        downgradeTo output.contentState .preview := by
      unfold clipEntry at hclipped ⊢
      dsimp only at hclipped ⊢
      rw [hclipped, if_pos rfl]
    constructor
    · exact h.itemId
    · exact h.kind
    · exact h.status
    · exact h.turnId
    · intro hfull
      rw [hstate] at hfull
      exact absurd hfull (downgradeTo_ne_full (by decide))
    · rw [hstate]
      exact (downgradeTo_rank _ _).trans h.lowered

/-- A shell is marked omitted, unless there was nothing in the entry. -/
theorem Reduced.shell (h : Reduced input output) : Reduced input (shellEntry output) := by
  unfold shellEntry
  split_ifs with hsettled
  · constructor
    · exact h.itemId
    · exact h.kind
    · exact h.status
    · exact h.turnId
    · intro hfull
      obtain ⟨htool, htext⟩ := h.full hfull
      refine ⟨htool, Or.inr ⟨?_, rfl⟩⟩
      rcases htext with htext | ⟨hinput, -⟩
      · unfold isSettledEmptyReasoning at hsettled ⊢
        rw [← h.kind, ← h.status, ← htool, ← htext]
        exact hsettled
      · exact hinput
    · exact h.lowered
  · constructor
    · exact h.itemId
    · exact h.kind
    · exact h.status
    · exact h.turnId
    · intro hfull
      exact absurd hfull (downgradeTo_ne_full (by decide))
    · exact (downgradeTo_rank _ _).trans h.lowered

structure Honest (input output : List TranscriptEntryView) (truncated : Bool) : Prop where
  suffix : ∃ dropped kept, input = dropped ++ kept ∧ List.Forall₂ Reduced kept output
  nonempty : input ≠ [] → output ≠ []
  flagged : output ≠ input → truncated = true

section honest

variable {entries kept : List TranscriptEntryView} {truncated flag : Bool}

theorem Honest.map (h : Honest entries kept truncated) {f : TranscriptEntryView → TranscriptEntryView}
    (hf : ∀ {input output}, Reduced input output → Reduced input (f output))
    (hflag : truncated = true → flag = true) (hchanged : kept.map f ≠ kept → flag = true) :
    Honest entries (kept.map f) flag := by
  obtain ⟨dropped, rest, hsplit, hreduced⟩ := h.suffix
  constructor
  · refine ⟨dropped, rest, hsplit, ?_⟩
    rw [List.forall₂_map_right_iff]
    exact hreduced.imp fun _ _ hone => hf hone
  · intro hne hempty
    exact h.nonempty hne (List.map_eq_nil_iff.mp hempty)
  · intro hdiffers
    by_cases hsame : kept.map f = kept
    · rw [hsame] at hdiffers
      exact hflag (h.flagged hdiffers)
    · exact hchanged hsame

theorem Honest.drop (h : Honest entries kept truncated) (count : Nat) (flag : Bool)
    (hleft : kept ≠ [] → count < kept.length) (hflag : truncated = true → flag = true)
    (hcount : count ≠ 0 → flag = true) : Honest entries (kept.drop count) flag := by
  obtain ⟨dropped, rest, hsplit, hreduced⟩ := h.suffix
  constructor
  · refine ⟨dropped ++ rest.take count, rest.drop count, ?_, List.forall₂_drop count hreduced⟩
    rw [List.append_assoc, List.take_append_drop, hsplit]
  · intro hne hempty
    have hlt := hleft (h.nonempty hne)
    rw [List.drop_eq_nil_iff] at hempty
    omega
  · intro hdiffers
    by_cases hzero : count = 0
    · rw [hzero, List.drop_zero] at hdiffers
      exact hflag (h.flagged hdiffers)
    · exact hcount hzero

theorem Honest.clip (h : Honest entries kept truncated)
    (clipped : TranscriptEntryView → TranscriptEntryView × Bool)
    (hclip : ∀ {input output}, Reduced input output → Reduced input (clipped output).1)
    (hkept : ∀ entry, (clipped entry).2 = false → (clipped entry).1 = entry) :
    Honest entries ((kept.map clipped).map (·.1)) (truncated || (kept.map clipped).any (·.2)) := by
  rw [List.map_map]
  refine h.map hclip ?_ ?_
  · intro htrue
    rw [htrue, Bool.true_or]
  · intro hchanged
    by_contra hquiet
    rw [Bool.not_eq_true, Bool.or_eq_false_iff] at hquiet
    apply hchanged
    have hsame : ∀ entry ∈ kept, ((fun x : TranscriptEntryView × Bool => x.1) ∘ clipped) entry =
        id entry := by
      intro entry hmem
      have hnone := List.any_eq_false.mp hquiet.2 _ (List.mem_map_of_mem hmem)
      rw [Bool.not_eq_true] at hnone
      exact hkept entry hnone
    rw [List.map_congr_left hsame, List.map_id]

end honest

section runs

variable {Rest : Type} {serializedLen : SessionSnapshot Rest → Nat}
  {requestBytes : AskUserQuestionRequestView → Nat}
  {contentHash : List AskUserQuestionView → String} {budget : SessionSnapshotCompactBudget}
  {entries : List TranscriptEntryView}

structure Keeps (entries : List TranscriptEntryView) (s : Compacting Rest) : Prop where
  honest : Honest entries s.snapshot.transcript s.transcriptTruncated
  raised : s.snapshot.transcriptTruncated = true → s.transcriptTruncated = true

theorem Keeps.capTranscript {s : Compacting Rest} (h : Keeps entries s)
    (hsome : 0 < budget.maxTranscriptEntries) : Keeps entries (capTranscript budget s) := by
  constructor
  · have hdropped := h.honest.drop
      (s.snapshot.transcript.length - budget.maxTranscriptEntries)
      (s.transcriptTruncated ||
        decide (budget.maxTranscriptEntries < s.snapshot.transcript.length)) (by
        intro hne
        have hpos := List.length_pos_iff.mpr hne
        omega) (by
        intro htrue
        rw [htrue, Bool.true_or]) (by
        intro hcount
        rw [Bool.or_eq_true]
        exact Or.inr (decide_eq_true (by omega)))
    exact hdropped.clip _ (fun hone => hone.clip _ _ _) fun _ hkept => clipEntry_of_kept hkept
  · intro htrue
    have hraised := h.raised htrue
    simp only [Compaction.capTranscript, hraised, Bool.true_or]

theorem Keeps.reduce {s next : Compacting Rest} (h : Keeps entries s)
    (hsome : 0 < budget.minTranscriptEntriesBeforeTextShrink)
    (hround : reduce requestBytes contentHash budget s = some next) : Keeps entries next := by
  obtain ⟨-, ⟨⟨hsame, hflag⟩, htruncated⟩ | hdrop | hshrink⟩ :=
    reduce_cases requestBytes contentHash budget hround
  · constructor
    · rw [hsame, htruncated]
      exact h.honest
    · rw [hflag, htruncated]
      exact h.raised
  · unfold dropOldestEntry at hdrop
    split_ifs at hdrop with hmore
    obtain rfl := Option.some.inj hdrop
    constructor
    · have hdropped := h.honest.drop 1 true (fun _ => by omega) (fun _ => rfl)
        (fun _ => rfl)
      rw [List.drop_one] at hdropped
      exact hdropped
    · exact fun _ => rfl
  · unfold shrinkTexts at hshrink
    split_ifs at hshrink
    obtain rfl := Option.some.inj hshrink
    constructor
    · exact h.honest.clip _ (fun hone => hone.clip _ _ _) fun _ hkept => clipEntry_of_kept hkept
    · intro htrue
      have hraised := h.raised htrue
      simp only [shrinkTranscript, hraised, Bool.true_or]

theorem Keeps.emergencyShell {s : Compacting Rest} (h : Keeps entries s) :
    Keeps entries (emergencyShell budget s) := by
  unfold Compaction.emergencyShell
  dsimp only
  split_ifs with hshell hempty
  · exact ⟨h.honest, h.raised⟩
  · exact ⟨h.honest.map (fun hone => hone.shell) (fun _ => rfl) (fun _ => rfl), fun _ => rfl⟩
  · exact ⟨h.honest, h.raised⟩

theorem Keeps.compactLoop {s : Compacting Rest} (h : Keeps entries s)
    (hsome : 0 < budget.minTranscriptEntriesBeforeTextShrink) :
    let out := compactLoop serializedLen requestBytes contentHash budget s
    Keeps entries out.1 ∧ (out.2 = false → serializedLen out.1.snapshot ≤ budget.targetBytes) := by
  dsimp only
  generalize hweight : s.weight budget = weight
  induction weight using Nat.strong_induction_on generalizing s with
  | _ weight ih =>
    unfold Compaction.compactLoop
    split_ifs with hfits
    · exact ⟨h, fun _ => hfits⟩
    · split
      · rename_i next hround
        have hlt := (reduce_cases requestBytes contentHash budget hround).1
        exact ih _ (hweight ▸ hlt) (h.reduce hsome hround) rfl
      · exact ⟨h.emergencyShell, fun hfalse => by cases hfalse⟩

theorem Keeps.compacting (snapshot : SessionSnapshot Rest)
    (hcap : 0 < budget.maxTranscriptEntries)
    (hsome : 0 < budget.minTranscriptEntriesBeforeTextShrink) :
    let out := compacting serializedLen requestBytes contentHash budget snapshot
    Keeps snapshot.transcript out.1 ∧
      (out.2 = false → serializedLen out.1.snapshot ≤ budget.targetBytes) := by
  have hstart : Keeps snapshot.transcript
      { snapshot := capCollections requestBytes contentHash budget snapshot
        transcriptTruncated := snapshot.transcriptTruncated } := by
    constructor
    · constructor
      · exact ⟨[], snapshot.transcript, rfl, List.forall₂_same.mpr fun entry _ => .refl entry⟩
      · exact fun hne => hne
      · exact fun hdiffers => absurd rfl hdiffers
    · exact fun htrue => htrue
  exact (hstart.capTranscript hcap).compactLoop hsome

theorem Keeps.flagged_le {s : Compacting Rest} {target : Nat}
    (hflag : ∀ snapshot : SessionSnapshot Rest,
      serializedLen { snapshot with transcriptTruncated := true } ≤ serializedLen snapshot)
    (h : Keeps entries s) (hlen : serializedLen s.snapshot ≤ target) :
    serializedLen { s.snapshot with transcriptTruncated := s.transcriptTruncated } ≤ target := by
  cases htruncated : s.transcriptTruncated with
  | true => exact (hflag s.snapshot).trans hlen
  | false =>
    have hraw : s.snapshot.transcriptTruncated = false := by
      by_contra hraised
      rw [Bool.not_eq_false] at hraised
      rw [h.raised hraised] at htruncated
      cases htruncated
    rw [← hraw]
    exact hlen

end runs

/-- Compaction is honest on every surface: it ends with a suffix of the transcript whose entries
say what they lost, the flag says whether anything is missing, and the snapshot fits unless it
took the emergency stage. -/
theorem compact_for_honest {Rest : Type} (serializedLen : SessionSnapshot Rest → Nat)
    (requestBytes : AskUserQuestionRequestView → Nat)
    (contentHash : List AskUserQuestionView → String)
    (hflag : ∀ snapshot : SessionSnapshot Rest,
      serializedLen { snapshot with transcriptTruncated := true } ≤ serializedLen snapshot)
    (profile : SessionSnapshotCompactProfile) (snapshot : SessionSnapshot Rest) :
    let out := compactFor serializedLen requestBytes contentHash profile snapshot
    Honest snapshot.transcript out.transcript out.transcriptTruncated ∧
      (reachesEmergencyShell serializedLen requestBytes contentHash profile snapshot = false →
        serializedLen out ≤ profile.budget.targetBytes) := by
  have hcap : 0 < profile.budget.maxTranscriptEntries := by cases profile <;> decide
  have hsome : 0 < profile.budget.minTranscriptEntriesBeforeTextShrink := by
    cases profile <;> decide
  have hcompacted :
      let out := compacting serializedLen requestBytes contentHash profile.budget snapshot
      Keeps snapshot.transcript out.1 ∧
        (out.2 = false → serializedLen out.1.snapshot ≤ profile.budget.targetBytes) :=
    Keeps.compacting snapshot hcap hsome
  obtain ⟨hkeeps, hfits⟩ := hcompacted
  refine ⟨hkeeps.honest, ?_⟩
  intro hreached
  have hlen := hfits hreached
  exact hkeeps.flagged_le hflag hlen

namespace Greeting

/-- A thread with one entry more than a remote surface is sent; the relay has no devices, reviews
or logs. -/
def snapshot : SessionSnapshot Unit where
  activeThreadId := some "t"
  currentCwd := "/w"
  threadWorkspaceCwd := none
  providerStatus := []
  deviceRecords := []
  pairedDevices := []
  pendingPairingRequests := []
  pendingApprovals := []
  pendingAskUserQuestions := []
  transcriptTruncated := false
  transcript := ["a", "b", "c", "d", "e", "f", "g"].map fun itemId =>
    { itemId := some itemId, kind := .userText, text := some "hi", status := "completed"
      turnId := none, tool := none }
  logs := []
  activeReviewJobs := []
  reviewerThreads := []
  reviewActivity := []
  activeWorkflowRuns := []
  workflowActivity := []
  rest := ()

/-- The JSON of such a snapshot: what does not change, the flag, and the entries of the user. -/
def serializedLen (snapshot : SessionSnapshot Unit) : Nat :=
  1154 + (if snapshot.transcriptTruncated then 4 else 5) +
    (snapshot.transcript.map fun entry => 105 + (entry.itemId.getD "").utf8ByteSize +
      (entry.text.getD "").utf8ByteSize + entry.status.utf8ByteSize).sum

theorem serializedLen_flagged (snapshot : SessionSnapshot Unit) :
    serializedLen { snapshot with transcriptTruncated := true } ≤ serializedLen snapshot := by
  unfold serializedLen
  dsimp only
  rw [if_pos rfl]
  split_ifs <;> omega

theorem compact_for_honest_greeting :
    let out := compactFor serializedLen (fun _ => 0) (fun _ => "") .remoteSurface snapshot
    out.transcript.length < snapshot.transcript.length ∧
      Honest snapshot.transcript out.transcript out.transcriptTruncated ∧
      serializedLen out ≤ sessionSnapshotRemoteSurfaceBudget.targetBytes := by
  obtain ⟨hhonest, hfits⟩ := compact_for_honest serializedLen (fun _ => 0) (fun _ => "")
    serializedLen_flagged .remoteSurface snapshot
  refine ⟨by decide +kernel, hhonest, hfits ?_⟩
  unfold reachesEmergencyShell compacting compactLoop
  rw [if_pos (by decide +kernel)]

end Greeting

end AgentRelay.Compaction

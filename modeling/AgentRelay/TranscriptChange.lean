import AgentRelay.TranscriptClock

/-! Change detection: two reads of a thread that show different entries carry different
revisions, the later one the greater. -/
namespace AgentRelay.Relay
open StepRun

namespace RelayState

/-- What a reader of a thread gets: the revision and the entries shown under it. -/
def shownTranscript (s : RelayState) (threadId : String) :
    Option (Nat × List TranscriptEntryView) :=
  match s.runtimes[threadId]? with
  | some rt => some (rt.transcriptRevision, rt.transcriptViews)
  | none =>
    if s.activeThreadId = some threadId then
      some (s.transcriptRevision, transcriptViewsOf s.transcript s.applyStates)
    else none

theorem shownTranscript_eq (s : RelayState) (threadId : String) :
    s.shownTranscript threadId =
      (s.transcripts.shown threadId).map fun entry => (entry.1, entry.2.views) := by
  rw [shown_transcripts, shownTranscript]
  cases s.runtimes[threadId]? with
  | none =>
    dsimp only
    split_ifs <;> rfl
  | some rt => rfl

/-- Over a run, a read that shows other entries than an earlier one has a greater revision. -/
def ChangeDetected (currentCwd : String) (ops : List (Nat × RelayOp)) : Prop :=
  ∀ xs ys, xs <+: ys → ys <+: ops → ∀ threadId a views b views',
    (after currentCwd xs).shownTranscript threadId = some (a, views) →
      (after currentCwd ys).shownTranscript threadId = some (b, views') →
        views ≠ views' → a < b

/-- A promotion after the operations `xs` under which changes stay visible: the pending id
is not the selected one, a runtime moved to an id without one is not behind anything that id
has shown, and one that replaces a shorter transcript is newer than it. -/
def PromotionApart (currentCwd : String) (xs : List (Nat × RelayOp))
    (pendingId realId : String) : Prop :=
  pendingId ≠ realId → pendingId ≠ "" → realId ≠ "" →
    ∀ rt : ThreadRuntime, (after currentCwd xs).runtimes[pendingId]? = some rt →
      (after currentCwd xs).activeThreadId ≠ some pendingId ∧
      ((after currentCwd xs).runtimes[realId]? = none → ∀ ys, ys <+: xs → ∀ a,
        (after currentCwd ys).shownRevision realId = some a → a ≤ rt.transcriptRevision) ∧
      ∀ existing : ThreadRuntime, (after currentCwd xs).runtimes[realId]? = some existing →
        existing.transcript.length < rt.transcript.length →
          existing.transcriptRevision < rt.transcriptRevision

theorem PromotionApart.ahead {currentCwd : String} {xs : List (Nat × RelayOp)} {p r : String}
    (h : PromotionApart currentCwd xs p r) : PromotionAhead currentCwd xs p r := by
  intro hne hp hr rt hrt
  obtain ⟨hsel, hreal, -⟩ := h hne hp hr rt hrt
  exact ⟨hreal, fun ha => absurd ha hsel⟩

theorem PromotionApart.apart {currentCwd : String} {xs : List (Nat × RelayOp)} {p r : String}
    (h : PromotionApart currentCwd xs p r) {pending : Nat × Content}
    (hp : (after currentCwd xs).transcripts.Promotes p r pending) :
    Transcripts.Promotes.Apart (after currentCwd xs).transcripts p r pending := by
  obtain ⟨rt, hrt, rfl⟩ := runtime_eq_some hp.runtime
  obtain ⟨hsel, -, hnewer⟩ := h hp.ne hp.pending_ne hp.real_ne rt hrt
  refine ⟨hsel, ?_⟩
  intro existing hexisting hlen
  obtain ⟨ex, hex, rfl⟩ := runtime_eq_some hexisting
  exact hnewer ex hex hlen

/-- What every state of such a run keeps: the clock bounds, the selected thread's runtime,
and one entry for each revision shown. -/
structure Traceable (c : Transcripts) : Prop where
  sound : c.Sound
  anchored : c.Anchored
  named : c.Named

theorem traceable_new (currentCwd : String) : Traceable (new currentCwd).transcripts where
  sound := sound_new currentCwd
  anchored := by
    intro threadId h
    simp [transcripts, new] at h
  named := by
    intro t u e e' he
    simp [Transcripts.shown, transcripts, new] at he

theorem traceable_step {currentCwd : String} {xs : List (Nat × RelayOp)} (op : Nat × RelayOp)
    (hlt : ((after currentCwd xs).step op).transcriptClock < u64Max)
    (hapart : ∀ p r, op.2 = .promoteBackgroundThread p r → PromotionApart currentCwd xs p r)
    (h : Traceable (after currentCwd xs).transcripts) :
    Traceable ((after currentCwd xs).step op).transcripts ∧
      ∀ entry, (after currentCwd xs).transcripts.Names entry →
        ((after currentCwd xs).step op).transcripts.Names entry := by
  obtain ⟨now, op⟩ := op
  have hmoves : (after currentCwd xs).transcripts.Moves
      ((after currentCwd xs).step (now, op)).transcripts →
      Traceable ((after currentCwd xs).step (now, op)).transcripts ∧
        ∀ entry, (after currentCwd xs).transcripts.Names entry →
          ((after currentCwd xs).step (now, op)).transcripts.Names entry := by
    intro hmove
    have hlater := hmove.later
    exact ⟨⟨hlater.sound hlt h.sound, hlater.anchored h.anchored,
      hlater.named hlt h.anchored h.sound h.named⟩, fun _ hn => hlater.names hlt h.anchored hn⟩
  by_cases hop : ∃ p r, op = .promoteBackgroundThread p r
  · obtain ⟨p, r, rfl⟩ := hop
    have hpromote : ((after currentCwd xs).step (now, .promoteBackgroundThread p r)).transcripts =
        (after currentCwd xs).transcripts.promote p r := transcripts_promote _ now p r
    rcases Transcripts.promote_cases (after currentCwd xs).transcripts p r with hmove | ⟨e, hp⟩
    · exact hmoves (hpromote ▸ hmove)
    · have hap := (hapart p r rfl).apart hp
      rw [hpromote]
      refine ⟨⟨hp.sound h.sound, hp.anchored hap h.anchored, ?_⟩, fun _ hn => hp.names hap hn⟩
      exact h.named.of_shown fun t e he => hp.shown_apart hap he
  · exact hmoves (moves_step _ now fun p r heq => hop ⟨p, r, heq⟩)

section Run

variable {currentCwd : String} {ops : List (Nat × RelayOp)}
  (hclock : Always step (·.transcriptClock < u64Max) (new currentCwd) ops)
  (hapart : ∀ xs now p r, xs ++ [(now, .promoteBackgroundThread p r)] <+: ops →
    PromotionApart currentCwd xs p r)
include hclock hapart

theorem apart_of_concat {xs : List (Nat × RelayOp)} {op : Nat × RelayOp}
    (hxs : xs ++ [op] <+: ops) :
    ((after currentCwd xs).step op).transcriptClock < u64Max ∧
      ∀ p r, op.2 = .promoteBackgroundThread p r → PromotionApart currentCwd xs p r := by
  refine ⟨?_, ?_⟩
  · rw [← after_concat]
    exact clock_of_prefix hclock hxs
  · intro p r hop
    refine hapart xs op.1 p r ?_
    rw [← hop]
    exact hxs

theorem traceable_after {xs : List (Nat × RelayOp)} (hxs : xs <+: ops) :
    Traceable (after currentCwd xs).transcripts := by
  induction xs using List.reverseRecOn with
  | nil => exact traceable_new currentCwd
  | append_singleton xs op ih =>
    obtain ⟨hlt, hop⟩ := apart_of_concat hclock hapart hxs
    rw [after_concat]
    exact (traceable_step op hlt hop (ih ((List.prefix_append xs [op]).trans hxs))).1

theorem names_after {xs zs : List (Nat × RelayOp)} {threadId : String} {entry : Nat × Content}
    (hentry : (after currentCwd xs).transcripts.shown threadId = some entry)
    (hzs : xs ++ zs <+: ops) : (after currentCwd (xs ++ zs)).transcripts.Names entry := by
  induction zs using List.reverseRecOn with
  | nil =>
    rw [List.append_nil] at hzs ⊢
    have h := traceable_after hclock hapart hzs
    exact ⟨h.sound.shown_le hentry, fun t e he heq => h.named t threadId e entry he hentry heq⟩
  | append_singleton zs op ih =>
    rw [← List.append_assoc] at hzs ⊢
    have hprev := (List.prefix_append (xs ++ zs) [op]).trans hzs
    obtain ⟨hlt, hop⟩ := apart_of_concat hclock hapart hzs
    rw [after_concat]
    exact (traceable_step op hlt hop (traceable_after hclock hapart hprev)).2 entry (ih hprev)

end Run

/-- While the clock is not exhausted and promotions keep revisions apart, every change of
what a thread shows comes with a greater revision. -/
theorem changeDetected_of_promotionsApart (currentCwd : String) (ops : List (Nat × RelayOp))
    (hclock : Always step (·.transcriptClock < u64Max) (new currentCwd) ops)
    (hapart : ∀ xs now p r, xs ++ [(now, .promoteBackgroundThread p r)] <+: ops →
      PromotionApart currentCwd xs p r) : ChangeDetected currentCwd ops := by
  intro xs ys hxy hys threadId a views b views' ha hb hne
  obtain ⟨zs, rfl⟩ := hxy
  rw [shownTranscript_eq, Option.map_eq_some_iff] at ha hb
  obtain ⟨entry, hentry, hread⟩ := ha
  obtain ⟨entry', hentry', hread'⟩ := hb
  cases hread
  cases hread'
  have hahead : ∀ xs now p r, xs ++ [(now, .promoteBackgroundThread p r)] <+: ops →
      PromotionAhead currentCwd xs p r := fun xs now p r h => (hapart xs now p r h).ahead
  have hshown : (after currentCwd xs).shownRevision threadId = some entry.1 := by
    rw [shownRevision_eq, hentry]
    rfl
  have hle : entry.1 ≤ entry'.1 := (floor_after hclock hahead hshown hys).shown entry' hentry'
  have hrev : entry.1 ≠ entry'.1 := by
    intro heq
    have hsame := (names_after hclock hapart hentry hys).shown threadId entry' hentry' heq.symm
    exact hne (by rw [hsame])
  omega

def userMessage : ItemWrite :=
  { kind := .userText, text := some "hi", status := "completed", turnId := none, tool := none }

/-- A pending thread with a message is promoted to its real id. -/
def promotingRun : List (Nat × RelayOp) :=
  [(1, .upsertTranscriptItemForThread "claude-pending-1" "m1" userMessage),
    (2, .promoteBackgroundThread "claude-pending-1" "real")]

theorem changeDetected_promotingRun : ChangeDetected "/w" promotingRun := by
  refine changeDetected_of_promotionsApart "/w" promotingRun (by decide) ?_
  rintro xs now p r ⟨ys, h⟩
  rcases xs with _ | ⟨x, _ | ⟨y, xs⟩⟩
  · simp [promotingRun] at h
  · simp only [promotingRun, List.cons_append, List.nil_append, List.cons.injEq, Prod.mk.injEq,
      RelayOp.promoteBackgroundThread.injEq] at h
    obtain ⟨rfl, ⟨-, rfl, rfl⟩, -⟩ := h
    intro _ _ _ rt _
    refine ⟨by decide, ?_, ?_⟩
    · intro _ ys hys a ha
      have hnone : (after "/w" ys).shownRevision "real" = none := by
        rcases List.prefix_cons_iff.mp hys with rfl | ⟨zs, rfl, hzs⟩
        · decide
        · obtain rfl := List.prefix_nil.mp hzs
          decide
      rw [hnone] at ha
      cases ha
    · intro existing hexisting
      have hnone : (after "/w" [(1, .upsertTranscriptItemForThread "claude-pending-1" "m1"
          userMessage)]).runtimes["real"]?.isNone := by decide
      rw [hexisting] at hnone
      cases hnone
  · simp [promotingRun] at h

/-- The real id has a newer, shorter runtime when the pending one is promoted onto it. -/
def hiddenChangeRun : List (Nat × RelayOp) :=
  [(1, .upsertTranscriptItemForThread "claude-pending-1" "m1" userMessage),
    (2, .ensureRuntimeForThread "real"),
    (3, .promoteBackgroundThread "claude-pending-1" "real")]

/-- The message appears under the revision that showed the empty transcript. -/
theorem promotion_hides_change :
    Always step (·.transcriptClock < u64Max) (new "/w") hiddenChangeRun ∧
      ¬ChangeDetected "/w" hiddenChangeRun := by
  refine ⟨by decide, fun h => ?_⟩
  have hbefore : (after "/w" (hiddenChangeRun.take 2)).shownTranscript "real" = some (3, []) := by
    decide
  have hafter : ((after "/w" hiddenChangeRun).shownTranscript "real").map
      (fun read => (read.1, read.2.length)) = some (3, 1) := by decide
  rw [Option.map_eq_some_iff] at hafter
  obtain ⟨⟨b, views⟩, hread, heq⟩ := hafter
  simp only [Prod.mk.injEq] at heq
  have hlt := h (hiddenChangeRun.take 2) hiddenChangeRun (List.take_prefix 2 _) List.prefix_rfl
    "real" 3 [] b views hbefore hread (by rintro rfl; simp at heq)
  omega

end RelayState

end AgentRelay.Relay

import AgentRelay.StepRun
import AgentRelay.TranscriptOrder
import AgentRelay.TranscriptRefinement

/-! The transcript clock over whole runs: when revisions are drawn in order, bound every
runtime and never fall for a thread that is shown again. -/
namespace AgentRelay.Relay
open StepRun

namespace RelayState

def shownRevision (s : RelayState) (threadId : String) : Option Nat :=
  match s.runtimes[threadId]? with
  | some rt => some rt.transcriptRevision
  | none => if s.activeThreadId = some threadId then some s.transcriptRevision else none

theorem shownRevision_eq (s : RelayState) (threadId : String) :
    s.shownRevision threadId = (s.transcripts.shown threadId).map (·.1) := by
  rw [shown_transcripts, shownRevision]
  cases s.runtimes[threadId]? with
  | none =>
    dsimp only
    split_ifs <;> rfl
  | some rt => rfl

theorem sound_new (currentCwd : String) : (new currentCwd).transcripts.Sound where
  issued_sorted := List.Pairwise.nil
  issued_le := fun _ h => absurd h List.not_mem_nil
  runtime_le := by
    intro threadId entry h
    simp [transcripts, new] at h
  mirror_le := le_rfl

theorem sound_step {s : RelayState} (hs : s.transcripts.Sound) (op : Nat × RelayOp)
    (hlt : (s.step op).transcriptClock < u64Max) : (s.step op).transcripts.Sound := by
  obtain ⟨now, op⟩ := op
  by_cases hop : ∃ p r, op = .promoteBackgroundThread p r
  · obtain ⟨p, r, rfl⟩ := hop
    have heq : (s.step (now, .promoteBackgroundThread p r)).transcripts =
        s.transcripts.promote p r := transcripts_promote s now p r
    have hclock : (s.transcripts.promote p r).clock < u64Max := heq ▸ hlt
    rw [heq]
    exact Transcripts.sound_promote hs p r hclock
  · have hop' : ∀ p r, op ≠ .promoteBackgroundThread p r := fun p r h => hop ⟨p, r, h⟩
    exact (moves_step s now hop').later.sound hlt hs

def after (currentCwd : String) (ops : List (Nat × RelayOp)) : RelayState :=
  run step (new currentCwd) ops

/-- What the clock promises over a run: revisions are drawn in increasing order, bound every
runtime, and the revision a thread shows never falls. -/
structure ClockOrdered (currentCwd : String) (ops : List (Nat × RelayOp)) : Prop where
  issued : ∀ xs, xs <+: ops → (after currentCwd xs).issued.Pairwise (· < ·)
  bounded : ∀ xs, xs <+: ops → ∀ (threadId : String) (rt : ThreadRuntime),
    (after currentCwd xs).runtimes[threadId]? = some rt →
      rt.transcriptRevision ≤ (after currentCwd xs).transcriptClock
  shown_le : ∀ xs ys, xs <+: ys → ys <+: ops → ∀ threadId a b,
    (after currentCwd xs).shownRevision threadId = some a →
      (after currentCwd ys).shownRevision threadId = some b → a ≤ b

/-- A promotion after the operations `xs` that does not bring back an older revision: a
runtime moved to an id without one is not behind anything that id has shown, and while the
pending id is selected the mirror is not behind the runtime that leaves. -/
def PromotionAhead (currentCwd : String) (xs : List (Nat × RelayOp))
    (pendingId realId : String) : Prop :=
  pendingId ≠ realId → pendingId ≠ "" → realId ≠ "" →
    ∀ rt : ThreadRuntime, (after currentCwd xs).runtimes[pendingId]? = some rt →
      ((after currentCwd xs).runtimes[realId]? = none → ∀ ys, ys <+: xs → ∀ a,
        (after currentCwd ys).shownRevision realId = some a → a ≤ rt.transcriptRevision) ∧
      ((after currentCwd xs).activeThreadId = some pendingId →
        rt.transcriptRevision ≤ (after currentCwd xs).transcriptRevision)

theorem after_concat (currentCwd : String) (xs : List (Nat × RelayOp)) (op : Nat × RelayOp) :
    after currentCwd (xs ++ [op]) = (after currentCwd xs).step op :=
  run_concat _ xs op

theorem clock_of_prefix {currentCwd : String} {ops xs : List (Nat × RelayOp)}
    (h : Always step (·.transcriptClock < u64Max) (new currentCwd) ops) (hxs : xs <+: ops) :
    (after currentCwd xs).transcriptClock < u64Max := by
  obtain ⟨ys, rfl⟩ := hxs
  exact always_iff_prefix.mp h xs ys rfl

theorem sound_after {currentCwd : String} {ops : List (Nat × RelayOp)}
    (h : Always step (·.transcriptClock < u64Max) (new currentCwd) ops)
    {xs : List (Nat × RelayOp)} (hxs : xs <+: ops) :
    (after currentCwd xs).transcripts.Sound := by
  induction xs using List.reverseRecOn with
  | nil => exact sound_new currentCwd
  | append_singleton xs op ih =>
    rw [after_concat]
    refine sound_step (ih ((List.prefix_append xs [op]).trans hxs)) op ?_
    rw [← after_concat]
    exact clock_of_prefix h hxs

theorem floor_step {currentCwd : String} {xs zs : List (Nat × RelayOp)} {threadId : String}
    {a : Nat} (hshown : (after currentCwd xs).shownRevision threadId = some a)
    (op : Nat × RelayOp)
    (hlt : ((after currentCwd (xs ++ zs)).step op).transcriptClock < u64Max)
    (hahead : ∀ p r, op.2 = .promoteBackgroundThread p r →
      PromotionAhead currentCwd (xs ++ zs) p r)
    (hf : (after currentCwd (xs ++ zs)).transcripts.Floor threadId a) :
    ((after currentCwd (xs ++ zs)).step op).transcripts.Floor threadId a := by
  obtain ⟨now, op⟩ := op
  by_cases hop : ∃ p r, op = .promoteBackgroundThread p r
  · obtain ⟨p, r, rfl⟩ := hop
    have heq := transcripts_promote (after currentCwd (xs ++ zs)) now p r
    have hpromote : ((after currentCwd (xs ++ zs)).step
        (now, .promoteBackgroundThread p r)).transcripts =
          (after currentCwd (xs ++ zs)).transcripts.promote p r := heq
    rw [hpromote]
    rcases Transcripts.promote_cases (after currentCwd (xs ++ zs)).transcripts p r with
      hmove | ⟨pending, h⟩
    · exact hmove.later.floor (hpromote ▸ hlt) hf
    · obtain ⟨rt, hrt, rfl⟩ := runtime_eq_some h.runtime
      obtain ⟨hreal, hmirror⟩ := hahead p r rfl h.ne h.pending_ne h.real_ne rt hrt
      refine h.floor hf ?_ hmirror
      rintro rfl hnone
      exact hreal (Option.map_eq_none_iff.mp hnone) xs (List.prefix_append xs zs) a hshown
  · have hop' : ∀ p r, op ≠ .promoteBackgroundThread p r := fun p r h => hop ⟨p, r, h⟩
    exact (moves_step _ now hop').later.floor hlt hf

theorem floor_after {currentCwd : String} {ops : List (Nat × RelayOp)}
    (hclock : Always step (·.transcriptClock < u64Max) (new currentCwd) ops)
    (hahead : ∀ xs now p r, xs ++ [(now, .promoteBackgroundThread p r)] <+: ops →
      PromotionAhead currentCwd xs p r)
    {xs zs : List (Nat × RelayOp)} {threadId : String} {a : Nat}
    (hshown : (after currentCwd xs).shownRevision threadId = some a)
    (hzs : xs ++ zs <+: ops) :
    (after currentCwd (xs ++ zs)).transcripts.Floor threadId a := by
  induction zs using List.reverseRecOn with
  | nil =>
    rw [List.append_nil] at hzs ⊢
    rw [shownRevision_eq, Option.map_eq_some_iff] at hshown
    obtain ⟨entry, hentry, rfl⟩ := hshown
    refine ⟨(sound_after hclock hzs).shown_le hentry, ?_⟩
    intro e he
    rw [hentry, Option.some.injEq] at he
    exact he ▸ le_rfl
  | append_singleton zs op ih =>
    rw [← List.append_assoc] at hzs ⊢
    rw [after_concat]
    refine floor_step hshown op ?_ ?_ (ih ((List.prefix_append _ [op]).trans hzs))
    · rw [← after_concat]
      exact clock_of_prefix hclock hzs
    · intro p r hop
      refine hahead (xs ++ zs) op.1 p r ?_
      rw [← hop]
      exact hzs

theorem clockOrdered_of_ahead {currentCwd : String} {ops : List (Nat × RelayOp)}
    (hclock : Always step (·.transcriptClock < u64Max) (new currentCwd) ops)
    (hahead : ∀ xs now p r, xs ++ [(now, .promoteBackgroundThread p r)] <+: ops →
      PromotionAhead currentCwd xs p r) : ClockOrdered currentCwd ops where
  issued := fun _ hxs => (sound_after hclock hxs).issued_sorted
  bounded := by
    intro xs hxs threadId rt hrt
    refine (sound_after hclock hxs).runtime_le threadId rt.entry ?_
    simp [transcripts, hrt]
  shown_le := by
    intro xs ys hxy hys threadId a b ha hb
    obtain ⟨zs, rfl⟩ := hxy
    rw [shownRevision_eq, Option.map_eq_some_iff] at hb
    obtain ⟨entry, hentry, rfl⟩ := hb
    exact (floor_after hclock hahead ha hys).shown entry hentry

theorem shownRevision_promote {s : RelayState} (now : Nat) {p r : String} {rt : ThreadRuntime}
    (hne : p ≠ r) (hp : p ≠ "") (hr : r ≠ "") (hrt : s.runtimes[p]? = some rt) :
    (s.runtimes[r]? = none → (s.step (now, .promoteBackgroundThread p r)).shownRevision r =
        some rt.transcriptRevision) ∧
      (s.activeThreadId = some p → (s.step (now, .promoteBackgroundThread p r)).shownRevision p =
        some s.transcriptRevision) := by
  have h : s.transcripts.Promotes p r rt.entry := ⟨hne, hp, hr, by simp [transcripts, hrt]⟩
  have heq : (s.step (now, .promoteBackgroundThread p r)).transcripts =
      s.transcripts.promote p r := transcripts_promote s now p r
  rw [shownRevision_eq, shownRevision_eq, heq, h.shown_real, h.shown_pending]
  refine ⟨?_, ?_⟩
  · intro hnone
    have hnone' : s.transcripts.runtime r = none := by simp [transcripts, hnone]
    rw [hnone']
    rfl
  · intro ha
    have ha' : s.transcripts.active = some p := ha
    rw [if_pos ha']
    rfl

theorem ahead_of_clockOrdered {currentCwd : String} {ops : List (Nat × RelayOp)}
    (h : ClockOrdered currentCwd ops) {xs : List (Nat × RelayOp)} {now : Nat} {p r : String}
    (hxs : xs ++ [(now, .promoteBackgroundThread p r)] <+: ops) :
    PromotionAhead currentCwd xs p r := by
  intro hne hp hr rt hrt
  obtain ⟨hreal, hpending⟩ := shownRevision_promote now hne hp hr hrt
  rw [← after_concat] at hreal hpending
  refine ⟨?_, ?_⟩
  · intro hnone ys hys a ha
    exact h.shown_le ys _ (hys.trans (List.prefix_append xs _)) hxs r a _ ha (hreal hnone)
  · intro hactive
    refine h.shown_le xs _ (List.prefix_append xs _) hxs p _ _ ?_ (hpending hactive)
    simp [shownRevision, hrt]

/-- While the clock is not exhausted, the revisions of a run are ordered exactly when every
promotion is ahead of what its ids have shown. -/
theorem clockOrdered_iff_promotionsAhead (currentCwd : String) (ops : List (Nat × RelayOp))
    (hclock : Always step (·.transcriptClock < u64Max) (new currentCwd) ops) :
    ClockOrdered currentCwd ops ↔
      ∀ xs now p r, xs ++ [(now, .promoteBackgroundThread p r)] <+: ops →
        PromotionAhead currentCwd xs p r :=
  ⟨fun h _ _ _ _ hxs => ahead_of_clockOrdered h hxs, clockOrdered_of_ahead hclock⟩

def realHistory : ThreadSyncData :=
  { thread := { id := "real" }, status := "idle", activeFlags := [], transcript := [] }

def realSettings : ThreadSessionSettings := ⟨"untrusted", "workspace-write", "medium", "gpt-5.5"⟩

/-- A pending thread is known before the real one is loaded and dropped again. -/
def rewindingRun : List (Nat × RelayOp) :=
  [(1, .ensureRuntimeForThread "claude-pending-1"),
    (2, .loadThreadData realHistory realSettings "local"),
    (3, .clearActiveSession),
    (4, .promoteBackgroundThread "claude-pending-1" "real")]

theorem clockOrdered_iff_rewindingRun :
    Always step (·.transcriptClock < u64Max) (new "/w") rewindingRun ∧
      (ClockOrdered "/w" rewindingRun ↔
        ∀ xs now p r, xs ++ [(now, .promoteBackgroundThread p r)] <+: rewindingRun →
          PromotionAhead "/w" xs p r) :=
  ⟨by decide, clockOrdered_iff_promotionsAhead "/w" rewindingRun (by decide)⟩

/-- The real id showed revision 2, and shows 1 after the promotion. -/
theorem promotion_rewinds_shown_revision :
    Always step (·.transcriptClock < u64Max) (new "/w") rewindingRun ∧
      ¬ClockOrdered "/w" rewindingRun := by
  refine ⟨by decide, fun h => ?_⟩
  have hbefore : (after "/w" (rewindingRun.take 2)).shownRevision "real" = some 2 := by decide
  have hafter : (after "/w" rewindingRun).shownRevision "real" = some 1 := by decide
  have hle := h.shown_le (rewindingRun.take 2) rewindingRun (List.take_prefix 2 _) List.prefix_rfl
    "real" 2 1 hbefore hafter
  omega

end RelayState

end AgentRelay.Relay

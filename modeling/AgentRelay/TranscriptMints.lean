import AgentRelay.TranscriptRefinement
import Mathlib.Logic.Relation

/-! The clock and the revisions drawn from it, over whole runs: but for a restore, which may
also move the clock ahead, an operation changes them by drawing revisions and in no other way. -/
namespace AgentRelay.Relay
open Relation

abbrev Clocked := Nat × List Nat

def Clocked.mint (c : Clocked) : Clocked :=
  (saturatingAdd c.1 1, c.2 ++ [saturatingAdd c.1 1])

def Clocked.Draws : Clocked → Clocked → Prop := ReflTransGen fun c d => d = c.mint

theorem Clocked.Draws.keeps {P : Clocked → Prop} (hmint : ∀ c, P c → P c.mint) {c d : Clocked}
    (h : c.Draws d) (hc : P c) : P d := by
  induction h with
  | refl => exact hc
  | tail _ hd ih => exact hd ▸ hmint _ ih

namespace Transcripts

def clocked (c : Transcripts) : Clocked := (c.clock, c.issued)

def Draws (c d : Transcripts) : Prop := c.clocked.Draws d.clocked

theorem Draws.trans {c d e : Transcripts} (hcd : c.Draws d) (hde : d.Draws e) : c.Draws e :=
  ReflTransGen.trans hcd hde

theorem Draws.of_eq {c d : Transcripts} (h : d.clocked = c.clocked) : c.Draws d := by
  unfold Draws
  rw [h]
  exact .refl

theorem draws_mint (c : Transcripts) : c.Draws c.mint := .single rfl

theorem draws_putFresh (c : Transcripts) (threadId : String) (content : Content) :
    c.Draws (c.putFresh threadId content) := .single rfl

theorem draws_materialize (c : Transcripts) : c.Draws c.materialize := by
  unfold materialize
  split
  · exact .of_eq rfl
  · split_ifs
    · exact .of_eq rfl
    · exact draws_putFresh c _ _

theorem draws_ensure (c : Transcripts) (threadId : String) : c.Draws (c.ensure threadId) := by
  unfold ensure
  split_ifs
  · exact .of_eq rfl
  · exact draws_putFresh c _ _
  · exact draws_putFresh c _ _

theorem draws_syncIf (c : Transcripts) (threadId : String) : c.Draws (c.syncIf threadId) := by
  unfold syncIf
  split_ifs <;> exact .of_eq rfl

theorem draws_touch (c : Transcripts) (threadId : String) :
    c.Draws ((c.ensure threadId).syncIf threadId) :=
  (draws_ensure c threadId).trans (draws_syncIf _ threadId)

theorem draws_write (c : Transcripts) (threadId : String) (content : Content) :
    c.Draws (c.write threadId content) :=
  ((draws_ensure c threadId).trans (draws_putFresh _ threadId content)).trans
    (draws_syncIf _ threadId)

theorem draws_bump (c : Transcripts) (threadId : String) : c.Draws (c.bump threadId) := by
  have hfresh : ∀ content, c.Draws (((c.ensure threadId).putFresh threadId content).stampMirror
      threadId) := by
    intro content
    refine ((draws_ensure c threadId).trans (draws_putFresh _ threadId content)).trans ?_
    unfold stampMirror
    split_ifs <;> exact .of_eq rfl
  exact hfresh _

theorem draws_promote (c : Transcripts) (pendingId realId : String) :
    c.Draws (c.promote pendingId realId) := by
  unfold promote
  split_ifs
  · exact .of_eq rfl
  · refine Draws.trans ?_ (draws_touch _ realId)
    unfold promoteRuntime
    split <;> exact .of_eq rfl

end Transcripts

namespace RelayState
open Transcripts

theorem draws_writeLegacy {s : RelayState} (now : Nat) (itemId : String)
    (onto : Nat → TranscriptRecord → TranscriptRecord) (fresh : Nat → TranscriptRecord)
    (ha : s.activeThreadId = none) :
    s.transcripts.Draws (s.writeLegacyItem now itemId onto fresh).1.transcripts := by
  obtain ⟨content, h⟩ := transcripts_writeLegacy now itemId onto fresh ha
  rw [h]
  exact draws_mint _

theorem draws_setItemStatus (s : RelayState) (now : Nat) (threadId itemId status : String) :
    s.transcripts.Draws
      (s.setTranscriptItemStatusForThread now threadId itemId status).1.transcripts := by
  unfold setTranscriptItemStatusForThread
  dsimp only
  split_ifs
  · obtain ⟨content, h⟩ := transcripts_ensured_write (s := s) now threadId
      (fun rt => { rt with
        transcript := setItemStatus itemId status
          ((s.ensureRuntimeForThread now threadId).transcriptOf threadId) })
    exact h ▸ draws_write _ threadId content
  · exact transcripts_ensure s now threadId ▸ draws_ensure _ threadId

theorem draws_setApplyState (s : RelayState) (now : Nat) (threadId itemId : String)
    (state : FileChangeApplyState) :
    s.transcripts.Draws
      (s.setFileChangeApplyStateForThread now threadId itemId state).1.transcripts := by
  unfold setFileChangeApplyStateForThread
  dsimp only
  split_ifs
  · obtain ⟨content, h⟩ := transcripts_ensured_write (s := s) now threadId
      (fun rt => { rt with applyStates := rt.applyStates.insert itemId state })
    exact h ▸ draws_write _ threadId content
  · exact transcripts_ensure s now threadId ▸ draws_ensure _ threadId

theorem draws_load (s : RelayState) (now : Nat) (data : ThreadSyncData)
    (settings : ThreadSessionSettings) (deviceId : String) :
    s.transcripts.Draws (s.loadThreadData now data settings deviceId).transcripts := by
  unfold loadThreadData
  simp only [transcripts_upsertThread, transcripts_sync, transcripts_rememberThreadSettings]
  generalize ThreadRuntime.fromSyncData data _ now _ = fresh
  generalize hs : RelayState.nextTranscriptRevision _ = u
  obtain ⟨entry, -, hmerge⟩ := transcripts_mergeLoaded u.1 data.thread.id fresh
  rw [hmerge]
  have hu : u.1.transcripts.clocked = s.transcripts.materialize.mint.clocked := by
    rw [← hs, transcripts_mint, ← transcripts_materialize s now]
    rfl
  exact ((draws_materialize _).trans (draws_mint _)).trans (.of_eq hu)

theorem draws_hydrate (s : RelayState) (now : Nat) (data : ThreadSyncData)
    (settings : ThreadSessionSettings) (remember : Bool) :
    s.transcripts.Draws
      (s.hydrateBackgroundRuntimeInner now data settings remember).transcripts := by
  unfold hydrateBackgroundRuntimeInner
  dsimp only
  split_ifs
  · exact .of_eq rfl
  · rw [transcripts_upsertThread]
    exact draws_mint _
  · rw [transcripts_upsertThread]
    exact draws_mint _

/-- Every operation but a restore draws revisions and does nothing else to the clock. -/
theorem draws_step (s : RelayState) (now : Nat) {op : RelayOp}
    (hop : ∀ data persisted, op ≠ .restoreThreadData data persisted) :
    s.transcripts.Draws (s.step (now, op)).transcripts := by
  cases op with
  | bumpTranscriptRevision =>
    show s.transcripts.Draws (s.bumpTranscriptRevision now).1.transcripts
    unfold bumpTranscriptRevision
    cases s.activeThreadId with
    | none => exact draws_mint _
    | some t => exact transcripts_bump s now t ▸ draws_bump _ t
  | bumpThreadTranscriptRevision t => exact transcripts_bump s now t ▸ draws_bump _ t
  | upsertTranscriptItem itemId w =>
    show s.transcripts.Draws (s.upsertTranscriptItem now itemId w).1.transcripts
    unfold upsertTranscriptItem
    cases ha : s.activeThreadId with
    | none => exact draws_writeLegacy now itemId _ _ ha
    | some t =>
      obtain ⟨content, h⟩ := transcripts_upsertItem s now t itemId w
      exact h ▸ draws_write _ t content
  | upsertTranscriptItemForThread t itemId w =>
    obtain ⟨content, h⟩ := transcripts_upsertItem s now t itemId w
    exact h ▸ draws_write _ t content
  | appendAgentDelta itemId delta turnId =>
    show s.transcripts.Draws (s.appendAgentDelta now itemId delta turnId).1.transcripts
    unfold appendAgentDelta
    cases ha : s.activeThreadId with
    | none =>
      exact draws_writeLegacy now itemId
        (fun _ entry => { agentDeltaOnto delta turnId entry with turnId := entry.turnId })
        (fun revision => { freshAgentDelta itemId delta turnId with seq := some revision }) ha
    | some t =>
      obtain ⟨content, h⟩ := transcripts_appendAgentDelta s now t itemId delta turnId
      exact h ▸ draws_write _ t content
  | appendAgentDeltaForThread t itemId delta turnId =>
    obtain ⟨content, h⟩ := transcripts_appendAgentDelta s now t itemId delta turnId
    exact h ▸ draws_write _ t content
  | appendCommandDelta itemId delta =>
    show s.transcripts.Draws (s.appendCommandDelta now itemId delta).1.transcripts
    unfold appendCommandDelta
    cases ha : s.activeThreadId with
    | none => exact draws_writeLegacy now itemId _ _ ha
    | some t =>
      obtain ⟨content, h⟩ := transcripts_appendCommandDelta s now t itemId delta
      exact h ▸ draws_write _ t content
  | appendCommandDeltaForThread t itemId delta =>
    obtain ⟨content, h⟩ := transcripts_appendCommandDelta s now t itemId delta
    exact h ▸ draws_write _ t content
  | setTranscriptItemStatus itemId status =>
    show s.transcripts.Draws (s.setTranscriptItemStatus now itemId status).1.transcripts
    unfold setTranscriptItemStatus
    cases ha : s.activeThreadId with
    | none =>
      simp only [setTranscriptItemStatusLegacy, bumpTranscriptRevision, ha]
      split_ifs
      · exact draws_mint _
      · exact .of_eq rfl
    | some t => exact draws_setItemStatus s now t itemId status
  | setTranscriptItemStatusForThread t itemId status =>
    exact draws_setItemStatus s now t itemId status
  | setFileChangeApplyStateForThread t itemId state =>
    exact draws_setApplyState s now t itemId state
  | ensureRuntimeForThread t => exact transcripts_ensure s now t ▸ draws_ensure _ t
  | syncSelectedRuntimeToFields => exact transcripts_sync s ▸ .of_eq rfl
  | materializeSelectedRuntimeFromFields =>
    exact transcripts_materialize s now ▸ draws_materialize _
  | setThreadStatus t status flags =>
    exact transcripts_setThreadStatus s now t status flags ▸ draws_touch _ t
  | upsertThread thread => exact transcripts_upsertThread s thread ▸ .of_eq rfl
  | rememberThreadSettings t settings =>
    exact transcripts_rememberThreadSettings s t settings ▸ .of_eq rfl
  | loadThreadData data settings deviceId => exact draws_load s now data settings deviceId
  | hydrateBackgroundRuntime data settings remember =>
    exact draws_hydrate s now data settings remember
  | restoreThreadData data persisted => exact absurd rfl (hop data persisted)
  | promoteBackgroundThread p r => exact transcripts_promote s now p r ▸ draws_promote _ p r
  | clearActiveSession => exact transcripts_clear s ▸ .of_eq rfl

theorem clocked_restore (s : RelayState) (now : Nat) (data : ThreadSyncData)
    (persisted : PersistedRelayState) :
    let raised : Clocked := (max s.transcriptClock persisted.transcriptClock, s.issued)
    (s.restoreThreadData now data persisted).transcripts.clocked =
      (max raised.mint.1 persisted.transcriptClock, raised.mint.2) := by
  unfold restoreThreadData
  simp only [transcripts_upsertThread, transcripts_sync]
  rfl

end RelayState

end AgentRelay.Relay

import AgentRelay.PendingRequests

/-! The two copies of a pending request. The relay's map says which thread a request
belongs to, the runtime of that thread holds it. Most operations move neither: with the
copies in agreement they leave both sides as they are. -/
namespace AgentRelay.Relay
open Std

namespace RelayState

def requestThread (s : RelayState) (k : RequestKind) (requestId : String) : Option String :=
  (s.requests k)[requestId]?.map (·.threadId)

def held (s : RelayState) (threadId : String) (k : RequestKind) : Table PendingRequest :=
  (s.runtimes[threadId]?.map (·.requests k)).getD ∅

def RequestsAgree (s : RelayState) : Prop :=
  ∀ k threadId requestId, threadId ≠ "" →
    (s.requestThread k requestId = some threadId ↔ (s.held threadId k).contains requestId)

structure SameRequests (s t : RelayState) : Prop where
  requests : ∀ k, t.requests k = s.requests k
  held : ∀ k threadId, threadId ≠ "" → t.held threadId k = s.held threadId k

/-- A step that moves no request, as long as the copies agree. -/
def Quiet (s t : RelayState) : Prop := s.RequestsAgree → s.SameRequests t

theorem SameRequests.agree {s t : RelayState} (h : s.SameRequests t) (ha : s.RequestsAgree) :
    t.RequestsAgree := by
  intro k threadId requestId hne
  rw [requestThread, h.requests k, h.held k threadId hne]
  exact ha k threadId requestId hne

theorem Quiet.trans {s t u : RelayState} (hst : s.Quiet t) (htu : t.Quiet u) : s.Quiet u := by
  intro ha
  have hfirst := hst ha
  have hsecond := htu (hfirst.agree ha)
  constructor
  · intro k
    rw [hsecond.requests k, hfirst.requests k]
  · intro k threadId hne
    rw [hsecond.held k threadId hne, hfirst.held k threadId hne]

theorem Quiet.agree {s t : RelayState} (h : s.Quiet t) (ha : s.RequestsAgree) : t.RequestsAgree :=
  (h ha).agree ha

theorem RequestsAgree.not_filed {s : RelayState} (ha : s.RequestsAgree) {threadId : String}
    (hne : threadId ≠ "") (k : RequestKind) (hheld : s.held threadId k = ∅) (requestId : String) :
    s.requestThread k requestId ≠ some threadId := by
  intro hfiled
  have := (ha k threadId requestId hne).mp hfiled
  rw [hheld] at this
  simp at this

theorem held_of_not_contains {s : RelayState} {threadId : String}
    (h : ¬s.runtimes.contains threadId) (k : RequestKind) : s.held threadId k = ∅ := by
  rw [ExtTreeMap.contains_eq_isSome_getElem?, Option.not_isSome_iff_eq_none] at h
  simp [held, h]

section quiet
variable {s t : RelayState}

theorem quiet_of_eq (hr : t.requests = s.requests) (hrt : t.runtimes = s.runtimes) : s.Quiet t := by
  intro _
  constructor
  · intro k
    rw [hr]
  · intro k threadId _
    rw [held, held, hrt]

theorem quiet_of_insert {threadId : String} {rt : ThreadRuntime} (hr : t.requests = s.requests)
    (hrt : t.runtimes = s.runtimes.insert threadId rt)
    (hheld : s.RequestsAgree → threadId ≠ "" → ∀ k, rt.requests k = s.held threadId k) :
    s.Quiet t := by
  intro ha
  constructor
  · intro k
    rw [hr]
  · intro k other hne
    by_cases he : other = threadId
    · subst he
      rw [← hheld ha hne k, held, hrt]
      simp
    · rw [held, held, hrt, Table.getElem?_insert_of, if_neg he]

theorem quiet_of_modify {threadId : String} {f : ThreadRuntime → ThreadRuntime}
    (hr : t.requests = s.requests) (hrt : t.runtimes = s.runtimes.modify threadId f)
    (hf : ∀ rt, (f rt).requests = rt.requests) : s.Quiet t := by
  intro _
  constructor
  · intro k
    rw [hr]
  · intro k other _
    rw [held, held, hrt, Table.getElem?_modify_of]
    split_ifs with he
    · cases s.runtimes[other]? with
      | none => rfl
      | some rt => simp [hf]
    · rfl

end quiet

theorem quiet_refl (s : RelayState) : s.Quiet s := quiet_of_eq rfl rfl

theorem requests_eq {s t : RelayState} (ha : t.pendingApprovals = s.pendingApprovals)
    (hq : t.pendingAskUserQuestions = s.pendingAskUserQuestions) : t.requests = s.requests := by
  funext k
  cases k
  · exact ha
  · exact hq

theorem filter_requests_of_absent {s : RelayState} (ha : s.RequestsAgree) {threadId : String}
    (hne : threadId ≠ "") (hc : ¬s.runtimes.contains threadId) (k : RequestKind) :
    (s.requests k).filter (fun _ p => p.threadId = threadId) = ∅ := by
  rw [ExtTreeMap.eq_empty_iff_forall_not_mem]
  intro requestId hmem
  rw [ExtTreeMap.mem_iff_isSome_getElem?, Table.getElem?_filter, Option.isSome_iff_exists] at hmem
  obtain ⟨p, hp⟩ := hmem
  obtain ⟨hget, hthread⟩ := Option.filter_eq_some_iff.mp hp
  apply ha.not_filed hne k (held_of_not_contains hc k) requestId
  rw [requestThread, hget]
  simpa using hthread

theorem quiet_materialize (s : RelayState) (now : Nat) :
    s.Quiet (s.materializeSelectedRuntimeFromFields now) := by
  unfold materializeSelectedRuntimeFromFields
  cases hactive : s.activeThreadId with
  | none => exact quiet_refl s
  | some threadId =>
    dsimp only
    by_cases hc : s.runtimes.contains threadId
    · rw [if_pos hc]
      exact quiet_refl s
    · rw [if_neg hc]
      refine quiet_of_insert (requests_eq rfl rfl) rfl ?_
      intro ha hne k
      rw [held_of_not_contains hc k, ← filter_requests_of_absent ha hne hc k]
      cases k <;> rfl

theorem quiet_ensure (s : RelayState) (now : Nat) (threadId : String) :
    s.Quiet (s.ensureRuntimeForThread now threadId) := by
  unfold ensureRuntimeForThread
  dsimp only
  set u := if s.activeThreadId = some threadId ∧ ¬s.runtimes.contains threadId then
      s.materializeSelectedRuntimeFromFields now else s with hu
  have hsu : s.Quiet u := by
    rw [hu]
    split_ifs
    · exact quiet_materialize s now
    · exact quiet_refl s
  split_ifs with hc
  · exact hsu
  · refine hsu.trans (quiet_of_insert (requests_eq rfl rfl) rfl ?_)
    intro _ _ k
    rw [held_of_not_contains hc k]
    cases k <;> rfl

theorem quiet_mint (s : RelayState) : s.Quiet s.nextTranscriptRevision.1 :=
  quiet_of_eq (requests_eq rfl rfl) rfl

theorem quiet_modifyRuntime (s : RelayState) (threadId : String)
    (f : ThreadRuntime → ThreadRuntime) (hf : ∀ rt, (f rt).requests = rt.requests) :
    s.Quiet (s.modifyRuntime threadId f) :=
  quiet_of_modify (requests_eq rfl rfl) rfl hf

theorem quiet_sync (s : RelayState) : s.Quiet s.syncSelectedRuntimeToFields := by
  unfold syncSelectedRuntimeToFields
  cases s.selectedRuntime with
  | none => exact quiet_of_eq (requests_eq rfl rfl) rfl
  | some runtime => exact quiet_of_eq (requests_eq rfl rfl) rfl

theorem quiet_syncIf (s : RelayState) (threadId : String) : s.Quiet (s.syncIfSelected threadId) := by
  unfold syncIfSelected
  split_ifs
  · exact quiet_sync s
  · exact quiet_refl s

theorem quiet_bumpThread (s : RelayState) (now : Nat) (threadId : String) :
    s.Quiet (s.bumpThreadTranscriptRevision now threadId).1 := by
  unfold bumpThreadTranscriptRevision
  dsimp only
  set u := s.touchThreadLastActivity now threadId with hu
  have hsu : s.Quiet u := quiet_of_eq (requests_eq rfl rfl) rfl
  set v := if u.runtimes.contains threadId then u else u.ensureRuntimeForThread now threadId with hv
  have huv : u.Quiet v := by
    rw [hv]
    split_ifs
    · exact quiet_refl u
    · exact quiet_ensure u now threadId
  refine hsu.trans (huv.trans ((quiet_mint v).trans ?_))
  exact quiet_of_modify (requests_eq rfl rfl) rfl fun _ => rfl

theorem quiet_bump (s : RelayState) (now : Nat) : s.Quiet (s.bumpTranscriptRevision now).1 := by
  unfold bumpTranscriptRevision
  cases s.activeThreadId with
  | none => exact quiet_of_eq (requests_eq rfl rfl) rfl
  | some threadId => exact quiet_bumpThread s now threadId

theorem quiet_writeLegacy (s : RelayState) (now : Nat) (itemId : String)
    (onto : Nat → TranscriptRecord → TranscriptRecord) (fresh : Nat → TranscriptRecord) :
    s.Quiet (s.writeLegacyItem now itemId onto fresh).1 :=
  (quiet_bump s now).trans (quiet_of_eq (requests_eq rfl rfl) rfl)

theorem quiet_writeThread (s : RelayState) (now : Nat) (threadId : String)
    (records : List TranscriptRecord) :
    s.Quiet (((s.ensureRuntimeForThread now threadId).setTranscriptOf threadId
      records).bumpThreadTranscriptRevision now threadId).1 :=
  (quiet_ensure s now threadId).trans
    ((quiet_modifyRuntime _ threadId _ (by intro _; rfl)).trans (quiet_bumpThread _ now threadId))

theorem quiet_stamp (s : RelayState) (threadId itemId : String) (revision : Nat) :
    s.Quiet (s.stampTranscriptItemSeq threadId itemId revision) :=
  quiet_modifyRuntime s threadId _ fun _ => rfl

theorem quiet_upsertItemForThread (s : RelayState) (now : Nat) (threadId itemId : String)
    (w : ItemWrite) : s.Quiet (s.upsertTranscriptItemForThread now threadId itemId w).1 := by
  unfold upsertTranscriptItemForThread
  dsimp only
  refine Quiet.trans ?_ (quiet_syncIf _ threadId)
  exact (quiet_writeThread s now threadId _).trans (quiet_stamp _ threadId itemId _)

theorem quiet_upsertItem (s : RelayState) (now : Nat) (itemId : String) (w : ItemWrite) :
    s.Quiet (s.upsertTranscriptItem now itemId w).1 := by
  unfold upsertTranscriptItem
  cases s.activeThreadId with
  | none => exact quiet_writeLegacy s now itemId _ _
  | some threadId => exact quiet_upsertItemForThread s now threadId itemId w

theorem quiet_appendAgentDeltaForThread (s : RelayState) (now : Nat)
    (threadId itemId delta turnId : String) :
    s.Quiet (s.appendAgentDeltaForThread now threadId itemId delta turnId).1 :=
  (quiet_writeThread s now threadId _).trans (quiet_syncIf _ threadId)

theorem quiet_appendAgentDelta (s : RelayState) (now : Nat) (itemId delta turnId : String) :
    s.Quiet (s.appendAgentDelta now itemId delta turnId).1 := by
  unfold appendAgentDelta
  cases s.activeThreadId with
  | none =>
    exact quiet_writeLegacy s now itemId
      (fun _ entry => { agentDeltaOnto delta turnId entry with turnId := entry.turnId })
      (fun revision => { freshAgentDelta itemId delta turnId with seq := some revision })
  | some threadId => exact quiet_appendAgentDeltaForThread s now threadId itemId delta turnId

theorem quiet_appendCommandDeltaForThread (s : RelayState) (now : Nat)
    (threadId itemId delta : String) :
    s.Quiet (s.appendCommandDeltaForThread now threadId itemId delta).1 :=
  (quiet_writeThread s now threadId _).trans (quiet_syncIf _ threadId)

theorem quiet_appendCommandDelta (s : RelayState) (now : Nat) (itemId delta : String) :
    s.Quiet (s.appendCommandDelta now itemId delta).1 := by
  unfold appendCommandDelta
  cases s.activeThreadId with
  | none => exact quiet_writeLegacy s now itemId _ _
  | some threadId => exact quiet_appendCommandDeltaForThread s now threadId itemId delta

theorem quiet_setItemStatusForThread (s : RelayState) (now : Nat)
    (threadId itemId status : String) :
    s.Quiet (s.setTranscriptItemStatusForThread now threadId itemId status).1 := by
  unfold setTranscriptItemStatusForThread
  dsimp only
  split_ifs
  · exact (quiet_writeThread s now threadId _).trans (quiet_syncIf _ threadId)
  · exact quiet_ensure s now threadId

theorem quiet_setItemStatus (s : RelayState) (now : Nat) (itemId status : String) :
    s.Quiet (s.setTranscriptItemStatus now itemId status).1 := by
  unfold setTranscriptItemStatus
  cases s.activeThreadId with
  | none =>
    unfold setTranscriptItemStatusLegacy
    dsimp only
    split_ifs
    · exact (quiet_bump s now).trans (quiet_of_eq (requests_eq rfl rfl) rfl)
    · exact quiet_refl s
  | some threadId => exact quiet_setItemStatusForThread s now threadId itemId status

theorem quiet_setApplyState (s : RelayState) (now : Nat) (threadId itemId : String)
    (state : FileChangeApplyState) :
    s.Quiet (s.setFileChangeApplyStateForThread now threadId itemId state).1 := by
  unfold setFileChangeApplyStateForThread
  dsimp only
  split_ifs
  · refine (quiet_ensure s now threadId).trans (Quiet.trans ?_ (quiet_syncIf _ threadId))
    refine Quiet.trans ?_ (quiet_bumpThread _ now threadId)
    exact quiet_modifyRuntime _ threadId _ fun _ => rfl
  · exact quiet_ensure s now threadId

theorem quiet_upsertThread (s : RelayState) (thread : ThreadSummaryView) :
    s.Quiet (s.upsertThread thread) := by
  unfold upsertThread
  by_cases hdeleted : s.threadMeta.locallyDeletedThreadIds.contains thread.id
  · rw [if_pos hdeleted]
    exact quiet_refl s
  · rw [if_neg hdeleted]
    exact quiet_of_modify (requests_eq rfl rfl) rfl fun _ => rfl

theorem quiet_rememberSettings (s : RelayState) (threadId : String)
    (settings : ThreadSessionSettings) : s.Quiet (s.rememberThreadSettings threadId settings) :=
  quiet_of_modify (requests_eq rfl rfl) rfl fun _ => rfl

/-- A history merge leaves the requests of the runtime it meets, and a thread that had no
runtime had no request either. -/
theorem quiet_mergeLoaded (s : RelayState) (threadId : String) (fresh : ThreadRuntime)
    (hfresh : ∀ k, fresh.requests k = ∅) : s.Quiet (s.mergeLoadedRuntime threadId fresh) := by
  unfold mergeLoadedRuntime
  cases hrt : s.runtimes[threadId]? with
  | none =>
    refine quiet_of_insert (requests_eq rfl rfl) rfl ?_
    intro _ _ k
    rw [hfresh k]
    simp [held, hrt]
  | some existing =>
    refine quiet_of_insert (requests_eq rfl rfl) rfl ?_
    intro _ _ k
    simp only [held, hrt, Option.map_some, Option.getD_some]
    split_ifs <;> cases k <;> rfl

theorem quiet_load (s : RelayState) (now : Nat) (data : ThreadSyncData)
    (settings : ThreadSessionSettings) (deviceId : String) :
    s.Quiet (s.loadThreadData now data settings deviceId) := by
  unfold loadThreadData
  refine (quiet_materialize s now).trans (Quiet.trans ?_ (quiet_upsertThread _ _))
  refine Quiet.trans (Quiet.trans ?_ (quiet_rememberSettings _ _ _)) (quiet_sync _)
  refine Quiet.trans ?_ (quiet_mergeLoaded _ _ _ fun k => by cases k <;> rfl)
  exact quiet_of_eq (requests_eq rfl rfl) rfl

theorem quiet_hydrate (s : RelayState) (now : Nat) (data : ThreadSyncData)
    (settings : ThreadSessionSettings) (remember : Bool) :
    s.Quiet (s.hydrateBackgroundRuntimeInner now data settings remember) := by
  unfold hydrateBackgroundRuntimeInner
  dsimp only
  by_cases hc : s.runtimes.contains data.thread.id
  · rw [if_pos hc]
    exact quiet_refl s
  · rw [if_neg hc]
    refine Quiet.trans ?_ (quiet_upsertThread _ _)
    set u : RelayState := { s.nextTranscriptRevision.1 with
      runtimes := s.nextTranscriptRevision.1.runtimes.insert data.thread.id
        (ThreadRuntime.fromSyncData data settings now s.nextTranscriptRevision.2) } with hu
    have hsu : s.Quiet u := by
      refine quiet_of_insert (requests_eq rfl rfl) rfl ?_
      intro _ _ k
      rw [held_of_not_contains hc k]
      cases k <;> rfl
    split_ifs
    · exact hsu.trans (quiet_rememberSettings u _ _)
    · exact hsu

end RelayState

end AgentRelay.Relay

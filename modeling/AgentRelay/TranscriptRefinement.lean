import AgentRelay.TranscriptCore

/-! The relay's operations, seen through their transcripts: each acts as one of the
moves of the abstract view, and a promotion as its promotion. -/
namespace AgentRelay.Relay
open Std

def ThreadRuntime.content (rt : ThreadRuntime) : Content := (rt.transcript, rt.applyStates)

def ThreadRuntime.entry (rt : ThreadRuntime) : Nat × Content := (rt.transcriptRevision, rt.content)

namespace RelayState

def transcripts (s : RelayState) : Transcripts :=
  { clock := s.transcriptClock
    issued := s.issued
    active := s.activeThreadId
    mirror := (s.transcriptRevision, (s.transcript, s.applyStates))
    runtime := fun threadId => s.runtimes[threadId]?.map ThreadRuntime.entry }

/-- A thread shows its runtime's entry; one without shows the mirror while it is selected. -/
theorem shown_transcripts (s : RelayState) (threadId : String) :
    s.transcripts.shown threadId =
      match s.runtimes[threadId]? with
      | some rt => some rt.entry
      | none => if s.activeThreadId = some threadId then some s.transcripts.mirror else none := by
  unfold Transcripts.shown
  cases hr : s.runtimes[threadId]? with
  | none =>
    have hnone : s.transcripts.runtime threadId = none := by simp [transcripts, hr]
    rw [hnone]
    exact if_congr Iff.rfl rfl rfl
  | some rt => simp [transcripts, hr]

theorem transcripts_mint (s : RelayState) :
    s.nextTranscriptRevision.1.transcripts = s.transcripts.mint := rfl

theorem contains_runtimes (s : RelayState) (threadId : String) :
    s.runtimes.contains threadId = (s.transcripts.runtime threadId).isSome := by
  simp [transcripts]

theorem transcripts_insert (s : RelayState) (threadId : String) (rt : ThreadRuntime) :
    ({ s with runtimes := s.runtimes.insert threadId rt } : RelayState).transcripts =
      s.transcripts.put threadId rt.entry := by
  simp only [transcripts, Transcripts.put, Transcripts.mk.injEq, true_and]
  funext t
  by_cases h : t = threadId
  · subst h
    simp
  · simp [ExtTreeMap.getElem?_insert, Ne.symm h, Function.update_of_ne h]

theorem transcripts_modify (s : RelayState) (threadId : String)
    (f : ThreadRuntime → ThreadRuntime) (hf : ∀ rt, (f rt).entry = rt.entry) :
    ({ s with runtimes := s.runtimes.modify threadId f } : RelayState).transcripts =
      s.transcripts := by
  simp only [transcripts, Transcripts.mk.injEq, true_and]
  funext t
  by_cases h : t = threadId
  · subst h
    cases hr : s.runtimes[t]? with
    | none => simp [hr]
    | some rt => simp [hr, hf]
  · simp [ExtTreeMap.getElem?_modify, Ne.symm h]

theorem transcripts_materialize (s : RelayState) (now : Nat) :
    (s.materializeSelectedRuntimeFromFields now).transcripts = s.transcripts.materialize := by
  unfold materializeSelectedRuntimeFromFields Transcripts.materialize
  cases ha : s.activeThreadId with
  | none => simp [transcripts, ha]
  | some threadId =>
    have hact : s.transcripts.active = some threadId := ha
    simp only [hact, ← contains_runtimes]
    by_cases hc : s.runtimes.contains threadId
    · simp only [hc, if_true]
    · simp only [hc, Bool.false_eq_true, if_false]
      exact transcripts_insert s.nextTranscriptRevision.1 threadId _

theorem ensureRuntimeForThread_of_contains {s : RelayState} (now : Nat) {threadId : String}
    (hc : s.runtimes.contains threadId) : s.ensureRuntimeForThread now threadId = s := by
  have hsel : (if s.activeThreadId = some threadId ∧ ¬s.runtimes.contains threadId then
      s.materializeSelectedRuntimeFromFields now else s) = s := if_neg fun h => h.2 hc
  unfold ensureRuntimeForThread
  rw [hsel]
  exact if_pos hc

theorem transcripts_ensure (s : RelayState) (now : Nat) (threadId : String) :
    (s.ensureRuntimeForThread now threadId).transcripts = s.transcripts.ensure threadId := by
  unfold Transcripts.ensure
  rw [← contains_runtimes]
  by_cases hc : s.runtimes.contains threadId
  · rw [ensureRuntimeForThread_of_contains now hc, if_pos hc]
  · rw [if_neg hc]
    unfold ensureRuntimeForThread
    by_cases ha : s.activeThreadId = some threadId
    · have hact : s.transcripts.active = some threadId := ha
      have hm := transcripts_materialize s now
      rw [Transcripts.materialize, hact] at hm
      simp only [← contains_runtimes, if_neg hc] at hm
      have hc' : (s.materializeSelectedRuntimeFromFields now).runtimes.contains threadId := by
        rw [contains_runtimes, hm]
        simp [Transcripts.putFresh, Transcripts.put]
      have hsel : (if s.activeThreadId = some threadId ∧ ¬s.runtimes.contains threadId then
          s.materializeSelectedRuntimeFromFields now else s) =
            s.materializeSelectedRuntimeFromFields now := if_pos ⟨ha, hc⟩
      rw [hsel]
      simp only [hc', hact, if_true]
      exact hm
    · have hact : ¬s.transcripts.active = some threadId := ha
      have hsel : (if s.activeThreadId = some threadId ∧ ¬s.runtimes.contains threadId then
          s.materializeSelectedRuntimeFromFields now else s) = s := if_neg fun h => ha h.1
      rw [hsel]
      simp only [if_neg hc, if_neg hact]
      exact transcripts_insert s.nextTranscriptRevision.1 threadId _

theorem transcripts_sync (s : RelayState) :
    s.syncSelectedRuntimeToFields.transcripts = s.transcripts.sync := by
  unfold syncSelectedRuntimeToFields selectedRuntime Transcripts.sync
  cases ha : s.activeThreadId with
  | none => simp [transcripts, ha, emptyContent]
  | some threadId =>
    cases hr : s.runtimes[threadId]? with
    | none => simp [transcripts, ha, hr, emptyContent]
    | some rt => simp [transcripts, ha, hr, ThreadRuntime.entry, ThreadRuntime.content]

theorem transcripts_syncIf (s : RelayState) (threadId : String) :
    (s.syncIfSelected threadId).transcripts = s.transcripts.syncIf threadId := by
  unfold syncIfSelected Transcripts.syncIf
  by_cases ha : s.activeThreadId = some threadId
  · have hact : s.transcripts.active = some threadId := ha
    simp only [ha, hact, if_true, transcripts_sync]
  · have hact : s.transcripts.active ≠ some threadId := ha
    simp only [ha, hact, if_false]

theorem transcripts_modify_put (s : RelayState) {threadId : String} {rt : ThreadRuntime}
    (f : ThreadRuntime → ThreadRuntime) (h : s.runtimes[threadId]? = some rt) :
    (s.modifyRuntime threadId f).transcripts = s.transcripts.put threadId (f rt).entry := by
  simp only [modifyRuntime, transcripts, Transcripts.put, Transcripts.mk.injEq, true_and]
  funext t
  by_cases ht : t = threadId
  · subst ht
    simp [h]
  · simp [ExtTreeMap.getElem?_modify, Ne.symm ht, Function.update_of_ne ht]

theorem ensure_isSome (s : RelayState) (now : Nat) (threadId : String) :
    ∃ rt, (s.ensureRuntimeForThread now threadId).runtimes[threadId]? = some rt := by
  have h : (s.ensureRuntimeForThread now threadId).runtimes.contains threadId := by
    rw [contains_runtimes, transcripts_ensure]
    unfold Transcripts.ensure
    split_ifs with hc ha
    · exact hc
    · simp [Transcripts.putFresh, Transcripts.put]
    · simp [Transcripts.putFresh, Transcripts.put]
  rw [ExtTreeMap.contains_eq_isSome_getElem?] at h
  exact Option.isSome_iff_exists.mp h

theorem transcripts_bump (s : RelayState) (now : Nat) (threadId : String) :
    (s.bumpThreadTranscriptRevision now threadId).1.transcripts = s.transcripts.bump threadId := by
  have hens : (if (s.touchThreadLastActivity now threadId).runtimes.contains threadId then
      s.touchThreadLastActivity now threadId
      else (s.touchThreadLastActivity now threadId).ensureRuntimeForThread now threadId) =
        (s.touchThreadLastActivity now threadId).ensureRuntimeForThread now threadId := by
    split_ifs with hc
    · exact (ensureRuntimeForThread_of_contains now hc).symm
    · rfl
  have hcore := transcripts_ensure (s.touchThreadLastActivity now threadId) now threadId
  obtain ⟨rt, hrt⟩ := ensure_isSome (s.touchThreadLastActivity now threadId) now threadId
  unfold bumpThreadTranscriptRevision
  simp only [hens]
  generalize (s.touchThreadLastActivity now threadId).ensureRuntimeForThread now threadId = u
    at hcore hrt
  -- From here on the thread has its runtime, and only the drawn revision moves it.
  have hcontent : (u.transcripts.runtime threadId).map (·.2) = some rt.content := by
    simp [transcripts, hrt, ThreadRuntime.entry]
  have hput := transcripts_modify_put u.nextTranscriptRevision.1
    (fun rt => { rt with transcriptRevision := u.nextTranscriptRevision.2 }) hrt
  have hc : s.transcripts.ensure threadId = u.transcripts := hcore.symm
  simp only [Transcripts.bump, hc, hcontent, Option.getD_some, Transcripts.stampMirror]
  have hact : (u.transcripts.putFresh threadId rt.content).active = u.activeThreadId := rfl
  rw [hact]
  by_cases ha : u.activeThreadId = some threadId
  · rw [if_pos ha]
    refine Eq.trans ?_ (congrArg (fun c : Transcripts =>
      { c with mirror := (c.clock, c.mirror.2) }) hput)
    simp only [transcripts, modifyRuntime, nextTranscriptRevision, ha, if_true]
  · rw [if_neg ha]
    refine Eq.trans ?_ hput
    simp only [transcripts, modifyRuntime, nextTranscriptRevision, ha, if_false]

theorem transcripts_bump_of_some {s : RelayState} (now : Nat) {threadId : String}
    {rt : ThreadRuntime} (h : s.runtimes[threadId]? = some rt) :
    (s.bumpThreadTranscriptRevision now threadId).1.transcripts =
      (s.transcripts.putFresh threadId rt.content).stampMirror threadId := by
  have hentry : s.transcripts.runtime threadId = some rt.entry := by
    simp [transcripts, h]
  have hens : s.transcripts.ensure threadId = s.transcripts := if_pos (by simp [hentry])
  rw [transcripts_bump, Transcripts.bump, hens, hentry]
  rfl

theorem runtime_eq_some {s : RelayState} {threadId : String} {entry : Nat × Content}
    (h : s.transcripts.runtime threadId = some entry) :
    ∃ rt, s.runtimes[threadId]? = some rt ∧ rt.entry = entry :=
  Option.map_eq_some_iff.mp h

theorem transcripts_write {s : RelayState} (now : Nat) {threadId : String}
    {rt : ThreadRuntime} (h : s.runtimes[threadId]? = some rt)
    (f : ThreadRuntime → ThreadRuntime) :
    (((s.modifyRuntime threadId f).bumpThreadTranscriptRevision now threadId).1
        |>.syncIfSelected threadId).transcripts =
      (s.transcripts.putFresh threadId (f rt).content).syncIf threadId := by
  have hf : (s.modifyRuntime threadId f).runtimes[threadId]? = some (f rt) := by
    simp [modifyRuntime, h]
  rw [transcripts_syncIf, transcripts_bump_of_some now hf, transcripts_modify_put s f h,
    Transcripts.putFresh_put, Transcripts.syncIf_stampMirror]

theorem transcripts_write_stamped {s : RelayState} (now : Nat) {threadId : String}
    {rt : ThreadRuntime} (h : s.runtimes[threadId]? = some rt)
    (f g : ThreadRuntime → ThreadRuntime)
    (hg : ∀ rt, (g rt).transcriptRevision = rt.transcriptRevision) :
    ∃ content, ((((s.modifyRuntime threadId f).bumpThreadTranscriptRevision now threadId).1
        |>.modifyRuntime threadId g).syncIfSelected threadId).transcripts =
      (s.transcripts.putFresh threadId content).syncIf threadId := by
  have hf : (s.modifyRuntime threadId f).runtimes[threadId]? = some (f rt) := by
    simp [modifyRuntime, h]
  have hbump := transcripts_bump_of_some now hf
  rw [transcripts_modify_put s f h, Transcripts.putFresh_put] at hbump
  generalize ((s.modifyRuntime threadId f).bumpThreadTranscriptRevision now threadId).1 = u
    at hbump ⊢
  have hentry : u.transcripts.runtime threadId =
      some (s.transcripts.mint.clock, (f rt).content) := by
    rw [hbump, Transcripts.stampMirror_runtime]
    exact Function.update_self ..
  obtain ⟨rt', hrt', hrev⟩ := runtime_eq_some hentry
  have hg' : (g rt').entry = (s.transcripts.mint.clock, (g rt').content) := by
    have hrev' : rt'.transcriptRevision = s.transcripts.mint.clock := congrArg Prod.fst hrev
    simp only [ThreadRuntime.entry, hg, hrev']
  refine ⟨(g rt').content, ?_⟩
  rw [transcripts_syncIf, transcripts_modify_put u g hrt', hbump, hg',
    Transcripts.stampMirror_put, Transcripts.syncIf_stampMirror, Transcripts.put_putFresh]

theorem transcripts_ensured_write {s : RelayState} (now : Nat) (threadId : String)
    (f : ThreadRuntime → ThreadRuntime) :
    ∃ content, ((((s.ensureRuntimeForThread now threadId).modifyRuntime threadId f)
        |>.bumpThreadTranscriptRevision now threadId).1.syncIfSelected threadId).transcripts =
      s.transcripts.write threadId content := by
  obtain ⟨rt, hrt⟩ := ensure_isSome s now threadId
  refine ⟨(f rt).content, ?_⟩
  rw [transcripts_write now hrt, transcripts_ensure]
  rfl

theorem transcripts_upsertItem (s : RelayState) (now : Nat) (threadId itemId : String)
    (w : ItemWrite) :
    ∃ content, (s.upsertTranscriptItemForThread now threadId itemId w).1.transcripts =
      s.transcripts.write threadId content := by
  obtain ⟨rt, hrt⟩ := ensure_isSome s now threadId
  obtain ⟨content, h⟩ := transcripts_write_stamped now hrt
    (fun rt => { rt with transcript := (writeItem
      ((s.ensureRuntimeForThread now threadId).transcriptOf threadId) itemId w.onto
      (w.fresh itemId none)).1 })
    (fun rt => { rt with
      transcript := modifyFirst (·.itemId = itemId)
        ({ · with seq := some (((s.ensureRuntimeForThread now threadId).setTranscriptOf threadId
          (writeItem ((s.ensureRuntimeForThread now threadId).transcriptOf threadId) itemId w.onto
            (w.fresh itemId none)).1).bumpThreadTranscriptRevision now threadId).2.2 })
        rt.transcript })
    (fun _ => rfl)
  refine ⟨content, ?_⟩
  rw [transcripts_ensure] at h
  exact h

theorem transcripts_appendAgentDelta (s : RelayState) (now : Nat)
    (threadId itemId delta turnId : String) :
    ∃ content, (s.appendAgentDeltaForThread now threadId itemId delta turnId).1.transcripts =
      s.transcripts.write threadId content :=
  transcripts_ensured_write now threadId _

theorem transcripts_appendCommandDelta (s : RelayState) (now : Nat)
    (threadId itemId delta : String) :
    ∃ content, (s.appendCommandDeltaForThread now threadId itemId delta).1.transcripts =
      s.transcripts.write threadId content :=
  transcripts_ensured_write now threadId _

theorem transcripts_setItemStatus (s : RelayState) (now : Nat)
    (threadId itemId status : String) :
    s.transcripts.Moves
      (s.setTranscriptItemStatusForThread now threadId itemId status).1.transcripts := by
  unfold setTranscriptItemStatusForThread
  dsimp only
  split_ifs with hitem
  · obtain ⟨content, h⟩ := transcripts_ensured_write (s := s) now threadId
      (fun rt => { rt with
        transcript := setItemStatus itemId status
          ((s.ensureRuntimeForThread now threadId).transcriptOf threadId) })
    exact h ▸ .write threadId content
  · exact transcripts_ensure s now threadId ▸ .ensure threadId

theorem transcripts_setApplyState (s : RelayState) (now : Nat) (threadId itemId : String)
    (state : FileChangeApplyState) :
    s.transcripts.Moves
      (s.setFileChangeApplyStateForThread now threadId itemId state).1.transcripts := by
  unfold setFileChangeApplyStateForThread
  dsimp only
  split_ifs with hitem
  · obtain ⟨content, h⟩ := transcripts_ensured_write (s := s) now threadId
      (fun rt => { rt with applyStates := rt.applyStates.insert itemId state })
    exact h ▸ .write threadId content
  · exact transcripts_ensure s now threadId ▸ .ensure threadId

theorem transcripts_writeLegacy {s : RelayState} (now : Nat) (itemId : String)
    (onto : Nat → TranscriptRecord → TranscriptRecord) (fresh : Nat → TranscriptRecord)
    (ha : s.activeThreadId = none) :
    ∃ content, (s.writeLegacyItem now itemId onto fresh).1.transcripts =
      s.transcripts.writeMirror content := by
  unfold writeLegacyItem bumpTranscriptRevision
  simp only [ha]
  exact ⟨(_, _), rfl⟩

theorem moves_writeLegacy {s : RelayState} (now : Nat) (itemId : String)
    (onto : Nat → TranscriptRecord → TranscriptRecord) (fresh : Nat → TranscriptRecord)
    (ha : s.activeThreadId = none) :
    s.transcripts.Moves (s.writeLegacyItem now itemId onto fresh).1.transcripts := by
  obtain ⟨content, h⟩ := transcripts_writeLegacy now itemId onto fresh ha
  exact h ▸ .writeMirror content ha

theorem moves_upsertItem (s : RelayState) (now : Nat) (itemId : String) (w : ItemWrite) :
    s.transcripts.Moves (s.upsertTranscriptItem now itemId w).1.transcripts := by
  unfold upsertTranscriptItem
  cases ha : s.activeThreadId with
  | none => exact moves_writeLegacy now itemId _ _ ha
  | some threadId =>
    obtain ⟨content, h⟩ := transcripts_upsertItem s now threadId itemId w
    exact h ▸ .write threadId content

theorem moves_appendAgentDelta (s : RelayState) (now : Nat) (itemId delta turnId : String) :
    s.transcripts.Moves (s.appendAgentDelta now itemId delta turnId).1.transcripts := by
  unfold appendAgentDelta
  cases ha : s.activeThreadId with
  | none =>
    exact moves_writeLegacy now itemId
      (fun _ entry => { agentDeltaOnto delta turnId entry with turnId := entry.turnId })
      (fun revision => { freshAgentDelta itemId delta turnId with seq := some revision }) ha
  | some threadId =>
    obtain ⟨content, h⟩ := transcripts_appendAgentDelta s now threadId itemId delta turnId
    exact h ▸ .write threadId content

theorem moves_appendCommandDelta (s : RelayState) (now : Nat) (itemId delta : String) :
    s.transcripts.Moves (s.appendCommandDelta now itemId delta).1.transcripts := by
  unfold appendCommandDelta
  cases ha : s.activeThreadId with
  | none => exact moves_writeLegacy now itemId _ _ ha
  | some threadId =>
    obtain ⟨content, h⟩ := transcripts_appendCommandDelta s now threadId itemId delta
    exact h ▸ .write threadId content

theorem moves_setItemStatus (s : RelayState) (now : Nat) (itemId status : String) :
    s.transcripts.Moves (s.setTranscriptItemStatus now itemId status).1.transcripts := by
  unfold setTranscriptItemStatus
  cases ha : s.activeThreadId with
  | none =>
    simp only [setTranscriptItemStatusLegacy, bumpTranscriptRevision, ha]
    split_ifs with hitem
    · exact .writeMirror (_, _) ha
    · exact .stay
  | some threadId => exact transcripts_setItemStatus s now threadId itemId status

theorem moves_bump (s : RelayState) (now : Nat) :
    s.transcripts.Moves (s.bumpTranscriptRevision now).1.transcripts := by
  unfold bumpTranscriptRevision
  cases ha : s.activeThreadId with
  | none => exact .writeMirror s.transcripts.mirror.2 ha
  | some threadId => exact transcripts_bump s now threadId ▸ .bump threadId

theorem transcripts_upsertThread (s : RelayState) (thread : ThreadSummaryView) :
    (s.upsertThread thread).transcripts = s.transcripts := by
  unfold upsertThread
  split_ifs with hdeleted
  · rfl
  · exact transcripts_modify s _ _ fun _ => rfl

theorem transcripts_rememberThreadSettings (s : RelayState) (threadId : String)
    (settings : ThreadSessionSettings) :
    (s.rememberThreadSettings threadId settings).transcripts = s.transcripts :=
  transcripts_modify s threadId _ fun _ => rfl

theorem transcripts_dropPending (s : RelayState) (threadId : String) :
    (s.dropPendingRequestsForThread threadId).transcripts = s.transcripts :=
  transcripts_modify s threadId _ fun _ => rfl

theorem transcripts_setThreadStatus (s : RelayState) (now : Nat) (threadId status : String)
    (activeFlags : List String) :
    (s.setThreadStatus now threadId status activeFlags).transcripts =
      (s.transcripts.ensure threadId).syncIf threadId := by
  have hnote := transcripts_modify (s.ensureRuntimeForThread now threadId) threadId
    (ThreadRuntime.noteStatus now status activeFlags) (fun _ => rfl)
  rw [transcripts_ensure] at hnote
  unfold setThreadStatus
  rw [transcripts_syncIf]
  refine congrArg (Transcripts.syncIf · threadId) ?_
  rw [← hnote]
  generalize ({ s.ensureRuntimeForThread now threadId with
    runtimes := (s.ensureRuntimeForThread now threadId).runtimes.modify threadId
      (ThreadRuntime.noteStatus now status activeFlags) } : RelayState) = u
  split_ifs with hsettled
  · exact transcripts_dropPending u threadId
  · rfl

theorem transcripts_clear (s : RelayState) :
    s.clearActiveSession.transcripts = s.transcripts.clear := by
  unfold clearActiveSession Transcripts.clear
  simp only [transcripts, Transcripts.mk.injEq, true_and]
  refine ⟨rfl, ?_⟩
  funext t
  cases ha : s.activeThreadId with
  | none => rfl
  | some threadId =>
    by_cases ht : t = threadId
    · subst ht
      simp
    · simp [ExtTreeMap.getElem?_erase, Ne.symm ht, Function.update_of_ne ht]

theorem moves_hydrate (s : RelayState) (now : Nat) (data : ThreadSyncData)
    (settings : ThreadSessionSettings) (remember : Bool) :
    s.transcripts.Moves
      (s.hydrateBackgroundRuntimeInner now data settings remember).transcripts := by
  unfold hydrateBackgroundRuntimeInner
  dsimp only
  split_ifs with hc hr
  · exact .stay
  all_goals
    have hnone : s.transcripts.runtime data.thread.id = none := by
      rw [contains_runtimes, Option.not_isSome_iff_eq_none] at hc
      exact hc
    have hput := transcripts_insert s.nextTranscriptRevision.1 data.thread.id
      (ThreadRuntime.fromSyncData data settings now s.nextTranscriptRevision.2)
    rw [transcripts_mint] at hput
    rw [transcripts_upsertThread]
  · rw [transcripts_rememberThreadSettings, hput]
    exact .hydrate data.thread.id _ hnone
  · rw [hput]
    exact .hydrate data.thread.id _ hnone

theorem transcripts_mergeLoaded (s : RelayState) (threadId : String) (fresh : ThreadRuntime) :
    ∃ entry, (s.transcripts.runtime threadId = some entry ∨
        entry.1 = fresh.transcriptRevision) ∧
      (s.mergeLoadedRuntime threadId fresh).transcripts = s.transcripts.put threadId entry := by
  unfold mergeLoadedRuntime
  cases hr : s.runtimes[threadId]? with
  | none => exact ⟨fresh.entry, Or.inr rfl, transcripts_insert s threadId fresh⟩
  | some existing =>
    refine ⟨_, ?_, transcripts_insert s threadId _⟩
    cases hflag : (existing.mergeFreshHistory fresh).2 with
    | true => exact Or.inr rfl
    | false =>
      refine Or.inl ?_
      have hsame : (existing.mergeFreshHistory fresh).1.transcript = existing.transcript :=
        mergeTranscriptRecords_unchanged hflag
      simp only [transcripts, hr, Option.map_some, ThreadRuntime.entry, ThreadRuntime.content,
        Bool.false_eq_true, if_false, hsame]
      rfl

theorem moves_load (s : RelayState) (now : Nat) (data : ThreadSyncData)
    (settings : ThreadSessionSettings) (deviceId : String) :
    s.transcripts.Moves (s.loadThreadData now data settings deviceId).transcripts := by
  unfold loadThreadData
  simp only [transcripts_upsertThread, transcripts_sync, transcripts_rememberThreadSettings]
  generalize hfresh : ThreadRuntime.fromSyncData data _ now _ = fresh
  generalize hs : RelayState.nextTranscriptRevision _ = u at hfresh ⊢
  obtain ⟨entry, hentry, hmerge⟩ := transcripts_mergeLoaded u.1 data.thread.id fresh
  have hu : u.1.transcripts =
      { s.transcripts.materialize.mint with active := some data.thread.id } := by
    rw [← hs, transcripts_mint, ← transcripts_materialize s now]
    rfl
  have hrev : fresh.transcriptRevision = s.transcripts.materialize.mint.clock := by
    rw [← hfresh, ← transcripts_materialize s now, ← hs]
    rfl
  rw [hmerge, hu]
  rw [hu, hrev] at hentry
  exact .load data.thread.id entry hentry

theorem moves_restore (s : RelayState) (now : Nat) (data : ThreadSyncData)
    (persisted : PersistedRelayState) :
    s.transcripts.Moves (s.restoreThreadData now data persisted).transcripts := by
  unfold restoreThreadData
  simp only [transcripts_upsertThread, transcripts_sync]
  generalize hs : RelayState.nextTranscriptRevision _ = u
  have hu : u.1.transcripts = { (s.transcripts.resumeClock persisted.transcriptClock).mint with
      active := some data.thread.id } := by
    rw [← hs]
    rfl
  have hrev : u.2 = (s.transcripts.resumeClock persisted.transcriptClock).mint.clock := by
    rw [← hs]
    rfl
  rw [hrev]
  generalize hfresh : ThreadRuntime.fromSyncData data _ now _ = fresh
  have hentry : fresh.entry =
      ((s.transcripts.resumeClock persisted.transcriptClock).mint.clock, fresh.content) := by
    rw [← hfresh]
    rfl
  have hput := transcripts_insert u.1 data.thread.id fresh
  rw [hu, hentry] at hput
  have hmove := Transcripts.Moves.restore (c := s.transcripts) persisted.transcriptClock
    data.thread.id fresh.content
  -- The mirror is refreshed last, so what restore wrote into it before is lost.
  refine Eq.subst (motive := s.transcripts.Moves) (Transcripts.sync_congr ?_ ?_ ?_ ?_) hmove
  · exact congrArg (max · persisted.transcriptClock) (congrArg Transcripts.clock hu).symm
  · exact (congrArg Transcripts.issued hu).symm
  · exact (congrArg Transcripts.active hu).symm
  · exact (congrArg Transcripts.runtime hput).symm

theorem transcripts_promoteRuntime (s : RelayState) (pendingId realId : String) :
    ({ s with runtimes := promoteRuntime s.runtimes pendingId realId } : RelayState).transcripts =
      s.transcripts.promoteRuntime pendingId realId := by
  cases hp : s.runtimes[pendingId]? with
  | none =>
    have hp' : s.transcripts.runtime pendingId = none := by simp [transcripts, hp]
    simp only [promoteRuntime, Transcripts.promoteRuntime, hp, hp']
  | some pending =>
    have hp' : s.transcripts.runtime pendingId = some pending.entry := by
      simp [transcripts, hp]
    simp only [promoteRuntime, Transcripts.promoteRuntime, hp, hp']
    simp only [transcripts, Transcripts.mk.injEq, true_and]
    funext t
    by_cases ht : t = realId
    · subst ht
      cases hr : s.runtimes[t]? with
      | none => simp [Transcripts.promotedEntry, ThreadRuntime.entry, ThreadRuntime.content]
      | some existing =>
        simp only [ExtTreeMap.getElem?_insert_self, Option.map_some, Function.update_self,
          Transcripts.promotedEntry, promoteOnto]
        by_cases hlen : pending.transcript.length ≤ existing.transcript.length
        · simp [ThreadRuntime.entry, ThreadRuntime.content, hlen]
        · simp [ThreadRuntime.entry, ThreadRuntime.content, hlen]
    · have herase : ((s.runtimes.erase pendingId)[t]?).map ThreadRuntime.entry =
          Function.update (fun t => (s.runtimes[t]?).map ThreadRuntime.entry) pendingId none t := by
        by_cases htp : t = pendingId
        · subst htp
          simp
        · simp [ExtTreeMap.getElem?_erase, Ne.symm htp, Function.update_of_ne htp]
      rw [Function.update_of_ne ht, ← herase]
      cases hr : s.runtimes[realId]? with
      | none => simp [ExtTreeMap.getElem?_insert, Ne.symm ht]
      | some existing => simp [ExtTreeMap.getElem?_insert, Ne.symm ht]

theorem transcripts_promote (s : RelayState) (now : Nat) (pendingId realId : String) :
    (s.promoteBackgroundThread now pendingId realId).transcripts =
      s.transcripts.promote pendingId realId := by
  unfold promoteBackgroundThread Transcripts.promote
  split_ifs with hguard
  · rfl
  · rw [transcripts_setThreadStatus]
    exact congrArg (fun c : Transcripts => (c.ensure realId).syncIf realId)
      (transcripts_promoteRuntime s pendingId realId)

/-- Every operation but a promotion is one of the moves. -/
theorem moves_step (s : RelayState) (now : Nat) {op : RelayOp}
    (hop : ∀ pendingId realId, op ≠ .promoteBackgroundThread pendingId realId) :
    s.transcripts.Moves (s.step (now, op)).transcripts := by
  cases op with
  | bumpTranscriptRevision => exact moves_bump s now
  | bumpThreadTranscriptRevision t => exact transcripts_bump s now t ▸ .bump t
  | upsertTranscriptItem itemId w => exact moves_upsertItem s now itemId w
  | upsertTranscriptItemForThread t itemId w =>
    obtain ⟨content, h⟩ := transcripts_upsertItem s now t itemId w
    exact h ▸ .write t content
  | appendAgentDelta itemId delta turnId => exact moves_appendAgentDelta s now itemId delta turnId
  | appendAgentDeltaForThread t itemId delta turnId =>
    obtain ⟨content, h⟩ := transcripts_appendAgentDelta s now t itemId delta turnId
    exact h ▸ .write t content
  | appendCommandDelta itemId delta => exact moves_appendCommandDelta s now itemId delta
  | appendCommandDeltaForThread t itemId delta =>
    obtain ⟨content, h⟩ := transcripts_appendCommandDelta s now t itemId delta
    exact h ▸ .write t content
  | setTranscriptItemStatus itemId status => exact moves_setItemStatus s now itemId status
  | setTranscriptItemStatusForThread t itemId status =>
    exact transcripts_setItemStatus s now t itemId status
  | setFileChangeApplyStateForThread t itemId state =>
    exact transcripts_setApplyState s now t itemId state
  | ensureRuntimeForThread t => exact transcripts_ensure s now t ▸ .ensure t
  | syncSelectedRuntimeToFields => exact transcripts_sync s ▸ .sync
  | materializeSelectedRuntimeFromFields =>
    exact transcripts_materialize s now ▸ .materialize
  | setThreadStatus t status flags =>
    exact transcripts_setThreadStatus s now t status flags ▸ .touch t
  | upsertThread thread => exact transcripts_upsertThread s thread ▸ .stay
  | rememberThreadSettings t settings =>
    exact transcripts_rememberThreadSettings s t settings ▸ .stay
  | loadThreadData data settings deviceId => exact moves_load s now data settings deviceId
  | hydrateBackgroundRuntime data settings remember =>
    exact moves_hydrate s now data settings remember
  | restoreThreadData data persisted => exact moves_restore s now data persisted
  | promoteBackgroundThread p r => exact absurd rfl (hop p r)
  | clearActiveSession => exact transcripts_clear s ▸ .clear

end RelayState

end AgentRelay.Relay

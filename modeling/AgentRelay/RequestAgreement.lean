import AgentRelay.RequestCopies
import AgentRelay.StepRun

/-! Agreement of the two copies over whole runs: what adding, removing, forgetting,
promoting and wiping do to each side, and the runs in which no request is left on one
side only. -/
namespace AgentRelay.Relay
open Std StepRun

namespace RelayState

structure ForgetsThread (s t : RelayState) (threadId : String) : Prop where
  filed : ∀ k requestId,
    t.requestThread k requestId = (s.requestThread k requestId).filter (· ≠ threadId)
  held_self : ∀ k, t.held threadId k = ∅
  held_other : ∀ k other, other ≠ threadId → t.held other k = s.held other k

theorem ForgetsThread.agree {s t : RelayState} {threadId : String}
    (h : s.ForgetsThread t threadId) (ha : s.RequestsAgree) : t.RequestsAgree := by
  intro k other requestId hne
  rw [h.filed, Option.filter_eq_some_iff]
  by_cases he : other = threadId
  · subst he
    simp [h.held_self k]
  · rw [h.held_other k other he, ha k other requestId hne]
    simp [he]

theorem requestThread_filter {s t : RelayState} {threadId : String}
    (hr : ∀ k, t.requests k = (s.requests k).filter fun _ p => p.threadId ≠ threadId)
    (k : RequestKind) (requestId : String) :
    t.requestThread k requestId = (s.requestThread k requestId).filter (· ≠ threadId) := by
  rw [requestThread, requestThread, hr k, Table.getElem?_filter]
  cases (s.requests k)[requestId]? with
  | none => rfl
  | some p =>
    simp only [Option.filter_some, Option.map_some]
    split_ifs <;> rfl

theorem requests_dropPending (s : RelayState) (threadId : String) (k : RequestKind) :
    (s.dropPendingRequestsForThread threadId).requests k =
      (s.requests k).filter fun _ p => p.threadId ≠ threadId := by
  cases k <;> rfl

theorem forgets_dropPending (s : RelayState) (threadId : String) :
    s.ForgetsThread (s.dropPendingRequestsForThread threadId) threadId := by
  refine ⟨requestThread_filter (requests_dropPending s threadId), ?_, ?_⟩
  · intro k
    simp only [held, dropPendingRequestsForThread, Table.getElem?_modify_of, if_true]
    cases s.runtimes[threadId]? with
    | none => rfl
    | some rt => cases k <;> rfl
  · intro k other hother
    simp only [held, dropPendingRequestsForThread, Table.getElem?_modify_of, if_neg hother]

theorem forgets_removeThread (s : RelayState) (threadId : String) :
    s.ForgetsThread (s.removeThread threadId).1 threadId := by
  have hdrop := forgets_dropPending
    { s with
      threads := s.threads.filter (·.id ≠ threadId)
      threadMeta.threadSettings := s.threadMeta.threadSettings.erase threadId
      threadMeta.threadLastActivityAt := s.threadMeta.threadLastActivityAt.erase threadId
      threadMeta.threadCustomName := s.threadMeta.threadCustomName.erase threadId
      threadMeta.threadWorkspace := s.threadMeta.threadWorkspace.erase threadId
      runtimes := s.runtimes.erase threadId } threadId
  refine ⟨?_, hdrop.held_self, ?_⟩
  · intro k requestId
    refine (hdrop.filed k requestId).trans ?_
    cases k <;> rfl
  · intro k other hother
    refine (hdrop.held_other k other hother).trans ?_
    simp only [held, Table.getElem?_erase_of, if_neg hother]

theorem forgets_markThreadDeleted (s : RelayState) (threadId : String) :
    s.ForgetsThread (s.markThreadDeleted threadId) threadId := by
  refine ⟨fun k requestId => ((forgets_removeThread _ threadId).filed k requestId).trans ?_,
    (forgets_removeThread _ threadId).held_self, (forgets_removeThread _ threadId).held_other⟩
  cases k <;> rfl

/-- The status of a thread, noted in its runtime; no request is touched yet. -/
theorem quiet_noteStatus (s : RelayState) (now : Nat) (threadId status : String)
    (activeFlags : List String) :
    s.Quiet { s.ensureRuntimeForThread now threadId with
      runtimes := (s.ensureRuntimeForThread now threadId).runtimes.modify threadId
        (ThreadRuntime.noteStatus now status activeFlags) } :=
  (quiet_ensure s now threadId).trans
    (quiet_of_modify (requests_eq rfl rfl) rfl (by intro _; rfl))

theorem quiet_listStatus (s : RelayState) (threadId status : String) :
    s.Quiet ({ s with
      threads := modifyFirst (·.id = threadId) (fun t => { t with status := status })
        s.threads }.syncIfSelected threadId) := by
  refine Quiet.trans ?_ (quiet_syncIf _ threadId)
  exact quiet_of_eq (requests_eq rfl rfl) rfl

theorem quiet_setThreadStatus (s : RelayState) (now : Nat) (threadId status : String)
    (activeFlags : List String) (hlive : threadStatusIsSettled status = false) :
    s.Quiet (s.setThreadStatus now threadId status activeFlags) := by
  unfold setThreadStatus
  simp only [hlive, Bool.false_eq_true, if_false]
  exact (quiet_noteStatus s now threadId status activeFlags).trans
    (quiet_listStatus _ threadId status)

theorem agree_setThreadStatus {s : RelayState} (ha : s.RequestsAgree) (now : Nat)
    (threadId status : String) (activeFlags : List String) :
    (s.setThreadStatus now threadId status activeFlags).RequestsAgree := by
  cases hlive : threadStatusIsSettled status with
  | false => exact (quiet_setThreadStatus s now threadId status activeFlags hlive).agree ha
  | true =>
    unfold setThreadStatus
    simp only [hlive, if_true]
    have hnote := (quiet_noteStatus s now threadId status activeFlags).agree ha
    have hdrop := (forgets_dropPending _ threadId).agree hnote
    exact (quiet_listStatus _ threadId status).agree hdrop

def waitingElsewhere (s : RelayState) (threadId : Option String) (k : RequestKind) :
    Table PendingRequest :=
  (s.requests k).filter fun _ p => p.threadId ≠ "" ∧ some p.threadId ≠ threadId

theorem not_filed_elsewhere {s : RelayState} {threadId : Option String} {k : RequestKind}
    (h : s.waitingElsewhere threadId k = ∅) {requestId other : String} (hne : other ≠ "")
    (hother : some other ≠ threadId) : s.requestThread k requestId ≠ some other := by
  intro hfiled
  obtain ⟨p, hp, hthread⟩ := Option.map_eq_some_iff.mp hfiled
  have hgone := ExtTreeMap.eq_empty_iff_forall_not_mem.mp h requestId
  rw [ExtTreeMap.mem_iff_isSome_getElem?, waitingElsewhere, Table.getElem?_filter, hp] at hgone
  subst hthread
  simp [hne, hother] at hgone

/-- Wiping the relay's maps keeps the copies in agreement when the one thread that had
requests loses its runtime's copy too. -/
theorem agree_of_wiped {s t : RelayState} {threadId : Option String} (ha : s.RequestsAgree)
    (hwait : ∀ k, s.waitingElsewhere threadId k = ∅) (hr : ∀ k, t.requests k = ∅)
    (hself : ∀ u ∈ threadId, ∀ k, t.held u k = ∅)
    (hother : ∀ u k, some u ≠ threadId → t.held u k = s.held u k) : t.RequestsAgree := by
  intro k u requestId hne
  have hnone : t.requestThread k requestId = none := by simp [requestThread, hr k]
  rw [hnone]
  constructor
  · intro h
    cases h
  · intro hheld
    by_cases hu : some u = threadId
    · rw [hself u hu.symm k] at hheld
      simp at hheld
    · rw [hother u k hu] at hheld
      exact absurd ((ha k u requestId hne).mpr hheld) (not_filed_elsewhere (hwait k) hne hu)

theorem agree_clear {s : RelayState} (ha : s.RequestsAgree)
    (hwait : ∀ k, s.waitingElsewhere s.activeThreadId k = ∅) :
    s.clearActiveSession.RequestsAgree := by
  refine agree_of_wiped ha hwait (fun k => by cases k <;> rfl) ?_ ?_
  · intro u hu k
    simp only [held, clearActiveSession, Option.mem_def.mp hu]
    simp
  · intro u k hu
    simp only [held, clearActiveSession]
    cases hactive : s.activeThreadId with
    | none => rfl
    | some threadId =>
      have hne : u ≠ threadId := fun he => hu (by rw [hactive, he])
      simp only [Table.getElem?_erase_of, if_neg hne]

theorem agree_restore {s : RelayState} (ha : s.RequestsAgree) (now : Nat)
    (data : ThreadSyncData) (persisted : PersistedRelayState)
    (hwait : ∀ k, s.waitingElsewhere (some data.thread.id) k = ∅) :
    (s.restoreThreadData now data persisted).RequestsAgree := by
  unfold restoreThreadData
  refine Quiet.agree (Quiet.trans (quiet_sync _) (quiet_upsertThread _ _)) ?_
  refine agree_of_wiped ha hwait (fun k => by cases k <;> rfl) ?_ ?_
  · rintro u hu k
    cases hu
    simp only [held, ExtTreeMap.getElem?_insert_self, Option.map_some, Option.getD_some]
    cases k <;> rfl
  · intro u k hu
    have hne : u ≠ data.thread.id := fun he => hu (by rw [he])
    simp only [held, Table.getElem?_insert_of, if_neg hne]

theorem quiet_newRuntime {s t : RelayState} {thread : ThreadSummaryView} {cwd : String}
    {settings : ThreadSessionSettings} {now revision : Nat} (hr : t.requests = s.requests)
    (hrt : t.runtimes = s.runtimes.insert thread.id
      (ThreadRuntime.new thread cwd settings now revision))
    (hheld : thread.id ≠ "" → ∀ k, s.held thread.id k = ∅) : s.Quiet t := by
  refine quiet_of_insert hr hrt ?_
  intro _ hne k
  rw [hheld hne k]
  cases k <;> rfl

theorem quiet_registerBackground (s : RelayState) (now : Nat) (thread : ThreadSummaryView)
    (cwd : String) (settings : ThreadSessionSettings)
    (hheld : ∀ k, s.held thread.id k = ∅) :
    s.Quiet (s.registerBackgroundThread now thread cwd settings) := by
  unfold registerBackgroundThread
  refine Quiet.trans (Quiet.trans ?_ (quiet_rememberSettings _ _ _)) (quiet_upsertThread _ _)
  exact quiet_newRuntime (requests_eq rfl rfl) rfl fun _ => hheld

theorem quiet_activate (s : RelayState) (now : Nat) (thread : ThreadSummaryView)
    (cwd : String) (settings : ThreadSessionSettings) (deviceId : String)
    (hheld : ∀ k, s.held thread.id k = ∅) :
    s.Quiet (s.activateThread now thread cwd settings deviceId) := by
  intro ha
  have hsame := quiet_materialize s now ha
  have hrest : (s.materializeSelectedRuntimeFromFields now).Quiet
      (s.activateThread now thread cwd settings deviceId) := by
    unfold activateThread
    refine Quiet.trans (Quiet.trans ?_ (quiet_sync _)) (quiet_upsertThread _ _)
    refine Quiet.trans ?_ (quiet_rememberSettings _ _ _)
    refine quiet_newRuntime (requests_eq rfl rfl) rfl ?_
    intro hne k
    rw [hsame.held k thread.id hne]
    exact hheld k
  exact (quiet_materialize s now).trans hrest ha

theorem quiet_activateStarted (s : RelayState) (now : Nat) (thread : ThreadSummaryView)
    (cwd : String) (settings : ThreadSessionSettings) (deviceId : String) :
    s.Quiet (s.activateStartedThread now thread cwd settings deviceId) := by
  unfold activateStartedThread
  refine (quiet_materialize s now).trans ?_
  generalize s.materializeSelectedRuntimeFromFields now = u
  dsimp only [assignActiveController]
  cases hrt : u.runtimes[thread.id]? with
  | none =>
    refine Quiet.trans (Quiet.trans ?_ (quiet_sync _)) (quiet_upsertThread _ _)
    refine Quiet.trans ?_ (quiet_rememberSettings _ _ _)
    refine quiet_newRuntime (requests_eq rfl rfl) rfl ?_
    intro _ k
    simp [held, hrt]
  | some runtime =>
    refine Quiet.trans (Quiet.trans ?_ (quiet_sync _)) (quiet_upsertThread _ _)
    refine Quiet.trans ?_ (quiet_rememberSettings _ _ _)
    exact quiet_of_modify (requests_eq rfl rfl) rfl fun _ => rfl

theorem requestThread_promotePending (requests : Table PendingRequest)
    (pendingId realId requestId : String) :
    (promotePending requests pendingId realId)[requestId]?.map (·.threadId) =
      (requests[requestId]?.map (·.threadId)).map fun id =>
        if id = pendingId then realId else id := by
  simp only [promotePending, ExtTreeMap.getElem?_map, Option.map_map]
  congr 1
  funext p
  simp only [Function.comp]
  split_ifs <;> rfl

/-- The runtimes a promotion drops hold no request of their own: with runtimes under both
ids, the one with the shorter transcript goes. -/
def promotionDrops (s : RelayState) (pendingId realId : String) (k : RequestKind) :
    Table PendingRequest :=
  match s.runtimes[pendingId]?, s.runtimes[realId]? with
  | some pending, some existing =>
    if pending.transcript.length ≤ existing.transcript.length then pending.requests k
    else existing.requests k
  | _, _ => ∅

structure PromotesHeld (before after : String → RequestKind → Table PendingRequest)
    (pendingId realId : String) : Prop where
  gone : ∀ k, after pendingId k = ∅
  joined : ∀ k requestId, (after realId k).contains requestId ↔
    (before pendingId k).contains requestId ∨ (before realId k).contains requestId
  other : ∀ k u, u ≠ pendingId → u ≠ realId → after u k = before u k

theorem promotesHeld {s t : RelayState} {pendingId realId : String} (hne : pendingId ≠ realId)
    (hrt : t.runtimes = promoteRuntime s.runtimes pendingId realId)
    (hdrop : ∀ k, s.promotionDrops pendingId realId k = ∅) :
    PromotesHeld s.held t.held pendingId realId := by
  unfold promoteRuntime at hrt
  cases hp : s.runtimes[pendingId]? with
  | none =>
    rw [hp] at hrt
    have hheld : ∀ u k, t.held u k = s.held u k := fun u k => by rw [held, held, hrt]
    have hnone : ∀ k, s.held pendingId k = ∅ := fun k => by simp [held, hp]
    refine ⟨fun k => (hheld pendingId k).trans (hnone k), ?_, fun k u _ _ => hheld u k⟩
    intro k requestId
    rw [hheld realId k, hnone k]
    simp
  | some pending =>
    simp only [hp] at hrt
    have hget : ∃ rt, t.runtimes = (s.runtimes.erase pendingId).insert realId rt ∧
        ∀ k requestId, (rt.requests k).contains requestId ↔
          (s.held pendingId k).contains requestId ∨ (s.held realId k).contains requestId := by
      cases hreal : s.runtimes[realId]? with
      | none =>
        rw [hreal] at hrt
        refine ⟨_, hrt, ?_⟩
        intro k requestId
        simp only [held, hp, hreal]
        cases k <;> simp [ThreadRuntime.requests]
      | some existing =>
        rw [hreal] at hrt
        refine ⟨_, hrt, ?_⟩
        intro k requestId
        have hempty := hdrop k
        simp only [promotionDrops, hp, hreal] at hempty
        simp only [held, hp, hreal, promoteOnto, Option.map_some, Option.getD_some]
        split_ifs at hempty ⊢ with hlen
        · rw [hempty]
          cases k <;> simp [ThreadRuntime.requests]
        · rw [hempty]
          cases k <;> simp [ThreadRuntime.requests]
    obtain ⟨rt, hrt', hkeys⟩ := hget
    refine ⟨?_, ?_, ?_⟩
    · intro k
      simp [held, hrt', Table.getElem?_insert_of, hne]
    · intro k requestId
      rw [← hkeys k requestId]
      simp [held, hrt']
    · intro k u hup hur
      simp [held, hrt', Table.getElem?_insert_of, Table.getElem?_erase_of, hup, hur]

theorem PromotesHeld.agree {s t : RelayState} {pendingId realId : String}
    (h : PromotesHeld s.held t.held pendingId realId) (hne : pendingId ≠ realId)
    (hp : pendingId ≠ "") (hr : realId ≠ "")
    (hfiled : ∀ k requestId, t.requestThread k requestId =
      (s.requestThread k requestId).map fun id => if id = pendingId then realId else id)
    (ha : s.RequestsAgree) : t.RequestsAgree := by
  intro k u requestId hu
  rw [hfiled, Option.map_eq_some_iff]
  by_cases hup : u = pendingId
  · subst hup
    rw [h.gone k]
    simp only [ExtTreeMap.contains_empty, Bool.false_eq_true, iff_false, not_exists, not_and]
    intro id _
    split_ifs with he
    · exact Ne.symm hne
    · exact he
  · by_cases hur : u = realId
    · subst hur
      rw [h.joined, ← ha k pendingId requestId hp, ← ha k u requestId hr]
      constructor
      · rintro ⟨id, hid, hren⟩
        split_ifs at hren with he
        · exact Or.inl (he ▸ hid)
        · exact Or.inr (hren ▸ hid)
      · rintro (hid | hid)
        · exact ⟨pendingId, hid, if_pos rfl⟩
        · exact ⟨u, hid, if_neg hup⟩
    · rw [h.other k u hup hur, ← ha k u requestId hu]
      constructor
      · rintro ⟨id, hid, hren⟩
        split_ifs at hren with he
        · exact absurd hren.symm hur
        · exact hren ▸ hid
      · intro hid
        exact ⟨u, hid, if_neg hup⟩

/-- The relay with every table re-keyed, before the promoted thread is marked working. -/
def rekeyed (s : RelayState) (now : Nat) (pendingId realId : String) : RelayState :=
  { s with
    runtimes := promoteRuntime s.runtimes pendingId realId
    threadMeta := promoteMeta s.threadMeta pendingId realId
    threads := s.threads.filter (·.id ≠ pendingId)
    pendingApprovals := promotePending s.pendingApprovals pendingId realId
    pendingAskUserQuestions := promotePending s.pendingAskUserQuestions pendingId realId
    jobs := promoteJobs now s.jobs pendingId realId }

theorem promoteBackgroundThread_eq (s : RelayState) (now : Nat) {pendingId realId : String}
    (hne : pendingId ≠ realId) (hp : pendingId ≠ "") (hr : realId ≠ "") :
    s.promoteBackgroundThread now pendingId realId =
      (s.rekeyed now pendingId realId).setThreadStatus now realId "active" [] := by
  rw [promoteBackgroundThread, if_neg (by simp [hne, hp, hr])]
  rfl

theorem requestThread_rekeyed (s : RelayState) (now : Nat) (pendingId realId : String)
    (k : RequestKind) (requestId : String) :
    (s.rekeyed now pendingId realId).requestThread k requestId =
      (s.requestThread k requestId).map fun id => if id = pendingId then realId else id := by
  rw [requestThread, requestThread, ← requestThread_promotePending]
  cases k <;> rfl

theorem active_not_settled : threadStatusIsSettled "active" = false := by decide +kernel

theorem agree_promote {s : RelayState} (ha : s.RequestsAgree) (now : Nat)
    (pendingId realId : String) (hdrop : ∀ k, s.promotionDrops pendingId realId k = ∅) :
    (s.promoteBackgroundThread now pendingId realId).RequestsAgree := by
  by_cases hskip : pendingId = realId ∨ pendingId = "" ∨ realId = ""
  · rw [promoteBackgroundThread, if_pos hskip]
    exact ha
  · simp only [not_or] at hskip
    obtain ⟨hne, hp, hr⟩ := hskip
    rw [promoteBackgroundThread_eq s now hne hp hr]
    apply Quiet.agree (quiet_setThreadStatus _ now realId "active" [] active_not_settled)
    exact (promotesHeld hne rfl hdrop).agree hne hp hr
      (requestThread_rekeyed s now pendingId realId) ha

theorem requestThread_setRequests (s : RelayState) (k k' : RequestKind) (m : Table PendingRequest)
    (requestId : String) : (s.setRequests k m).requestThread k' requestId =
      if k' = k then m[requestId]?.map (·.threadId) else s.requestThread k' requestId := by
  rw [requestThread, requests_setRequests]
  split_ifs <;> rfl

theorem held_setRequests (s : RelayState) (k k' : RequestKind) (m : Table PendingRequest)
    (threadId : String) : (s.setRequests k m).held threadId k' = s.held threadId k' := by
  rw [held, runtimes_setRequests, held]

theorem held_modifySet (s : RelayState) (k k' : RequestKind) (threadId u : String)
    (f : Table PendingRequest → Table PendingRequest) (hf : f ∅ = ∅ ∨ s.runtimes.contains threadId) :
    (s.modifyRuntime threadId fun rt => rt.setRequests k (f (rt.requests k))).held u k' =
      if u = threadId ∧ k' = k then f (s.held u k') else s.held u k' := by
  simp only [held, modifyRuntime, Table.getElem?_modify_of]
  by_cases hu : u = threadId
  · subst hu
    cases hrt : s.runtimes[u]? with
    | none =>
      have hnone : f ∅ = ∅ := by
        rcases hf with hf | hf
        · exact hf
        · rw [ExtTreeMap.contains_eq_isSome_getElem?, hrt] at hf
          cases hf
      simp [hnone]
    | some rt =>
      by_cases hk : k' = k
      · subst hk
        simp
      · simp [hk]
  · simp [hu]

theorem contains_ensure (s : RelayState) (now : Nat) (threadId : String) :
    (s.ensureRuntimeForThread now threadId).runtimes.contains threadId := by
  unfold ensureRuntimeForThread
  dsimp only
  generalize (if s.activeThreadId = some threadId ∧ ¬s.runtimes.contains threadId then
    s.materializeSelectedRuntimeFromFields now else s) = u
  split_ifs with hc
  · exact hc
  · simp

structure Files (s t : RelayState) (k : RequestKind) (requestId threadId : String) : Prop where
  filed : ∀ k' r, t.requestThread k' r =
    if k' = k ∧ r = requestId then some threadId else s.requestThread k' r
  held : ∀ k' u r, u ≠ "" → ((t.held u k').contains r ↔
    (k' = k ∧ u = threadId ∧ r = requestId) ∨ (s.held u k').contains r)

theorem Files.agree {s t : RelayState} {k : RequestKind} {requestId threadId : String}
    (h : s.Files t k requestId threadId) (ha : s.RequestsAgree)
    (hfresh : s.requestThread k requestId = none) : t.RequestsAgree := by
  intro k' u r hu
  rw [h.filed, h.held k' u r hu, ← ha k' u r hu]
  by_cases hkr : k' = k ∧ r = requestId
  · obtain ⟨rfl, rfl⟩ := hkr
    simp [hfresh, eq_comm]
  · rw [if_neg hkr]
    constructor
    · intro hfiled
      exact Or.inr hfiled
    · rintro (⟨hk, -, hreq⟩ | hfiled)
      · exact absurd ⟨hk, hreq⟩ hkr
      · exact hfiled

theorem requestThread_insert (s : RelayState) (k k' : RequestKind) (requestId r : String)
    (pending : PendingRequest) :
    (s.setRequests k ((s.requests k).insert requestId pending)).requestThread k' r =
      if k' = k ∧ r = requestId then some pending.threadId else s.requestThread k' r := by
  rw [requestThread_setRequests]
  by_cases hk : k' = k
  · subst hk
    by_cases hr : r = requestId
    · subst hr
      simp
    · simp [requestThread, Table.getElem?_insert_of, hr]
  · simp [hk]

theorem files_add (k : RequestKind) (s : RelayState) (now : Nat) (requestId : String)
    (pending : PendingRequest) (ha : s.RequestsAgree) :
    s.Files (s.addPendingRequest k now requestId pending) k requestId pending.threadId := by
  unfold addPendingRequest
  by_cases hthread : pending.threadId = ""
  · simp only [if_pos hthread]
    refine ⟨fun k' r => requestThread_insert s k k' requestId r pending, ?_⟩
    intro k' u r hu
    rw [held_setRequests]
    have : u ≠ pending.threadId := by rwa [hthread]
    simp [this]
  · simp only [if_neg hthread]
    have hsame := quiet_ensure s now pending.threadId ha
    set v := s.ensureRuntimeForThread now pending.threadId with hv
    have hrequests : ∀ f, (v.modifyRuntime pending.threadId f).requests = v.requests :=
      fun f => requests_eq rfl rfl
    constructor
    · intro k' r
      rw [requestThread_insert, requestThread, hrequests, hsame.requests]
      rfl
    · intro k' u r hu
      have hmod := held_modifySet v k k' pending.threadId u (fun m => m.insert requestId pending)
        (Or.inr (contains_ensure s now pending.threadId))
      rw [held_setRequests, hmod, hsame.held k' u hu]
      by_cases hku : u = pending.threadId ∧ k' = k
      · rw [if_pos hku]
        simp only [hku.1, hku.2, ExtTreeMap.contains_insert, Bool.or_eq_true, beq_iff_eq,
          Std.compare_eq_iff_eq, true_and, eq_comm (a := r)]
      · rw [if_neg hku]
        constructor
        · exact Or.inr
        · rintro (⟨hk, hthread', -⟩ | hheld)
          · exact absurd ⟨hthread', hk⟩ hku
          · exact hheld

structure Unfiles (s t : RelayState) (k : RequestKind) (requestId threadId : String) : Prop where
  filed : ∀ k' r, t.requestThread k' r =
    if k' = k ∧ r = requestId then none else s.requestThread k' r
  held : ∀ k' u r, u ≠ "" → ((t.held u k').contains r ↔
    ¬(k' = k ∧ u = threadId ∧ r = requestId) ∧ (s.held u k').contains r)

theorem Unfiles.agree {s t : RelayState} {k : RequestKind} {requestId threadId : String}
    (h : s.Unfiles t k requestId threadId) (ha : s.RequestsAgree)
    (hfiled : s.requestThread k requestId = some threadId) : t.RequestsAgree := by
  intro k' u r hu
  rw [h.filed, h.held k' u r hu, ← ha k' u r hu]
  by_cases hkr : k' = k ∧ r = requestId
  · obtain ⟨rfl, rfl⟩ := hkr
    simp [hfiled, eq_comm]
  · rw [if_neg hkr]
    constructor
    · intro hother
      exact ⟨fun he => hkr ⟨he.1, he.2.2⟩, hother⟩
    · exact And.right

theorem requestThread_erase (s : RelayState) (k k' : RequestKind) (requestId r : String) :
    (s.setRequests k ((s.requests k).erase requestId)).requestThread k' r =
      if k' = k ∧ r = requestId then none else s.requestThread k' r := by
  rw [requestThread_setRequests]
  by_cases hk : k' = k
  · subst hk
    by_cases hr : r = requestId
    · subst hr
      simp
    · simp [requestThread, Table.getElem?_erase_of, hr]
  · simp [hk]

theorem unfiles_remove (k : RequestKind) (s : RelayState) (requestId : String)
    (pending : PendingRequest) (hp : (s.requests k)[requestId]? = some pending) :
    s.Unfiles (s.removePendingRequest k requestId).1 k requestId pending.threadId := by
  simp only [removePendingRequest, hp]
  by_cases hthread : pending.threadId = ""
  · simp only [if_pos hthread]
    refine ⟨fun k' r => requestThread_erase s k k' requestId r, ?_⟩
    intro k' u r hu
    rw [held_setRequests]
    have : u ≠ pending.threadId := by rwa [hthread]
    simp [this]
  · simp only [if_neg hthread]
    constructor
    · intro k' r
      rw [← requestThread_erase]
      cases k' <;> rfl
    · intro k' u r _
      have hmod := held_modifySet (s.setRequests k ((s.requests k).erase requestId)) k k'
        pending.threadId u (fun m => m.erase requestId) (Or.inl (by simp))
      rw [hmod, held_setRequests]
      by_cases hku : u = pending.threadId ∧ k' = k
      · rw [if_pos hku]
        simp only [hku.1, hku.2, ExtTreeMap.contains_erase, Bool.and_eq_true, bne_iff_ne, ne_eq,
          Std.compare_eq_iff_eq, true_and, eq_comm (a := r)]
      · rw [if_neg hku]
        constructor
        · intro hheld
          exact ⟨fun he => hku ⟨he.2.1, he.1⟩, hheld⟩
        · exact And.right

theorem agree_remove {s : RelayState} (k : RequestKind) (ha : s.RequestsAgree)
    (requestId : String) : (s.removePendingRequest k requestId).1.RequestsAgree := by
  cases hp : (s.requests k)[requestId]? with
  | none =>
    simp only [removePendingRequest, hp]
    exact ha
  | some pending =>
    have hfiled : s.requestThread k requestId = some pending.threadId := by
      rw [requestThread, hp]
      rfl
    exact (unfiles_remove k s requestId pending hp).agree ha hfiled

/-- Every thread's requests but those of `threads` are on both sides afterwards. -/
def LeavesOthers (s t : RelayState) (threads : List String) : Prop :=
  ∀ k threadId requestId, threadId ≠ "" → threadId ∉ threads →
    s.requestThread k requestId = some threadId ∨ (s.held threadId k).contains requestId →
      t.requestThread k requestId = some threadId ∧ (t.held threadId k).contains requestId

theorem ForgetsThread.leavesOthers {s t : RelayState} {threadId : String}
    (h : s.ForgetsThread t threadId) (ha : s.RequestsAgree) : s.LeavesOthers t [threadId] := by
  intro k other requestId hne hother hmem
  have hother' : other ≠ threadId := by simpa using hother
  have hboth : s.requestThread k requestId = some other := by
    rcases hmem with hfiled | hheld
    · exact hfiled
    · exact (ha k other requestId hne).mpr hheld
  constructor
  · rw [h.filed, hboth]
    simp [hother']
  · rw [h.held_other k other hother']
    exact (ha k other requestId hne).mp hboth

theorem leavesOthers_of_alone {s : RelayState} (t : RelayState) {threadId : Option String}
    (ha : s.RequestsAgree) (hwait : ∀ k, s.waitingElsewhere threadId k = ∅) :
    s.LeavesOthers t threadId.toList := by
  intro k other requestId hne hother hmem
  have hother' : some other ≠ threadId := by
    rintro rfl
    simp at hother
  have hfiled : s.requestThread k requestId = some other := by
    rcases hmem with hfiled | hheld
    · exact hfiled
    · exact (ha k other requestId hne).mpr hheld
  exact absurd hfiled (not_filed_elsewhere (hwait k) hne hother')

theorem leavesOthers_promote {s : RelayState} (ha : s.RequestsAgree) (now : Nat)
    (pendingId realId : String) (hdrop : ∀ k, s.promotionDrops pendingId realId k = ∅) :
    s.LeavesOthers (s.promoteBackgroundThread now pendingId realId) [pendingId, realId] := by
  intro k other requestId hne hother hmem
  have hafter := agree_promote ha now pendingId realId hdrop
  suffices hfiled : (s.promoteBackgroundThread now pendingId realId).requestThread k requestId =
      some other from ⟨hfiled, (hafter k other requestId hne).mp hfiled⟩
  have hbefore : s.requestThread k requestId = some other := by
    rcases hmem with hfiled | hheld
    · exact hfiled
    · exact (ha k other requestId hne).mpr hheld
  by_cases hskip : pendingId = realId ∨ pendingId = "" ∨ realId = ""
  · rw [promoteBackgroundThread, if_pos hskip]
    exact hbefore
  · simp only [not_or] at hskip
    obtain ⟨hpr, hp, hr⟩ := hskip
    have hother' : other ≠ pendingId := by
      rintro rfl
      simp at hother
    have hrekeyed := (promotesHeld hpr rfl hdrop).agree hpr hp hr
      (requestThread_rekeyed s now pendingId realId) ha
    have hquiet := quiet_setThreadStatus _ now realId "active" [] active_not_settled hrekeyed
    rw [promoteBackgroundThread_eq s now hpr hp hr, requestThread, hquiet.requests k]
    refine (requestThread_rekeyed s now pendingId realId k requestId).trans ?_
    simp [hbefore, hother']

end RelayState

/-- The threads an operation clears, archives, deletes or promotes. -/
def RequestOp.threads (s : RelayState) : RequestOp → Option (List String)
  | .relay .clearActiveSession => some s.activeThreadId.toList
  | .relay (.promoteBackgroundThread pendingId realId) => some [pendingId, realId]
  | .removeThread threadId => some [threadId]
  | .markThreadDeleted threadId => some [threadId]
  | _ => none

def LeavesOtherThreads (s : RelayState) (op : Nat × RequestOp) : Prop :=
  ∀ threads ∈ op.2.threads s, s.LeavesOthers (s.requestStep op) threads

def FreshRequestId (s : RelayState) (op : Nat × RequestOp) : Prop :=
  match op.2 with
  | .addPendingApproval requestId _ => ¬s.pendingApprovals.contains requestId
  | .addPendingAskUserQuestion requestId _ => ¬s.pendingAskUserQuestions.contains requestId
  | _ => True

/-- Where the code looks after one side only, there is nothing on the other side: the
maps are wiped when no other thread waits, a runtime is replaced when nothing waits on
it, and a promotion drops no runtime that holds a request. -/
def TouchesBothSides (s : RelayState) (op : Nat × RequestOp) : Prop :=
  match op.2 with
  | .relay .clearActiveSession => ∀ k, s.waitingElsewhere s.activeThreadId k = ∅
  | .relay (.restoreThreadData data _) => ∀ k, s.waitingElsewhere (some data.thread.id) k = ∅
  | .relay (.promoteBackgroundThread pendingId realId) =>
    ∀ k, s.promotionDrops pendingId realId k = ∅
  | .activateThread thread _ _ _ => ∀ k, s.held thread.id k = ∅
  | .registerBackgroundThread thread _ _ => ∀ k, s.held thread.id k = ∅
  | _ => True

namespace RelayState

theorem agree_relayStep {s : RelayState} (ha : s.RequestsAgree) (now : Nat) (op : RelayOp)
    (h : TouchesBothSides s (now, .relay op)) : (s.step (now, op)).RequestsAgree := by
  cases op with
  | bumpTranscriptRevision => exact (quiet_bump s now).agree ha
  | bumpThreadTranscriptRevision threadId => exact (quiet_bumpThread s now threadId).agree ha
  | upsertTranscriptItem itemId w => exact (quiet_upsertItem s now itemId w).agree ha
  | upsertTranscriptItemForThread threadId itemId w =>
    exact (quiet_upsertItemForThread s now threadId itemId w).agree ha
  | appendAgentDelta itemId delta turnId =>
    exact (quiet_appendAgentDelta s now itemId delta turnId).agree ha
  | appendAgentDeltaForThread threadId itemId delta turnId =>
    exact (quiet_appendAgentDeltaForThread s now threadId itemId delta turnId).agree ha
  | appendCommandDelta itemId delta => exact (quiet_appendCommandDelta s now itemId delta).agree ha
  | appendCommandDeltaForThread threadId itemId delta =>
    exact (quiet_appendCommandDeltaForThread s now threadId itemId delta).agree ha
  | setTranscriptItemStatus itemId status => exact (quiet_setItemStatus s now itemId status).agree ha
  | setTranscriptItemStatusForThread threadId itemId status =>
    exact (quiet_setItemStatusForThread s now threadId itemId status).agree ha
  | setFileChangeApplyStateForThread threadId itemId state =>
    exact (quiet_setApplyState s now threadId itemId state).agree ha
  | ensureRuntimeForThread threadId => exact (quiet_ensure s now threadId).agree ha
  | syncSelectedRuntimeToFields => exact (quiet_sync s).agree ha
  | materializeSelectedRuntimeFromFields => exact (quiet_materialize s now).agree ha
  | setThreadStatus threadId status activeFlags =>
    exact agree_setThreadStatus ha now threadId status activeFlags
  | upsertThread thread => exact (quiet_upsertThread s thread).agree ha
  | rememberThreadSettings threadId settings =>
    exact (quiet_rememberSettings s threadId settings).agree ha
  | loadThreadData data settings deviceId => exact (quiet_load s now data settings deviceId).agree ha
  | hydrateBackgroundRuntime data settings rememberSettings =>
    exact (quiet_hydrate s now data settings rememberSettings).agree ha
  | restoreThreadData data persisted => exact agree_restore ha now data persisted h
  | promoteBackgroundThread pendingId realId => exact agree_promote ha now pendingId realId h
  | clearActiveSession => exact agree_clear ha h

theorem agree_applyPersisted (s : RelayState) (now : Nat) (p : PersistedRelayState) :
    (s.applyPersisted now p).RequestsAgree := by
  intro k threadId requestId _
  have hfiled : (s.applyPersisted now p).requestThread k requestId = none := by
    cases k <;> simp [requestThread, requests, applyPersisted]
  have hheld : (s.applyPersisted now p).held threadId k = ∅ := by simp [held, applyPersisted]
  simp [hfiled, hheld]

theorem requestThread_of_fresh {s : RelayState} {k : RequestKind} {requestId : String}
    (h : ¬(s.requests k).contains requestId) : s.requestThread k requestId = none := by
  rw [ExtTreeMap.contains_eq_isSome_getElem?, Option.not_isSome_iff_eq_none] at h
  simp [requestThread, h]

theorem agree_requestStep {s : RelayState} (ha : s.RequestsAgree) (op : Nat × RequestOp)
    (hfresh : FreshRequestId s op) (hboth : TouchesBothSides s op) :
    (s.requestStep op).RequestsAgree := by
  obtain ⟨now, op⟩ := op
  cases op with
  | relay op => exact agree_relayStep ha now op hboth
  | addPendingApproval requestId pending =>
    exact (files_add .approval s now requestId pending ha).agree ha (requestThread_of_fresh hfresh)
  | addPendingAskUserQuestion requestId pending =>
    exact (files_add .askUserQuestion s now requestId pending ha).agree ha
      (requestThread_of_fresh hfresh)
  | removePendingApproval requestId => exact agree_remove .approval ha requestId
  | removePendingAskUserQuestion requestId => exact agree_remove .askUserQuestion ha requestId
  | removeThread threadId => exact (forgets_removeThread s threadId).agree ha
  | markThreadDeleted threadId => exact (forgets_markThreadDeleted s threadId).agree ha
  | activateThread thread cwd settings deviceId =>
    exact (quiet_activate s now thread cwd settings deviceId hboth).agree ha
  | activateStartedThread thread cwd settings deviceId =>
    exact (quiet_activateStarted s now thread cwd settings deviceId).agree ha
  | registerBackgroundThread thread cwd settings =>
    exact (quiet_registerBackground s now thread cwd settings hboth).agree ha
  | applyPersisted persisted => exact agree_applyPersisted s now persisted

theorem leavesOthers_requestStep {s : RelayState} (ha : s.RequestsAgree) (op : Nat × RequestOp)
    (hboth : TouchesBothSides s op) : LeavesOtherThreads s op := by
  obtain ⟨now, op⟩ := op
  intro threads hthreads
  cases op with
  | relay op =>
    cases op with
    | clearActiveSession =>
      obtain rfl := Option.some.inj hthreads
      exact leavesOthers_of_alone _ ha hboth
    | promoteBackgroundThread pendingId realId =>
      obtain rfl := Option.some.inj hthreads
      exact leavesOthers_promote ha now pendingId realId hboth
    | _ => cases hthreads
  | removeThread threadId =>
    obtain rfl := Option.some.inj hthreads
    exact (forgets_removeThread s threadId).leavesOthers ha
  | markThreadDeleted threadId =>
    obtain rfl := Option.some.inj hthreads
    exact (forgets_markThreadDeleted s threadId).leavesOthers ha
  | _ => cases hthreads

theorem agree_new (currentCwd : String) : (RelayState.new currentCwd).RequestsAgree := by
  intro k threadId requestId _
  have hfiled : (RelayState.new currentCwd).requestThread k requestId = none := by
    cases k <;> simp [requestThread, requests, RelayState.new]
  have hheld : (RelayState.new currentCwd).held threadId k = ∅ := by simp [held, RelayState.new]
  simp [hfiled, hheld]

/-- In a run that never wipes one side of a request while the other side stays, the two
copies of every request agree and no operation on one thread touches another's. -/
theorem pendingRequests_agree (currentCwd : String) (ops : List (Nat × RequestOp))
    (hfresh : Along requestStep FreshRequestId (RelayState.new currentCwd) ops)
    (hboth : Along requestStep TouchesBothSides (RelayState.new currentCwd) ops) :
    Always requestStep RequestsAgree (RelayState.new currentCwd) ops ∧
      Along requestStep LeavesOtherThreads (RelayState.new currentCwd) ops := by
  have hops := along_and hfresh hboth
  constructor
  · exact always_of_step (fun s op ha h => agree_requestStep ha op h.1 h.2)
      (agree_new currentCwd) hops
  · exact along_of_step
      (fun s op ha h => ⟨agree_requestStep ha op h.1 h.2, leavesOthers_requestStep ha op h.2⟩)
      (agree_new currentCwd) hops

def sampleRead (threadId : String) : ThreadSyncData :=
  { thread := { id := threadId }, status := "idle", activeFlags := [], transcript := [] }

def sampleSettings : ThreadSessionSettings := ⟨"untrusted", "workspace-write", "medium", "gpt-5.5"⟩

/-- A request that reaches a thread before its session id is known follows the promotion;
the selected thread is cleared when only its own question waits. -/
theorem pendingRequests_agree_promotion :
    Always requestStep RequestsAgree (RelayState.new "")
      [(1, .relay (.loadThreadData (sampleRead "thread-b") sampleSettings "phone")),
        (2, .addPendingApproval "r1" ⟨"claude-pending-1"⟩),
        (3, .relay (.promoteBackgroundThread "claude-pending-1" "thread-a")),
        (4, .addPendingAskUserQuestion "q1" ⟨"thread-b"⟩),
        (5, .removePendingApproval "r1"),
        (6, .relay .clearActiveSession)] := by
  refine (pendingRequests_agree "" _ ?_ ?_).1
  · exact ⟨trivial, by simp [FreshRequestId]; decide +kernel, trivial,
      by simp [FreshRequestId]; decide +kernel, trivial, trivial, trivial⟩
  · exact ⟨trivial, trivial, fun k => by cases k <;> decide +kernel, trivial, trivial,
      fun k => by cases k <;> decide +kernel, trivial⟩

/-- Clearing the selected session wipes the approvals of a background thread from the
relay's map, while the runtime of that thread keeps them. -/
theorem pendingRequests_disagree :
    ¬∀ (currentCwd : String) (ops : List (Nat × RequestOp)),
      Along requestStep FreshRequestId (RelayState.new currentCwd) ops →
        Always requestStep RequestsAgree (RelayState.new currentCwd) ops ∧
          Along requestStep LeavesOtherThreads (RelayState.new currentCwd) ops := by
  intro h
  have hagree := (h "" [(1, .addPendingApproval "r1" ⟨"thread-a"⟩),
    (2, .relay (.loadThreadData (sampleRead "thread-b") sampleSettings "phone")),
    (3, .relay .clearActiveSession)]
    ⟨by simp [FreshRequestId]; decide +kernel, trivial, trivial, trivial⟩).1.last
  have hiff := hagree .approval "thread-a" "r1" (by decide)
  revert hiff
  decide +kernel

end RelayState

end AgentRelay.Relay

import AgentRelay.Promotion

/-! When a promotion is complete. The tables that are re-keyed are looked up before and
after; the runtimes are followed through the merge and through the status the promoted
thread ends with. -/
namespace AgentRelay.Relay
open Std Team.TeamRun

namespace RelayState

structure FreshRuntime (rows : List ThreadSummaryView) (threadId : String) (rt : ThreadRuntime) :
    Prop where
  summary : ∀ summary, rt.summary = some summary → summary.id = threadId
  fork : ∀ summary, rt.summary = some summary → ∀ id, summary.forkedFrom = some id →
    some id ∈ rows.map (·.forkedFrom)
  requests : ∀ k (requestId : String) p,
    (rt.requests k)[requestId]? = some p → p.threadId = threadId

theorem find_id {threads : List ThreadSummaryView} {threadId : String} {row : ThreadSummaryView}
    (h : threads.find? (·.id = threadId) = some row) : row.id = threadId := by
  simpa using List.find?_some h

theorem freshRuntime_of_listed {s : RelayState} {threadId : String} {rt : ThreadRuntime}
    {blank : ThreadSummaryView} (hblank : blank.id = threadId) (hfork : blank.forkedFrom = none)
    (h : rt.summary = (s.threads.find? (·.id = threadId)).or (some blank))
    (hrequests : ∀ k (requestId : String) p,
      (rt.requests k)[requestId]? = some p → p.threadId = threadId) :
    FreshRuntime s.threads threadId rt := by
  refine ⟨?_, ?_, hrequests⟩
  all_goals
    intro summary hsummary
    rw [h] at hsummary
    cases hrow : s.threads.find? (·.id = threadId) with
    | none =>
      rw [hrow] at hsummary
      obtain rfl := Option.some.inj hsummary
      simp [hblank, hfork]
    | some row =>
      rw [hrow] at hsummary
      obtain rfl := Option.some.inj hsummary
      first
        | exact find_id hrow
        | exact fun id hid => List.mem_map.mpr ⟨row, List.mem_of_find?_eq_some hrow, hid⟩

structure Ensures (s t : RelayState) (threadId : String) : Prop where
  eq : t = { s with
    transcriptClock := t.transcriptClock, issued := t.issued, runtimes := t.runtimes }
  other : ∀ id, id ≠ threadId → t.runtimes[id]? = s.runtimes[id]?
  kept : ∀ rt, s.runtimes[threadId]? = some rt → t.runtimes[threadId]? = some rt
  fresh : s.runtimes[threadId]? = none →
    ∃ rt, t.runtimes[threadId]? = some rt ∧ FreshRuntime s.threads threadId rt

theorem ensures_insert {s t : RelayState} {threadId : String} {rt : ThreadRuntime}
    (hnone : s.runtimes[threadId]? = none) (hrt : FreshRuntime s.threads threadId rt)
    (heq : t = { s with
      transcriptClock := t.transcriptClock, issued := t.issued
      runtimes := s.runtimes.insert threadId rt }) : s.Ensures t threadId := by
  have hruntimes : t.runtimes = s.runtimes.insert threadId rt := by rw [heq]
  constructor
  · rw [hruntimes]
    exact heq
  · intro id hid
    rw [hruntimes, Table.getElem?_insert_of, if_neg hid]
  · intro old hold
    rw [hnone] at hold
    cases hold
  · intro _
    refine ⟨rt, ?_, hrt⟩
    rw [hruntimes]
    simp

theorem ensures_materialize {s : RelayState} {threadId : String} (now : Nat)
    (hactive : s.activeThreadId = some threadId) (hnone : s.runtimes[threadId]? = none) :
    s.Ensures (s.materializeSelectedRuntimeFromFields now) threadId := by
  have hc : ¬s.runtimes.contains threadId := by
    simp [ExtTreeMap.contains_eq_isSome_getElem?, hnone]
  unfold materializeSelectedRuntimeFromFields
  simp only [hactive]
  rw [if_neg hc]
  refine ensures_insert hnone (freshRuntime_of_listed (s := s) rfl rfl rfl ?_) rfl
  · intro k requestId p h
    have hfiltered : ∃ m : Table PendingRequest,
        (m.filter fun _ p => p.threadId = threadId)[requestId]? = some p := by
      cases k
      · exact ⟨_, h⟩
      · exact ⟨_, h⟩
    obtain ⟨m, hm⟩ := hfiltered
    rw [Table.getElem?_filter] at hm
    simpa using (Option.filter_eq_some_iff.mp hm).2

theorem ensures_ensure (s : RelayState) (now : Nat) (threadId : String) :
    s.Ensures (s.ensureRuntimeForThread now threadId) threadId := by
  cases hrt : s.runtimes[threadId]? with
  | some rt =>
    have hc : s.runtimes.contains threadId := by
      simp [ExtTreeMap.contains_eq_isSome_getElem?, hrt]
    have heq : s.ensureRuntimeForThread now threadId = s := by
      simp [ensureRuntimeForThread, hc]
    rw [heq]
    exact ⟨rfl, fun _ _ => rfl, fun _ h => h, fun h => by rw [hrt] at h; cases h⟩
  | none =>
    have hc : ¬s.runtimes.contains threadId := by
      simp [ExtTreeMap.contains_eq_isSome_getElem?, hrt]
    unfold ensureRuntimeForThread
    by_cases hactive : s.activeThreadId = some threadId
    · have hmat := ensures_materialize now hactive hrt
      obtain ⟨made, hmade, -⟩ := hmat.fresh hrt
      have hc' : (s.materializeSelectedRuntimeFromFields now).runtimes.contains threadId := by
        simp [ExtTreeMap.contains_eq_isSome_getElem?, hmade]
      simp only [hactive, hc, not_false_eq_true, and_self, if_true, Bool.false_eq_true, hc']
      exact hmat
    · simp only [hactive, false_and, if_false, hc, Bool.false_eq_true]
      refine ensures_insert hrt (freshRuntime_of_listed (s := s) rfl rfl rfl ?_) rfl
      · intro k requestId p h
        cases k <;> simp [ThreadRuntime.requests, lazyRuntime, ThreadRuntime.placeholder] at h

theorem syncIfSelected_frame (s : RelayState) (threadId : String) :
    (s.syncIfSelected threadId).threadMeta = s.threadMeta ∧
    (s.syncIfSelected threadId).jobs = s.jobs ∧
    (s.syncIfSelected threadId).threads = s.threads ∧
    (s.syncIfSelected threadId).runtimes = s.runtimes ∧
    (s.syncIfSelected threadId).requests = s.requests := by
  unfold syncIfSelected
  by_cases h : s.activeThreadId = some threadId
  · rw [if_pos h, syncSelectedRuntimeToFields]
    cases s.selectedRuntime with
    | none => exact ⟨rfl, rfl, rfl, rfl, requests_eq rfl rfl⟩
    | some rt => exact ⟨rfl, rfl, rfl, rfl, requests_eq rfl rfl⟩
  · rw [if_neg h]
    exact ⟨rfl, rfl, rfl, rfl, rfl⟩

structure MarksWorking (s t : RelayState) (now : Nat) (threadId : String) : Prop where
  threadMeta : t.threadMeta = s.threadMeta
  jobs : t.jobs = s.jobs
  requests : t.requests = s.requests
  threads : t.threads =
    modifyFirst (·.id = threadId) (fun row => { row with status := "active" }) s.threads
  other : ∀ id, id ≠ threadId → t.runtimes[id]? = s.runtimes[id]?
  kept : ∀ rt, s.runtimes[threadId]? = some rt →
    t.runtimes[threadId]? = some (rt.noteStatus now "active" [])
  fresh : s.runtimes[threadId]? = none →
    ∃ rt, t.runtimes[threadId]? = some rt ∧ FreshRuntime s.threads threadId rt

theorem marksWorking (s : RelayState) (now : Nat) (threadId : String) :
    s.MarksWorking (s.setThreadStatus now threadId "active" []) now threadId := by
  have hens := ensures_ensure s now threadId
  unfold setThreadStatus
  simp only [active_not_settled, Bool.false_eq_true, if_false]
  set u := s.ensureRuntimeForThread now threadId with hu
  set v : RelayState := { u with
    runtimes := u.runtimes.modify threadId (ThreadRuntime.noteStatus now "active" [])
    threads := modifyFirst (·.id = threadId) (fun row => { row with status := "active" })
      u.threads } with hv
  obtain ⟨hmeta, hjobs, hthreads, hruntimes, hrequests⟩ := syncIfSelected_frame v threadId
  constructor
  · rw [hmeta, hv, hens.eq]
  · rw [hjobs, hv, hens.eq]
  · rw [hrequests, hv, hens.eq]
    exact requests_eq rfl rfl
  · rw [hthreads, hv, hens.eq]
  · intro id hid
    rw [hruntimes, hv]
    simp only [Table.getElem?_modify_of, if_neg hid]
    exact hens.other id hid
  · intro rt hrt
    rw [hruntimes, hv]
    simp only [Table.getElem?_modify_of, if_true, hens.kept rt hrt, Option.map_some]
  · intro hnone
    obtain ⟨rt, hget, hfresh⟩ := hens.fresh hnone
    refine ⟨rt.noteStatus now "active" [], ?_, ⟨hfresh.summary, hfresh.fork, ?_⟩⟩
    · rw [hruntimes, hv]
      simp only [Table.getElem?_modify_of, if_true, hget, Option.map_some]
    · intro k
      cases k
      · exact hfresh.requests .approval
      · exact hfresh.requests .askUserQuestion

structure Survivor (s : RelayState) (pendingId realId id : String) (rt rt' : ThreadRuntime) :
    Prop where
  mem : id = pendingId ∨ id = realId
  get : s.runtimes[id]? = some rt
  survives : s.promotionDropped pendingId realId ≠ some id
  requests : rt'.requests = rt.requests
  summary : rt'.summary = if id = pendingId then
    rt.summary.map (fun summary => { summary with id := realId }) else rt.summary

theorem Survivor.forks {s : RelayState} {pendingId realId id : String} {rt rt' : ThreadRuntime}
    (h : s.Survivor pendingId realId id rt rt') :
    rt'.summary.map (·.forkedFrom) = rt.summary.map (·.forkedFrom) := by
  rw [h.summary]
  split_ifs
  · cases rt.summary <;> rfl
  · rfl

section survivor
variable {s : RelayState} {pendingId realId : String}

theorem promoteRuntime_other {id : String} (hp : id ≠ pendingId) (hr : id ≠ realId) :
    (promoteRuntime s.runtimes pendingId realId)[id]? = s.runtimes[id]? := by
  unfold promoteRuntime
  cases s.runtimes[pendingId]? with
  | none => rfl
  | some pending =>
    cases s.runtimes[realId]? with
    | none => simp [Table.getElem?_insert_of, Table.getElem?_erase_of, hp, hr]
    | some existing => simp [Table.getElem?_insert_of, Table.getElem?_erase_of, hp, hr]

theorem promoteRuntime_pending (hne : pendingId ≠ realId) :
    (promoteRuntime s.runtimes pendingId realId)[pendingId]? = none := by
  unfold promoteRuntime
  cases hp : s.runtimes[pendingId]? with
  | none => exact hp
  | some pending =>
    cases s.runtimes[realId]? with
    | none => simp [Table.getElem?_insert_of, hne]
    | some existing => simp [Table.getElem?_insert_of, hne]

/-- Either no runtime was there under either id, or exactly one survives. -/
theorem promoteRuntime_real (hne : pendingId ≠ realId) :
    ((promoteRuntime s.runtimes pendingId realId)[realId]? = none ∧
      s.runtimes[pendingId]? = none ∧ s.runtimes[realId]? = none) ∨
    ∃ id rt rt', (promoteRuntime s.runtimes pendingId realId)[realId]? = some rt' ∧
      s.Survivor pendingId realId id rt rt' ∧
      ∀ other, other = pendingId ∨ other = realId → other ≠ id →
        s.runtimes[other]? = none ∨ s.promotionDropped pendingId realId = some other := by
  unfold promoteRuntime
  cases hp : s.runtimes[pendingId]? with
  | none =>
    cases hr : s.runtimes[realId]? with
    | none => exact Or.inl ⟨rfl, rfl, rfl⟩
    | some existing =>
      refine Or.inr ⟨realId, existing, existing, rfl, ⟨Or.inr rfl, hr, ?_, rfl, ?_⟩, ?_⟩
      · simp [promotionDropped, hp]
      · rw [if_neg (Ne.symm hne)]
      · rintro other (rfl | rfl) hother
        · exact Or.inl hp
        · exact absurd rfl hother
  | some pending =>
    cases hr : s.runtimes[realId]? with
    | none =>
      refine Or.inr ⟨pendingId, pending, pending.rename realId, ?_,
        ⟨Or.inl rfl, hp, ?_, ?_, ?_⟩, ?_⟩
      · simp [ThreadRuntime.rename]
      · simp [promotionDropped, hp, hr]
      · funext k
        cases k <;> rfl
      · rw [if_pos rfl]
        rfl
      · rintro other (rfl | rfl) hother
        · exact absurd rfl hother
        · exact Or.inl hr
    | some existing =>
      refine Or.inr ?_
      simp only [ExtTreeMap.getElem?_insert_self, promoteOnto]
      by_cases hlen : pending.transcript.length ≤ existing.transcript.length
      · refine ⟨realId, existing, _, rfl, ⟨Or.inr rfl, hr, ?_, ?_, ?_⟩, ?_⟩
        · simp [promotionDropped, hp, hr, hlen, hne]
        · rw [if_pos hlen]
          funext k
          cases k <;> rfl
        · rw [if_pos hlen, if_neg (Ne.symm hne)]
        · rintro other (rfl | rfl) hother
          · exact Or.inr (by simp [promotionDropped, hp, hr, hlen])
          · exact absurd rfl hother
      · refine ⟨pendingId, pending, _, rfl, ⟨Or.inl rfl, hp, ?_, ?_, ?_⟩, ?_⟩
        · simp [promotionDropped, hp, hr, hlen, Ne.symm hne]
        · rw [if_neg hlen]
          funext k
          cases k <;> rfl
        · rw [if_neg hlen, if_pos rfl]
        · rintro other (rfl | rfl) hother
          · exact absurd rfl hother
          · exact Or.inr (by simp [promotionDropped, hp, hr, hlen])

end survivor

section tables
variable {V : Type} (m : Table V) {pendingId realId : String}

theorem moveEntry_pending (hne : pendingId ≠ realId) :
    (moveEntry m pendingId realId)[pendingId]? = none := by
  unfold moveEntry
  cases hp : m[pendingId]? with
  | none => exact hp
  | some value => simp [Table.getElem?_insertIfNew_of, hne]

theorem moveEntry_real (hne : pendingId ≠ realId) :
    (moveEntry m pendingId realId)[realId]? = m[realId]?.or m[pendingId]? := by
  unfold moveEntry
  cases hp : m[pendingId]? with
  | none => simp
  | some value =>
    rw [Table.getElem?_insertIfNew_of, if_pos rfl, Table.getElem?_erase_of, if_neg (Ne.symm hne)]

theorem moveEntry_other {id : String} (hp : id ≠ pendingId) (hr : id ≠ realId) :
    (moveEntry m pendingId realId)[id]? = m[id]? := by
  unfold moveEntry
  cases m[pendingId]? with
  | none => rfl
  | some value => simp [Table.getElem?_insertIfNew_of, Table.getElem?_erase_of, hp, hr]

def overwriteEntry (m : Table V) (pendingId realId : String) : Table V :=
  match m[pendingId]? with
  | some value => (m.erase pendingId).insert realId value
  | none => m

theorem overwriteEntry_pending (hne : pendingId ≠ realId) :
    (overwriteEntry m pendingId realId)[pendingId]? = none := by
  unfold overwriteEntry
  cases hp : m[pendingId]? with
  | none => exact hp
  | some value => simp [Table.getElem?_insert_of, hne]

theorem overwriteEntry_real :
    (overwriteEntry m pendingId realId)[realId]? = m[pendingId]?.or m[realId]? := by
  unfold overwriteEntry
  cases m[pendingId]? with
  | none => simp
  | some value => simp

theorem overwriteEntry_other {id : String} (hp : id ≠ pendingId) (hr : id ≠ realId) :
    (overwriteEntry m pendingId realId)[id]? = m[id]? := by
  unfold overwriteEntry
  cases m[pendingId]? with
  | none => rfl
  | some value => simp [Table.getElem?_insert_of, Table.getElem?_erase_of, hp, hr]

theorem contains_of_none {m : Table V} {id : String} (h : m[id]? = none) : m.contains id = false := by
  simp [ExtTreeMap.contains_eq_isSome_getElem?, h]

end tables

/-- The last activity of a promoted thread, the later of the two that were noted. -/
def movedActivity (m : Table Nat) (pendingId realId : String) : Table Nat :=
  match m[pendingId]? with
  | some activity =>
    let m' := m.erase pendingId
    m'.insert realId (max (m'[realId]?.getD activity) activity)
  | none => m

theorem movedActivity_pending (m : Table Nat) {pendingId realId : String}
    (hne : pendingId ≠ realId) : (movedActivity m pendingId realId)[pendingId]? = none := by
  unfold movedActivity
  cases hp : m[pendingId]? with
  | none => exact hp
  | some activity => simp [Table.getElem?_insert_of, hne]

theorem movedActivity_real (m : Table Nat) {pendingId realId : String} (hne : pendingId ≠ realId) :
    (movedActivity m pendingId realId)[realId]? = Option.merge max m[realId]? m[pendingId]? := by
  unfold movedActivity
  cases hp : m[pendingId]? with
  | none => simp
  | some activity =>
    cases hr : m[realId]? with
    | none => simp [Table.getElem?_erase_of, hr, Ne.symm hne]
    | some own => simp [Table.getElem?_erase_of, hr, Ne.symm hne]

theorem movedActivity_other (m : Table Nat) {pendingId realId id : String} (hp : id ≠ pendingId)
    (hr : id ≠ realId) : (movedActivity m pendingId realId)[id]? = m[id]? := by
  unfold movedActivity
  cases m[pendingId]? with
  | none => rfl
  | some activity => simp [Table.getElem?_insert_of, Table.getElem?_erase_of, hp, hr]

theorem map_modifyFirst {α : Type} (f : ThreadSummaryView → α) {status : String}
    (hf : ∀ row, f { row with status := status } = f row) (threadId : String)
    (rows : List ThreadSummaryView) :
    (modifyFirst (·.id = threadId) (fun row => { row with status := status }) rows).map f =
      rows.map f := by
  induction rows with
  | nil => rfl
  | cons row rows ih =>
    unfold modifyFirst
    split_ifs with h
    · simp [hf]
    · simp [ih]

theorem filter_modifyFirst (threadId status : String) (rows : List ThreadSummaryView)
    (p : ThreadSummaryView → Bool) (hp : ∀ row, row.id = threadId → p row = false) :
    (modifyFirst (·.id = threadId) (fun row => { row with status := status }) rows).filter p =
      rows.filter p := by
  induction rows with
  | nil => rfl
  | cons row rows ih =>
    unfold modifyFirst
    split_ifs with h
    · have hid : row.id = threadId := by simpa using h
      rw [List.filter_cons_of_neg, List.filter_cons_of_neg]
      · simp [hp row hid]
      · simp [hp _ (show ({ row with status := status } : ThreadSummaryView).id = threadId from hid)]
    · by_cases hrow : p row
      · rw [List.filter_cons_of_pos hrow, List.filter_cons_of_pos hrow, ih]
      · rw [List.filter_cons_of_neg hrow, List.filter_cons_of_neg hrow, ih]

theorem promoteMeta_lastActivity (m : ThreadMeta) (pendingId realId : String) :
    (promoteMeta m pendingId realId).threadLastActivityAt =
      movedActivity m.threadLastActivityAt pendingId realId := by
  unfold promoteMeta movedActivity
  cases m.threadLastActivityAt[pendingId]? <;> rfl

section promoted
variable {s : RelayState} {pendingId realId : String} (now : Nat)

theorem promoteJobs_reviewJobs (j : ThreadJobs) (key : String) :
    (promoteJobs now j pendingId realId).reviewJobs[key]? =
      j.reviewJobs[key]?.map (ReviewJob.rename pendingId realId) := by
  simp only [promoteJobs, ExtTreeMap.getElem?_map]
  rfl

theorem promoteJobs_workflowJobs (j : ThreadJobs) (key : String) :
    (promoteJobs now j pendingId realId).workflowJobs[key]? =
      j.workflowJobs[key]?.map (WorkflowRun.rename pendingId realId) := by
  simp only [promoteJobs, ExtTreeMap.getElem?_map]
  rfl

theorem promoteJobs_teamRuns (j : ThreadJobs) (key : String) :
    (promoteJobs now j pendingId realId).teamRuns[key]? =
      j.teamRuns[key]?.map fun run => (run.rekeyThread now pendingId realId).1 := by
  simp only [promoteJobs, ExtTreeMap.getElem?_map]

theorem promoteJobs_reviewerThreads (j : ThreadJobs) :
    (promoteJobs now j pendingId realId).reviewerThreads =
      overwriteEntry j.reviewerThreads pendingId realId := by
  unfold promoteJobs overwriteEntry
  cases j.reviewerThreads[pendingId]? <;> rfl

theorem swap_eq_real (pendingId realId id : String) :
    swapThread pendingId realId id = realId ↔ id = pendingId ∨ id = realId := by
  unfold swapThread
  split_ifs with h
  · simp [h]
  · simp [h]

theorem exists_renamed_iff {V : Type} {m m' : Table V} {f : V → V} {P Q R : V → Prop}
    (hm : ∀ key : String, m'[key]? = m[key]?.map f) (hf : ∀ v, R (f v) ↔ P v ∨ Q v) :
    (∃ v ∈ m'.values, R v) ↔ (∃ v ∈ m.values, P v) ∨ ∃ v ∈ m.values, Q v := by
  constructor
  · rintro ⟨v', hv', hR⟩
    obtain ⟨key, hkey⟩ := Table.mem_values.mp hv'
    rw [hm, Option.map_eq_some_iff] at hkey
    obtain ⟨v, hv, rfl⟩ := hkey
    have hmem := Table.mem_values.mpr ⟨key, hv⟩
    rcases (hf v).mp hR with hP | hQ
    · exact Or.inl ⟨v, hmem, hP⟩
    · exact Or.inr ⟨v, hmem, hQ⟩
  · have hmap : ∀ v ∈ m.values, f v ∈ m'.values := by
      intro v hv
      obtain ⟨key, hkey⟩ := Table.mem_values.mp hv
      exact Table.mem_values.mpr ⟨key, by rw [hm, hkey]; rfl⟩
    rintro (⟨v, hv, hP⟩ | ⟨v, hv, hQ⟩)
    · exact ⟨f v, hmap v hv, (hf v).mpr (Or.inl hP)⟩
    · exact ⟨f v, hmap v hv, (hf v).mpr (Or.inr hQ)⟩

theorem reviewLock_iff {t : RelayState}
    (hjobs : t.jobs = promoteJobs now s.jobs pendingId realId) :
    t.isThreadReviewLocked realId ↔
      s.isThreadReviewLocked pendingId ∨ s.isThreadReviewLocked realId := by
  simp only [isThreadReviewLocked, hjobs, List.any_eq_true]
  refine exists_renamed_iff (promoteJobs_reviewJobs now s.jobs) ?_
  intro job
  have hparent := swap_eq_real pendingId realId job.parentThreadId
  have hreviewer : job.reviewerThreadId.map (swapThread pendingId realId) = some realId ↔
      job.reviewerThreadId = some pendingId ∨ job.reviewerThreadId = some realId := by
    cases job.reviewerThreadId with
    | none => simp
    | some id => simp [swap_eq_real]
  simp only [ReviewJob.rename, Bool.and_eq_true, Bool.or_eq_true, decide_eq_true_eq, hparent,
    hreviewer]
  tauto

theorem workflowLock_iff {t : RelayState}
    (hjobs : t.jobs = promoteJobs now s.jobs pendingId realId) :
    t.isThreadWorkflowLocked realId ↔
      s.isThreadWorkflowLocked pendingId ∨ s.isThreadWorkflowLocked realId := by
  simp only [isThreadWorkflowLocked, hjobs, List.any_eq_true]
  refine exists_renamed_iff (promoteJobs_workflowJobs now s.jobs) ?_
  intro run
  have hparent := swap_eq_real pendingId realId run.parentThreadId
  have hsteps : (∃ id ∈ (run.rename pendingId realId).stepThreads.values, id = realId) ↔
      (∃ id ∈ run.stepThreads.values, id = pendingId) ∨
        ∃ id ∈ run.stepThreads.values, id = realId := by
    refine exists_renamed_iff (f := swapThread pendingId realId) ?_ (swap_eq_real _ _)
    intro key
    simp [WorkflowRun.rename, ExtTreeMap.getElem?_map]
  simp only [WorkflowRun.rename, Bool.and_eq_true, Bool.or_eq_true, decide_eq_true_eq,
    List.any_eq_true, hparent] at hsteps ⊢
  rw [hsteps, ← and_or_left, or_or_or_comm]

theorem teamLock_iff (hp : pendingId ≠ "") (hr : realId ≠ "") (hne : pendingId ≠ realId)
    {t : RelayState} (hjobs : t.jobs = promoteJobs now s.jobs pendingId realId) :
    t.isThreadTeamLocked realId ↔
      s.isThreadTeamLocked pendingId ∨ s.isThreadTeamLocked realId := by
  simp only [isThreadTeamLocked, hjobs, List.any_eq_true]
  refine exists_renamed_iff (promoteJobs_teamRuns now s.jobs) ?_
  intro run
  have howned := owned_rekeyThread run now hp hr hne
  simp only [Bool.and_eq_true, List.any_eq_true, decide_eq_true_eq, exists_eq_right,
    live_rekeyThread, howned]
  tauto

theorem dropped_mem {id : String} (h : s.promotionDropped pendingId realId = some id) :
    id = pendingId ∨ id = realId := by
  unfold promotionDropped at h
  split at h
  · obtain rfl := Option.some.inj h
    split_ifs
    · exact Or.inl rfl
    · exact Or.inr rfl
  · cases h

theorem forkSource_ne (hne : pendingId ≠ realId) (hc : Promotable pendingId realId s)
    (key : String) : (moveEntry s.threadMeta.threadForkedFrom pendingId realId)[key]? ≠
      some pendingId := by
  intro h
  by_cases hkp : key = pendingId
  · rw [hkp, moveEntry_pending _ hne] at h
    cases h
  by_cases hkr : key = realId
  · rw [hkr, moveEntry_real _ hne, Option.or_eq_some_iff] at h
    rcases h with hreal | ⟨hnone, hpending⟩
    · exact hne (hc.forkSource realId hreal).1.symm
    · have hcontains := (hc.forkSource pendingId hpending).2
      rw [contains_of_none hnone] at hcontains
      cases hcontains
  · rw [moveEntry_other _ hkp hkr] at h
    exact hkp (hc.forkSource key h).1

theorem reviewerParent_ne (hne : pendingId ≠ realId) (hc : Promotable pendingId realId s)
    (key : String) (record : ReviewerThread)
    (h : (overwriteEntry s.jobs.reviewerThreads pendingId realId)[key]? = some record) :
    record.parentThreadId ≠ pendingId := by
  intro hparent
  by_cases hkp : key = pendingId
  · rw [hkp, overwriteEntry_pending _ hne] at h
    cases h
  by_cases hkr : key = realId
  · rw [hkr, overwriteEntry_real, Option.or_eq_some_iff] at h
    rcases h with hpending | ⟨hnone, hreal⟩
    · exact hne (hc.reviewerParent pendingId record hpending hparent).1
    · have hcontains := (hc.reviewerParent realId record hreal hparent).2
      rw [contains_of_none hnone] at hcontains
      cases hcontains
  · rw [overwriteEntry_other _ hkp hkr] at h
    exact hkr (hc.reviewerParent key record h hparent).1

theorem exists_runtime_of_held {u : RelayState} {id : String} {k : RequestKind}
    {requestId : String} (h : (u.held id k).contains requestId) :
    ∃ rt, u.runtimes[id]? = some rt ∧ (rt.requests k).contains requestId := by
  cases hrt : u.runtimes[id]? with
  | none => simp [held, hrt] at h
  | some rt => exact ⟨rt, rfl, by simpa [held, hrt] using h⟩

theorem map_swap_option {o : Option String} (h : o ≠ some pendingId) :
    o.map (swapThread pendingId realId) = o := by
  cases o with
  | none => rfl
  | some id =>
    have hid : id ≠ pendingId := fun he => h (by rw [he])
    simp [swapThread_of_ne hid]

theorem rename_record {record : ReviewerThread} (h : record.parentThreadId ≠ pendingId) :
    record.rename pendingId realId = record := by
  simp [ReviewerThread.rename, swapThread_of_ne h]

theorem reviewerThread_after (hne : pendingId ≠ realId) (hc : Promotable pendingId realId s) :
    (overwriteEntry s.jobs.reviewerThreads pendingId realId)[realId]? =
      (s.jobs.reviewerThreads[realId]?.or s.jobs.reviewerThreads[pendingId]?).map
        (ReviewerThread.rename pendingId realId) := by
  have hparent := reviewerParent_ne hne hc realId
  rw [overwriteEntry_real] at hparent ⊢
  cases hp : s.jobs.reviewerThreads[pendingId]? with
  | none =>
    rw [hp] at hparent
    cases hr : s.jobs.reviewerThreads[realId]? with
    | none => rfl
    | some own =>
      rw [hr] at hparent
      simp [rename_record (hparent own rfl)]
  | some moved =>
    rw [hp] at hparent
    cases hr : s.jobs.reviewerThreads[realId]? with
    | none => simp [rename_record (hparent moved rfl)]
    | some own => simp [hc.reviewerOwn moved own hp hr]

theorem renamesSeats (now : Nat) (hp : pendingId ≠ "") (hne : pendingId ≠ realId)
    (hc : Promotable pendingId realId s) {key : String} {run : Team.TeamRun}
    (hrun : s.jobs.teamRuns[key]? = some run) :
    RenamesSeats pendingId realId run (run.rekeyThread now pendingId realId).1 := by
  have hroles : (run.rekeyThread now pendingId realId).1.runOwnedThreadRoles =
      overwriteEntry run.runOwnedThreadRoles pendingId realId := by
    rw [roles_rekeyThread run now hp hne, overwriteEntry]
    cases run.runOwnedThreadRoles[pendingId]? <;> rfl
  constructor
  · exact seats_rekeyThread run now hp hne
  · rw [hroles, overwriteEntry_real]
    cases ha : run.runOwnedThreadRoles[pendingId]? with
    | none => simp
    | some a =>
      cases hb : run.runOwnedThreadRoles[realId]? with
      | none => rfl
      | some b => simp [hc.roleOwn key run a b hrun ha hb]
  · intro id hidp hidr
    rw [hroles, overwriteEntry_other _ hidp hidr]
  · unfold rekeyThread
    split_ifs <;> rfl
  · exact rekeyThread_of_not_mem now

section after
variable {t : RelayState} {now : Nat}
  (hm : (s.rekeyed now pendingId realId).MarksWorking t now realId)
include hm

theorem runtimes_other {id : String} (hp : id ≠ pendingId) (hr : id ≠ realId) :
    t.runtimes[id]? = s.runtimes[id]? :=
  (hm.other id hr).trans (promoteRuntime_other hp hr)

theorem runtimes_pending (hne : pendingId ≠ realId) : t.runtimes[pendingId]? = none :=
  (hm.other pendingId hne).trans (promoteRuntime_pending hne)

theorem runtimes_origin (hne : pendingId ≠ realId) {key : String} {rt : ThreadRuntime}
    (h : t.runtimes[key]? = some rt) :
    (key ≠ pendingId ∧ key ≠ realId ∧ s.runtimes[key]? = some rt) ∨
      FreshRuntime (s.threads.filter (·.id ≠ pendingId)) realId rt ∨
      ∃ id old, s.Survivor pendingId realId id old rt := by
  by_cases hkp : key = pendingId
  · subst hkp
    rw [runtimes_pending hm hne] at h
    cases h
  by_cases hkr : key = realId
  · subst hkr
    rcases promoteRuntime_real hne with ⟨hnone, -, -⟩ | ⟨id, old, rt', hget, hsurvivor, -⟩
    · obtain ⟨made, hmade, hfresh⟩ := hm.fresh hnone
      rw [hmade] at h
      obtain rfl := Option.some.inj h
      exact Or.inr (Or.inl hfresh)
    · rw [hm.kept rt' hget] at h
      obtain rfl := Option.some.inj h
      refine Or.inr (Or.inr ⟨id, old, hsurvivor.mem, hsurvivor.get, hsurvivor.survives, ?_,
        hsurvivor.summary⟩)
      rw [← hsurvivor.requests]
      funext k
      cases k <;> rfl
  · exact Or.inl ⟨hkp, hkr, (runtimes_other hm hkp hkr).symm.trans h⟩

theorem runtimes_survive (hne : pendingId ≠ realId) {id : String} {rt : ThreadRuntime}
    (h : s.runtimes[id]? = some rt) (hs : s.promotionDropped pendingId realId ≠ some id) :
    ∃ key rt', t.runtimes[key]? = some rt' ∧ rt'.requests = rt.requests ∧
      rt'.summary.map (·.forkedFrom) = rt.summary.map (·.forkedFrom) ∧
      (id ≠ pendingId → rt'.summary = rt.summary) ∧
      ((id = pendingId ∨ id = realId) → key = realId) := by
  by_cases hid : id = pendingId ∨ id = realId
  · rcases promoteRuntime_real (s := s) hne with
      ⟨-, hp, hr⟩ | ⟨kept, old, rt', hget, hsurvivor, hothers⟩
    · rcases hid with rfl | rfl
      · rw [hp] at h
        cases h
      · rw [hr] at h
        cases h
    · have hkept : id = kept := by
        by_contra hother
        rcases hothers id hid hother with hnone | hdropped
        · rw [hnone] at h
          cases h
        · exact hs hdropped
      subst hkept
      have hold : old = rt := Option.some.inj (hsurvivor.get.symm.trans h)
      subst hold
      refine ⟨realId, _, hm.kept rt' hget, ?_, hsurvivor.forks, ?_, fun _ => rfl⟩
      · rw [← hsurvivor.requests]
        funext k
        cases k <;> rfl
      · intro hne'
        have hsummary := hsurvivor.summary
        rw [if_neg hne'] at hsummary
        exact hsummary
  · simp only [not_or] at hid
    exact ⟨id, rt, (runtimes_other hm hid.1 hid.2).trans h, rfl, rfl, fun _ => rfl,
      fun h' => absurd h' (by simp [hid.1, hid.2])⟩

theorem requestThread_after (k : RequestKind) (requestId : String) :
    t.requestThread k requestId =
      (s.requestThread k requestId).map (swapThread pendingId realId) := by
  rw [requestThread, hm.requests]
  exact requestThread_rekeyed s now pendingId realId k requestId

/-- With nothing left behind in the places a promotion does not visit, the pending id is
named nowhere. -/
theorem unnamed_of_promotable (hp : pendingId ≠ "") (hne : pendingId ≠ realId)
    (hc : Promotable pendingId realId s) : ¬t.Names pendingId := by
  have hmeta : t.threadMeta = promoteMeta s.threadMeta pendingId realId := hm.threadMeta
  have hjobs : t.jobs = promoteJobs now s.jobs pendingId realId := hm.jobs
  have hsurvives : ∀ key : String, key ≠ pendingId → key ≠ realId →
      s.promotionDropped pendingId realId ≠ some key := by
    intro key hkp hkr hdropped
    rcases dropped_mem hdropped with h | h
    · exact hkp h
    · exact hkr h
  intro hnames
  cases hnames with
  | runtime h => simp [ExtTreeMap.contains_eq_isSome_getElem?, runtimes_pending hm hne] at h
  | runtimeSummary h hs hid =>
    rename_i key rt summary
    rcases runtimes_origin hm hne h with ⟨hkp, hkr, hold⟩ | hfresh | ⟨id, old, hsurvivor⟩
    · exact (hc.summaries key rt hold (hsurvives key hkp hkr) summary hs).2 hkp hid
    · exact hne (hid.symm.trans (hfresh.summary summary hs))
    · have hsummary := hsurvivor.summary
      by_cases hidp : id = pendingId
      · rw [if_pos hidp, hs] at hsummary
        obtain ⟨before, -, rfl⟩ := Option.map_eq_some_iff.mp hsummary.symm
        exact hne hid.symm
      · rw [if_neg hidp, hs] at hsummary
        exact (hc.summaries id old hsurvivor.get hsurvivor.survives summary hsummary.symm).2
          hidp hid
  | summaryFork h hs hid =>
    rename_i key rt summary
    rcases runtimes_origin hm hne h with ⟨hkp, hkr, hold⟩ | hfresh | ⟨id, old, hsurvivor⟩
    · exact (hc.summaries key rt hold (hsurvives key hkp hkr) summary hs).1 hid
    · obtain ⟨row, hrow, hfork⟩ := List.mem_map.mp (hfresh.fork summary hs pendingId hid)
      rw [List.mem_filter] at hrow
      exact absurd (hc.rows row hrow.1 hfork) (by simpa using hrow.2)
    · have hforks := hsurvivor.forks
      rw [hs, Option.map_some, hid] at hforks
      obtain ⟨before, hbefore, hfork⟩ := Option.map_eq_some_iff.mp hforks.symm
      exact (hc.summaries id old hsurvivor.get hsurvivor.survives before hbefore).1 hfork
  | runtimeRequest h hreq hid =>
    rename_i key rt k requestId p
    rcases runtimes_origin hm hne h with ⟨hkp, hkr, hold⟩ | hfresh | ⟨id, old, hsurvivor⟩
    · exact hc.requestCopies key rt hold (hsurvives key hkp hkr) k requestId p hreq hid
    · exact hne (hid.symm.trans (hfresh.requests k requestId p hreq))
    · rw [hsurvivor.requests] at hreq
      exact hc.requestCopies id old hsurvivor.get hsurvivor.survives k requestId p hreq hid
  | threadRow h hid =>
    rename_i row
    have hmem : pendingId ∈ t.threads.map (·.id) := hid ▸ List.mem_map_of_mem h
    rw [hm.threads, map_modifyFirst (·.id) fun _ => rfl] at hmem
    obtain ⟨before, hbefore, hbid⟩ := List.mem_map.mp hmem
    simp [rekeyed] at hbefore
    exact hbefore.2 hbid
  | rowFork h hid =>
    rename_i row
    have hmem : some pendingId ∈ t.threads.map (·.forkedFrom) := hid ▸ List.mem_map_of_mem h
    rw [hm.threads, map_modifyFirst (·.forkedFrom) fun _ => rfl] at hmem
    obtain ⟨before, hbefore, hfork⟩ := List.mem_map.mp hmem
    simp [rekeyed] at hbefore
    exact hbefore.2 (hc.rows before hbefore.1 hfork)
  | request h =>
    rw [requestThread_after hm] at h
    obtain ⟨id, -, hid⟩ := Option.map_eq_some_iff.mp h
    exact swapThread_ne hne id hid
  | settings h =>
    rw [hmeta] at h
    simp [promoteMeta, contains_of_none (moveEntry_pending _ hne)] at h
  | lastActivity h =>
    rw [hmeta] at h
    rw [promoteMeta_lastActivity, contains_of_none (movedActivity_pending _ hne)] at h
    cases h
  | project h =>
    rw [hmeta] at h
    simp [promoteMeta, contains_of_none (moveEntry_pending _ hne)] at h
  | customName h =>
    rw [hmeta] at h
    simp [promoteMeta, contains_of_none (moveEntry_pending _ hne)] at h
  | fork h =>
    rw [hmeta] at h
    simp [promoteMeta, contains_of_none (moveEntry_pending _ hne)] at h
  | forkSource h =>
    rename_i key
    rw [hmeta] at h
    exact forkSource_ne hne hc key h
  | workspace h =>
    rw [hmeta] at h
    simp [promoteMeta, contains_of_none (moveEntry_pending _ hne)] at h
  | reviewParent h hid =>
    rw [hjobs, promoteJobs_reviewJobs] at h
    obtain ⟨job, -, rfl⟩ := Option.map_eq_some_iff.mp h
    exact swapThread_ne hne _ hid
  | reviewer h hid =>
    rw [hjobs, promoteJobs_reviewJobs] at h
    obtain ⟨job, -, rfl⟩ := Option.map_eq_some_iff.mp h
    obtain ⟨id, -, hswap⟩ := Option.map_eq_some_iff.mp hid
    exact swapThread_ne hne _ hswap
  | workflowParent h hid =>
    rw [hjobs, promoteJobs_workflowJobs] at h
    obtain ⟨run, -, rfl⟩ := Option.map_eq_some_iff.mp h
    exact swapThread_ne hne _ hid
  | workflowStep h hid =>
    rw [hjobs, promoteJobs_workflowJobs] at h
    obtain ⟨run, -, rfl⟩ := Option.map_eq_some_iff.mp h
    simp only [WorkflowRun.rename, ExtTreeMap.getElem?_map] at hid
    obtain ⟨id, -, hswap⟩ := Option.map_eq_some_iff.mp hid
    exact swapThread_ne hne _ hswap
  | teamRun h hid =>
    rw [hjobs, promoteJobs_teamRuns] at h
    obtain ⟨run, -, rfl⟩ := Option.map_eq_some_iff.mp h
    exact not_mem_rekeyThread run now hp hne hid
  | reviewerThread h =>
    rw [hjobs, promoteJobs_reviewerThreads,
      contains_of_none (overwriteEntry_pending _ hne)] at h
    cases h
  | reviewerThreadParent h hid =>
    rename_i key record
    rw [hjobs, promoteJobs_reviewerThreads] at h
    exact reviewerParent_ne hne hc key record h hid
  | orchestrator h =>
    rw [hmeta] at h
    simp only [promoteMeta] at h
    split_ifs at h with hpin
    · exact hne (Option.some.inj h).symm
    · exact hpin h

theorem runtime_after (rt : ThreadRuntime) (hpending : s.runtimes[pendingId]? = some rt)
    (hreal : s.runtimes[realId]? = none) :
    t.runtimes[realId]? = some ((rt.rename realId).noteStatus now "active" []) := by
  apply hm.kept
  simp [rekeyed, promoteRuntime, hpending, hreal, ThreadRuntime.rename]

theorem heldRequests_after (hne : pendingId ≠ realId) (hc : Promotable pendingId realId s)
    (k : RequestKind) (requestId : String)
    (h : (s.held pendingId k).contains requestId ∨ (s.held realId k).contains requestId) :
    (t.held realId k).contains requestId := by
  obtain ⟨id, hid, hsurvives, hheld⟩ := hc.heldRequests k requestId h
  obtain ⟨rt, hrt, hcontains⟩ := exists_runtime_of_held hheld
  obtain ⟨key, rt', hget, hrequests, -, -, hkey⟩ := runtimes_survive hm hne hrt hsurvives
  obtain rfl := hkey hid
  simpa [held, hget, hrequests] using hcontains

/-- A promotion in a state that leaves nothing behind is complete. -/
theorem complete_of_promotable (hp : pendingId ≠ "") (hr : realId ≠ "") (hne : pendingId ≠ realId)
    (hc : Promotable pendingId realId s) : PromotionComplete pendingId realId now s t := by
  have hmeta : t.threadMeta = promoteMeta s.threadMeta pendingId realId := hm.threadMeta
  have hjobs : t.jobs = promoteJobs now s.jobs pendingId realId := hm.jobs
  constructor
  case unnamed => exact unnamed_of_promotable hm hp hne hc
  case lineage => simp [hmeta, promoteMeta]
  case runtime =>
    intro rt hpending hreal
    rw [runtime_after hm rt hpending hreal]
    rfl
  case heldRequests => exact heldRequests_after hm hne hc
  case requests => exact requestThread_after hm
  case settings => simp only [hmeta, promoteMeta, moveEntry_real _ hne]
  case lastActivity => rw [hmeta, promoteMeta_lastActivity, movedActivity_real _ hne]
  case project => simp only [hmeta, promoteMeta, moveEntry_real _ hne]
  case customName => simp only [hmeta, promoteMeta, moveEntry_real _ hne]
  case workspace => simp only [hmeta, promoteMeta, moveEntry_real _ hne]
  case fork =>
    have hsource := forkSource_ne hne hc realId
    rw [moveEntry_real _ hne] at hsource
    simp only [hmeta, promoteMeta, moveEntry_real _ hne]
    rw [map_swap_option hsource]
  case reviewerThread =>
    rw [hjobs, promoteJobs_reviewerThreads]
    exact reviewerThread_after hne hc
  case reviewJobs => exact fun key => by rw [hjobs, promoteJobs_reviewJobs]
  case workflowJobs => exact fun key => by rw [hjobs, promoteJobs_workflowJobs]
  case teamRuns =>
    intro key
    rw [hjobs, promoteJobs_teamRuns]
    cases hrun : s.jobs.teamRuns[key]? with
    | none => exact .none
    | some run => exact .some (renamesSeats now hp hne hc hrun)
  case orchestrator =>
    simp only [hmeta, promoteMeta]
    cases hpin : s.threadMeta.orchestratorThreadId with
    | none => simp
    | some id =>
      by_cases hid : id = pendingId
      · simp [hid, swapThread]
      · simp [hid, swapThread_of_ne hid]
  case otherRuntimes => exact fun id hidp hidr => runtimes_other hm hidp hidr
  case otherRows =>
    rw [hm.threads, filter_modifyFirst]
    · simp only [rekeyed, List.filter_filter]
      apply List.filter_congr
      intro row _
      by_cases hrow : row.id = pendingId <;> simp [hrow]
    · intro row hrow
      simp [hrow]
  case otherMeta =>
    intro id hidp hidr
    simp only [hmeta, promoteMeta_lastActivity, movedActivity_other _ hidp hidr]
    simp only [promoteMeta, moveEntry_other _ hidp hidr, Table.getElem?_insert_of, if_neg hidr]
    exact ⟨trivial, trivial, trivial, trivial, trivial, trivial⟩
  case otherForks =>
    intro id hidp hidr
    have hsource := forkSource_ne hne hc id
    rw [moveEntry_other _ hidp hidr] at hsource
    simp only [hmeta, promoteMeta, moveEntry_other _ hidp hidr]
    rw [map_swap_option hsource]
  case otherReviewers =>
    intro id hidp hidr
    have hparent := reviewerParent_ne hne hc id
    rw [overwriteEntry_other _ hidp hidr] at hparent
    rw [hjobs, promoteJobs_reviewerThreads, overwriteEntry_other _ hidp hidr]
    cases hrecord : s.jobs.reviewerThreads[id]? with
    | none => rfl
    | some record => simp [rename_record (hparent record hrecord)]
  case reviewLock => exact reviewLock_iff now hjobs
  case workflowLock => exact workflowLock_iff now hjobs
  case teamLock => exact teamLock_iff now hp hr hne hjobs

/-- A complete promotion was one that left nothing behind. -/
theorem promotable_of_complete (hp : pendingId ≠ "") (hne : pendingId ≠ realId)
    (hc : PromotionComplete pendingId realId now s t) : Promotable pendingId realId s := by
  have hmeta : t.threadMeta = promoteMeta s.threadMeta pendingId realId := hm.threadMeta
  have hjobs : t.jobs = promoteJobs now s.jobs pendingId realId := hm.jobs
  constructor
  case forkSource =>
    intro id hsource
    have hgone : ∀ key : String, (moveEntry s.threadMeta.threadForkedFrom pendingId realId)[key]? ≠
        some pendingId := by
      intro key h
      have hafter : t.threadMeta.threadForkedFrom[key]? = some pendingId := by
        rw [hmeta]
        exact h
      exact hc.unnamed (.forkSource hafter)
    by_cases hidr : id = realId
    · subst hidr
      refine absurd ?_ (hgone id)
      rw [moveEntry_real _ hne, hsource]
      rfl
    by_cases hidp : id = pendingId
    · subst hidp
      refine ⟨rfl, ?_⟩
      by_contra hnot
      rw [ExtTreeMap.contains_eq_isSome_getElem?, Option.not_isSome_iff_eq_none] at hnot
      apply hgone realId
      rw [moveEntry_real _ hne, hnot, hsource]
      rfl
    · refine absurd ?_ (hgone id)
      rw [moveEntry_other _ hidp hidr, hsource]
  case rows =>
    intro row hrow hfork
    by_contra hid
    have hmem : some pendingId ∈ t.threads.map (·.forkedFrom) := by
      rw [hm.threads, map_modifyFirst (·.forkedFrom) fun _ => rfl]
      exact List.mem_map.mpr ⟨row, by simp [rekeyed, hrow, hid], hfork⟩
    obtain ⟨after, hafter, hid⟩ := List.mem_map.mp hmem
    exact hc.unnamed (.rowFork hafter hid)
  case reviewerParent =>
    intro id record hrecord hparent
    have hgone : ∀ key : String,
        (overwriteEntry s.jobs.reviewerThreads pendingId realId)[key]? ≠ some record := by
      intro key h
      have hafter : t.jobs.reviewerThreads[key]? = some record := by
        rw [hjobs, promoteJobs_reviewerThreads]
        exact h
      exact hc.unnamed (.reviewerThreadParent hafter hparent)
    by_cases hidr : id = realId
    · subst hidr
      refine ⟨rfl, ?_⟩
      by_contra hnot
      rw [ExtTreeMap.contains_eq_isSome_getElem?, Option.not_isSome_iff_eq_none] at hnot
      apply hgone id
      rw [overwriteEntry_real, hnot, hrecord]
      rfl
    by_cases hidp : id = pendingId
    · subst hidp
      refine absurd ?_ (hgone realId)
      rw [overwriteEntry_real, hrecord]
      rfl
    · refine absurd ?_ (hgone id)
      rw [overwriteEntry_other _ hidp hidr, hrecord]
  case reviewerOwn =>
    intro a b ha hb
    have hreal := hc.reviewerThread
    rw [hjobs, promoteJobs_reviewerThreads, overwriteEntry_real, ha, hb] at hreal
    simpa using hreal
  case roleOwn =>
    intro key run a b hrun ha hb
    have hrel := hc.teamRuns key
    rw [hjobs, promoteJobs_teamRuns, hrun] at hrel
    cases hrel with
    | some hseats =>
      have hrole := hseats.role
      rw [roles_rekeyThread run now hp hne, ha, hb] at hrole
      simpa using hrole
  case requestCopies =>
    intro id rt hrt hsurvives k requestId p hreq hthread
    obtain ⟨key, rt', hget, hrequests, -⟩ := runtimes_survive hm hne hrt hsurvives
    rw [← hrequests] at hreq
    exact hc.unnamed (.runtimeRequest hget hreq hthread)
  case summaries =>
    intro id rt hrt hsurvives summary hsummary
    obtain ⟨key, rt', hget, -, hforks, hkept, -⟩ := runtimes_survive hm hne hrt hsurvives
    refine ⟨fun hfork => ?_, fun hidp hid => ?_⟩
    · rw [hsummary, Option.map_some, hfork] at hforks
      obtain ⟨after, hafter, hid⟩ := Option.map_eq_some_iff.mp hforks
      exact hc.unnamed (.summaryFork hget hafter hid)
    · rw [← hkept hidp] at hsummary
      exact hc.unnamed (.runtimeSummary hget hsummary hid)
  case heldRequests =>
    intro k requestId h
    rcases promoteRuntime_real (s := s) hne with
      ⟨-, hpnone, hrnone⟩ | ⟨id, old, rt', hget, hsurvivor, -⟩
    · simp [held, hpnone, hrnone] at h
    · refine ⟨id, hsurvivor.mem, hsurvivor.survives, ?_⟩
      have hafter := hc.heldRequests k requestId h
      have hrequests : (rt'.noteStatus now "active" []).requests k = old.requests k := by
        rw [← hsurvivor.requests]
        cases k <;> rfl
      simpa [held, hm.kept rt' hget, hsurvivor.get, hrequests] using hafter

end after

end promoted

end RelayState

end AgentRelay.Relay

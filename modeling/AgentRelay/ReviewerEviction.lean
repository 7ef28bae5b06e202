import AgentRelay.PromotionComplete
import AgentRelay.RestartRoundTrip

/-! Which reviewer threads of a parent are given up once there are too many. Reviewers carry the
number they were registered with; beside them a history keeps their ids in the order in which
they were registered. -/
namespace AgentRelay.Relay
open Std StepRun

namespace RelayState

def registerReviewerThreadWithNavigation (s : RelayState) (reviewerId parentId : String)
    (navigationVisible : Bool) : RelayState :=
  { s with jobs := { s.jobs with
      reviewerThreadSeq := s.jobs.reviewerThreadSeq + 1
      reviewerThreads := s.jobs.reviewerThreads.insert reviewerId
        ⟨parentId, s.jobs.reviewerThreadSeq, some navigationVisible⟩ } }

def registerReviewerThread (s : RelayState) (reviewerId parentId : String) : RelayState :=
  s.registerReviewerThreadWithNavigation reviewerId parentId false

def registerTaskReviewerThread (s : RelayState) (reviewerId parentId : String) : RelayState :=
  s.registerReviewerThreadWithNavigation reviewerId parentId true

def forgetReviewerThread (s : RelayState) (reviewerId : String) : RelayState × Option String :=
  ({ s with jobs := { s.jobs with
      reviewerThreads := s.jobs.reviewerThreads.erase reviewerId } },
    s.jobs.reviewerThreads[reviewerId]?.map (·.parentThreadId))

/-- Older reviewers come first; the id decides only between equal numbers. -/
def OlderFirst (a b : String × ℕ) : Prop := a.2 < b.2 ∨ a.2 = b.2 ∧ a.1 ≤ b.1

instance : DecidableRel OlderFirst := fun _ _ => inferInstanceAs (Decidable (_ ∨ _))

def isHiddenOf (parentId : String) (record : ReviewerThread) : Bool :=
  record.parentThreadId = parentId ∧ record.navigationVisible ≠ some true

/-- The reviewers that a review or workflow under way works with. -/
def protectedReviewers (s : RelayState) : List String :=
  (s.jobs.reviewJobs.values.filter fun job => !job.status.isTerminal).filterMap
      (·.reviewerThreadId) ++
    (s.jobs.workflowJobs.values.filter fun run => !run.status.isTerminal).flatMap
      (·.stepThreads.values)

/-- The first ids that are not protected. -/
def pickEvicted (kept : List String) : ℕ → List String → List String
  | 0, _ => []
  | _, [] => []
  | excess + 1, reviewer :: owned =>
    if kept.contains reviewer then pickEvicted kept (excess + 1) owned
    else reviewer :: pickEvicted kept excess owned

def reviewersToEvict (s : RelayState) (parentId : String) (keep : ℕ) : List String :=
  let owned := (s.jobs.reviewerThreads.toList.filter fun entry =>
    isHiddenOf parentId entry.2).map fun entry => (entry.1, entry.2.seq)
  if owned.length ≤ keep then []
  else pickEvicted s.protectedReviewers (owned.length - keep)
    ((owned.insertionSort OlderFirst).map (·.1))

/-- A review or a workflow run that is not over works with the thread. -/
def ReviewerInUse (s : RelayState) (id : String) : Prop :=
  (∃ (key : String) (job : ReviewJob), s.jobs.reviewJobs[key]? = some job ∧
    job.status.isTerminal = false ∧ job.reviewerThreadId = some id) ∨
  ∃ (key : String) (run : WorkflowRun), s.jobs.workflowJobs[key]? = some run ∧
    run.status.isTerminal = false ∧ ∃ step : String, run.stepThreads[step]? = some id

end RelayState

def seqOf (reviewers : Table ReviewerThread) (id : String) : ℕ :=
  (reviewers[id]?.map (·.seq)).getD 0

structure InOrder (reviewers : Table ReviewerThread) (order : List String) : Prop where
  nodup : order.Nodup
  mem : ∀ id, id ∈ order ↔ reviewers.contains id
  grows : order.Pairwise fun a b => seqOf reviewers a < seqOf reviewers b

def hiddenReviewers (reviewers : Table ReviewerThread) (order : List String) (parentId : String) :
    List String :=
  order.filter fun id => reviewers[id]?.any (RelayState.isHiddenOf parentId)

namespace RelayState
variable {s : RelayState} {order : List String}

theorem mem_protectedReviewers (id : String) :
    id ∈ s.protectedReviewers ↔ s.ReviewerInUse id := by
  simp only [protectedReviewers, ReviewerInUse, List.mem_append, List.mem_filterMap,
    List.mem_flatMap, List.mem_filter, Table.mem_values, Bool.not_eq_true']
  constructor
  · rintro (⟨job, ⟨⟨key, hkey⟩, hactive⟩, hid⟩ | ⟨run, ⟨⟨key, hkey⟩, hactive⟩, hid⟩)
    · exact .inl ⟨key, job, hkey, hactive, hid⟩
    · exact .inr ⟨key, run, hkey, hactive, hid⟩
  · rintro (⟨key, job, hkey, hactive, hid⟩ | ⟨key, run, hkey, hactive, hid⟩)
    · exact .inl ⟨job, ⟨⟨key, hkey⟩, hactive⟩, hid⟩
    · exact .inr ⟨run, ⟨⟨key, hkey⟩, hactive⟩, hid⟩

theorem pickEvicted_eq (kept : List String) (excess : ℕ) (owned : List String) :
    pickEvicted kept excess owned = (owned.filter (· ∉ kept)).take excess := by
  induction owned generalizing excess with
  | nil => cases excess <;> rfl
  | cons reviewer owned ih =>
    cases excess with
    | zero => rfl
    | succ excess =>
      rw [pickEvicted]
      by_cases hkept : reviewer ∈ kept
      · rw [if_pos (by simpa using hkept), ih, List.filter_cons_of_neg (by simpa using hkept)]
      · rw [if_neg (by simpa using hkept), ih, List.filter_cons_of_pos (by simpa using hkept),
          List.take_succ_cons]

theorem olderFirst_total (a b : String × ℕ) : OlderFirst a b ∨ OlderFirst b a := by
  unfold OlderFirst
  obtain hlt | heq | hgt := Nat.lt_trichotomy a.2 b.2
  · exact .inl (.inl hlt)
  · exact (String.le_total a.1 b.1).imp (fun h => .inr ⟨heq, h⟩) fun h => .inr ⟨heq.symm, h⟩
  · exact .inr (.inl hgt)

theorem olderFirst_trans {a b c : String × ℕ} (hab : OlderFirst a b) (hbc : OlderFirst b c) :
    OlderFirst a c := by
  obtain hab | ⟨heq, hab⟩ := hab
  · obtain hbc | ⟨heq, -⟩ := hbc
    · exact .inl (hab.trans hbc)
    · exact .inl (heq ▸ hab)
  · obtain hbc | ⟨heq', hbc⟩ := hbc
    · exact .inl (heq ▸ hbc)
    · exact .inr ⟨heq.trans heq', String.le_trans hab hbc⟩

theorem olderFirst_antisymm {a b : String × ℕ} (hab : OlderFirst a b) (hba : OlderFirst b a) :
    a = b := by
  unfold OlderFirst at hab hba
  have hseq : a.2 = b.2 := by omega
  have hid : a.1 = b.1 := String.le_antisymm (by simpa [hseq] using hab) (by simpa [hseq] using hba)
  exact Prod.ext hid hseq

theorem owned_sorted {reviewers : Table ReviewerThread} (h : InOrder reviewers order)
    (parentId : String) :
    ((reviewers.toList.filter fun entry => isHiddenOf parentId entry.2).map fun entry =>
        (entry.1, entry.2.seq)).insertionSort OlderFirst =
      (hiddenReviewers reviewers order parentId).map fun id => (id, seqOf reviewers id) := by
  have htotal : Std.Total OlderFirst := ⟨olderFirst_total⟩
  have htrans : IsTrans (String × ℕ) OlderFirst := ⟨fun _ _ _ => olderFirst_trans⟩
  have hkeys : (reviewers.toList.map Prod.fst).Nodup := by
    rw [List.Nodup, List.pairwise_map]
    refine ExtTreeMap.distinct_keys_toList.imp fun hne heq => hne ?_
    rw [heq]
    exact ReflCmp.compare_self
  have howned : ((reviewers.toList.filter fun entry => isHiddenOf parentId entry.2).map fun entry =>
      (entry.1, entry.2.seq)).Nodup := by
    refine List.Nodup.of_map Prod.fst ?_
    rw [List.map_map]
    exact hkeys.sublist (List.filter_sublist.map Prod.fst)
  have hhistory : ((hiddenReviewers reviewers order parentId).map fun id =>
      (id, seqOf reviewers id)).Nodup :=
    (h.nodup.filter _).map fun a b heq => congrArg Prod.fst heq
  have hperm := (List.perm_ext_iff_of_nodup howned hhistory).mpr ?_
  refine List.Perm.eq_of_pairwise (fun _ _ _ _ => olderFirst_antisymm)
    (List.pairwise_insertionSort OlderFirst _) ?_
    ((List.perm_insertionSort OlderFirst _).trans hperm)
  · rw [List.pairwise_map]
    exact (h.grows.filter _).imp fun hlt => .inl hlt
  · rintro ⟨id, seq⟩
    simp only [List.mem_map, List.mem_filter, hiddenReviewers, h.mem, Prod.mk.injEq]
    constructor
    · rintro ⟨⟨key, record⟩, ⟨hmem, hhidden⟩, rfl, rfl⟩
      rw [ExtTreeMap.mem_toList_iff_getElem?_eq_some] at hmem
      refine ⟨key, ⟨?_, ?_⟩, rfl, ?_⟩
      · rw [ExtTreeMap.contains_eq_isSome_getElem?, hmem]
        rfl
      · rw [hmem]
        exact hhidden
      · rw [seqOf, hmem]
        rfl
    · rintro ⟨key, ⟨-, hhidden⟩, rfl, rfl⟩
      obtain ⟨record, hrecord, hhidden⟩ := (Option.any_eq_true _ _).mp hhidden
      refine ⟨(key, record), ⟨?_, hhidden⟩, rfl, ?_⟩
      · exact ExtTreeMap.mem_toList_iff_getElem?_eq_some.mpr hrecord
      · rw [seqOf, hrecord]
        rfl

/-- The eviction takes the oldest reviewers of a parent that nothing works with, as many as there
are too many. -/
theorem reviewersToEvict_eq (h : InOrder s.jobs.reviewerThreads order) (parentId : String)
    (keep : ℕ) :
    s.reviewersToEvict parentId keep =
      ((hiddenReviewers s.jobs.reviewerThreads order parentId).filter
        (· ∉ s.protectedReviewers)).take
          ((hiddenReviewers s.jobs.reviewerThreads order parentId).length - keep) := by
  have hsorted := owned_sorted h parentId
  have hlength := congrArg List.length hsorted
  rw [List.length_insertionSort] at hlength
  have hids : ((hiddenReviewers s.jobs.reviewerThreads order parentId).map fun id =>
      (id, seqOf s.jobs.reviewerThreads id)).map (·.1) =
        hiddenReviewers s.jobs.reviewerThreads order parentId := by
    rw [List.map_map]
    exact List.map_id' _
  rw [reviewersToEvict, hsorted, hlength, hids, List.length_map, pickEvicted_eq]
  split_ifs with hfew
  · rw [Nat.sub_eq_zero_of_le hfew, List.take_zero]
  · rfl

end RelayState

structure ReviewerDesk where
  relay : RelayState
  saved : PersistedRelayState := {}
  order : List String := []
  savedOrder : List String := []

/-- What happens to the reviewers: `other` is anything that leaves them alone. -/
inductive ReviewerOp
  | register (reviewerId parentId : String)
  | registerTask (reviewerId parentId : String)
  | promote (now : ℕ) (pendingId realId : String)
  | forget (reviewerId : String)
  | other (relay : RelayState)
  | save (now : ℕ)
  | restart (now : ℕ) (currentCwd : String) (data : Option ThreadSyncData)

namespace ReviewerDesk

def opened (currentCwd : String) : ReviewerDesk := { relay := RelayState.new currentCwd }

/-- A registration puts an id last, whether it was registered before or not. -/
def registered (order : List String) (id : String) : List String := order.filter (· ≠ id) ++ [id]

/-- A promotion gives the place of one id to another. -/
def promoted (order : List String) (pendingId realId : String) : List String :=
  if pendingId = realId ∨ pendingId = "" ∨ realId = "" ∨ pendingId ∉ order then order
  else (order.filter (· ≠ realId)).map fun id => if id = pendingId then realId else id

def step (desk : ReviewerDesk) : ReviewerOp → ReviewerDesk
  | .register reviewerId parentId =>
    { desk with
      relay := desk.relay.registerReviewerThread reviewerId parentId
      order := registered desk.order reviewerId }
  | .registerTask reviewerId parentId =>
    { desk with
      relay := desk.relay.registerTaskReviewerThread reviewerId parentId
      order := registered desk.order reviewerId }
  | .promote now pendingId realId =>
    { desk with
      relay := desk.relay.promoteBackgroundThread now pendingId realId
      order := promoted desk.order pendingId realId }
  | .forget reviewerId =>
    { desk with
      relay := (desk.relay.forgetReviewerThread reviewerId).1
      order := desk.order.filter (· ≠ reviewerId) }
  | .other relay =>
    { desk with relay := { relay with jobs := { relay.jobs with
        reviewerThreads := desk.relay.jobs.reviewerThreads
        reviewerThreadSeq := desk.relay.jobs.reviewerThreadSeq } } }
  | .save now =>
    { desk with
      saved := .fromRelay now desk.relay
      savedOrder := desk.order.filter fun id => !isPendingId id }
  | .restart now currentCwd data =>
    { desk with
      relay := match data with
        | none => (RelayState.new currentCwd).applyPersisted now desk.saved
        | some data => (RelayState.new currentCwd).restoreThreadData now data desk.saved
      order := desk.savedOrder }

structure Ordered (desk : ReviewerDesk) : Prop where
  now : InOrder desk.relay.jobs.reviewerThreads desk.order
  saved : InOrder desk.saved.reviewerThreads desk.savedOrder
  fresh : ∀ (id : String) record, desk.relay.jobs.reviewerThreads[id]? = some record →
    record.seq < desk.relay.jobs.reviewerThreadSeq

end ReviewerDesk

section orders
variable {reviewers : Table ReviewerThread} {order : List String}

theorem InOrder.filter (h : InOrder reviewers order) (p : String → Bool) :
    InOrder (reviewers.filter fun id _ => p id) (order.filter p) := by
  have hget : ∀ id, p id = true → (reviewers.filter fun id _ => p id)[id]? = reviewers[id]? := by
    intro id hp
    rw [Table.getElem?_filter, hp]
    cases reviewers[id]? <;> rfl
  refine ⟨h.nodup.filter p, ?_, ?_⟩
  · intro id
    rw [List.mem_filter, h.mem, ExtTreeMap.contains_eq_isSome_getElem?,
      ExtTreeMap.contains_eq_isSome_getElem?]
    cases hp : p id with
    | true => simp [hget id hp]
    | false => simp [hp]
  · refine (h.grows.filter p).imp_of_mem ?_
    intro a b ha hb hlt
    rw [seqOf, seqOf, hget a (List.mem_filter.mp ha).2, hget b (List.mem_filter.mp hb).2]
    exact hlt

theorem InOrder.erase (h : InOrder reviewers order) (id : String) :
    InOrder (reviewers.erase id) (order.filter (· ≠ id)) := by
  have herase : reviewers.erase id = reviewers.filter fun k _ => decide (k ≠ id) := by
    apply ExtTreeMap.ext_getElem?
    intro k
    rw [Table.getElem?_erase_of, Table.getElem?_filter]
    split_ifs with hk
    · simp [hk]
    · rw [decide_eq_true hk]
      cases reviewers[k]? <;> rfl
  rw [herase]
  exact h.filter _

theorem seqOf_eq {id : String} {record : ReviewerThread} (h : reviewers[id]? = some record) :
    seqOf reviewers id = record.seq := by
  rw [seqOf, h]
  rfl

theorem InOrder.register (h : InOrder reviewers order) (id : String) (record : ReviewerThread)
    (hfresh : ∀ (k : String) r, reviewers[k]? = some r → r.seq < record.seq) :
    InOrder (reviewers.insert id record) (ReviewerDesk.registered order id) := by
  have hother : ∀ k, k ≠ id → (reviewers.insert id record)[k]? = reviewers[k]? := by
    intro k hk
    rw [Table.getElem?_insert_of, if_neg hk]
  have hself : (reviewers.insert id record)[id]? = some record := by simp
  have herase := h.erase id
  refine ⟨?_, ?_, ?_⟩
  · rw [ReviewerDesk.registered, ← List.concat_eq_append]
    exact herase.nodup.concat (by simp)
  · intro k
    rw [ReviewerDesk.registered, List.mem_append, List.mem_singleton, List.mem_filter, h.mem,
      ExtTreeMap.contains_eq_isSome_getElem?, ExtTreeMap.contains_eq_isSome_getElem?]
    by_cases hk : k = id
    · simp [hk]
    · rw [hother k hk]
      simp [hk]
  · rw [ReviewerDesk.registered, List.pairwise_append]
    refine ⟨?_, List.pairwise_singleton _ _, ?_⟩
    · refine (h.grows.filter _).imp_of_mem ?_
      intro a b ha hb hlt
      rw [seqOf, seqOf, hother a (by simpa using (List.mem_filter.mp ha).2),
        hother b (by simpa using (List.mem_filter.mp hb).2)]
      exact hlt
    · intro a ha b hb
      obtain ⟨hmem, hne⟩ := List.mem_filter.mp ha
      rw [List.mem_singleton.mp hb, seqOf_eq hself, seqOf, hother a (by simpa using hne)]
      have hcontains := (h.mem a).mp hmem
      rw [ExtTreeMap.contains_eq_isSome_getElem?, Option.isSome_iff_exists] at hcontains
      obtain ⟨r, hr⟩ := hcontains
      rw [hr]
      exact hfresh a r hr

/-- A promoted reviewer keeps its number and its place. -/
theorem InOrder.promote (h : InOrder reviewers order) {pendingId realId : String}
    (hids : ¬(pendingId = realId ∨ pendingId = "" ∨ realId = "")) :
    InOrder (RelayState.overwriteEntry reviewers pendingId realId)
      (ReviewerDesk.promoted order pendingId realId) := by
  have hne : pendingId ≠ realId := fun heq => hids (.inl heq)
  by_cases hmem : pendingId ∈ order
  · rw [ReviewerDesk.promoted, if_neg (by tauto)]
    have hcontains := (h.mem pendingId).mp hmem
    rw [ExtTreeMap.contains_eq_isSome_getElem?, Option.isSome_iff_exists] at hcontains
    obtain ⟨record, hrecord⟩ := hcontains
    set rename := fun id => if id = pendingId then realId else id with hrename
    have hkept : ∀ id ∈ order.filter (· ≠ realId), id ∈ order ∧ id ≠ realId := by
      intro id hid
      simpa using List.mem_filter.mp hid
    have hseq : ∀ id, id ≠ realId →
        (RelayState.overwriteEntry reviewers pendingId realId)[rename id]? = reviewers[id]? := by
      intro id hid
      by_cases hpending : id = pendingId
      · rw [hrename, hpending]
        dsimp only
        rw [if_pos rfl, RelayState.overwriteEntry_real, hrecord]
        rfl
      · rw [hrename]
        dsimp only
        rw [if_neg hpending, RelayState.overwriteEntry_other _ hpending hid]
    have hinjective : ∀ a b, a ≠ realId → b ≠ realId → rename a = rename b → a = b := by
      intro a b ha hb heq
      simp only [hrename] at heq
      split_ifs at heq with hpa hpb hpb
      · rw [hpa, hpb]
      · exact absurd heq.symm hb
      · exact absurd heq ha
      · exact heq
    refine ⟨?_, ?_, ?_⟩
    · rw [List.nodup_map_iff_inj_on (h.nodup.filter _)]
      intro a ha b hb heq
      exact hinjective a b (hkept a ha).2 (hkept b hb).2 heq
    · intro id
      rw [ExtTreeMap.contains_eq_isSome_getElem?, List.mem_map]
      by_cases hreal : id = realId
      · rw [hreal, RelayState.overwriteEntry_real, hrecord]
        refine iff_of_true ⟨pendingId, ?_, if_pos rfl⟩ rfl
        exact List.mem_filter.mpr ⟨hmem, by simpa using hne⟩
      by_cases hpending : id = pendingId
      · rw [hpending, RelayState.overwriteEntry_pending _ hne]
        refine iff_of_false ?_ Bool.false_ne_true
        rintro ⟨other, hother, heq⟩
        simp only [hrename] at heq
        split_ifs at heq with hsame
        · exact hne heq.symm
        · exact hsame heq
      · rw [RelayState.overwriteEntry_other _ hpending hreal,
          ← ExtTreeMap.contains_eq_isSome_getElem?, ← h.mem]
        constructor
        · rintro ⟨other, hother, heq⟩
          simp only [hrename] at heq
          split_ifs at heq with hsame
          · exact absurd heq.symm hreal
          · exact heq ▸ (hkept other hother).1
        · intro hid
          exact ⟨id, List.mem_filter.mpr ⟨hid, by simpa using hreal⟩, if_neg hpending⟩
    · rw [List.pairwise_map]
      refine (h.grows.filter _).imp_of_mem ?_
      intro a b ha hb hlt
      rw [seqOf, seqOf, hseq a (hkept a ha).2, hseq b (hkept b hb).2]
      exact hlt
  · have hnone : reviewers[pendingId]? = none := by
      rw [h.mem, ExtTreeMap.contains_eq_isSome_getElem?] at hmem
      simpa using hmem
    rw [ReviewerDesk.promoted, if_pos (.inr (.inr (.inr hmem))), RelayState.overwriteEntry, hnone]
    exact h

theorem exists_of_overwriteEntry {pendingId realId id : String} {record : ReviewerThread}
    (h : (RelayState.overwriteEntry reviewers pendingId realId)[id]? = some record) :
    ∃ key : String, reviewers[key]? = some record := by
  unfold RelayState.overwriteEntry at h
  split at h
  · next moved hmoved =>
    rw [Table.getElem?_insert_of, Table.getElem?_erase_of] at h
    split_ifs at h
    · exact ⟨pendingId, hmoved.trans h⟩
    · exact ⟨id, h⟩
  · exact ⟨id, h⟩

theorem InOrder.map (h : InOrder reviewers order) {f : String → ReviewerThread → ReviewerThread}
    (hseq : ∀ id record, (f id record).seq = record.seq) : InOrder (reviewers.map f) order := by
  have hget : ∀ id, seqOf (reviewers.map f) id = seqOf reviewers id := by
    intro id
    rw [seqOf, seqOf, ExtTreeMap.getElem?_map]
    cases reviewers[id]? with
    | none => rfl
    | some record => exact hseq id record
  refine ⟨h.nodup, ?_, ?_⟩
  · intro id
    rw [h.mem, ExtTreeMap.contains_map]
  · exact h.grows.imp fun hlt => by rwa [hget, hget]

end orders

namespace ReviewerDesk
variable {desk : ReviewerDesk}

theorem ordered_register (h : desk.Ordered) (reviewerId parentId : String) (visible : Bool) :
    InOrder (desk.relay.registerReviewerThreadWithNavigation reviewerId parentId
        visible).jobs.reviewerThreads (registered desk.order reviewerId) ∧
      ∀ (id : String) record, (desk.relay.registerReviewerThreadWithNavigation reviewerId parentId
        visible).jobs.reviewerThreads[id]? = some record →
          record.seq < desk.relay.jobs.reviewerThreadSeq + 1 := by
  refine ⟨h.now.register reviewerId _ h.fresh, ?_⟩
  intro id record hrecord
  change (desk.relay.jobs.reviewerThreads.insert reviewerId _)[id]? = some record at hrecord
  rw [Table.getElem?_insert_of] at hrecord
  split_ifs at hrecord
  · rw [← Option.some.inj hrecord]
    exact Nat.lt_succ_self _
  · exact (h.fresh id record hrecord).trans (Nat.lt_succ_self _)

theorem fresh_restored (saved : PersistedRelayState) (now : ℕ) (id : String)
    (record : ReviewerThread) (h : (saved.restoredJobs now).reviewerThreads[id]? = some record) :
    record.seq < (saved.restoredJobs now).reviewerThreadSeq := by
  simp only [PersistedRelayState.restoredJobs, PersistedRelayState.restoredReviewerThreads,
    ExtTreeMap.getElem?_map, Option.map_eq_some_iff] at h
  obtain ⟨before, hbefore, rfl⟩ := h
  have hmem : before.seq + 1 ∈ saved.reviewerThreads.values.map (·.seq + 1) :=
    List.mem_map.mpr ⟨before, Table.mem_values.mpr ⟨id, hbefore⟩, rfl⟩
  change before.seq < ((saved.reviewerThreads.values.map (·.seq + 1)).max?).getD 0
  cases hmax : (saved.reviewerThreads.values.map (·.seq + 1)).max? with
  | none =>
    rw [List.max?_eq_none_iff] at hmax
    rw [hmax] at hmem
    cases hmem
  | some largest => exact (List.max?_eq_some_iff.mp hmax).2 _ hmem

theorem restart_jobs (desk : ReviewerDesk) (now : ℕ) (currentCwd : String)
    (data : Option ThreadSyncData) :
    (desk.step (.restart now currentCwd data)).relay.jobs = desk.saved.restoredJobs now := by
  cases data with
  | none => rfl
  | some data => exact (RelayState.restoreThreadData_kept _ now data desk.saved).2.1

theorem promote_jobs (s : RelayState) (now : ℕ) {pendingId realId : String}
    (hids : ¬(pendingId = realId ∨ pendingId = "" ∨ realId = "")) :
    (s.promoteBackgroundThread now pendingId realId).jobs.reviewerThreads =
        RelayState.overwriteEntry s.jobs.reviewerThreads pendingId realId ∧
      (s.promoteBackgroundThread now pendingId realId).jobs.reviewerThreadSeq =
        s.jobs.reviewerThreadSeq := by
  rw [RelayState.promoteBackgroundThread, if_neg hids]
  dsimp only
  rw [(RelayState.marksWorking _ now realId).jobs]
  exact ⟨RelayState.promoteJobs_reviewerThreads now s.jobs, rfl⟩

theorem ordered_step (h : desk.Ordered) (op : ReviewerOp) : (desk.step op).Ordered := by
  cases op with
  | register reviewerId parentId =>
    obtain ⟨hnow, hfresh⟩ := ordered_register h reviewerId parentId false
    exact ⟨hnow, h.saved, hfresh⟩
  | registerTask reviewerId parentId =>
    obtain ⟨hnow, hfresh⟩ := ordered_register h reviewerId parentId true
    exact ⟨hnow, h.saved, hfresh⟩
  | promote now pendingId realId =>
    by_cases hids : pendingId = realId ∨ pendingId = "" ∨ realId = ""
    · have hrelay : desk.relay.promoteBackgroundThread now pendingId realId = desk.relay := by
        rw [RelayState.promoteBackgroundThread, if_pos hids]
      have horder : promoted desk.order pendingId realId = desk.order := by
        rw [promoted, if_pos (by tauto)]
      rw [step, hrelay, horder]
      exact h
    · obtain ⟨hthreads, hseq⟩ := promote_jobs desk.relay now hids
      refine ⟨?_, h.saved, ?_⟩
      · rw [step, hthreads]
        exact h.now.promote hids
      · intro id record hrecord
        rw [step, hthreads] at hrecord
        rw [step, hseq]
        obtain ⟨key, hkey⟩ := exists_of_overwriteEntry hrecord
        exact h.fresh key record hkey
  | forget reviewerId =>
    refine ⟨h.now.erase reviewerId, h.saved, ?_⟩
    intro id record hrecord
    change (desk.relay.jobs.reviewerThreads.erase reviewerId)[id]? = some record at hrecord
    rw [Table.getElem?_erase_of] at hrecord
    split_ifs at hrecord
    exact h.fresh id record hrecord
  | other relay => exact ⟨h.now, h.saved, h.fresh⟩
  | save now => exact ⟨h.now, h.now.filter _, h.fresh⟩
  | restart now currentCwd data =>
    have hjobs := desk.restart_jobs now currentCwd data
    refine ⟨?_, h.saved, ?_⟩
    · rw [hjobs]
      exact h.saved.map fun _ _ => rfl
    · rw [hjobs]
      exact fresh_restored desk.saved now

theorem ordered_opened (currentCwd : String) : (opened currentCwd).Ordered := by
  have hempty : InOrder (∅ : Table ReviewerThread) [] :=
    ⟨List.nodup_nil, fun id => by simp, List.Pairwise.nil⟩
  refine ⟨hempty, hempty, ?_⟩
  intro id record hrecord
  simp [opened, RelayState.new] at hrecord

structure EvictsOldest (desk : ReviewerDesk) (parentId : String) (keep : ℕ) : Prop where
  oldest : desk.relay.reviewersToEvict parentId keep =
    ((hiddenReviewers desk.relay.jobs.reviewerThreads desk.order parentId).filter
      (· ∉ desk.relay.protectedReviewers)).take
        ((hiddenReviewers desk.relay.jobs.reviewerThreads desk.order parentId).length - keep)
  nodup : (desk.relay.reviewersToEvict parentId keep).Nodup
  count : (desk.relay.reviewersToEvict parentId keep).length =
    min ((hiddenReviewers desk.relay.jobs.reviewerThreads desk.order parentId).length - keep)
      ((hiddenReviewers desk.relay.jobs.reviewerThreads desk.order parentId).filter
        (· ∉ desk.relay.protectedReviewers)).length
  idle : ∀ id ∈ desk.relay.reviewersToEvict parentId keep, ¬desk.relay.ReviewerInUse id
  hidden : ∀ id ∈ desk.relay.reviewersToEvict parentId keep, ∃ record : ReviewerThread,
    desk.relay.jobs.reviewerThreads[id]? = some record ∧ record.parentThreadId = parentId ∧
      record.navigationVisible ≠ some true

theorem evictsOldest (h : desk.Ordered) (parentId : String) (keep : ℕ) :
    desk.EvictsOldest parentId keep := by
  have heq := RelayState.reviewersToEvict_eq h.now parentId keep
  have hmem : ∀ id ∈ desk.relay.reviewersToEvict parentId keep,
      id ∈ hiddenReviewers desk.relay.jobs.reviewerThreads desk.order parentId ∧
        id ∉ desk.relay.protectedReviewers := by
    intro id hid
    rw [heq] at hid
    simpa using List.mem_filter.mp (List.mem_of_mem_take hid)
  refine ⟨heq, ?_, ?_, ?_, ?_⟩
  · rw [heq]
    exact (((h.now.nodup.filter _).filter _).sublist (List.take_sublist _ _))
  · rw [heq, List.length_take]
  · intro id hid huse
    exact (hmem id hid).2 ((RelayState.mem_protectedReviewers id).mpr huse)
  · intro id hid
    obtain ⟨record, hrecord, hhidden⟩ :=
      (Option.any_eq_true _ _).mp (List.mem_filter.mp (hmem id hid).1).2
    obtain ⟨hparent, hvisible⟩ := of_decide_eq_true hhidden
    exact ⟨record, hrecord, hparent, hvisible⟩

/-- In every state of every run the reviewers are numbered in the order of their registration,
and an eviction takes the oldest ones of a parent that nothing works with. -/
theorem reviewers_evicted_in_order (currentCwd : String) (ops : List ReviewerOp) :
    Always step (fun desk => InOrder desk.relay.jobs.reviewerThreads desk.order ∧
      ∀ parentId keep, desk.EvictsOldest parentId keep) (opened currentCwd) ops := by
  have hordered : Always step Ordered (opened currentCwd) ops :=
    always_of_step (P := fun _ _ => True) (fun _ op h _ => ordered_step h op)
      (ordered_opened currentCwd) (along_of_forall (fun _ _ => trivial) _ _)
  exact hordered.mono fun _ h => ⟨h.now, evictsOldest h⟩

end ReviewerDesk

end AgentRelay.Relay

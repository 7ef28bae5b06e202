import AgentRelay.AttentionTrackers
import AgentRelay.StepRun

/-! The relay's tracker and the page's, fed with the same snapshots: they report the same
transitions, a finished turn goes unpushed only for the error that ended it, and the page's
badges show who waits now. -/
namespace AgentRelay.Attention
open Text Relay StepRun Push Client Client.ThreadAttentionTracker

inductive AttentionOp
  | ingest (snapshot : SessionSnapshot) (viewedThreadId : Option String) (isForeground : Bool)
  | suppressCompleted (threadId : String)
  | clear (threadId : String)
  | clearViewedOnFocus (isForeground : Bool)
  deriving DecidableEq, Repr

inductive PushNote
  | suppressed (threadId : String)
  | started (threadId : String)
  | withheld (threadId : String)
  deriving DecidableEq, Repr

structure AttentionState where
  server : PushAttentionTracker := {}
  client : ThreadAttentionTracker := {}
  /-- History: the latest snapshot. -/
  latest : Option SessionSnapshot := none
  /-- History: the threads the user looked at since that snapshot came. -/
  viewed : List String := []
  /-- History: the thread that was in view last. -/
  inView : Option String := none
  /-- History: the suppressions, the starts the relay saw, and the notices it withheld. -/
  notes : List PushNote := []

namespace Push

def notesOf (prev : Option (Table ThreadState)) (next : Table ThreadState)
    (jobs : List PushJob) : List PushNote :=
  match prev with
  | none => []
  | some prev =>
    let ids := PushAttentionTracker.threadIds prev next
    (ids.filter (starts prev next)).map .started ++
      (ids.filter fun id => completes prev next id && ⟨.completed, id⟩ ∉ jobs).map .withheld

end Push

namespace AttentionState

def step (s : AttentionState) : AttentionOp → AttentionState
  | .ingest snapshot viewedThreadId isForeground =>
    let pushed := s.server.ingest snapshot
    { server := pushed.1
      client := (s.client.ingest snapshot viewedThreadId isForeground).1
      latest := some snapshot
      viewed := if isForeground then viewedThreadId.toList else []
      inView := (viewedThreadId.filter (· ≠ "")).or s.inView
      notes := s.notes ++ notesOf s.server.prev (Push.computeThreadStates snapshot) pushed.2 }
  | .suppressCompleted threadId =>
    { s with
      server := s.server.suppressCompleted threadId
      notes := s.notes ++ [.suppressed threadId] }
  | .clear threadId =>
    { s with client := s.client.clear threadId, viewed := threadId :: s.viewed }
  | .clearViewedOnFocus isForeground =>
    { s with
      client := s.client.clearViewedOnFocus isForeground
      viewed := if isForeground then s.inView.toList ++ s.viewed else s.viewed }

end AttentionState

def snapshots (ops : List AttentionOp) : List SessionSnapshot :=
  ops.filterMap fun
    | .ingest snapshot _ _ => some snapshot
    | _ => none

theorem mem_snapshots {ops : List AttentionOp} {snapshot : SessionSnapshot}
    {viewedThreadId : Option String} {isForeground : Bool}
    (h : .ingest snapshot viewedThreadId isForeground ∈ ops) : snapshot ∈ snapshots ops :=
  List.mem_filterMap.mpr ⟨_, h, rfl⟩

/-- Both sides report the same transitions at a snapshot. -/
def ReportsAlike (s : AttentionState) : AttentionOp → Prop
  | .ingest snapshot viewedThreadId isForeground =>
    (pushed (s.server.ingest snapshot).2).Perm
      (notified (s.client.ingest snapshot viewedThreadId isForeground).2)
  | _ => True

/-- A suppression of the thread is noted, and since then neither a start nor a notice it
swallowed. -/
def Armed (notes : List PushNote) (id : String) : Prop :=
  ∃ earlier since, notes = earlier ++ .suppressed id :: since
    ∧ .started id ∉ since ∧ .withheld id ∉ since

/-- Exactly the threads that wait in the latest snapshot and were not looked at since carry
the waiting badge; no thread that works in it carries the other. -/
def BadgesShow (s : AttentionState) : Prop :=
  ∀ snapshot ∈ s.latest, ∀ id,
    (s.client.attention.get id = some .needsInput ↔
      (Client.stateFor (Client.computeThreadStates snapshot) id).needsInput = true
        ∧ id ∉ s.viewed) ∧
    (s.client.attention.get id = some .completed →
      (Client.stateFor (Client.computeThreadStates snapshot) id).working = false)

structure AttentionAgrees (ops : List AttentionOp) : Prop where
  states : ∀ snapshot ∈ snapshots ops, SameStates snapshot
  transitions : (∀ id, .suppressCompleted id ∉ ops) →
    Along AttentionState.step ReportsAlike {} ops
  withheld : ∀ earlier id later,
    (run AttentionState.step {} ops).notes = earlier ++ .withheld id :: later →
      Armed earlier id
  badges : Always AttentionState.step BadgesShow {} ops

namespace AttentionState

structure Remembers (s : AttentionState) : Prop where
  server : s.server.prev = s.latest.map Push.computeThreadStates
  client : s.client.prev = s.latest.map Client.computeThreadStates
  lastViewed : s.client.lastViewed = s.inView
  active : ∀ snapshot ∈ s.latest, snapshot.activeThreadId ≠ some ""

/-- A snapshot of the kind the relay sends: its active thread, if any, has a name. -/
def Named : AttentionOp → Prop
  | .ingest snapshot _ _ => snapshot.activeThreadId ≠ some ""
  | _ => True

theorem prev_clear (t : ThreadAttentionTracker) (id : String) : (t.clear id).prev = t.prev := by
  rw [clear]
  split <;> rfl

theorem lastViewed_clear (t : ThreadAttentionTracker) (id : String) :
    (t.clear id).lastViewed = t.lastViewed := by
  rw [clear]
  split <;> rfl

theorem get_clear (t : ThreadAttentionTracker) {id : String} (hid : id ≠ "") (a : String) :
    (t.clear id).attention.get a = if a = id then none else t.attention.get a := by
  rw [clear]
  split
  · simp
  · rename_i h
    simp only [hid, ne_eq, not_false_eq_true, decide_true, Bool.true_and,
      Option.not_isSome_iff_eq_none] at h
    by_cases ha : a = id
    · rw [if_pos ha, ha, h]
    · rw [if_neg ha]

theorem prev_clearViewedOnFocus (t : ThreadAttentionTracker) (isForeground : Bool) :
    (t.clearViewedOnFocus isForeground).prev = t.prev := by
  unfold clearViewedOnFocus
  split
  · split <;> rfl
  · rfl

theorem lastViewed_clearViewedOnFocus (t : ThreadAttentionTracker) (isForeground : Bool) :
    (t.clearViewedOnFocus isForeground).lastViewed = t.lastViewed := by
  unfold clearViewedOnFocus
  split
  · split <;> rfl
  · rfl

theorem get_clearViewedOnFocus (t : ThreadAttentionTracker) (isForeground : Bool) (a : String) :
    (t.clearViewedOnFocus isForeground).attention.get a =
      if isForeground = true ∧ t.lastViewed = some a then none else t.attention.get a := by
  cases isForeground with
  | false => simp [clearViewedOnFocus]
  | true =>
    cases hlast : t.lastViewed with
    | none => simp [clearViewedOnFocus, hlast]
    | some id =>
      simp only [clearViewedOnFocus, hlast, true_and, Option.some.injEq, eq_comm (b := a)]
      split
      · simp
      · rename_i h
        by_cases ha : a = id
        · rw [if_pos ha, ha]
          exact Option.not_isSome_iff_eq_none.mp h
        · rw [if_neg ha]

theorem Remembers.step {s : AttentionState} (h : Remembers s) {o : AttentionOp}
    (ho : Named o) : Remembers (s.step o) := by
  cases o with
  | ingest snapshot viewedThreadId isForeground =>
    refine ⟨?_, rfl, ?_, ?_⟩
    · rw [AttentionState.step, PushAttentionTracker.ingest]
      cases hprev : s.server.prev with
      | none => rw [PushAttentionTracker.ingestStates_of_none hprev]; rfl
      | some prev => exact (PushAttentionTracker.ingestStates_of_prev hprev _).2.1
    · exact congrArg (truthy viewedThreadId).or h.lastViewed
    · rintro _ ⟨⟩
      exact ho
  | suppressCompleted id => exact ⟨h.server, h.client, h.lastViewed, h.active⟩
  | clear id =>
    exact ⟨h.server, (prev_clear s.client id).trans h.client,
      (lastViewed_clear s.client id).trans h.lastViewed, h.active⟩
  | clearViewedOnFocus isForeground =>
    exact ⟨h.server, (prev_clearViewedOnFocus s.client isForeground).trans h.client,
      (lastViewed_clearViewedOnFocus s.client isForeground).trans h.lastViewed, h.active⟩

theorem remembers_init : Remembers {} := ⟨rfl, rfl, rfl, fun _ h => by cases h⟩

section transitions

structure Unsuppressed (s : AttentionState) : Prop extends Remembers s where
  suppressed : s.server.suppressed = ∅
  same : ∀ snapshot ∈ s.latest, SameStates snapshot

/-- An operation that records no suppression, with a snapshot both sides read alike. -/
def Plain : AttentionOp → Prop
  | .ingest snapshot _ _ => snapshot.activeThreadId ≠ some "" ∧ SameStates snapshot
  | .suppressCompleted _ => False
  | _ => True

theorem Plain.named {o : AttentionOp} (h : Plain o) : Named o := by
  cases o with
  | ingest snapshot viewedThreadId isForeground => exact h.1
  | suppressCompleted id => exact h.elim
  | clear id => trivial
  | clearViewedOnFocus isForeground => trivial

theorem suppressed_ingest {t : PushAttentionTracker} (h : t.suppressed = ∅)
    (snapshot : SessionSnapshot) : (t.ingest snapshot).1.suppressed = ∅ := by
  rw [PushAttentionTracker.ingest]
  cases hprev : t.prev with
  | none => rw [PushAttentionTracker.ingestStates_of_none hprev, h]
  | some prev =>
    have hleft := (PushAttentionTracker.ingestStates_of_prev hprev
      (Push.computeThreadStates snapshot)).2.2
    apply Std.ExtTreeMap.ext_getElem?
    intro a
    rw [hleft a, h]
    split <;> simp

theorem Unsuppressed.step {s : AttentionState} (h : Unsuppressed s) {o : AttentionOp}
    (ho : Plain o) : Unsuppressed (s.step o) := by
  refine ⟨h.toRemembers.step ho.named, ?_, ?_⟩
  · cases o with
    | ingest snapshot viewedThreadId isForeground => exact suppressed_ingest h.suppressed snapshot
    | suppressCompleted id => exact ho.elim
    | clear id => exact h.suppressed
    | clearViewedOnFocus isForeground => exact h.suppressed
  · cases o with
    | ingest snapshot viewedThreadId isForeground =>
      rintro _ ⟨⟩
      exact ho.2
    | suppressCompleted id => exact ho.elim
    | clear id => exact h.same
    | clearViewedOnFocus isForeground => exact h.same

theorem Unsuppressed.reportsAlike {s : AttentionState} (h : Unsuppressed s) {o : AttentionOp}
    (ho : Plain o) : ReportsAlike s o := by
  cases o with
  | ingest snapshot viewedThreadId isForeground =>
    simp only [ReportsAlike, PushAttentionTracker.ingest, ingest, h.client]
    cases hlatest : s.latest with
    | none =>
      have hprev : s.server.prev = none := by rw [h.server, hlatest]; rfl
      rw [PushAttentionTracker.ingestStates_of_none hprev]
      exact List.Perm.refl _
    | some before =>
      have hprev : s.server.prev = some (Push.computeThreadStates before) := by
        rw [h.server, hlatest]; rfl
      rw [(PushAttentionTracker.ingestStates_of_prev hprev _).1, h.suppressed]
      exact pushed_perm_notified (h.same before hlatest) ho.2 _
  | suppressCompleted id => trivial
  | clear id => trivial
  | clearViewedOnFocus isForeground => trivial

end transitions

theorem ne_empty_of_working {snapshot : SessionSnapshot}
    (hactive : snapshot.activeThreadId ≠ some "") {a : String}
    (h : Client.stateFor (Client.computeThreadStates snapshot) a ≠ {}) : a ≠ "" := by
  intro he
  rw [Client.stateFor_computeThreadStates hactive, he, threadState_empty hactive] at h
  exact h rfl

theorem badges_ingest {snapshot : SessionSnapshot} (hactive : snapshot.activeThreadId ≠ some "")
    (t : ThreadAttentionTracker) (viewedThreadId : Option String) (isForeground : Bool)
    (a : String) :
    let after := (t.ingest snapshot viewedThreadId isForeground).1.attention.get a
    let st := Client.stateFor (Client.computeThreadStates snapshot) a
    (after = some .needsInput ↔
      st.needsInput = true ∧ ¬(isForeground = true ∧ viewedThreadId = some a))
      ∧ (after = some .completed → st.working = false) := by
  intro after st
  have hget := get_ingest t snapshot viewedThreadId isForeground a
  by_cases hview : isForeground = true ∧ truthy viewedThreadId = some a
  · have hviewed : viewedThreadId = some a := (Option.filter_eq_some_iff.mp hview.2).1
    rw [if_pos hview] at hget
    simp [after, hget, hview.1, hviewed]
  · rw [if_neg hview] at hget
    have hwait := get_reconcile_needsInput (Client.computeThreadStates snapshot)
      (fun id => !(isForeground && some id = viewedThreadId))
      (t.ingest snapshot viewedThreadId isForeground).2 t.attention a
    have hdone := of_get_reconcile_completed (a := a) (Client.computeThreadStates snapshot)
      (fun id => !(isForeground && some id = viewedThreadId))
      (t.ingest snapshot viewedThreadId isForeground).2 t.attention
    rw [← hget] at hwait hdone
    constructor
    · have haway : (!(isForeground && decide (some a = viewedThreadId))) = true
          ↔ ¬(isForeground = true ∧ viewedThreadId = some a) := by
        cases isForeground <;> simp [eq_comm (a := some a)]
      exact hwait.trans (and_congr_right fun _ => haway)
    · intro hcompleted
      by_contra hworking
      rw [Bool.not_eq_false] at hworking
      obtain ⟨-, haway⟩ := hdone hcompleted hworking
      simp only [Bool.not_eq_false', Bool.and_eq_true, decide_eq_true_eq] at haway
      have ha : a ≠ "" := by
        apply ne_empty_of_working hactive
        intro he
        simp [st, he] at hworking
      apply hview
      rw [← haway.2]
      exact ⟨haway.1, by simp [truthy, ha]⟩

theorem badgesShow_step {s : AttentionState} (hr : Remembers s) (h : BadgesShow s)
    {o : AttentionOp} (ho : Named o) : BadgesShow (s.step o) := by
  cases o with
  | ingest snapshot viewedThreadId isForeground =>
    rintro _ ⟨⟩ a
    have hbadges := badges_ingest ho s.client viewedThreadId isForeground a
    have hviewed : a ∉ (if isForeground then viewedThreadId.toList else [])
        ↔ ¬(isForeground = true ∧ viewedThreadId = some a) := by
      cases isForeground <;> simp
    simp only [AttentionState.step, hviewed]
    exact hbadges
  | suppressCompleted id => exact h
  | clear id =>
    intro snapshot hlatest a
    obtain ⟨hwait, hdone⟩ := h snapshot hlatest a
    by_cases hid : id = ""
    · -- Nothing is cleared, and no thread goes by this id.
      subst hid
      have hsame : s.client.clear "" = s.client := by simp [clear]
      have hviewed : a ∉ "" :: s.viewed ↔ a ≠ "" ∧ a ∉ s.viewed := by simp
      simp only [AttentionState.step, hsame, hviewed]
      refine ⟨hwait.trans ⟨fun hw => ⟨hw.1, ?_, hw.2⟩, fun hw => ⟨hw.1, hw.2.2⟩⟩, hdone⟩
      apply ne_empty_of_working (hr.active snapshot hlatest)
      intro he
      rw [he] at hw
      cases hw.1
    · have hget := get_clear s.client hid a
      have hviewed : a ∉ id :: s.viewed ↔ a ≠ id ∧ a ∉ s.viewed := by simp
      simp only [AttentionState.step, hget, hviewed]
      by_cases ha : a = id
      · simp [ha]
      · simpa [ha] using ⟨hwait, hdone⟩
  | clearViewedOnFocus isForeground =>
    intro snapshot hlatest a
    obtain ⟨hwait, hdone⟩ := h snapshot hlatest a
    have hget := get_clearViewedOnFocus s.client isForeground a
    rw [hr.lastViewed] at hget
    have hviewed : a ∉ (if isForeground then s.inView.toList ++ s.viewed else s.viewed)
        ↔ ¬(isForeground = true ∧ s.inView = some a) ∧ a ∉ s.viewed := by
      cases isForeground <;> simp
    simp only [AttentionState.step, hget, hviewed]
    by_cases ha : isForeground = true ∧ s.inView = some a
    · simp [ha]
    · simpa only [if_neg ha, ha, not_false_eq_true, true_and] using ⟨hwait, hdone⟩

end AttentionState

section notes

theorem Armed.append {notes new : List PushNote} {id : String} (h : Armed notes id)
    (hstart : .started id ∉ new) (hwithheld : .withheld id ∉ new) : Armed (notes ++ new) id := by
  obtain ⟨earlier, since, rfl, hs, hw⟩ := h
  refine ⟨earlier, since ++ new, by simp, ?_, ?_⟩
  · rw [List.mem_append, not_or]
    exact ⟨hs, hstart⟩
  · rw [List.mem_append, not_or]
    exact ⟨hw, hwithheld⟩

theorem withheld_append {notes new earlier later : List PushNote} {id : String}
    (h : notes ++ new = earlier ++ .withheld id :: later) :
    (∃ rest, notes = earlier ++ .withheld id :: rest)
      ∨ ∃ before, earlier = notes ++ before ∧ new = before ++ .withheld id :: later := by
  rcases List.append_eq_append_iff.mp h with ⟨before, he, hnew⟩ | ⟨rest, he, hnew⟩
  · exact Or.inr ⟨before, he, hnew⟩
  · cases rest with
    | nil => exact Or.inr ⟨[], by simpa using he.symm, by simpa using hnew.symm⟩
    | cons note rest =>
      obtain ⟨rfl, rfl⟩ := List.cons.inj hnew
      exact Or.inl ⟨rest, he⟩

variable {prev next : Table ThreadState} {jobs : List PushJob}

theorem started_mem_notesOf {id : String} :
    .started id ∈ notesOf (some prev) next jobs → starts prev next id = true := by
  intro h
  simp only [notesOf, List.mem_append, List.mem_map, List.mem_filter, PushNote.started.injEq,
    reduceCtorEq, and_false, exists_false, or_false] at h
  obtain ⟨_, ⟨-, hstart⟩, rfl⟩ := h
  exact hstart

theorem withheld_mem_notesOf {id : String} :
    .withheld id ∈ notesOf (some prev) next jobs →
      completes prev next id = true ∧ ⟨.completed, id⟩ ∉ jobs := by
  intro h
  simp only [notesOf, List.mem_append, List.mem_map, List.mem_filter, PushNote.withheld.injEq,
    reduceCtorEq, and_false, exists_false, false_or, Bool.and_eq_true, decide_eq_true_eq] at h
  obtain ⟨_, ⟨-, hdone⟩, rfl⟩ := h
  exact hdone

theorem nodup_notesOf (prev next : Table ThreadState) (jobs : List PushJob) :
    (notesOf (some prev) next jobs).Nodup := by
  have hids := PushAttentionTracker.nodup_threadIds prev next
  apply List.Nodup.append
  · exact (hids.filter _).map fun _ _ h => PushNote.started.inj h
  · exact (hids.filter _).map fun _ _ h => PushNote.withheld.inj h
  · intro note hs hw
    obtain ⟨_, -, rfl⟩ := List.mem_map.mp hs
    obtain ⟨_, -, he⟩ := List.mem_map.mp hw
    cases he

theorem isSome_of_withheld {suppressed : StringSet} {id : String}
    (hdone : completes prev next id = true)
    (h : ⟨.completed, id⟩ ∉
      (PushAttentionTracker.threadIds prev next).filterMap (pushOf prev next suppressed)) :
    (suppressed[id]?).isSome := by
  by_contra hnone
  apply h
  have hid : id ∈ PushAttentionTracker.threadIds prev next :=
    PushAttentionTracker.mem_threadIds_of_moves (by simp [hdone])
  refine List.mem_filterMap.mpr ⟨id, hid, ?_⟩
  have hcontains : suppressed.contains id = false := by
    rw [Std.ExtTreeMap.contains_eq_isSome_getElem?]
    exact (Bool.not_eq_true _).mp hnone
  simp only [completes, decide_eq_true_eq] at hdone
  simp [pushOf, hdone, hcontains]

end notes

namespace AttentionState

structure NotesHonest (s : AttentionState) : Prop where
  armed : ∀ id : String, (s.server.suppressed[id]?).isSome → Armed s.notes id
  withheld : ∀ earlier id later, s.notes = earlier ++ .withheld id :: later → Armed earlier id

theorem NotesHonest.ingest {s : AttentionState} (h : NotesHonest s)
    (snapshot : SessionSnapshot) (viewedThreadId : Option String) (isForeground : Bool) :
    NotesHonest (s.step (.ingest snapshot viewedThreadId isForeground)) := by
  cases hprev : s.server.prev with
  | none =>
    have hingest := PushAttentionTracker.ingestStates_of_none hprev
      (Push.computeThreadStates snapshot)
    simp only [AttentionState.step, PushAttentionTracker.ingest, hingest, hprev, notesOf,
      List.append_nil]
    exact ⟨h.armed, h.withheld⟩
  | some prev =>
    obtain ⟨hjobs, -, hleft⟩ := PushAttentionTracker.ingestStates_of_prev hprev
      (Push.computeThreadStates snapshot)
    simp only [AttentionState.step, PushAttentionTracker.ingest, hprev]
    constructor
    · intro id hid
      rw [hleft id] at hid
      split at hid
      · cases hid
      · rename_i hmoves
        simp only [Bool.or_eq_true, not_or] at hmoves
        apply (h.armed id hid).append
        · intro hstart
          exact hmoves.1 (started_mem_notesOf hstart)
        · intro hwithheld
          exact hmoves.2 (withheld_mem_notesOf hwithheld).1
    · intro earlier id later hsplit
      rcases withheld_append hsplit with ⟨rest, hold⟩ | ⟨before, rfl, hnew⟩
      · exact h.withheld earlier id rest hold
      · have hmem : .withheld id ∈ notesOf (some prev) (Push.computeThreadStates snapshot)
            (s.server.ingestStates (Push.computeThreadStates snapshot)).2 := by
          simp [hnew]
        obtain ⟨hdone, hunpushed⟩ := withheld_mem_notesOf hmem
        rw [hjobs] at hunpushed
        have hnodup := nodup_notesOf prev (Push.computeThreadStates snapshot)
          (s.server.ingestStates (Push.computeThreadStates snapshot)).2
        rw [hnew] at hnodup
        apply (h.armed id (isSome_of_withheld hdone hunpushed)).append
        · intro hstart
          have hstarts : starts prev (Push.computeThreadStates snapshot) id = true :=
            started_mem_notesOf (by rw [hnew]; exact List.mem_append_left _ hstart)
          rw [completes_eq_false_of_starts hstarts] at hdone
          cases hdone
        · intro hwithheld
          exact List.disjoint_of_nodup_append hnodup hwithheld (by simp)

theorem NotesHonest.step {s : AttentionState} (h : NotesHonest s) (o : AttentionOp) :
    NotesHonest (s.step o) := by
  cases o with
  | ingest snapshot viewedThreadId isForeground => exact h.ingest snapshot _ _
  | suppressCompleted id =>
    constructor
    · intro a ha
      simp only [AttentionState.step, PushAttentionTracker.suppressCompleted,
        Table.getElem?_insert_of] at ha
      by_cases he : a = id
      · exact ⟨s.notes, [], by rw [he]; rfl, by simp, by simp⟩
      · rw [if_neg he] at ha
        exact (h.armed a ha).append (by simp) (by simp)
    · intro earlier w later hsplit
      rcases withheld_append hsplit with ⟨rest, hold⟩ | ⟨before, -, hnew⟩
      · exact h.withheld earlier w rest hold
      · have hmem : .withheld w ∈ [PushNote.suppressed id] := by simp [hnew]
        simp at hmem
  | clear id => exact ⟨h.armed, h.withheld⟩
  | clearViewedOnFocus isForeground => exact ⟨h.armed, h.withheld⟩

theorem notesHonest_init : NotesHonest {} := by
  constructor
  · intro id hid
    simp at hid
  · intro earlier id later h
    simp at h

end AttentionState

/-- The two sides agree over a whole run just when, at every snapshot where it matters, they
read the status word alike. The notes and the badges are right in any case. -/
theorem attention_agrees (ops : List AttentionOp)
    (hactive : ∀ snapshot ∈ snapshots ops, snapshot.activeThreadId ≠ some "") :
    AttentionAgrees ops ↔ ∀ snapshot ∈ snapshots ops, StatusReadAlike snapshot := by
  constructor
  · intro h snapshot hmem
    exact (sameStates_iff (hactive snapshot hmem)).mp (h.states snapshot hmem)
  · intro halike
    have hsame : ∀ snapshot ∈ snapshots ops, SameStates snapshot :=
      fun snapshot hmem => (sameStates_iff (hactive snapshot hmem)).mpr (halike snapshot hmem)
    have hany : Along AttentionState.step (fun _ _ => True) {} ops :=
      along_of_forall (fun _ _ => trivial) _ ops
    have hnamed : ∀ o ∈ ops, AttentionState.Named o := by
      intro o ho
      cases o with
      | ingest snapshot viewedThreadId isForeground => exact hactive _ (mem_snapshots ho)
      | _ => trivial
    refine ⟨hsame, ?_, ?_, ?_⟩
    · intro hunsuppressed
      have hplain : ∀ o ∈ ops, AttentionState.Plain o := by
        intro o ho
        cases o with
        | ingest snapshot viewedThreadId isForeground =>
          exact ⟨hactive _ (mem_snapshots ho), hsame _ (mem_snapshots ho)⟩
        | suppressCompleted id => exact hunsuppressed id ho
        | clear id => trivial
        | clearViewedOnFocus isForeground => trivial
      apply along_of_step (I := AttentionState.Unsuppressed) _ _ (hany.and_mem hplain)
      · intro s o hs ho
        exact ⟨hs.step ho.2, hs.reportsAlike ho.2⟩
      · exact ⟨AttentionState.remembers_init, rfl, fun _ h => by cases h⟩
    · have hhonest := run_of_step (I := AttentionState.NotesHonest) (fun _ o h => h.step o)
        AttentionState.notesHonest_init ops
      exact hhonest.withheld
    · have hboth : Always AttentionState.step
          (fun s => AttentionState.Remembers s ∧ BadgesShow s) {} ops := by
        apply always_of_step _ _ (hany.and_mem hnamed)
        · intro s o hs ho
          exact ⟨hs.1.step ho.2, AttentionState.badgesShow_step hs.1 hs.2 ho.2⟩
        · exact ⟨AttentionState.remembers_init, fun _ h => by cases h⟩
      exact hboth.mono fun _ h => h.2

/-- A turn that ends in an error: its notice is withheld, once. -/
theorem attention_agrees_error :
    AttentionAgrees
      [.ingest { activeThreadId := some "t1", currentStatus := "active" } (some "t2") true,
        .suppressCompleted "t1",
        .ingest { activeThreadId := some "t1", currentStatus := "idle" } (some "t2") true] := by
  apply (attention_agrees _ (by decide)).mpr
  intro snapshot hmem id _ _ _
  apply statuses_alike_of_plain
  simp only [snapshots, List.filterMap_cons, List.filterMap_nil, List.mem_cons,
    List.not_mem_nil, or_false] at hmem
  rcases hmem with rfl | rfl <;> rfl

/-- A status behind a byte order mark is idle to the page and busy to the relay, which then
pushes the end of a turn that never ran. -/
theorem attention_disagrees_mark :
    ¬AttentionAgrees
      [.ingest { activeThreadId := some "t1", currentStatus := "\uFEFFidle" } none true,
        .ingest { activeThreadId := some "t1", currentStatus := "idle" } none true] := by
  intro h
  have hsame := h.states _ List.mem_cons_self "t1"
  revert hsame
  decide +kernel

end AgentRelay.Attention

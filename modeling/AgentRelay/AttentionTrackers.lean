import AgentRelay.AttentionStates

/-! One snapshot at a time: what it makes the relay push and the page report, and what it
leaves of the relay's suppressions and of the page's badges. -/
namespace AgentRelay.Attention
open Text Relay Push Client Client.ThreadAttentionTracker

namespace Push

def stateOf (states : Table ThreadState) (id : String) : ThreadState := states[id]?.getD {}

def starts (prev next : Table ThreadState) (id : String) : Bool :=
  !(stateOf prev id).working && (stateOf next id).working

def completes (prev next : Table ThreadState) (id : String) : Bool :=
  transition (stateOf prev id) (stateOf next id) = some .completed

end Push

def PushKind.toAttention : PushKind → AttentionKind
  | .needsInput => .needsInput
  | .completed => .completed

def pushed (jobs : List PushJob) : List (String × AttentionKind) :=
  jobs.map fun job => (job.threadId, PushKind.toAttention job.kind)

def notified (events : List AttentionEvent) : List (String × AttentionKind) :=
  events.map fun event => (event.threadId, event.kind)

namespace Push

def pushOf (prev next : Table ThreadState) (suppressed : StringSet) (id : String) :
    Option PushJob :=
  match transition (stateOf prev id) (stateOf next id) with
  | some .needsInput => some ⟨.needsInput, id⟩
  | some .completed => if suppressed.contains id then none else some ⟨.completed, id⟩
  | none => none

section thread
variable (prev next : Table ThreadState) (id : String)

def asks : Bool := (stateOf next id).needsInput && !(stateOf prev id).needsInput

def stops : Bool :=
  (stateOf prev id).working && !(stateOf next id).working && !(stateOf next id).needsInput

theorem completes_eq : completes prev next id = (!asks prev next id && stops prev next id) := by
  change decide ((if asks prev next id then some AttentionKind.needsInput
    else if stops prev next id then some .completed else none) = some .completed) = _
  cases asks prev next id <;> cases stops prev next id <;> rfl

theorem pushOf_eq (suppressed : StringSet) : pushOf prev next suppressed id =
    if asks prev next id then some ⟨.needsInput, id⟩
    else if stops prev next id then
      if suppressed.contains id then none else some ⟨.completed, id⟩
    else none := by
  change (match if asks prev next id then some AttentionKind.needsInput
    else if stops prev next id then some .completed else none with
    | some .needsInput => some (⟨.needsInput, id⟩ : PushJob)
    | some .completed => if suppressed.contains id then none else some ⟨.completed, id⟩
    | none => none) = _
  cases asks prev next id <;> cases stops prev next id <;> rfl

theorem not_starts_of_stops (h : stops prev next id = true) : starts prev next id = false := by
  simp only [stops, Bool.and_eq_true] at h
  simp [starts, h.1.1]

end thread

theorem completes_eq_false_of_starts {prev next : Table ThreadState} {id : String}
    (h : starts prev next id = true) : completes prev next id = false := by
  have hstops : stops prev next id ≠ true := by
    intro hstops
    rw [not_starts_of_stops prev next id hstops] at h
    cases h
  simp [completes_eq, hstops]

namespace PushAttentionTracker
variable (prev next : Table ThreadState)

theorem ingestThread_eq (acc : StringSet × List PushJob) (id : String) :
    ingestThread prev next acc id =
      let suppressed := if starts prev next id then acc.1.erase id else acc.1
      if asks prev next id then (suppressed, acc.2 ++ [⟨.needsInput, id⟩])
      else if stops prev next id then
        if suppressed.contains id then (suppressed.erase id, acc.2)
        else (suppressed, acc.2 ++ [⟨.completed, id⟩])
      else (suppressed, acc.2) := rfl

theorem snd_ingestThread (acc : StringSet × List PushJob) (id : String) :
    (ingestThread prev next acc id).2 = acc.2 ++ (pushOf prev next acc.1 id).toList := by
  rw [ingestThread_eq, pushOf_eq]
  cases hasks : asks prev next id with
  | true => simp
  | false =>
    cases hstops : stops prev next id with
    | true =>
      have hstart := not_starts_of_stops prev next id hstops
      by_cases hmem : acc.1.contains id = true <;> simp [hstart, hmem]
    | false => simp

theorem fst_ingestThread (acc : StringSet × List PushJob) (id a : String) :
    (ingestThread prev next acc id).1[a]? =
      if a = id ∧ (starts prev next id || completes prev next id) then none else acc.1[a]? := by
  rw [ingestThread_eq, completes_eq]
  cases hasks : asks prev next id with
  | true => cases starts prev next id <;> simp [Table.getElem?_erase_of]
  | false =>
    cases hstops : stops prev next id with
    | true =>
      have hstart := not_starts_of_stops prev next id hstops
      by_cases hmem : acc.1.contains id = true
      · simp [hstart, hmem, Table.getElem?_erase_of]
      · have hnone : acc.1[id]? = none := by
          rw [Std.ExtTreeMap.contains_eq_isSome_getElem?] at hmem
          exact Option.not_isSome_iff_eq_none.mp hmem
        by_cases ha : a = id
        · subst ha
          simp [hstart, hmem, hnone]
        · simp [hstart, hmem, ha]
    | false => cases starts prev next id <;> simp [Table.getElem?_erase_of]

theorem pushOf_congr {suppressed suppressed' : StringSet} {id : String}
    (h : suppressed[id]? = suppressed'[id]?) :
    pushOf prev next suppressed id = pushOf prev next suppressed' id := by
  rw [pushOf_eq, pushOf_eq, Std.ExtTreeMap.contains_eq_isSome_getElem?,
    Std.ExtTreeMap.contains_eq_isSome_getElem?, h]

theorem foldl_ingestThread {ids : List String} (hnodup : ids.Nodup)
    (acc : StringSet × List PushJob) :
    (ids.foldl (ingestThread prev next) acc).2
        = acc.2 ++ ids.filterMap (pushOf prev next acc.1)
      ∧ ∀ a, (ids.foldl (ingestThread prev next) acc).1[a]? =
        if a ∈ ids ∧ (starts prev next a || completes prev next a) then none else acc.1[a]? := by
  induction ids generalizing acc with
  | nil => simp
  | cons id ids ih =>
    obtain ⟨hid, hids⟩ := List.nodup_cons.mp hnodup
    obtain ⟨hjobs, hsuppressed⟩ := ih hids (ingestThread prev next acc id)
    constructor
    · have hrest : ids.filterMap (pushOf prev next (ingestThread prev next acc id).1)
          = ids.filterMap (pushOf prev next acc.1) := by
        apply List.filterMap_congr
        intro a ha
        have hne : a ≠ id := fun he => hid (he ▸ ha)
        apply pushOf_congr
        rw [fst_ingestThread, if_neg (fun h => hne h.1)]
      rw [List.foldl_cons, hjobs, hrest, snd_ingestThread, List.filterMap_cons]
      cases pushOf prev next acc.1 id <;> simp
    · intro a
      rw [List.foldl_cons, hsuppressed a, fst_ingestThread]
      by_cases ha : a = id
      · subst ha
        simp [hid]
      · simp [ha]

theorem mem_threadIds {id : String} :
    id ∈ threadIds prev next ↔ prev[id]?.isSome ∨ next[id]?.isSome := by
  rw [threadIds, (List.mergeSort_perm _ _).mem_iff, List.mem_dedup, List.mem_append,
    Std.ExtTreeMap.mem_keys, Std.ExtTreeMap.mem_keys,
    Std.ExtTreeMap.mem_iff_isSome_getElem?, Std.ExtTreeMap.mem_iff_isSome_getElem?]

theorem nodup_threadIds : (threadIds prev next).Nodup :=
  (List.mergeSort_perm _ _).nodup_iff.mpr (List.nodup_dedup _)

theorem mem_threadIds_of_moves {prev next : Table ThreadState} {id : String}
    (h : starts prev next id || completes prev next id) : id ∈ threadIds prev next := by
  rw [mem_threadIds]
  by_contra hnot
  rw [not_or, Option.not_isSome_iff_eq_none, Option.not_isSome_iff_eq_none] at hnot
  simp [starts, completes, transition, stateOf, hnot.1, hnot.2] at h

theorem ingestStates_of_prev {t : PushAttentionTracker} {prev : Table ThreadState}
    (h : t.prev = some prev) (next : Table ThreadState) :
    (t.ingestStates next).2 = (threadIds prev next).filterMap (pushOf prev next t.suppressed)
      ∧ (t.ingestStates next).1.prev = some next
      ∧ ∀ a, (t.ingestStates next).1.suppressed[a]? =
        if starts prev next a || completes prev next a then none else t.suppressed[a]? := by
  obtain ⟨hjobs, hsuppressed⟩ :=
    foldl_ingestThread prev next (nodup_threadIds prev next) (t.suppressed, [])
  simp only [ingestStates, h]
  refine ⟨hjobs, trivial, ?_⟩
  intro a
  rw [hsuppressed a]
  by_cases hmoves : (starts prev next a || completes prev next a) = true
  · rw [if_pos ⟨mem_threadIds_of_moves hmoves, hmoves⟩, if_pos hmoves]
  · rw [if_neg (fun hm => hmoves hm.2), if_neg hmoves]

theorem ingestStates_of_none {t : PushAttentionTracker} (h : t.prev = none)
    (next : Table ThreadState) : t.ingestStates next = (⟨some next, t.suppressed⟩, []) := by
  simp only [ingestStates, h]

end PushAttentionTracker

end Push

section transitions
variable {prev next : Table ThreadState} {prev' next' : InsertionMap String ThreadState}

theorem Client.mem_threadIds {id : String} : id ∈ ThreadAttentionTracker.threadIds prev' next' ↔
    (prev'.get id).isSome ∨ (next'.get id).isSome := by
  simp only [ThreadAttentionTracker.threadIds, List.mem_append, List.mem_filter,
    InsertionMap.mem_keys]
  cases (prev'.get id).isSome <;> simp

theorem Client.nodup_threadIds : (ThreadAttentionTracker.threadIds prev' next').Nodup := by
  apply List.Nodup.append prev'.nodup_keys (next'.nodup_keys.filter _)
  intro id hprev hnext
  have hnot : id ∉ prev'.keys := by simpa using (List.mem_filter.mp hnext).2
  exact hnot hprev

theorem pushed_filterMap (ids : List String) :
    pushed (ids.filterMap (pushOf prev next ∅)) = ids.filterMap fun id =>
      (transition (stateOf prev id) (stateOf next id)).map fun kind => (id, kind) := by
  rw [pushed, List.map_filterMap]
  apply List.filterMap_congr
  intro id _
  rw [pushOf]
  cases transition (stateOf prev id) (stateOf next id) with
  | none => rfl
  | some kind => cases kind <;> simp [PushKind.toAttention]

theorem notified_events (away : String → Bool) :
    notified (events prev' next' away) =
      (ThreadAttentionTracker.threadIds prev' next').filterMap fun id =>
        (transition (Client.stateFor prev' id) (Client.stateFor next' id)).map
          fun kind => (id, kind) := by
  rw [notified, events, List.map_filterMap]
  apply List.filterMap_congr
  intro id _
  rw [Option.map_map]
  rfl

/-- Over maps that hold the same entries the two sides report the same transitions, each in
an order of its own. -/
theorem pushed_perm_notified (hprev : ∀ id : String, prev[id]? = prev'.get id)
    (hnext : ∀ id : String, next[id]? = next'.get id) (away : String → Bool) :
    (pushed ((PushAttentionTracker.threadIds prev next).filterMap (pushOf prev next ∅))).Perm
      (notified (events prev' next' away)) := by
  have hids : (PushAttentionTracker.threadIds prev next).Perm
      (ThreadAttentionTracker.threadIds prev' next') := by
    apply (List.perm_ext_iff_of_nodup (PushAttentionTracker.nodup_threadIds prev next)
      Client.nodup_threadIds).mpr
    intro id
    rw [PushAttentionTracker.mem_threadIds, Client.mem_threadIds, hprev, hnext]
  have hstates : ∀ id, stateOf prev id = Client.stateFor prev' id
      ∧ stateOf next id = Client.stateFor next' id := by
    intro id
    rw [stateOf, stateOf, hprev, hnext]
    exact ⟨rfl, rfl⟩
  rw [pushed_filterMap, notified_events]
  simp only [hstates]
  exact hids.filterMap _

end transitions

namespace Client

namespace Badges

@[simp] theorem get_setKind (b : Badges) (id a : String) (kind : AttentionKind) :
    (b.setKind id kind).attention.get a = if a = id then some kind else b.attention.get a := by
  rw [setKind]
  split
  · simp
  · rename_i h
    rw [not_not] at h
    by_cases ha : a = id
    · rw [if_pos ha, ha, h]
    · rw [if_neg ha]

@[simp] theorem get_dropKind (b : Badges) (id a : String) :
    (b.dropKind id).attention.get a = if a = id then none else b.attention.get a := by
  rw [dropKind]
  split
  · simp
  · rename_i h
    by_cases ha : a = id
    · rw [if_pos ha, ha]
      exact Option.not_isSome_iff_eq_none.mp h
    · rw [if_neg ha]

end Badges

namespace ThreadAttentionTracker
variable (next : InsertionMap String ThreadState) (away : String → Bool)

def waitingBadge (id : String) (st : ThreadState) (badge : Option AttentionKind) :
    Option AttentionKind :=
  if st.needsInput && away id then some .needsInput
  else if badge = some .needsInput then none else badge

def vanishedBadge (id : String) (kind : AttentionKind) (badge : Option AttentionKind) :
    Option AttentionKind :=
  if kind = .needsInput && !(next.get id).any (·.needsInput) then none else badge

def resumedBadge (st : ThreadState) (badge : Option AttentionKind) : Option AttentionKind :=
  if st.working && !st.needsInput && badge = some .completed then none else badge

theorem get_markWaiting (b : Badges) (k : String) (st : ThreadState) (a : String) :
    (markWaiting away b (k, st)).attention.get a =
      if a = k then waitingBadge away k st (b.attention.get a) else b.attention.get a := by
  rw [markWaiting, waitingBadge]
  by_cases ha : a = k
  · subst ha
    split_ifs <;> simp_all
  · split_ifs <;> simp [ha]

theorem get_dropVanished (b : Badges) (k : String) (kind : AttentionKind) (a : String) :
    (dropVanished next b (k, kind)).attention.get a =
      if a = k then vanishedBadge next k kind (b.attention.get a) else b.attention.get a := by
  rw [dropVanished, vanishedBadge]
  split_ifs <;> simp_all

theorem get_dropResumed (b : Badges) (k : String) (st : ThreadState) (a : String) :
    (dropResumed b (k, st)).attention.get a =
      if a = k then resumedBadge st (b.attention.get a) else b.attention.get a := by
  rw [dropResumed, resumedBadge]
  by_cases ha : a = k
  · subst ha
    split_ifs <;> simp_all
  · split_ifs <;> simp [ha]

theorem get_foldl_markWaiting (b : Badges) (a : String) :
    (next.entries.foldl (markWaiting away) b).attention.get a =
      (next.get a).elim (b.attention.get a) fun st => waitingBadge away a st (b.attention.get a) :=
  InsertionMap.foldl_entries (fun b a => b.attention.get a) (markWaiting away)
    (waitingBadge away) (get_markWaiting away) next b a

theorem get_foldl_dropVanished (b : Badges) (a : String) :
    (b.attention.entries.foldl (dropVanished next) b).attention.get a =
      (b.attention.get a).elim (b.attention.get a) fun kind =>
        vanishedBadge next a kind (b.attention.get a) :=
  InsertionMap.foldl_entries (fun b a => b.attention.get a) (dropVanished next)
    (vanishedBadge next) (get_dropVanished next) b.attention b a

theorem get_foldl_dropResumed (b : Badges) (a : String) :
    (next.entries.foldl dropResumed b).attention.get a =
      (next.get a).elim (b.attention.get a) fun st => resumedBadge st (b.attention.get a) :=
  InsertionMap.foldl_entries (fun b a => b.attention.get a) dropResumed
    (fun _ => resumedBadge) get_dropResumed next b a

theorem get_markCompleted_needsInput (es : List AttentionEvent) (b : Badges) (a : String) :
    (es.foldl markCompleted b).attention.get a = some .needsInput ↔
      b.attention.get a = some .needsInput := by
  induction es generalizing b with
  | nil => rfl
  | cons e es ih =>
    rw [List.foldl_cons, ih, markCompleted]
    split
    · rename_i h
      simp only [Bool.and_eq_true, decide_eq_true_eq] at h
      rw [Badges.get_setKind]
      by_cases ha : a = e.threadId
      · subst ha
        simp [h.2]
      · rw [if_neg ha]
    · rfl

theorem get_live (b : Badges) (a : String) :
    let marked := next.entries.foldl (markWaiting away) b
    (marked.attention.entries.foldl (dropVanished next) marked).attention.get a
        = some .needsInput ↔ (stateFor next a).needsInput = true ∧ away a = true := by
  intro marked
  rw [get_foldl_dropVanished, get_foldl_markWaiting, stateFor]
  cases hst : next.get a with
  | none =>
    cases hb : b.attention.get a with
    | none => simp
    | some kind => cases kind <;> simp [vanishedBadge, hst]
  | some st =>
    by_cases hwait : (st.needsInput && away a) = true
    · have hboth : st.needsInput = true ∧ away a = true := by simpa using hwait
      simp [waitingBadge, vanishedBadge, hst, hboth]
    · have hnot : ¬(st.needsInput = true ∧ away a = true) := by simpa using hwait
      cases hb : b.attention.get a with
      | none => simp [waitingBadge, hnot]
      | some kind => cases kind <;> simp [waitingBadge, vanishedBadge, hnot]

variable (es : List AttentionEvent) (m : InsertionMap String AttentionKind)

theorem get_reconcile_needsInput (a : String) :
    (reconcile next es away m).attention.get a = some .needsInput ↔
      (stateFor next a).needsInput = true ∧ away a = true := by
  have hlive := get_live next away ⟨m, false⟩ a
  dsimp only at hlive
  simp only [reconcile]
  rw [get_foldl_dropResumed, ← hlive, ← get_markCompleted_needsInput es]
  cases next.get a with
  | none => rfl
  | some st =>
    simp only [Option.elim_some, resumedBadge]
    split
    · rename_i h
      simp only [Bool.and_eq_true, decide_eq_true_eq] at h
      simp [h.2]
    · rfl

theorem of_get_reconcile_completed {a : String}
    (h : (reconcile next es away m).attention.get a = some .completed) :
    (stateFor next a).working = true → (stateFor next a).needsInput = true ∧ away a = false := by
  intro hworking
  have hwait := get_reconcile_needsInput next away es m a
  simp only [h, Option.some.injEq, reduceCtorEq, false_iff, not_and, Bool.not_eq_true] at hwait
  simp only [reconcile] at h
  rw [get_foldl_dropResumed] at h
  cases hst : next.get a with
  | none => simp [stateFor, hst] at hworking
  | some st =>
    simp only [stateFor, hst, Option.getD_some] at hworking hwait ⊢
    simp only [hst, Option.elim_some, resumedBadge, hworking, Bool.true_and] at h
    cases hneeds : st.needsInput with
    | true => exact ⟨rfl, hwait hneeds⟩
    | false =>
      simp only [hneeds, Bool.not_false, Bool.true_and, decide_eq_true_eq] at h
      split_ifs at h with hc
      exact absurd h hc

theorem get_ingest (t : ThreadAttentionTracker) (snapshot : SessionSnapshot)
    (viewedThreadId : Option String) (isForeground : Bool) (a : String) :
    (t.ingest snapshot viewedThreadId isForeground).1.attention.get a =
      if isForeground = true ∧ truthy viewedThreadId = some a then none
      else (reconcile (computeThreadStates snapshot)
        (t.ingest snapshot viewedThreadId isForeground).2
        (fun id => !(isForeground && some id = viewedThreadId)) t.attention).attention.get a := by
  simp only [ingest]
  cases truthy viewedThreadId with
  | none => simp
  | some id =>
    cases isForeground with
    | false => simp
    | true => simp [eq_comm]

end ThreadAttentionTracker

end Client

end AgentRelay.Attention

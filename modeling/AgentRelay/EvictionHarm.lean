import AgentRelay.Eviction

/-! What eviction and promotion cost the sessions of the worker, and on which sessions they cost
nothing that they should not. -/
namespace AgentRelay.ClaudeWorker
open InsertionMap

/-- Closing such a session loses a turn, a start or background tasks. -/
def SessionEntry.isBusy (entry : SessionEntry) : Bool :=
  entry.running || entry.pendingStart.isSome || !entry.backgroundTasks.isEmpty

/-- A `done` that fails the turn. -/
def WorkerEvent.failsTurn (turnId : Option TurnId) : WorkerEvent → Bool
  | .done _ turn failed => failed && turn.isSome && turn == turnId
  | _ => false

namespace Worker
variable {w : Worker} {i j : ℕ} {later : List ℕ}

theorem isBusy_iff {entry : SessionEntry} :
    entry.isBusy = true ↔ entry.isIdle = false ∨ entry.backgroundTasks ≠ [] := by
  cases hrunning : entry.running <;> cases hpending : entry.pendingStart <;>
    simp [SessionEntry.isBusy, SessionEntry.isIdle, hrunning, hpending]

structure RoundOk (w : Worker) (i : ℕ) : Prop where
  spares : (w.entryAt i).isBusy = true → ∀ j ∈ w.candidates, (w.entryAt j).isBusy = true
  oldest : ∀ j ∈ w.candidates, (w.entryAt j).running = (w.entryAt i).running →
    (w.entryAt j).pendingStart.isSome = (w.entryAt i).pendingStart.isSome →
    (w.entryAt i).lastUsedAt ≤ (w.entryAt j).lastUsedAt
  reported : (w.entryAt i).running = true →
    ∃ event ∈ (w.evictRound i).emitted.drop w.emitted.length,
      event.failsTurn (w.entryAt i).currentTurnId = true

instance : Decidable (RoundOk w i) :=
  decidable_of_iff
    (((w.entryAt i).isBusy = true → ∀ j ∈ w.candidates, (w.entryAt j).isBusy = true) ∧
      (∀ j ∈ w.candidates, (w.entryAt j).running = (w.entryAt i).running →
        (w.entryAt j).pendingStart.isSome = (w.entryAt i).pendingStart.isSome →
        (w.entryAt i).lastUsedAt ≤ (w.entryAt j).lastUsedAt) ∧
      ((w.entryAt i).running = true →
        ∃ event ∈ (w.evictRound i).emitted.drop w.emitted.length,
          event.failsTurn (w.entryAt i).currentTurnId = true))
    ⟨fun ⟨hspares, holdest, hreported⟩ => ⟨hspares, holdest, hreported⟩,
      fun ⟨hspares, holdest, hreported⟩ => ⟨hspares, holdest, hreported⟩⟩

/-- A round that closes a session which does no harm: if it is idle with background tasks, so is
every idle one behind it, and if it is in a turn, the provider has named it. -/
structure Harmless (w : Worker) (i : ℕ) (later : List ℕ) : Prop where
  tasks : (w.entryAt i).isIdle = true → (w.entryAt i).backgroundTasks ≠ [] →
    ∀ j ∈ later, (w.entryAt j).isIdle = true → (w.entryAt j).backgroundTasks ≠ []
  named : (w.entryAt i).running = true → (w.entryAt i).providerSessionId.isSome = true

theorem reported_iff (h : Inv w) (hrunning : (w.entryAt i).running = true) :
    (∃ event ∈ (w.evictRound i).emitted.drop w.emitted.length,
      event.failsTurn (w.entryAt i).currentTurnId = true) ↔
        (w.entryAt i).providerSessionId.isSome = true := by
  rw [emitted_evictRound]
  obtain ⟨turnId, hturn⟩ := Option.isSome_iff_exists.mp (h.turns i hrunning)
  cases (w.entryAt i).providerSessionId with
  | none =>
    constructor
    · rintro ⟨event, hevent, hfails⟩
      rw [Option.elim_none, List.append_nil, Option.mem_toList, Option.map_eq_some_iff] at hevent
      obtain ⟨id, -, rfl⟩ := hevent
      cases hfails
    · intro hnone
      cases hnone
  | some id =>
    refine iff_of_true ⟨.done id (some turnId) true, ?_, ?_⟩ rfl
    · rw [hturn]
      simp
    · rw [hturn]
      simp [WorkerEvent.failsTurn]

theorem roundOk_iff (h : Inv w) (horder : w.order = i :: later) :
    RoundOk w i ↔ Harmless w i later := by
  obtain ⟨hbusy, holdest⟩ := order_head horder
  have hmem : ∀ j, j ∈ w.candidates ↔ j = i ∨ j ∈ later := by
    intro j
    rw [← mem_order, horder, List.mem_cons]
  constructor
  · intro hround
    refine ⟨fun hidle htasks j hj hjidle => ?_, fun hrunning => ?_⟩
    · have := hround.spares (isBusy_iff.mpr (.inr htasks)) j ((hmem j).mpr (.inr hj))
      exact (isBusy_iff.mp this).resolve_left (by simp [hjidle])
    · exact (reported_iff h hrunning).mp (hround.reported hrunning)
  · intro hharmless
    refine ⟨fun hi j hj => ?_, holdest, fun hrunning => ?_⟩
    · cases hidle : (w.entryAt i).isIdle with
      | false => exact isBusy_iff.mpr (.inl (hbusy hidle j hj))
      | true =>
        have htasks := (isBusy_iff.mp hi).resolve_left (by simp [hidle])
        rcases (hmem j).mp hj with rfl | hlater
        · exact hi
        · cases hjidle : (w.entryAt j).isIdle with
          | false => exact isBusy_iff.mpr (.inl hjidle)
          | true => exact isBusy_iff.mpr (.inr (hharmless.tasks hidle htasks j hlater hjidle))
    · exact (reported_iff h hrunning).mpr (hharmless.named hrunning)

structure EvictOk (w : Worker) : Prop where
  bounded : w.evictSessionsIfNeeded.2.size ≤ sessionLimit ∨
    ∀ e ∈ w.evictSessionsIfNeeded.2.sessions.entries,
      (w.evictSessionsIfNeeded.2.entryAt e.2).isCancelling = true
  rounds : ∀ round ∈ w.evictSessionsIfNeeded.1, RoundOk round.1 round.2

instance : Decidable (EvictOk w) :=
  decidable_of_iff
    ((w.evictSessionsIfNeeded.2.size ≤ sessionLimit ∨
      ∀ e ∈ w.evictSessionsIfNeeded.2.sessions.entries,
        (w.evictSessionsIfNeeded.2.entryAt e.2).isCancelling = true) ∧
      ∀ round ∈ w.evictSessionsIfNeeded.1, RoundOk round.1 round.2)
    ⟨fun ⟨hbounded, hrounds⟩ => ⟨hbounded, hrounds⟩, fun ⟨hbounded, hrounds⟩ => ⟨hbounded, hrounds⟩⟩

/-- What has to hold of the sessions for eviction to do no harm. -/
def EvictHarmless (w : Worker) : Prop :=
  ∀ earlier i later, w.order = earlier ++ i :: later → earlier.length + sessionLimit < w.size →
    Harmless w i later

theorem harmless_evictRound {first : ℕ} (hi : i ≠ first) (hlater : ∀ j ∈ later, j ≠ first) :
    Harmless (w.evictRound first) i later ↔ Harmless w i later := by
  constructor
  · rintro ⟨htasks, hnamed⟩
    rw [entryAt_evictRound hi] at htasks hnamed
    refine ⟨fun hidle hbusy j hj hjidle => ?_, hnamed⟩
    have hframe := entryAt_evictRound (w := w) (hlater j hj)
    have := htasks hidle hbusy j hj
    rw [hframe] at this
    exact this hjidle
  · rintro ⟨htasks, hnamed⟩
    constructor
    · rw [entryAt_evictRound hi]
      intro hidle hbusy j hj
      rw [entryAt_evictRound (hlater j hj)]
      exact htasks hidle hbusy j hj
    · rw [entryAt_evictRound hi]
      exact hnamed

theorem evictHarmless_cons (h : Inv w) (horder : w.order = i :: later)
    (hover : sessionLimit < w.size) :
    EvictHarmless w ↔ Harmless w i later ∧ EvictHarmless (w.evictRound i) := by
  have hnodup := nodup_order h
  rw [horder, List.nodup_cons] at hnodup
  have hsize := size_evictRound h (mem_ids_of_order (horder ▸ List.mem_cons_self))
  have hrest := order_tail h horder
  have hne : ∀ j ∈ later, j ≠ i := fun j hj hji => hnodup.1 (hji ▸ hj)
  have hframe : ∀ earlier j rest, later = earlier ++ j :: rest →
      (Harmless (w.evictRound i) j rest ↔ Harmless w j rest) := by
    intro earlier j rest hlater
    refine harmless_evictRound (hne j ?_) fun k hk => hne k ?_
    · rw [hlater]
      exact List.mem_append_right _ List.mem_cons_self
    · rw [hlater]
      exact List.mem_append_right _ (List.mem_cons_of_mem _ hk)
  constructor
  · intro hall
    refine ⟨hall [] i later horder (by simpa using hover), ?_⟩
    intro earlier j rest hlater hlength
    rw [hrest] at hlater
    refine (hframe earlier j rest hlater).mpr (hall (i :: earlier) j rest ?_ ?_)
    · rw [horder, hlater, List.cons_append]
    · rw [List.length_cons]
      omega
  · rintro ⟨hfirst, hall⟩ earlier j rest hsplit hlength
    rw [horder] at hsplit
    cases earlier with
    | nil =>
      obtain ⟨rfl, rfl⟩ := List.cons.inj hsplit
      exact hfirst
    | cons first earlier =>
      obtain ⟨rfl, hlater⟩ := List.cons.inj hsplit
      rw [List.length_cons] at hlength
      refine (hframe earlier j rest hlater).mp (hall earlier j rest (hrest.trans hlater) ?_)
      omega

theorem evictLoop_rounds_iff (fuel : ℕ) (h : Inv w) (hfuel : w.size ≤ fuel) :
    (∀ round ∈ (evictLoop fuel w).1, RoundOk round.1 round.2) ↔ EvictHarmless w := by
  induction fuel generalizing w with
  | zero =>
    refine iff_of_true (List.forall_mem_nil _) ?_
    intro earlier i later _ hlength
    omega
  | succ fuel ih =>
    rw [evictLoop, evict?_eq_head?]
    split_ifs with hover
    · cases horder : w.order with
      | nil =>
        refine iff_of_true (List.forall_mem_nil _) ?_
        intro earlier i later hsplit
        rw [horder] at hsplit
        exact absurd hsplit (by simp)
      | cons i later =>
        have hsize := size_evictRound h (mem_ids_of_order (horder ▸ List.mem_cons_self))
        rw [evictHarmless_cons h horder hover, ← ih (inv_evictRound h i) (by omega),
          ← roundOk_iff h horder]
        exact List.forall_mem_cons
    · refine iff_of_true (List.forall_mem_nil _) ?_
      intro earlier i later _ hlength
      exact absurd hlength (fun hlt => hover ((Nat.le_add_left _ _).trans_lt hlt))

theorem evictOk_iff (h : Inv w) : EvictOk w ↔ EvictHarmless w :=
  ⟨fun hok => (evictLoop_rounds_iff _ h le_rfl).mp hok.rounds, fun hharmless =>
    ⟨evictLoop_bounded _ h le_rfl, (evictLoop_rounds_iff _ h le_rfl).mpr hharmless⟩⟩

/-- A promotion as it should be: every other session stays where it is. -/
def PromoteOk (w : Worker) (i : ℕ) (providerSessionId : String) : Prop :=
  ∀ e ∈ w.sessions.entries, e.2 ≠ i →
    e ∈ (w.promoteSessionEntry i providerSessionId).sessions.entries

instance (providerSessionId : String) : Decidable (PromoteOk w i providerSessionId) :=
  inferInstanceAs (Decidable (∀ e ∈ w.sessions.entries, e.2 ≠ i →
    e ∈ (w.promoteSessionEntry i providerSessionId).sessions.entries))

/-- Whether a promotion changes anything. -/
def promotes (w : Worker) (i : ℕ) (providerSessionId : String) : Prop :=
  providerSessionId ≠ "" ∧ (w.entryAt i).providerSessionId ≠ some providerSessionId ∧ i < w.created

/-- A promotion for which no other session stands under the entry's old key or its new one. -/
def PromoteHarmless (w : Worker) (i : ℕ) (providerSessionId : String) : Prop :=
  w.promotes i providerSessionId → ∀ e ∈ w.sessions.entries, e.2 ≠ i →
    e.1 ≠ (w.entryAt i).key ∧ e.1 ≠ sessionKey providerSessionId

theorem promoteOk_iff (providerSessionId : String) :
    PromoteOk w i providerSessionId ↔ PromoteHarmless w i providerSessionId := by
  rw [PromoteOk, PromoteHarmless, promoteSessionEntry]
  split_ifs with hskip
  · refine iff_of_true (fun e he _ => he) fun hpromotes => ?_
    obtain ⟨hid, hown, hi⟩ := hpromotes
    exact absurd hskip (by simp [hid, hown, hi])
  · have hpromotes : w.promotes i providerSessionId := by
      rw [not_or, not_or, not_not] at hskip
      exact hskip
    have hstays : ∀ e ∈ w.sessions.entries, e.2 ≠ i →
        (e ∈ ((w.sessions.delete (w.entryAt i).key).set (sessionKey providerSessionId) i).entries ↔
          e.1 ≠ (w.entryAt i).key ∧ e.1 ≠ sessionKey providerSessionId) := by
      intro e he hei
      by_cases hnew : e.1 = sessionKey providerSessionId
      · refine iff_of_false (fun hmem => ?_) fun hkeys => hkeys.2 hnew
        have hsame := List.inj_on_of_nodup_map (InsertionMap.nodup_keys _) hmem mem_set_self hnew
        exact hei (congrArg Prod.snd hsame)
      · rw [mem_set_of_ne hnew, mem_delete]
        exact ⟨fun hmem => ⟨hmem.2, hnew⟩, fun hkeys => ⟨he, hkeys.1⟩⟩
    constructor
    · intro hok _ e he hei
      exact (hstays e he hei).mp (hok e he hei)
    · intro hharmless e he hei
      exact (hstays e he hei).mpr (hharmless hpromotes e he hei)

def StepOk (w : Worker) : Step → Prop
  | .evict => EvictOk w
  | .promote i providerSessionId => PromoteOk w i providerSessionId
  | _ => True

instance : (step : Step) → Decidable (StepOk w step)
  | .evict => inferInstanceAs (Decidable (EvictOk w))
  | .promote i id => inferInstanceAs (Decidable (PromoteOk w i id))
  | .start .. | .startFailed .. | .opened _ | .resume .. | .send .. | .touch .. | .optionsChanged _
  | .query _ | .startStream _ | .turn .. | .spontaneousTurn .. | .event .. | .backgroundTasks ..
  | .streamEnd .. | .streamDrained _ | .cancel _ | .stopSettled .. | .release _ | .delete _ =>
    isTrue trivial

def StepHarmless (w : Worker) : Step → Prop
  | .evict => EvictHarmless w
  | .promote i providerSessionId => PromoteHarmless w i providerSessionId
  | _ => True

theorem stepOk_iff (h : Inv w) (step : Step) : StepOk w step ↔ StepHarmless w step := by
  cases step with
  | evict => exact evictOk_iff h
  | promote i id => exact promoteOk_iff id
  | _ => exact Iff.rfl

def Along (P : Worker → Step → Prop) (w : Worker) : List Step → Prop
  | [] => True
  | step :: steps => P w step ∧ Along P (w.step step) steps

instance decidableAlong {P : Worker → Step → Prop} [∀ w step, Decidable (P w step)] :
    (w : Worker) → (steps : List Step) → Decidable (Along P w steps)
  | _, [] => isTrue trivial
  | w, step :: steps =>
    have := decidableAlong (P := P) (w.step step) steps
    inferInstanceAs (Decidable (P w step ∧ Along P (w.step step) steps))

/-- Evictions and promotions do what they should all through a run if and only if none of them
comes upon sessions to which it does harm. -/
theorem evictions_ok_iff (steps : List Step) :
    Along StepOk start steps ↔ Along StepHarmless start steps := by
  have hrun : ∀ w, Inv w → (Along StepOk w steps ↔ Along StepHarmless w steps) := by
    induction steps with
    | nil => exact fun _ _ => Iff.rfl
    | cons step steps ih =>
      exact fun w h => and_congr (stepOk_iff h step) (ih (w.step step) (inv_step h step))
  exact hrun start inv_start

def resumed (providerSessionId : String) (i : ℕ) : List Step :=
  [.resume providerSessionId i, .query i, .opened i, .startStream i, .evict]

/-- A session that is started with a prompt and comes up, not yet named by the provider. -/
def started (id : String) (i : ℕ) : List Step :=
  [.start id "" "" i, .opened i, .turn i ⟨"turn", by decide⟩, .startStream i, .evict]

/-- Eight sessions at rest, resumed after one that has a background task: the ninth evicts the
one with the task. -/
def taskEvicted : List Step :=
  resumed "a" 0 ++ .backgroundTasks 0 ["subagent"] ::
    (List.zipWith resumed ["b", "c", "d", "e", "f", "g", "h", "i"] (List.range' 1 8)).flatten

/-- Nine starts in a turn: the ninth evicts the first, and no `done` settles its turn. -/
def startEvicted : List Step :=
  (List.zipWith started ["1", "2", "3", "4", "5", "6", "7", "8", "9"] (List.range 9)).flatten

/-- The provider names a start as a session that was resumed, which leaves the map with its query
alive. -/
def sessionDropped : List Step :=
  resumed "a" 0 ++ started "1" 1 ++ [.promote 1 "a"]

theorem evictions_do_harm :
    ¬Along StepOk start taskEvicted ∧ ¬Along StepOk start startEvicted ∧
      ¬Along StepOk start sessionDropped ∧
        ((start.run sessionDropped).entryAt 0).session = true := by
  decide +kernel

end Worker

end AgentRelay.ClaudeWorker

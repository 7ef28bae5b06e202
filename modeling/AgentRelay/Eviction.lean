import AgentRelay.WorkerRuns

/-! The order in which the worker gives up sessions to stay within its limit. Every round of
eviction closes the first in it, and the order of the others stays. -/
namespace AgentRelay.ClaudeWorker
open StableSort InsertionMap

namespace Worker
variable {w : Worker} {i j : ℕ} {later : List ℕ}

def size (w : Worker) : ℕ := w.sessions.entries.length

def ids (w : Worker) : List ℕ := w.sessions.entries.map (·.2)

def order (w : Worker) : List ℕ :=
  w.candidates.filter (fun i => (w.entryAt i).isIdle) ++
    (w.candidates.filter (fun i => (w.entryAt i).running && (w.entryAt i).pendingStart.isNone) ++
      w.candidates.filter fun i => (w.entryAt i).pendingStart.isSome)

theorem nodup_ids (h : Inv w) : w.ids.Nodup := by
  have hkeys : w.ids.map (fun i => (w.entryAt i).key) = w.sessions.entries.map (·.1) := by
    rw [ids, List.map_map]
    exact List.map_congr_left fun e he => h.keyed e he
  exact List.Nodup.of_map _ (hkeys ▸ w.sessions.nodup_keys)

theorem mem_candidates : j ∈ w.candidates ↔ j ∈ w.ids ∧ (w.entryAt j).isCancelling = false := by
  rw [candidates, mem_byAge, List.mem_filter, Bool.not_eq_true', ids]

theorem nodup_candidates (h : Inv w) : w.candidates.Nodup :=
  nodup_byAge ((nodup_ids h).filter _)

theorem mem_order : j ∈ w.order ↔ j ∈ w.candidates := by
  rw [order]
  simp only [List.mem_append, List.mem_filter, SessionEntry.isIdle]
  cases (w.entryAt j).running <;> cases (w.entryAt j).pendingStart <;> simp

theorem nodup_order (h : Inv w) : w.order.Nodup := by
  have hnodup := nodup_candidates h
  rw [order]
  refine (hnodup.filter _).append ((hnodup.filter _).append (hnodup.filter _) ?_) ?_
  · intro j hj hj'
    have hnone := (List.mem_filter.mp hj).2
    have hsome := (List.mem_filter.mp hj').2
    cases hpending : (w.entryAt j).pendingStart <;> simp_all
  · intro j hj hj'
    have hidle := (List.mem_filter.mp hj).2
    simp only [List.mem_append, List.mem_filter] at hj'
    simp only [SessionEntry.isIdle] at hidle
    cases hrunning : (w.entryAt j).running <;> cases hpending : (w.entryAt j).pendingStart <;>
      simp_all

theorem evict?_eq_head? : w.evict? = w.order.head? := by
  rw [evict?, order, List.head?_append, List.head?_append, List.head?_filter]
  cases hidle : w.candidates.find? fun i => (w.entryAt i).isIdle with
  | some i => rfl
  | none =>
    have hbusy := List.find?_eq_none.mp hidle
    have hrunning : w.candidates.filter (fun i => (w.entryAt i).pendingStart.isNone) =
        w.candidates.filter fun i =>
          (w.entryAt i).running && (w.entryAt i).pendingStart.isNone := by
      refine List.filter_congr fun i hi => ?_
      have := hbusy i hi
      cases hrunning : (w.entryAt i).running <;> cases hpending : (w.entryAt i).pendingStart <;>
        simp_all [SessionEntry.isIdle]
    rw [← List.head?_filter, hrunning]
    cases hturns : w.candidates.filter fun i =>
        (w.entryAt i).running && (w.entryAt i).pendingStart.isNone with
    | cons i rest => rfl
    | nil =>
      have hstarts : w.candidates.filter (fun i => (w.entryAt i).pendingStart.isSome) =
          w.candidates := by
        refine List.filter_eq_self.mpr fun i hi => ?_
        have hnone := List.filter_eq_nil_iff.mp (hrunning.trans hturns) i hi
        rwa [Bool.not_eq_true, Option.isNone_eq_false_iff] at hnone
      rw [hstarts]

theorem entryAt_close : ((w.modify i SessionEntry.close).entryAt i).key = (w.entryAt i).key ∧
    ((w.modify i SessionEntry.close).entryAt i).pendingStart = (w.entryAt i).pendingStart := by
  rw [entryAt_modify]
  split_ifs <;> exact ⟨rfl, rfl⟩

theorem sessions_answerStart (answer : String → WorkerEvent) :
    (w.answerStart i answer).sessions = w.sessions := by
  rw [answerStart]
  split
  · exact sessions_modify _
  · rfl

theorem emitted_answerStart (answer : String → WorkerEvent) :
    (w.answerStart i answer).emitted =
      w.emitted ++ ((w.entryAt i).pendingStart.map answer).toList := by
  rw [answerStart]
  cases (w.entryAt i).pendingStart with
  | none => exact (List.append_nil _).symm
  | some id => exact congrArg (· ++ [answer id]) (emitted_modify _)

theorem entryAt_answerStart (answer : String → WorkerEvent) (hj : j ≠ i) :
    (w.answerStart i answer).entryAt j = w.entryAt j := by
  rw [answerStart]
  split
  · exact (entryAt_modify _ j).trans (if_neg fun h => hj h.1)
  · rfl

theorem sessions_closeAndRemoveSession :
    (w.closeAndRemoveSession i).sessions = w.sessions.delete (w.entryAt i).key := by
  rw [closeAndRemoveSession]
  rw [sessions_answerStart, sessions_modify, entryAt_close.1]

theorem emitted_closeAndRemoveSession :
    (w.closeAndRemoveSession i).emitted = w.emitted ++
      ((w.entryAt i).pendingStart.map
        (WorkerEvent.errorResponse · "Claude session evicted")).toList := by
  rw [closeAndRemoveSession]
  rw [emitted_answerStart, emitted_modify, entryAt_close.2]

theorem entryAt_closeAndRemoveSession (hj : j ≠ i) :
    (w.closeAndRemoveSession i).entryAt j = w.entryAt j := by
  rw [closeAndRemoveSession]
  rw [entryAt_answerStart _ hj]
  exact (entryAt_modify _ j).trans (if_neg fun h => hj h.1)

theorem sessions_evictRound : (w.evictRound i).sessions = w.sessions.delete (w.entryAt i).key := by
  rw [evictRound, ← sessions_closeAndRemoveSession]
  split <;> rfl

theorem entryAt_evictRound (hj : j ≠ i) : (w.evictRound i).entryAt j = w.entryAt j := by
  have hclosed := entryAt_closeAndRemoveSession (w := w) hj
  rw [evictRound]
  split <;> exact hclosed

theorem emitted_evictRound : (w.evictRound i).emitted.drop w.emitted.length =
    ((w.entryAt i).pendingStart.map
      (WorkerEvent.errorResponse · "Claude session evicted")).toList ++
      (w.entryAt i).providerSessionId.elim [] fun id =>
        [.error evictedMessage id,
          .done id (w.entryAt i).currentTurnId (w.entryAt i).currentTurnId.isSome] := by
  rw [evictRound]
  cases (w.entryAt i).providerSessionId with
  | none =>
    dsimp only
    rw [emitted_closeAndRemoveSession, List.drop_left]
    exact (List.append_nil _).symm
  | some id =>
    dsimp only [emit]
    rw [emitted_closeAndRemoveSession, List.append_assoc, List.append_assoc, List.drop_left]
    rfl

theorem ids_evictRound (h : Inv w) (hi : i ∈ w.ids) :
    (w.evictRound i).ids = w.ids.filter (· ≠ i) := by
  obtain ⟨own, hown, hi⟩ := List.mem_map.mp hi
  have hkey : (w.entryAt i).key = own.1 := by
    rw [← hi]
    exact h.keyed own hown
  have hsame : ∀ e ∈ w.sessions.entries, (decide (e.1 ≠ own.1)) = decide (e.2 ≠ i) := by
    intro e he
    rw [decide_eq_decide, not_iff_not]
    constructor
    · intro hfirst
      rw [List.inj_on_of_nodup_map w.sessions.nodup_keys he hown hfirst, hi]
    · intro hsecond
      rw [← h.keyed e he, hsecond, hkey]
  rw [ids, sessions_evictRound, hkey, delete, ids, List.filter_map]
  exact congrArg _ (List.filter_congr hsame)

theorem candidates_evictRound (h : Inv w) (hi : i ∈ w.ids) :
    (w.evictRound i).candidates = w.candidates.filter (· ≠ i) := by
  have hids := ids_evictRound h hi
  rw [ids] at hids
  have hfree : ∀ l : List ℕ, (l.filter (· ≠ i)).filter
      (fun j => !((w.evictRound i).entryAt j).isCancelling) =
        (l.filter fun j => !(w.entryAt j).isCancelling).filter (· ≠ i) := by
    intro l
    rw [List.filter_filter, List.filter_filter]
    refine List.filter_congr fun j _ => ?_
    by_cases hj : j = i
    · simp [hj]
    · simp [hj, entryAt_evictRound hj]
  rw [candidates, candidates, hids, hfree, filter_byAge]
  refine byAge_congr fun j hj => ?_
  rw [entryAt_evictRound (of_decide_eq_true (List.mem_filter.mp hj).2)]

theorem order_evictRound (h : Inv w) (hi : i ∈ w.ids) :
    (w.evictRound i).order = w.order.filter (· ≠ i) := by
  have hclass : ∀ p : SessionEntry → Bool,
      (w.candidates.filter (· ≠ i)).filter (fun j => p ((w.evictRound i).entryAt j)) =
        (w.candidates.filter fun j => p (w.entryAt j)).filter (· ≠ i) := by
    intro p
    rw [List.filter_filter, List.filter_filter]
    refine List.filter_congr fun j _ => ?_
    by_cases hj : j = i
    · simp [hj]
    · simp [hj, entryAt_evictRound hj]
  rw [order, order, candidates_evictRound h hi, List.filter_append, List.filter_append,
    hclass SessionEntry.isIdle, hclass (fun entry => entry.running && entry.pendingStart.isNone),
    hclass (fun entry => entry.pendingStart.isSome)]

theorem mem_ids_of_order (hj : j ∈ w.order) : j ∈ w.ids := (mem_candidates.mp (mem_order.mp hj)).1

theorem order_tail (h : Inv w) (horder : w.order = i :: later) :
    (w.evictRound i).order = later := by
  have hnodup := nodup_order h
  have hi : i ∈ w.ids := mem_ids_of_order (horder ▸ List.mem_cons_self)
  rw [horder, List.nodup_cons] at hnodup
  rw [order_evictRound h hi, horder, List.filter_cons_of_neg (by simp)]
  refine List.filter_eq_self.mpr fun j hj => ?_
  exact decide_eq_true fun hji => hnodup.1 (hji ▸ hj)

theorem size_evictRound (h : Inv w) (hi : i ∈ w.ids) : (w.evictRound i).size + 1 = w.size := by
  have hlength : ∀ w : Worker, w.size = w.ids.length := fun w => (List.length_map _).symm
  have hfilter : w.ids.filter (· ≠ i) = w.ids.erase i := by
    rw [(nodup_ids h).erase_eq_filter]
    refine List.filter_congr fun j _ => ?_
    by_cases hj : j = i <;> simp [hj]
  rw [hlength, hlength, ids_evictRound h hi, hfilter, List.length_erase_of_mem hi]
  exact Nat.succ_pred_eq_of_pos (List.length_pos_of_mem hi)

theorem head_filter_le {p : ℕ → Bool} {rest : List ℕ} (hhead : w.candidates.filter p = i :: rest) :
    p i = true ∧ ∀ j ∈ w.candidates, p j = true →
      (w.entryAt i).lastUsedAt ≤ (w.entryAt j).lastUsedAt := by
  have hsorted : (w.candidates.filter p).Pairwise fun a b =>
      (w.entryAt a).lastUsedAt ≤ (w.entryAt b).lastUsedAt :=
    (pairwise_byAge _ _).filter p
  rw [hhead, List.pairwise_cons] at hsorted
  constructor
  · exact (List.mem_filter.mp (hhead ▸ List.mem_cons_self)).2
  · intro j hj hp
    have hmem : j ∈ w.candidates.filter p := List.mem_filter.mpr ⟨hj, hp⟩
    rw [hhead] at hmem
    rcases List.mem_cons.mp hmem with rfl | hrest
    · exact le_rfl
    · exact hsorted.1 j hrest

/-- The first in the order is the least recently used of its class, and no class before it has a
session. -/
theorem order_head (horder : w.order = i :: later) :
    ((w.entryAt i).isIdle = false → ∀ j ∈ w.candidates, (w.entryAt j).isIdle = false) ∧
      ∀ j ∈ w.candidates, (w.entryAt j).running = (w.entryAt i).running →
        (w.entryAt j).pendingStart.isSome = (w.entryAt i).pendingStart.isSome →
        (w.entryAt i).lastUsedAt ≤ (w.entryAt j).lastUsedAt := by
  have hnone : ∀ j, (w.entryAt j).pendingStart.isSome = (w.entryAt i).pendingStart.isSome →
      (w.entryAt j).pendingStart.isNone = (w.entryAt i).pendingStart.isNone := by
    intro j hpending
    rw [← Option.not_isSome, ← Option.not_isSome, hpending]
  rw [order] at horder
  cases hidle : w.candidates.filter fun i => (w.entryAt i).isIdle with
  | cons first rest =>
    rw [hidle, List.cons_append, List.cons.injEq] at horder
    obtain ⟨hi, hle⟩ := head_filter_le (horder.1 ▸ hidle)
    refine ⟨fun hbusy => absurd hi (by simp [hbusy]), fun j hj hrunning hpending => hle j hj ?_⟩
    rw [SessionEntry.isIdle] at hi ⊢
    rw [hrunning, hnone j hpending]
    exact hi
  | nil =>
    have hbusy : ∀ j ∈ w.candidates, (w.entryAt j).isIdle = false := fun j hj =>
      Bool.eq_false_iff.mpr (List.filter_eq_nil_iff.mp hidle j hj)
    refine ⟨fun _ => hbusy, ?_⟩
    rw [hidle, List.nil_append] at horder
    cases hturns : w.candidates.filter fun i =>
        (w.entryAt i).running && (w.entryAt i).pendingStart.isNone with
    | cons first rest =>
      rw [hturns, List.cons_append, List.cons.injEq] at horder
      obtain ⟨hi, hle⟩ := head_filter_le (horder.1 ▸ hturns)
      refine fun j hj hrunning hpending => hle j hj ?_
      rw [hrunning, hnone j hpending]
      exact hi
    | nil =>
      rw [hturns, List.nil_append] at horder
      obtain ⟨hi, hle⟩ := head_filter_le horder
      exact fun j hj _ hpending => hle j hj (hpending.trans hi)

theorem order_eq_nil (horder : w.order = []) :
    ∀ e ∈ w.sessions.entries, (w.entryAt e.2).isCancelling = true := by
  intro e he
  by_contra hfree
  have : e.2 ∈ w.order := mem_order.mpr
    (mem_candidates.mpr ⟨List.mem_map_of_mem he, Bool.eq_false_iff.mpr hfree⟩)
  rw [horder] at this
  cases this

theorem evictLoop_bounded (fuel : ℕ) (h : Inv w) (hfuel : w.size ≤ fuel) :
    (evictLoop fuel w).2.size ≤ sessionLimit ∨
      ∀ e ∈ (evictLoop fuel w).2.sessions.entries,
        ((evictLoop fuel w).2.entryAt e.2).isCancelling = true := by
  induction fuel generalizing w with
  | zero => exact .inl (hfuel.trans (Nat.zero_le _))
  | succ fuel ih =>
    rw [evictLoop, evict?_eq_head?]
    split_ifs with hover
    · cases horder : w.order with
      | nil => exact .inr (order_eq_nil horder)
      | cons i later =>
        have hsize := size_evictRound h (mem_ids_of_order (horder ▸ List.mem_cons_self))
        exact ih (inv_evictRound h i) (by omega)
    · exact .inl (not_lt.mp hover)

end Worker

end AgentRelay.ClaudeWorker

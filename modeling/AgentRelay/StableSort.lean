import Mathlib.Data.List.Sort
import Mathlib.Tactic

/-! A stable sort by a number. What is taken out of a list before it is sorted can be taken out
after it just as well, so the order of what stays does not change. -/
namespace AgentRelay.StableSort
variable {α : Type} {age other : α → ℕ}

def byAge (age : α → ℕ) (l : List α) : List α := l.insertionSort fun a b => age a ≤ age b

theorem mem_byAge {a : α} {l : List α} : a ∈ byAge age l ↔ a ∈ l := List.mem_insertionSort _

theorem nodup_byAge {l : List α} (h : l.Nodup) : (byAge age l).Nodup :=
  (List.perm_insertionSort _ l).nodup_iff.mpr h

theorem pairwise_byAge (age : α → ℕ) (l : List α) :
    (byAge age l).Pairwise fun a b => age a ≤ age b := by
  have : Std.Total fun a b : α => age a ≤ age b := ⟨fun a b => le_total _ _⟩
  have : IsTrans α fun a b => age a ≤ age b := ⟨fun a b c => le_trans⟩
  exact List.pairwise_insertionSort _ l

theorem filter_orderedInsert (p : α → Bool) (a : α) {l : List α}
    (h : l.Pairwise fun a b => age a ≤ age b) :
    (l.orderedInsert (fun a b => age a ≤ age b) a).filter p =
      if p a then (l.filter p).orderedInsert (fun a b => age a ≤ age b) a else l.filter p := by
  induction l with
  | nil => by_cases hp : p a <;> simp [hp]
  | cons b l ih =>
    obtain ⟨hb, hl⟩ := List.pairwise_cons.mp h
    rw [List.orderedInsert_cons]
    by_cases hab : age a ≤ age b
    · rw [if_pos hab]
      by_cases hp : p a
      · have hfirst : (List.orderedInsert (fun a b => age a ≤ age b) a ((b :: l).filter p)) =
            a :: (b :: l).filter p := by
          cases hrest : (b :: l).filter p with
          | nil => rfl
          | cons c rest =>
            have hc : c ∈ b :: l := List.mem_of_mem_filter (hrest ▸ List.mem_cons_self)
            have hac : age a ≤ age c := by
              rcases List.mem_cons.mp hc with rfl | hc
              · exact hab
              · exact hab.trans (hb c hc)
            rw [List.orderedInsert_cons, if_pos hac]
        rw [List.filter_cons_of_pos hp, if_pos hp, hfirst]
      · rw [List.filter_cons_of_neg hp, if_neg hp]
    · rw [if_neg hab]
      by_cases hp : p b
      · rw [List.filter_cons_of_pos hp, ih hl, List.filter_cons_of_pos hp]
        split_ifs with ha
        · rw [List.orderedInsert_cons, if_neg hab]
        · rfl
      · rw [List.filter_cons_of_neg hp, ih hl, List.filter_cons_of_neg hp]

theorem filter_byAge (p : α → Bool) (l : List α) :
    (byAge age l).filter p = byAge age (l.filter p) := by
  induction l with
  | nil => rfl
  | cons a l ih =>
    have hcons : byAge age (a :: l) =
        (byAge age l).orderedInsert (fun a b => age a ≤ age b) a := rfl
    rw [hcons, filter_orderedInsert p a (pairwise_byAge age l), ih]
    by_cases hp : p a
    · rw [if_pos hp, List.filter_cons_of_pos hp]
      rfl
    · rw [if_neg hp, List.filter_cons_of_neg hp]

theorem byAge_congr {l : List α} (h : ∀ a ∈ l, age a = other a) : byAge age l = byAge other l := by
  induction l with
  | nil => rfl
  | cons a l ih =>
    have hrest := ih fun b hb => h b (List.mem_cons_of_mem _ hb)
    have ha := h a List.mem_cons_self
    have hinsert : ∀ l' : List α, (∀ b ∈ l', age b = other b) →
        l'.orderedInsert (fun a b => age a ≤ age b) a =
          l'.orderedInsert (fun a b => other a ≤ other b) a := by
      intro l' hl'
      induction l' with
      | nil => rfl
      | cons b l' ih' =>
        have hb := hl' b List.mem_cons_self
        rw [List.orderedInsert_cons, List.orderedInsert_cons, ha, hb,
          ih' fun c hc => hl' c (List.mem_cons_of_mem _ hc)]
    have hcons : byAge age (a :: l) =
        (byAge age l).orderedInsert (fun a b => age a ≤ age b) a := rfl
    rw [hcons, hrest]
    exact hinsert _ fun b hb => h b (List.mem_cons_of_mem _ (mem_byAge.mp hb))

end AgentRelay.StableSort

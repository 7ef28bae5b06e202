import Mathlib.Data.List.Basic
import Mathlib.Data.List.Nodup

/-! Unbounded queues with one reader each, named by number. -/
namespace AgentRelay.Mailboxes

variable {μ : Type*}

/-- Put a message at the end of one queue; no such queue, no effect. -/
def post (boxes : List (List μ)) (tx : Nat) (message : μ) : List (List μ) :=
  boxes.modify tx (· ++ [message])

/-- Put a copy at the end of each of these queues. -/
def postAll (boxes : List (List μ)) (txs : List Nat) (message : μ) : List (List μ) :=
  txs.foldl (fun boxes tx => post boxes tx message) boxes

@[simp] theorem length_post (boxes : List (List μ)) (tx : Nat) (message : μ) :
    (post boxes tx message).length = boxes.length :=
  List.length_modify ..

theorem getElem?_post (boxes : List (List μ)) (tx : Nat) (message : μ) (j : Nat) :
    (post boxes tx message)[j]? =
      if j = tx then boxes[j]?.map (· ++ [message]) else boxes[j]? := by
  rw [post, List.getElem?_modify]
  by_cases hj : j = tx
  · subst hj
    simp
  · simp [hj, Ne.symm hj]

@[simp] theorem length_postAll (boxes : List (List μ)) (txs : List Nat) (message : μ) :
    (postAll boxes txs message).length = boxes.length := by
  induction txs generalizing boxes with
  | nil => rfl
  | cons tx txs ih =>
    rw [postAll, List.foldl_cons]
    exact (ih _).trans (length_post ..)

theorem getElem?_postAll {txs : List Nat} (hnodup : txs.Nodup) (boxes : List (List μ))
    (message : μ) (j : Nat) :
    (postAll boxes txs message)[j]? =
      if j ∈ txs then boxes[j]?.map (· ++ [message]) else boxes[j]? := by
  induction txs generalizing boxes with
  | nil => simp [postAll]
  | cons tx txs ih =>
    obtain ⟨hnew, hrest⟩ := List.nodup_cons.mp hnodup
    have hcons : postAll boxes (tx :: txs) message = postAll (post boxes tx message) txs message :=
      rfl
    rw [hcons, ih hrest, getElem?_post]
    by_cases hj : j = tx
    · subst hj
      simp [hnew]
    · simp [hj]

/-- Each queue keeps what was in it and gets only messages of this kind behind it. -/
def Grows (P : Nat → μ → Prop) (boxes boxes' : List (List μ)) : Prop :=
  ∀ j, ∃ added, boxes'[j]?.getD [] = boxes[j]?.getD [] ++ added ∧ ∀ m ∈ added, P j m

theorem Grows.refl (P : Nat → μ → Prop) (boxes : List (List μ)) : Grows P boxes boxes :=
  fun _ => ⟨[], (List.append_nil _).symm, nofun⟩

theorem Grows.trans {P : Nat → μ → Prop} {boxes boxes' boxes'' : List (List μ)}
    (h : Grows P boxes boxes') (h' : Grows P boxes' boxes'') : Grows P boxes boxes'' := by
  intro j
  obtain ⟨first, hfirst, hp⟩ := h j
  obtain ⟨rest, hrest, hp'⟩ := h' j
  refine ⟨first ++ rest, ?_, ?_⟩
  · rw [hrest, hfirst, List.append_assoc]
  · intro m hm
    rcases List.mem_append.mp hm with hm | hm
    · exact hp m hm
    · exact hp' m hm

theorem grows_post {P : Nat → μ → Prop} {tx : Nat} {message : μ} (h : P tx message)
    (boxes : List (List μ)) : Grows P boxes (post boxes tx message) := by
  intro j
  rw [getElem?_post]
  by_cases hj : j = tx
  · subst hj
    rw [if_pos rfl]
    cases boxes[j]? with
    | none => exact ⟨[], rfl, nofun⟩
    | some box => exact ⟨[message], rfl, by simpa using h⟩
  · rw [if_neg hj]
    exact ⟨[], (List.append_nil _).symm, nofun⟩

theorem grows_postAll {P : Nat → μ → Prop} {txs : List Nat} {message : μ}
    (h : ∀ tx ∈ txs, P tx message) (boxes : List (List μ)) :
    Grows P boxes (postAll boxes txs message) := by
  induction txs generalizing boxes with
  | nil => exact Grows.refl P boxes
  | cons tx txs ih =>
    refine (grows_post (h tx List.mem_cons_self) boxes).trans ?_
    exact ih (fun tx' htx' => h tx' (List.mem_cons_of_mem tx htx')) _

theorem grows_open (P : Nat → μ → Prop) (boxes : List (List μ)) : Grows P boxes (boxes ++ [[]]) := by
  intro j
  refine ⟨[], ?_, nofun⟩
  rw [List.append_nil, List.getElem?_append]
  split_ifs with hj
  · rfl
  · rw [List.getElem?_eq_none (Nat.not_lt.mp hj)]
    rcases Nat.eq_zero_or_pos (j - boxes.length) with h0 | hpos
    · rw [h0]
      rfl
    · rw [List.getElem?_eq_none (by rw [List.length_singleton]; omega)]

end AgentRelay.Mailboxes

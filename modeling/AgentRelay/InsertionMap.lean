import Mathlib.Data.List.Nodup
import Mathlib.Tactic

/-! Maps that remember the order of insertion: a key keeps the place it was first set at,
and one that is deleted and set again goes to the end. A loop over the entries sees each
key once. -/
namespace AgentRelay

structure InsertionMap (K V : Type) where
  entries : List (K × V)
  nodup_keys : (entries.map (·.1)).Nodup

namespace InsertionMap
variable {K V : Type}

def empty : InsertionMap K V := ⟨[], List.nodup_nil⟩

def keys (m : InsertionMap K V) : List K := m.entries.map (·.1)

variable [DecidableEq K]

def lookupEntries (k : K) : List (K × V) → Option V
  | [] => none
  | e :: es => if e.1 = k then some e.2 else lookupEntries k es

def setEntries (k : K) (v : V) : List (K × V) → List (K × V)
  | [] => [(k, v)]
  | e :: es => if e.1 = k then (k, v) :: es else e :: setEntries k v es

theorem keys_setEntries (k : K) (v : V) (es : List (K × V)) :
    (setEntries k v es).map (·.1) =
      if k ∈ es.map (·.1) then es.map (·.1) else es.map (·.1) ++ [k] := by
  induction es with
  | nil => simp [setEntries]
  | cons e es ih =>
    by_cases he : e.1 = k
    · simp [setEntries, he]
    · have hk : k ≠ e.1 := Ne.symm he
      simp only [setEntries, if_neg he, List.map_cons, ih, List.mem_cons, hk, false_or]
      split <;> rfl

theorem nodup_setEntries (k : K) (v : V) {es : List (K × V)} (h : (es.map (·.1)).Nodup) :
    ((setEntries k v es).map (·.1)).Nodup := by
  rw [keys_setEntries]
  split
  · exact h
  · rename_i hk
    apply List.nodup_append.mpr
    refine ⟨h, by simp, ?_⟩
    intro a ha b hb hab
    rw [List.mem_singleton] at hb
    exact hk (hb ▸ hab ▸ ha)

def get (m : InsertionMap K V) (k : K) : Option V := lookupEntries k m.entries

def set (m : InsertionMap K V) (k : K) (v : V) : InsertionMap K V :=
  ⟨setEntries k v m.entries, nodup_setEntries k v m.nodup_keys⟩

def delete (m : InsertionMap K V) (k : K) : InsertionMap K V :=
  ⟨m.entries.filter (·.1 ≠ k), m.nodup_keys.sublist (List.filter_sublist.map _)⟩

theorem lookupEntries_setEntries (k a : K) (v : V) (es : List (K × V)) :
    lookupEntries a (setEntries k v es) = if a = k then some v else lookupEntries a es := by
  induction es with
  | nil => simp [setEntries, lookupEntries, eq_comm]
  | cons e es ih =>
    by_cases he : e.1 = k
    · by_cases ha : k = a
      · simp [setEntries, lookupEntries, he, ha]
      · have hne : a ≠ k := Ne.symm ha
        simp [setEntries, lookupEntries, he, ha, hne]
    · simp only [setEntries, if_neg he, lookupEntries, ih]
      by_cases ha : e.1 = a
      · have hne : a ≠ k := fun h => he (ha.trans h)
        simp [ha, hne]
      · simp [ha]

theorem lookupEntries_filter_ne (k a : K) (es : List (K × V)) :
    lookupEntries a (es.filter (·.1 ≠ k)) = if a = k then none else lookupEntries a es := by
  induction es with
  | nil => simp [lookupEntries]
  | cons e es ih =>
    by_cases he : e.1 = k
    · rw [List.filter_cons_of_neg (by simpa using he), ih]
      by_cases ha : a = k
      · simp [ha]
      · have hne : e.1 ≠ a := fun h => ha (h.symm.trans he)
        simp [lookupEntries, ha, hne]
    · rw [List.filter_cons_of_pos (by simpa using he)]
      simp only [lookupEntries, ih]
      by_cases ha : e.1 = a
      · have hne : a ≠ k := fun h => he (ha.trans h)
        simp [ha, hne]
      · simp [ha]

@[simp] theorem get_set (m : InsertionMap K V) (k a : K) (v : V) :
    (m.set k v).get a = if a = k then some v else m.get a :=
  lookupEntries_setEntries k a v m.entries

@[simp] theorem get_delete (m : InsertionMap K V) (k a : K) :
    (m.delete k).get a = if a = k then none else m.get a :=
  lookupEntries_filter_ne k a m.entries

theorem lookupEntries_eq_none {k : K} {es : List (K × V)} :
    lookupEntries k es = none ↔ k ∉ es.map (·.1) := by
  induction es with
  | nil => simp [lookupEntries]
  | cons e es ih =>
    by_cases he : e.1 = k
    · simp [lookupEntries, he]
    · have hk : k ≠ e.1 := Ne.symm he
      simp only [lookupEntries, if_neg he, ih, List.map_cons, List.mem_cons, hk, false_or]

theorem get_eq_none {m : InsertionMap K V} {k : K} : m.get k = none ↔ k ∉ m.keys :=
  lookupEntries_eq_none

theorem mem_keys {m : InsertionMap K V} {k : K} : k ∈ m.keys ↔ (m.get k).isSome := by
  rw [← not_iff_not, ← get_eq_none, Option.not_isSome_iff_eq_none]

theorem mem_setEntries {k : K} {v : V} {e : K × V} {es : List (K × V)}
    (h : e ∈ setEntries k v es) : e = (k, v) ∨ e ∈ es := by
  induction es with
  | nil => exact .inl (List.mem_singleton.mp h)
  | cons first es ih =>
    rw [setEntries] at h
    split at h
    · exact (List.mem_cons.mp h).imp_right (List.mem_cons_of_mem _)
    · rcases List.mem_cons.mp h with rfl | h
      · exact .inr List.mem_cons_self
      · exact (ih h).imp_right (List.mem_cons_of_mem _)

theorem mem_set {k : K} {v : V} {e : K × V} {m : InsertionMap K V}
    (h : e ∈ (m.set k v).entries) : e = (k, v) ∨ e ∈ m.entries := mem_setEntries h

theorem mem_delete {k : K} {e : K × V} {m : InsertionMap K V} :
    e ∈ (m.delete k).entries ↔ e ∈ m.entries ∧ e.1 ≠ k := by
  rw [delete, List.mem_filter, decide_eq_true_iff]

theorem mem_setEntries_of_ne {k : K} {v : V} {e : K × V} {es : List (K × V)} (hne : e.1 ≠ k) :
    e ∈ setEntries k v es ↔ e ∈ es := by
  induction es with
  | nil =>
    have : e ≠ (k, v) := fun h => hne (congrArg Prod.fst h)
    simp [setEntries, this]
  | cons first es ih =>
    rw [setEntries]
    split_ifs with hfirst
    · have hv : e ≠ (k, v) := fun h => hne (congrArg Prod.fst h)
      have hf : e ≠ first := fun h => hne (h ▸ hfirst)
      rw [List.mem_cons, List.mem_cons, or_iff_right hv, or_iff_right hf]
    · rw [List.mem_cons, List.mem_cons, ih]

theorem mem_set_of_ne {k : K} {v : V} {e : K × V} {m : InsertionMap K V} (hne : e.1 ≠ k) :
    e ∈ (m.set k v).entries ↔ e ∈ m.entries := mem_setEntries_of_ne hne

theorem mem_set_self {k : K} {v : V} {m : InsertionMap K V} : (k, v) ∈ (m.set k v).entries := by
  have hset : ∀ es : List (K × V), (k, v) ∈ setEntries k v es := by
    intro es
    induction es with
    | nil => exact List.mem_singleton_self _
    | cons first es ih =>
      rw [setEntries]
      split_ifs
      · exact List.mem_cons_self
      · exact List.mem_cons_of_mem _ ih
  exact hset m.entries

theorem foldl_entries {S B : Type} (look : S → K → B) (f : S → K × V → S) (g : K → V → B → B)
    (hf : ∀ s k v a, look (f s (k, v)) a = if a = k then g k v (look s a) else look s a)
    (m : InsertionMap K V) (s : S) (a : K) :
    look (m.entries.foldl f s) a = (m.get a).elim (look s a) fun v => g a v (look s a) := by
  obtain ⟨es, hnodup⟩ := m
  induction es generalizing s with
  | nil => rfl
  | cons e es ih =>
    obtain ⟨k, v⟩ := e
    obtain ⟨hk, hes⟩ := List.nodup_cons.mp hnodup
    have htail := ih (f s (k, v)) hes
    simp only [get, lookupEntries, List.foldl_cons] at htail ⊢
    by_cases ha : k = a
    · -- The rest of the loop does not come back to this key.
      subst ha
      rw [lookupEntries_eq_none.mpr hk] at htail
      rw [if_pos rfl, htail, hf, if_pos rfl]
      rfl
    · rw [if_neg ha, htail, hf, if_neg (Ne.symm ha)]

end InsertionMap

end AgentRelay

import AgentRelay.Text

/-! Tables that are kept within a bound: elements are taken out in the order of their age, as long as
the bound asks for it. Some elements cannot be taken out. -/
namespace AgentRelay.BoundedTables

variable {V : Type} (stop : Table V → Bool)

/-- Take elements out, one after the other, until the table may stay as it is. -/
def evictUntil : List String → Table V → Table V
  | [], table => table
  | id :: ids, table => if stop table then table else evictUntil ids (table.erase id)

variable {stop} {table kept : Table V}

/-- Some first part of the list was taken out. -/
theorem evictUntil_spec (ids : List String) (table : Table V) :
    ∃ gone rest, ids = gone ++ rest ∧
      (∀ id, (evictUntil stop ids table)[id]? = if id ∈ gone then none else table[id]?) ∧
      (stop (evictUntil stop ids table) = true ∨ rest = []) := by
  induction ids generalizing table with
  | nil => exact ⟨[], [], rfl, fun id => by simp [evictUntil], Or.inr rfl⟩
  | cons first ids ih =>
    by_cases hstop : stop table
    · exact ⟨[], first :: ids, rfl, fun id => by simp [evictUntil, hstop],
        Or.inl (by simp [evictUntil, hstop])⟩
    · obtain ⟨gone, rest, rfl, hget, hend⟩ := ih (table.erase first)
      refine ⟨first :: gone, rest, rfl, fun id => ?_, by simpa [evictUntil, hstop] using hend⟩
      simp only [evictUntil, hstop, Bool.false_eq_true, if_false, hget, Table.getElem?_erase_of]
      by_cases hfirst : id = first <;> simp [hfirst]

/-- A table after candidates have left it, the oldest first. It may stay as it is, unless no
candidate is left in it. -/
structure Evicted (candidate : String → V → Prop) (age : V → ℕ) (stop : Table V → Bool)
    (table kept : Table V) : Prop where
  sub : ∀ (id : String) (v : V), kept[id]? = some v → table[id]? = some v
  oldest : ∀ (id : String) (v : V), table[id]? = some v → kept[id]? = none → candidate id v ∧
    ∀ (id' : String) (v' : V), kept[id']? = some v' → candidate id' v' → age v ≤ age v'
  room : stop kept = true ∨ ∀ (id : String) (v : V), kept[id]? = some v → ¬candidate id v

theorem evicted_self {candidate : String → V → Prop} {age : V → ℕ} (h : stop table = true) :
    Evicted candidate age stop table table :=
  ⟨fun _ _ h => h, fun id v h hgone => by simp [h] at hgone, Or.inl h⟩

theorem evicted_evictUntil {candidate : String → V → Prop} {age : V → ℕ}
    {entries : List (String × V)}
    (hmem : ∀ id v, (id, v) ∈ entries ↔ table[id]? = some v ∧ candidate id v)
    (hsorted : entries.Pairwise fun e e' => age e.2 ≤ age e'.2) :
    Evicted candidate age stop table (evictUntil stop (entries.map (·.1)) table) := by
  obtain ⟨gone, rest, hsplit, hget, hend⟩ := @evictUntil_spec _ stop
    (entries.map (·.1)) table
  obtain ⟨first, later, rfl, rfl, rfl⟩ := List.map_eq_append_iff.mp hsplit
  refine ⟨fun id v h => ?_, fun id v h hgone => ?_, hend.imp_right fun hnone id v h hv => ?_⟩
  · rw [hget] at h
    split_ifs at h
    exact h
  · rw [hget, h] at hgone
    have hin : id ∈ first.map (·.1) := by
      by_contra hin
      simp [hin] at hgone
    obtain ⟨⟨id, found⟩, hentry, rfl⟩ := List.mem_map.mp hin
    obtain ⟨hfound, hcandidate⟩ := (hmem _ _).mp (List.mem_append_left _ hentry)
    obtain rfl := Option.some.inj (hfound.symm.trans h)
    refine ⟨hcandidate, fun id' v' hkept hcandidate' => ?_⟩
    rw [hget] at hkept
    split_ifs at hkept with hin
    rcases List.mem_append.mp ((hmem _ _).mpr ⟨hkept, hcandidate'⟩) with hfirst | hlater
    · exact absurd (List.mem_map_of_mem hfirst) hin
    · exact (List.pairwise_append.mp hsorted).2.2 _ hentry _ hlater
  · rw [hget] at h
    split_ifs at h with hin
    rw [List.map_eq_nil_iff.mp hnone, List.append_nil] at hmem
    exact hin (List.mem_map_of_mem ((hmem _ _).mpr ⟨h, hv⟩))

/-- Eviction leaves what is no candidate. -/
theorem Evicted.getElem? {candidate : String → V → Prop} {age : V → ℕ}
    (h : Evicted candidate age stop table kept) {id : String} {v : V} (hv : table[id]? = some v)
    (hcandidate : ¬candidate id v) : kept[id]? = some v := by
  cases hkept : kept[id]? with
  | none => exact absurd (h.oldest id v hv hkept).1 hcandidate
  | some found => rw [← hv, h.sub id found hkept]

end AgentRelay.BoundedTables

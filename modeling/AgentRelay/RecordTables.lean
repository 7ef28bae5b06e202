import AgentRelay.Text

/-! Tables of records filed under one of their own fields: rebuilding a table from the list
of its records, columns whose values are distinct, and the writes that turn what is stored
for one table into what is stored for the next. -/
namespace AgentRelay.RecordTables
open Std

variable {V K : Type}

def Keyed (key : V → String) (m : Table V) : Prop := ∀ k v, m[k]? = some v → key v = k

def ofRecords (key : V → String) (records : List V) : Table V :=
  records.foldl (fun m v => m.insert (key v) v) ∅

theorem ofRecords_concat (key : V → String) (records : List V) (v : V) :
    ofRecords key (records ++ [v]) = (ofRecords key records).insert (key v) v := by
  simp [ofRecords]

theorem getElem?_ofRecords {key : V → String} {records : List V} {k : String} {v : V}
    (h : (ofRecords key records)[k]? = some v) : v ∈ records ∧ key v = k := by
  induction records using List.reverseRecOn with
  | nil => simp [ofRecords] at h
  | append_singleton records w ih =>
    rw [ofRecords_concat, Table.getElem?_insert_of] at h
    split_ifs at h with hk
    · have hv : w = v := Option.some.inj h
      subst hv
      exact ⟨by simp, hk.symm⟩
    · obtain ⟨hmem, hkey⟩ := ih h
      exact ⟨List.mem_append_left _ hmem, hkey⟩

theorem isSome_ofRecords (key : V → String) {records : List V} {v : V} (h : v ∈ records) :
    ((ofRecords key records)[key v]?).isSome := by
  induction records using List.reverseRecOn with
  | nil => simp at h
  | append_singleton records w ih =>
    rw [ofRecords_concat, Table.getElem?_insert_of]
    split_ifs with hk
    · rfl
    · apply ih
      rcases List.mem_append.mp h with hmem | hmem
      · exact hmem
      · exact absurd (by rw [List.mem_singleton.mp hmem]) hk

theorem keyed_ofRecords (key : V → String) (records : List V) :
    Keyed key (ofRecords key records) :=
  fun _ _ h => (getElem?_ofRecords h).2

theorem ofRecords_values {key : V → String} {m : Table V} (h : Keyed key m) :
    ofRecords key m.values = m := by
  apply ExtTreeMap.ext_getElem?
  intro k
  cases hk : m[k]? with
  | some v =>
    have hkey := h k v hk
    have hsome := isSome_ofRecords key (Table.mem_values.mpr ⟨k, hk⟩)
    rw [hkey] at hsome
    obtain ⟨w, hw⟩ := Option.isSome_iff_exists.mp hsome
    obtain ⟨hmem, hwk⟩ := getElem?_ofRecords hw
    obtain ⟨l, hl⟩ := Table.mem_values.mp hmem
    have hkl : l = k := (h l w hl).symm.trans hwk
    rw [hkl, hk] at hl
    rw [hw, hl]
  | none =>
    rw [Option.eq_none_iff_forall_ne_some]
    intro v hv
    obtain ⟨hmem, hkey⟩ := getElem?_ofRecords hv
    obtain ⟨l, hl⟩ := Table.mem_values.mp hmem
    have hkl : l = k := (h l v hl).symm.trans hkey
    rw [hkl, hk] at hl
    exact absurd hl (by simp)

theorem getElem?_of_filter {m : Table V} {f : String → V → Bool} {k : String} {v : V}
    (h : (m.filter f)[k]? = some v) : m[k]? = some v ∧ f k v = true := by
  rw [Table.getElem?_filter] at h
  exact Option.filter_eq_some_iff.mp h

theorem Keyed.filter {key : V → String} {m : Table V} (h : Keyed key m)
    (f : String → V → Bool) : Keyed key (m.filter f) := by
  intro k v hv
  exact h k v (getElem?_of_filter hv).1

theorem Keyed.insert {key : V → String} {m : Table V} (h : Keyed key m) {k : String} {v : V}
    (hv : key v = k) : Keyed key (m.insert k v) := by
  intro l w hw
  rw [Table.getElem?_insert_of] at hw
  split_ifs at hw with hl
  · rw [← Option.some.inj hw, hl, hv]
  · exact h l w hw

/-- No two records share a value of this column; a missing value is shared with nobody. -/
def UniqueBy (column : V → Option K) (m : Table V) : Prop :=
  ∀ (k l : String) v w a,
    m[k]? = some v → m[l]? = some w → column v = some a → column w = some a → k = l

theorem uniqueBy_empty (column : V → Option K) : UniqueBy column (∅ : Table V) := by
  intro k l v w a hv
  simp at hv

theorem UniqueBy.of_rows {column : V → Option K} {m n : Table V} (h : UniqueBy column m)
    (hrows : ∀ (k : String) v, n[k]? = some v → ∃ w, m[k]? = some w ∧ column w = column v) :
    UniqueBy column n := by
  intro k l v w a hv hw hva hwa
  obtain ⟨v', hv', hcv⟩ := hrows k v hv
  obtain ⟨w', hw', hcw⟩ := hrows l w hw
  exact h k l v' w' a hv' hw' (hcv.trans hva) (hcw.trans hwa)

theorem UniqueBy.filter {column : V → Option K} {m : Table V} (h : UniqueBy column m)
    (f : String → V → Bool) : UniqueBy column (m.filter f) := by
  apply h.of_rows
  intro k v hv
  exact ⟨v, (getElem?_of_filter hv).1, rfl⟩

theorem UniqueBy.insert {column : V → Option K} {m : Table V} (h : UniqueBy column m)
    {k : String} {v : V}
    (hv : ∀ (l : String) w a, m[l]? = some w → column v = some a → column w = some a → l = k) :
    UniqueBy column (m.insert k v) := by
  intro l l' w w' a hl hl' ha ha'
  rw [Table.getElem?_insert_of] at hl hl'
  split_ifs at hl hl' with h1 h2 h2
  · rw [h1, h2]
  · have hw : v = w := Option.some.inj hl
    rw [h1, hv l' w' a hl' (hw ▸ ha) ha']
  · have hw : v = w' := Option.some.inj hl'
    rw [h2, hv l w a hl (hw ▸ ha') ha]
  · exact h l l' w w' a hl hl' ha ha'

theorem nodup_iff_uniqueBy {column : V → Option K} {m : Table V} :
    (m.values.filterMap column).Nodup ↔ UniqueBy column m := by
  have hpair : m.toList.Pairwise fun a b => a.1 ≠ b.1 :=
    ExtTreeMap.distinct_keys_toList.imp fun h heq => h (Std.compare_eq_iff_eq.mpr heq)
  rw [Table.values_eq, List.filterMap_map, List.Nodup, List.pairwise_filterMap]
  constructor
  · intro h k l v w a hv hw hva hwa
    by_contra hne
    have : Std.Symm fun x y : String × V =>
        ∀ b, (column ∘ (·.2)) x = some b → ∀ b', (column ∘ (·.2)) y = some b' → b ≠ b' :=
      ⟨fun _ _ hxy b hb b' hb' => (hxy b' hb' b hb).symm⟩
    have hpairs := List.Pairwise.forall h
      (ExtTreeMap.mem_toList_iff_getElem?_eq_some.mpr hv)
      (ExtTreeMap.mem_toList_iff_getElem?_eq_some.mpr hw)
      (fun heq => hne (congrArg Prod.fst heq))
    exact hpairs a hva a hwa rfl
  · intro h
    apply hpair.imp_of_mem
    intro x y hx hy hne b hb b' hb' hbb
    subst hbb
    exact hne (h x.1 y.1 x.2 y.2 b (ExtTreeMap.mem_toList_iff_getElem?_eq_some.mp hx)
      (ExtTreeMap.mem_toList_iff_getElem?_eq_some.mp hy) hb hb')

section size

variable {W : Type}

theorem length_filter_values (m : Table V) (f : V → Bool) :
    (m.values.filter f).length = (m.filter fun _ v => f v).size := by
  rw [Table.values_eq, List.filter_map, List.length_map, ← ExtTreeMap.length_toList,
    ExtTreeMap.toList_filter]
  rfl

theorem size_le_of_keys {m : Table V} {n : Table W}
    (h : ∀ k : String, (n[k]?).isSome → (m[k]?).isSome) : n.size ≤ m.size := by
  rw [← ExtTreeMap.length_keys, ← ExtTreeMap.length_keys]
  have hsub : n.keys ⊆ m.keys := by
    intro k hk
    rw [ExtTreeMap.mem_keys, ExtTreeMap.mem_iff_isSome_getElem?] at *
    exact h k hk
  exact (ExtTreeMap.nodup_keys.subperm hsub).length_le

theorem size_insert_of {m : Table V} {k : String} (h : m[k]? = none) (v : V) :
    (m.insert k v).size = m.size + 1 := by
  have hk : m.contains k = false := by
    rw [ExtTreeMap.contains_eq_isSome_getElem?, h]
    rfl
  simp [ExtTreeMap.size_insert, hk]

theorem size_erase_of {m : Table V} {k : String} {v : V} (h : m[k]? = some v) :
    (m.erase k).size + 1 = m.size := by
  have hself : (m.erase k).insert k v = m := by
    apply ExtTreeMap.ext_getElem?
    intro l
    rw [Table.getElem?_insert_of, Table.getElem?_erase_of]
    split_ifs with hl
    · rw [hl, h]
    · rfl
  have hsize := size_insert_of (m := m.erase k) (k := k) (by simp) v
  rw [← hsize, hself]

theorem filter_insert (m : Table V) (k : String) (v : V) (f : String → V → Bool) :
    (m.insert k v).filter f =
      if f k v then (m.filter f).insert k v else (m.filter f).erase k := by
  apply ExtTreeMap.ext_getElem?
  intro l
  split_ifs with hf
  · simp only [Table.getElem?_filter, Table.getElem?_insert_of]
    split_ifs with hl
    · simp [hl, hf]
    · rfl
  · simp only [Table.getElem?_filter, Table.getElem?_insert_of, Table.getElem?_erase_of]
    split_ifs with hl
    · simp [hl, hf]
    · rfl

theorem filter_filter_comm (m : Table V) (f g : String → V → Bool) :
    (m.filter f).filter g = (m.filter g).filter f := by
  apply ExtTreeMap.ext_getElem?
  intro k
  simp only [Table.getElem?_filter, Option.filter_filter, Bool.and_comm]

theorem size_filter_lt {m : Table V} {f : String → V → Bool} {k : String} {v : V}
    (hv : m[k]? = some v) (hf : f k v = false) : (m.filter f).size < m.size := by
  have hle : (m.filter f).size ≤ (m.erase k).size := by
    apply size_le_of_keys
    intro l hl
    rw [Table.getElem?_filter] at hl
    rw [Table.getElem?_erase_of]
    split_ifs with hk
    · rw [hk, hv] at hl
      simp [hf] at hl
    · obtain ⟨w, hw⟩ := Option.isSome_iff_exists.mp hl
      rw [(Option.filter_eq_some_iff.mp hw).1]
      rfl
  have hsize := size_erase_of hv
  omega

end size

/-- What is stored after the rows gone since `prev` are deleted and the changed ones written. -/
def applyDiff [DecidableEq V] (prev next stored : Table V) : Table V :=
  next.toList.foldl
    (fun rows entry => if prev[entry.1]? = some entry.2 then rows else rows.insert entry.1 entry.2)
    (stored.filter fun k _ => !(prev.contains k && !next.contains k))

theorem getElem?_foldl_insert {es : List (String × V)} {p : String × V → Prop} [DecidablePred p]
    (hd : es.Pairwise fun a b => a.1 ≠ b.1) (rows : Table V) (k : String) :
    (es.foldl (fun rows entry => if p entry then rows else rows.insert entry.1 entry.2) rows)[k]? =
      match es.find? (fun entry => entry.1 = k) with
      | some entry => if p entry then rows[k]? else some entry.2
      | none => rows[k]? := by
  induction es generalizing rows with
  | nil => rfl
  | cons e es ih =>
    rw [List.foldl_cons, ih (List.pairwise_cons.mp hd).2, List.find?_cons]
    by_cases hk : e.1 = k
    · have hnone : es.find? (fun entry => entry.1 = k) = none := by
        rw [List.find?_eq_none]
        intro x hx hxk
        simp only [decide_eq_true_eq] at hxk
        exact (List.pairwise_cons.mp hd).1 x hx (hk.trans hxk.symm)
      simp only [hnone, hk, decide_true]
      split_ifs with hp
      · rfl
      · rw [Table.getElem?_insert_of, if_pos rfl]
    · simp only [hk, decide_false]
      have hrows : (if p e then rows else rows.insert e.1 e.2)[k]? = rows[k]? := by
        split_ifs
        · rfl
        · rw [Table.getElem?_insert_of, if_neg (Ne.symm hk)]
      rw [hrows]

theorem find?_toList (m : Table V) (k : String) :
    m.toList.find? (fun entry => entry.1 = k) = m[k]?.map (k, ·) := by
  cases hk : m[k]? with
  | none =>
    simp only [Option.map_none, List.find?_eq_none, decide_eq_true_eq]
    rintro ⟨l, v⟩ hmem rfl
    rw [ExtTreeMap.mem_toList_iff_getElem?_eq_some, hk] at hmem
    exact absurd hmem (by simp)
  | some v =>
    have hmem : (k, v) ∈ m.toList := ExtTreeMap.mem_toList_iff_getElem?_eq_some.mpr hk
    have hsome : (m.toList.find? (fun entry => entry.1 = k)).isSome := by
      rw [List.find?_isSome]
      exact ⟨(k, v), hmem, by simp⟩
    obtain ⟨⟨l, w⟩, hlw⟩ := Option.isSome_iff_exists.mp hsome
    have hl : l = k := by simpa using List.find?_some hlw
    have hw := ExtTreeMap.mem_toList_iff_getElem?_eq_some.mp (List.mem_of_find?_eq_some hlw)
    rw [hl, hk] at hw
    rw [hlw, hl, ← Option.some.inj hw, Option.map_some]

theorem getElem?_applyDiff [DecidableEq V] (prev next stored : Table V) (k : String) :
    (applyDiff prev next stored)[k]? =
      match next[k]? with
      | some v => if prev[k]? = some v then stored[k]? else some v
      | none => if prev[k]?.isSome then none else stored[k]? := by
  have hd : next.toList.Pairwise fun a b => a.1 ≠ b.1 :=
    ExtTreeMap.distinct_keys_toList.imp fun h heq => h (Std.compare_eq_iff_eq.mpr heq)
  unfold applyDiff
  rw [getElem?_foldl_insert hd, find?_toList, Table.getElem?_filter]
  cases hn : next[k]? with
  | some v =>
    have hc : next.contains k = true := by
      rw [ExtTreeMap.contains_eq_isSome_getElem?, hn]
      rfl
    simp only [Option.map_some, hc, Bool.not_true, Bool.and_false, Bool.not_false]
    split_ifs
    · cases stored[k]? <;> rfl
    · rfl
  | none =>
    have hc : next.contains k = false := by
      rw [ExtTreeMap.contains_eq_isSome_getElem?, hn]
      rfl
    simp only [Option.map_none, hc, Bool.not_false, Bool.and_true,
      ExtTreeMap.contains_eq_isSome_getElem?]
    cases hp : prev[k]? with
    | none => cases stored[k]? <;> rfl
    | some w => cases stored[k]? <;> rfl

theorem applyDiff_self [DecidableEq V] (prev next : Table V) : applyDiff prev next prev = next := by
  apply ExtTreeMap.ext_getElem?
  intro k
  rw [getElem?_applyDiff]
  cases hn : next[k]? with
  | some v =>
    dsimp only
    split_ifs with h
    · exact h
    · rfl
  | none =>
    dsimp only
    split_ifs with h
    · rfl
    · exact Option.not_isSome_iff_eq_none.mp h

end AgentRelay.RecordTables

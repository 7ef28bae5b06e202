import AgentRelay.Text

/-! Lists of rows grouped by a key: a sum over the rows is the sum over the groups, also when the
groups are collected in a table. -/
namespace AgentRelay.Grouping

section lists
variable {α κ β : Type} [DecidableEq κ] (key : α → κ)

def groups (rows : List α) : List (κ × List α) :=
  (rows.map key).dedup.map fun k => (k, rows.filter fun row => key row = k)

theorem flatMap_filter_perm (rows : List α) {keys : List κ} (h : keys.Nodup) :
    (keys.flatMap fun k => rows.filter fun row => key row = k).Perm
      (rows.filter fun row => key row ∈ keys) := by
  induction keys with
  | nil => simp
  | cons k keys ih =>
    obtain ⟨hk, hkeys⟩ := List.nodup_cons.mp h
    have hrest := ih hkeys
    have hsplit := List.filter_append_perm (fun row => decide (key row = k))
      (rows.filter fun row => key row ∈ k :: keys)
    rw [List.flatMap_cons]
    refine List.Perm.trans ?_ hsplit
    rw [List.filter_filter, List.filter_filter]
    refine List.Perm.append (List.Perm.of_eq ?_) (hrest.trans (List.Perm.of_eq ?_))
    · refine List.filter_congr fun row _ => ?_
      by_cases hsame : key row = k
      · simp [hsame]
      · simp [hsame]
    · refine List.filter_congr fun row _ => ?_
      by_cases hsame : key row = k
      · simp [hsame, hk]
      · simp [hsame]

theorem flatMap_filter_perm_of_mem {rows : List α} {keys : List κ} (h : keys.Nodup)
    (hmem : ∀ row ∈ rows, key row ∈ keys) :
    (keys.flatMap fun k => rows.filter fun row => key row = k).Perm rows := by
  refine (flatMap_filter_perm key rows h).trans (List.Perm.of_eq ?_)
  exact List.filter_eq_self.mpr fun row hrow => decide_eq_true (hmem row hrow)

theorem groups_perm (rows : List α) : ((groups key rows).flatMap (·.2)).Perm rows := by
  rw [groups, List.flatMap_map]
  exact flatMap_filter_perm_of_mem key (List.nodup_dedup _) fun row hrow =>
    List.mem_dedup.mpr (List.mem_map_of_mem hrow)

theorem mem_groups {rows : List α} {group : κ × List α} (h : group ∈ groups key rows) :
    group.2 = rows.filter (fun row => key row = group.1) := by
  obtain ⟨k, -, rfl⟩ := List.mem_map.mp h
  rfl

theorem group_of_row {rows : List α} {row : α} (h : row ∈ rows) :
    (key row, rows.filter fun other => key other = key row) ∈ groups key rows :=
  List.mem_map.mpr ⟨key row, List.mem_dedup.mpr (List.mem_map_of_mem h), rfl⟩

theorem sum_groups [AddCommMonoid β] (f : α → β) (rows : List α) :
    ((groups key rows).map fun group => (group.2.map f).sum).sum = (rows.map f).sum := by
  have hperm := ((groups_perm key rows).map f).sum_eq
  rw [← hperm, List.map_flatMap]
  induction groups key rows with
  | nil => rfl
  | cons group rest ih => simp [ih]

end lists

section tables
variable {α V : Type} (key : α → String) (value : α → V)

/-- `map.entry(key).or_default().push(value)`. -/
def push (m : Table (List V)) (k : String) (v : V) : Table (List V) :=
  m.insert k (m[k]?.getD [] ++ [v])

theorem getD_push (m : Table (List V)) (k a : String) (v : V) :
    ((push m k v)[a]?).getD [] = m[a]?.getD [] ++ if k = a then [v] else [] := by
  rw [push, Table.getElem?_insert_of]
  by_cases hsame : a = k
  · simp [hsame]
  · simp [hsame, Ne.symm hsame]

def collect (items : List α) (m : Table (List V)) : Table (List V) :=
  items.foldl (fun m item => push m (key item) (value item)) m

theorem getD_collect (items : List α) (m : Table (List V)) (k : String) :
    ((collect key value items m)[k]?).getD [] =
      m[k]?.getD [] ++ (items.filter fun item => key item = k).map value := by
  induction items generalizing m with
  | nil => simp [collect]
  | cons item items ih =>
    have hrest := ih (push m (key item) (value item))
    rw [collect, List.foldl_cons, ← collect, hrest, getD_push, List.append_assoc,
      List.filter_cons]
    by_cases hsame : key item = k
    · simp [hsame]
    · simp [hsame]

theorem getD_insertIfNew (keys : List String) (m : Table (List V)) (a : String) :
    ((keys.foldl (fun m k => m.insertIfNew k []) m)[a]?).getD [] = m[a]?.getD [] := by
  induction keys generalizing m with
  | nil => rfl
  | cons k keys ih =>
    rw [List.foldl_cons, ih, Table.getElem?_insertIfNew_of]
    by_cases hsame : a = k
    · cases hm : m[a]? with
      | none => simp [hsame]
      | some v => simp [hsame]
    · simp [hsame]

theorem toList_perm {m : Table (List V)} {items : List α}
    (h : ∀ k, m[k]?.getD [] = (items.filter fun item => key item = k).map value) :
    (m.toList.flatMap (·.2)).Perm (items.map value) := by
  have hlist : m.toList.flatMap (·.2) = m.keys.flatMap fun k => m[k]?.getD [] := by
    rw [← Std.ExtTreeMap.map_fst_toList_eq_keys, List.flatMap_map]
    refine List.flatMap_congr fun entry hentry => ?_
    rw [Std.ExtTreeMap.mem_toList_iff_getElem?_eq_some.mp hentry]
    rfl
  have hmem : ∀ item ∈ items, key item ∈ m.keys := by
    intro item hitem
    by_contra hnot
    have hnone : m[key item]? = none := by
      exact Std.ExtTreeMap.getElem?_eq_none fun hin => hnot (Std.ExtTreeMap.mem_keys.mpr hin)
    have hempty := h (key item)
    rw [hnone] at hempty
    have hin : value item ∈ (items.filter fun other => key other = key item).map value :=
      List.mem_map_of_mem (List.mem_filter.mpr ⟨hitem, by simp⟩)
    rw [← hempty] at hin
    exact absurd hin List.not_mem_nil
  rw [hlist, List.flatMap_congr fun k _ => h k, ← List.map_flatMap]
  exact (flatMap_filter_perm_of_mem key m.nodup_keys hmem).map value

end tables

end AgentRelay.Grouping

import AgentRelay.RecordTables

/-! The rows of a database table under their primary key, and the statements that change them one
row at a time: what saving the difference between two tables of records leaves at each moment, and
when that is what writing all records anew leaves. -/
namespace AgentRelay.RowStatements
open Std RecordTables

variable {K V C : Type}

abbrev Rows (K V : Type) := K → Option V

/-- `DELETE` of one row or of all, and `INSERT … ON CONFLICT DO UPDATE`. -/
inductive Statement (K V : Type)
  | delete (key : K)
  | upsert (key : K) (row : V)
  | clear

def apply [DecidableEq K] (rows : Rows K V) : Statement K V → Rows K V
  | .delete key => fun k => if k = key then none else rows k
  | .upsert key row => fun k => if k = key then some row else rows k
  | .clear => fun _ => none

def run [DecidableEq K] (rows : Rows K V) (statements : List (Statement K V)) : Rows K V :=
  statements.foldl apply rows

/-- No two rows share a value of this column; a missing value is shared with nobody. -/
def Distinct (column : V → Option C) (rows : Rows K V) : Prop :=
  ∀ k l v w a, rows k = some v → rows l = some w → column v = some a → column w = some a → k = l

section statements

variable [DecidableEq K] {rows : Rows K V} {statements : List (Statement K V)} {key : K} {row : V}

theorem run_nil (rows : Rows K V) : run rows [] = rows := rfl

theorem run_cons (rows : Rows K V) (statement : Statement K V) (rest : List (Statement K V)) :
    run rows (statement :: rest) = run (apply rows statement) rest := rfl

theorem run_append (rows : Rows K V) (first second : List (Statement K V)) :
    run rows (first ++ second) = run (run rows first) second :=
  List.foldl_append

theorem run_deletes (keys : List K) (rows : Rows K V) (key : K) :
    run rows (keys.map .delete) key = if key ∈ keys then none else rows key := by
  induction keys generalizing rows with
  | nil => simp [run]
  | cons first keys ih =>
    rw [List.map_cons, run_cons, ih]
    by_cases hlater : key ∈ keys
    · simp [hlater]
    · simp [hlater, apply]

theorem run_upserts {entries : List (K × V)}
    (h : run rows (entries.map fun entry => .upsert entry.1 entry.2) key = some row) :
    (key, row) ∈ entries ∨ (rows key = some row ∧ ∀ other, (key, other) ∉ entries) := by
  induction entries generalizing rows with
  | nil => exact .inr ⟨h, by simp⟩
  | cons first entries ih =>
    obtain hlater | ⟨hheld, hnone⟩ := ih h
    · exact .inl (List.mem_cons_of_mem _ hlater)
    · by_cases hkey : key = first.1
      · have hrow : first.2 = row := by simpa [apply, hkey] using hheld
        left
        rw [hkey, ← hrow]
        exact List.mem_cons_self
      · right
        refine ⟨by simpa [apply, hkey] using hheld, fun other hmem => ?_⟩
        obtain hhead | htail := List.mem_cons.mp hmem
        · exact hkey (congrArg Prod.fst hhead)
        · exact hnone other htail

theorem run_upserts_untouched {entries : List (K × V)} (h : ∀ other, (key, other) ∉ entries) :
    run rows (entries.map fun entry => .upsert entry.1 entry.2) key = rows key := by
  induction entries generalizing rows with
  | nil => rfl
  | cons first entries ih =>
    have hkey : key ≠ first.1 := fun heq => h first.2 (by simp [heq])
    rw [List.map_cons, run_cons, ih fun other hmem => h other (List.mem_cons_of_mem _ hmem)]
    simp [apply, hkey]

theorem run_upserts_written {entries : List (K × V)} (h : (key, row) ∈ entries)
    (hsame : ∀ other, (key, other) ∈ entries → other = row) :
    run rows (entries.map fun entry => .upsert entry.1 entry.2) key = some row := by
  induction entries generalizing rows with
  | nil => cases h
  | cons first entries ih =>
    by_cases hlater : ∃ other, (key, other) ∈ entries
    · obtain ⟨other, hother⟩ := hlater
      obtain rfl := hsame other (List.mem_cons_of_mem _ hother)
      exact ih hother fun other hmem => hsame other (List.mem_cons_of_mem _ hmem)
    · obtain hfirst | htail := List.mem_cons.mp h
      · obtain rfl := hfirst
        rw [List.map_cons, run_cons, run_upserts_untouched (not_exists.mp hlater)]
        simp [apply]
      · exact absurd ⟨row, htail⟩ hlater

end statements

section filing

structure Filed (pk : V → K) (name : K → String) (place : String × V → K) (m : Table V) : Prop where
  name : ∀ k v, m[k]? = some v → name (pk v) = k
  place : ∀ k v, m[k]? = some v → place (k, v) = pk v

variable {pk : V → K} {name : K → String} {place : String × V → K} {prev next m : Table V}
  {column : V → Option C}

theorem Filed.injective (h : Filed pk name place m) {k l : String} {v w : V} (hv : m[k]? = some v)
    (hw : m[l]? = some w) (hpk : pk v = pk w) : k = l := by
  rw [← h.name k v hv, ← h.name l w hw, hpk]

/-- A name stands for the same primary key before and after. -/
def SamePlace (pk : V → K) (prev next : Table V) : Prop :=
  ∀ (k : String) v w, prev[k]? = some v → next[k]? = some w → pk v = pk w

/-- No record takes over a value from another that stays. -/
def Steady (column : V → Option C) (prev next : Table V) : Prop :=
  ∀ (k l : String) v w a, next[k]? = some v → prev[l]? = some w → next.contains l →
    column v = some a → column w = some a → k = l

theorem contains_of_getElem? {k : String} {v : V} (h : m[k]? = some v) : m.contains k = true := by
  rw [ExtTreeMap.contains_eq_isSome_getElem?, h]
  rfl

end filing

section tables

variable [DecidableEq K] {pk : V → K} {name : K → String} {place : String × V → K}
  {prev next m : Table V} {column : V → Option C} {before after : List (String × V)}

def rowsOf (pk : V → K) (m : Table V) : Rows K V := fun key => m.values.find? (pk · = key)

/-- The deletes for the records that are gone, in the order of a loop over the previous ones. -/
def deletes (place : String × V → K) (next : Table V) (before : List (String × V)) :
    List (Statement K V) :=
  ((before.filter fun entry => !next.contains entry.1).map place).map .delete

/-- Writing all records anew; `strip` is what an insert that leaves columns out makes of one. -/
def rebuild (pk : V → K) (strip : V → V) (records : List V) : List (Statement K V) :=
  .clear :: (records.map fun row => (pk row, strip row)).map fun entry => .upsert entry.1 entry.2

theorem rowsOf_eq_some (h : Filed pk name place m) {key : K} {row : V} :
    rowsOf pk m key = some row ↔ ∃ k : String, m[k]? = some row ∧ pk row = key := by
  constructor
  · intro hrow
    obtain ⟨k, hk⟩ := Table.mem_values.mp (List.mem_of_find?_eq_some hrow)
    exact ⟨k, hk, by simpa using List.find?_some hrow⟩
  · rintro ⟨k, hk, rfl⟩
    have hsome : (rowsOf pk m (pk row)).isSome := by
      rw [rowsOf, List.find?_isSome]
      exact ⟨row, Table.mem_values.mpr ⟨k, hk⟩, by simp⟩
    obtain ⟨other, hother⟩ := Option.isSome_iff_exists.mp hsome
    obtain ⟨l, hl⟩ := Table.mem_values.mp (List.mem_of_find?_eq_some hother)
    have hpk : pk other = pk row := by simpa using List.find?_some hother
    have hkey := h.injective hl hk hpk
    rw [hkey, hk] at hl
    rw [hother, Option.some.inj hl]

theorem distinct_rowsOf (h : Filed pk name place m) :
    Distinct column (rowsOf pk m) ↔ UniqueBy column m := by
  constructor
  · intro hrows k l v w a hv hw hva hwa
    have hpk := hrows _ _ v w a ((rowsOf_eq_some h).mpr ⟨k, hv, rfl⟩)
      ((rowsOf_eq_some h).mpr ⟨l, hw, rfl⟩) hva hwa
    exact h.injective hv hw hpk
  · intro hrecords key key' v w a hv hw hva hwa
    obtain ⟨k, hk, rfl⟩ := (rowsOf_eq_some h).mp hv
    obtain ⟨l, hl, rfl⟩ := (rowsOf_eq_some h).mp hw
    have hkl := hrecords k l v w a hk hl hva hwa
    rw [hkl, hl] at hk
    rw [Option.some.inj hk]

theorem run_deletes_rowsOf (hprev : Filed pk name place prev) (horder : before.Perm prev.toList)
    {key : K} {row : V} :
    run (rowsOf pk prev) (deletes place next before) key = some row ↔
      ∃ k : String, prev[k]? = some row ∧ pk row = key ∧ next.contains k := by
  have hmem : ∀ (k : String) v, (k, v) ∈ before ↔ prev[k]? = some v := fun k v =>
    horder.mem_iff.trans ExtTreeMap.mem_toList_iff_getElem?_eq_some
  have hgone : ∀ (k : String) v, prev[k]? = some v →
      (pk v ∈ (before.filter fun entry => !next.contains entry.1).map place ↔
        next.contains k = false) := by
    intro k v hv
    constructor
    · intro hkey
      obtain ⟨⟨l, w⟩, hentry, hplace⟩ := List.mem_map.mp hkey
      obtain ⟨hbefore, habsent⟩ := List.mem_filter.mp hentry
      have hw := (hmem l w).mp hbefore
      rw [hprev.place l w hw] at hplace
      rw [← hprev.injective hw hv hplace]
      exact Bool.not_eq_true' _ |>.mp habsent
    · intro habsent
      refine List.mem_map.mpr ⟨(k, v), List.mem_filter.mpr ⟨(hmem k v).mpr hv, ?_⟩, ?_⟩
      · simp [habsent]
      · exact hprev.place k v hv
  rw [deletes, run_deletes]
  constructor
  · intro hrow
    split_ifs at hrow with hdeleted
    obtain ⟨k, hk, rfl⟩ := (rowsOf_eq_some hprev).mp hrow
    refine ⟨k, hk, rfl, ?_⟩
    by_contra habsent
    exact hdeleted ((hgone k row hk).mpr ((Bool.not_eq_true _).mp habsent))
  · rintro ⟨k, hk, rfl, hstays⟩
    rw [if_neg fun hdeleted => ?_]
    · exact (rowsOf_eq_some hprev).mpr ⟨k, hk, rfl⟩
    · rw [(hgone k row hk).mp hdeleted] at hstays
      cases hstays

theorem run_deletes_le {done : List (Statement K V)} (hdone : done <+: deletes place next before)
    {rows : Rows K V} {key : K} {row : V} (h : run rows done key = some row) :
    rows key = some row := by
  obtain ⟨keys, -, rfl⟩ := List.prefix_map_iff.mp hdone
  rw [run_deletes] at h
  split_ifs at h
  exact h

variable [DecidableEq V]

/-- The upserts for the records that were added or changed, in the order of a loop over the new
ones. -/
def upserts (pk : V → K) (prev : Table V) (after : List (String × V)) : List (Statement K V) :=
  ((after.filter fun entry => prev[entry.1]? ≠ some entry.2).map
    fun entry => (pk entry.2, entry.2)).map fun entry => .upsert entry.1 entry.2

omit [DecidableEq K] in
theorem mem_changed (horder : after.Perm next.toList) {key : K} {row : V} :
    (key, row) ∈ (after.filter fun entry => prev[entry.1]? ≠ some entry.2).map
        (fun entry => (pk entry.2, entry.2)) ↔
      ∃ k : String, next[k]? = some row ∧ prev[k]? ≠ some row ∧ pk row = key := by
  simp only [List.mem_map, List.mem_filter, Prod.mk.injEq, Prod.exists, decide_eq_true_eq]
  constructor
  · rintro ⟨k, v, ⟨hmem, hchanged⟩, hkey, rfl⟩
    have hv := ExtTreeMap.mem_toList_iff_getElem?_eq_some.mp (horder.mem_iff.mp hmem)
    exact ⟨k, hv, hchanged, hkey⟩
  · rintro ⟨k, hv, hchanged, hkey⟩
    have hmem := horder.mem_iff.mpr (ExtTreeMap.mem_toList_iff_getElem?_eq_some.mpr hv)
    exact ⟨k, row, ⟨hmem, hchanged⟩, hkey, rfl⟩

/-- Saving the difference: the deletes and then the upserts. -/
def saveDiff (pk : V → K) (place : String × V → K) (prev next : Table V)
    (before after : List (String × V)) : List (Statement K V) :=
  deletes place next before ++ upserts pk prev after

section diff

variable (hprev : Filed pk name place prev) (hnext : Filed pk name place next)
  (hbefore : before.Perm prev.toList) (hafter : after.Perm next.toList)

include hprev hbefore hafter in
theorem run_saveDiff_cases {done : List (Statement K V)}
    (hdone : done <+: saveDiff pk place prev next before after) :
    (∀ key row, run (rowsOf pk prev) done key = some row → rowsOf pk prev key = some row) ∨
      ∀ key row, run (rowsOf pk prev) done key = some row →
        (∃ k : String, next[k]? = some row ∧ pk row = key) ∨
        ∃ k : String, prev[k]? = some row ∧ pk row = key ∧ next.contains k := by
  obtain hdeletes | ⟨written, rfl⟩ := List.prefix_or_prefix_of_prefix hdone
    (List.prefix_append (deletes place next before) (upserts pk prev after))
  · exact .inl fun key row hrow => run_deletes_le hdeletes hrow
  · right
    intro key row hrow
    have hwritten : written <+: upserts pk prev after :=
      (List.prefix_append_right_inj _).mp hdone
    obtain ⟨entries, hentries, rfl⟩ := List.prefix_map_iff.mp hwritten
    rw [run_append] at hrow
    obtain hupsert | ⟨hheld, -⟩ := run_upserts hrow
    · obtain ⟨k, hk, -, hkey⟩ := (mem_changed hafter).mp (hentries.mem hupsert)
      exact .inl ⟨k, hk, hkey⟩
    · exact .inr ((run_deletes_rowsOf hprev hbefore).mp hheld)

include hprev hbefore hafter in
theorem distinct_during (hsame : SamePlace pk prev next) (holds : UniqueBy column prev)
    (hnews : UniqueBy column next) (hsteady : Steady column prev next)
    {done : List (Statement K V)} (hdone : done <+: saveDiff pk place prev next before after) :
    Distinct column (run (rowsOf pk prev) done) := by
  obtain hless | hcases := run_saveDiff_cases hprev hbefore hafter hdone
  · intro key key' v w a hv hw
    exact (distinct_rowsOf hprev).mpr holds key key' v w a (hless key v hv) (hless key' w hw)
  · intro key key' v w a hv hw hva hwa
    obtain ⟨k, hk, rfl⟩ | ⟨k, hk, rfl, hkstays⟩ := hcases key v hv
    · obtain ⟨l, hl, rfl⟩ | ⟨l, hl, rfl, hlstays⟩ := hcases key' w hw
      · have hkl := hnews k l v w a hk hl hva hwa
        rw [hkl, hl] at hk
        rw [Option.some.inj hk]
      · have hkl := hsteady k l v w a hk hl hlstays hva hwa
        rw [hkl] at hk
        exact (hsame l w v hl hk).symm
    · obtain ⟨l, hl, rfl⟩ | ⟨l, hl, rfl, hlstays⟩ := hcases key' w hw
      · have hlk := hsteady l k w v a hl hk hkstays hwa hva
        rw [hlk] at hl
        exact hsame k v w hk hl
      · have hkl := holds k l v w a hk hl hva hwa
        rw [hkl, hl] at hk
        rw [Option.some.inj hk]

include hprev hnext hbefore hafter in
theorem run_saveDiff_new {k : String} {row : V} (hk : next[k]? = some row) :
    run (rowsOf pk prev) (saveDiff pk place prev next before after) (pk row) = some row := by
  rw [saveDiff, run_append, upserts]
  by_cases hchanged : prev[k]? = some row
  · rw [run_upserts_untouched]
    · exact (run_deletes_rowsOf hprev hbefore).mpr ⟨k, hchanged, rfl, contains_of_getElem? hk⟩
    · intro other hother
      obtain ⟨l, hl, hnew, hpk⟩ := (mem_changed hafter).mp hother
      have hlk := hnext.injective hl hk hpk
      rw [hlk, hk] at hl
      rw [hlk, ← Option.some.inj hl] at hnew
      exact hnew hchanged
  · refine run_upserts_written ((mem_changed hafter).mpr ⟨k, hk, hchanged, rfl⟩) ?_
    intro other hother
    obtain ⟨l, hl, -, hpk⟩ := (mem_changed hafter).mp hother
    have hlk := hnext.injective hl hk hpk
    rw [hlk, hk] at hl
    exact (Option.some.inj hl).symm

include hprev hnext hbefore hafter in
theorem run_saveDiff_stale {k : String} {old new : V} (hold : prev[k]? = some old)
    (hnew : next[k]? = some new) (hmoved : pk old ≠ pk new) :
    run (rowsOf pk prev) (saveDiff pk place prev next before after) (pk old) = some old := by
  rw [saveDiff, run_append, upserts, run_upserts_untouched]
  · exact (run_deletes_rowsOf hprev hbefore).mpr ⟨k, hold, rfl, contains_of_getElem? hnew⟩
  · intro other hother
    obtain ⟨l, hl, -, hpk⟩ := (mem_changed hafter).mp hother
    have hlk : l = k := by rw [← hnext.name l other hl, hpk, hprev.name k old hold]
    rw [hlk, hnew] at hl
    rw [Option.some.inj hl] at hmoved
    exact hmoved hpk.symm

end diff

omit [DecidableEq V] in
theorem run_rebuild (hnext : Filed pk name place next) {strip : V → V} {records : List V}
    (hrecords : ∀ row, row ∈ records ↔ row ∈ next.values) (rows : Rows K V) (key : K) :
    run rows (rebuild pk strip records) key = (rowsOf pk next key).map strip := by
  rw [rebuild, run_cons]
  cases hrow : rowsOf pk next key with
  | none =>
    rw [run_upserts_untouched]
    · rfl
    · intro other hother
      obtain ⟨row, hmem, heq⟩ := List.mem_map.mp hother
      obtain ⟨k, hk⟩ := Table.mem_values.mp ((hrecords row).mp hmem)
      have hsome := (rowsOf_eq_some hnext).mpr ⟨k, hk, (Prod.mk.inj heq).1⟩
      rw [hrow] at hsome
      cases hsome
  | some row =>
    obtain ⟨k, hk, rfl⟩ := (rowsOf_eq_some hnext).mp hrow
    refine run_upserts_written (List.mem_map.mpr ⟨row, ?_, rfl⟩) ?_
    · exact (hrecords row).mpr (Table.mem_values.mpr ⟨k, hk⟩)
    · intro other hother
      obtain ⟨same, hmem, heq⟩ := List.mem_map.mp hother
      obtain ⟨l, hl⟩ := Table.mem_values.mp ((hrecords same).mp hmem)
      obtain ⟨hpk, rfl⟩ := Prod.mk.inj heq
      have hlk := hnext.injective hl hk hpk
      rw [hlk, hk] at hl
      rw [Option.some.inj hl]

section compare

variable (hprev : Filed pk name place prev) (hnext : Filed pk name place next)
  (hbefore : before.Perm prev.toList) (hafter : after.Perm next.toList)

include hprev hnext hbefore hafter in
/-- The difference leaves what writing everything anew leaves just when no name has moved and the
inserts leave no column out. -/
theorem saveDiff_eq_rebuild_iff (strip : V → V) {records : List V}
    (hrecords : ∀ row, row ∈ records ↔ row ∈ next.values) (rows : Rows K V) :
    run (rowsOf pk prev) (saveDiff pk place prev next before after) =
        run rows (rebuild pk strip records) ↔
      SamePlace pk prev next ∧ ∀ (k : String) v, next[k]? = some v → strip v = v := by
  constructor
  · intro heq
    have hat := fun key => congrFun heq key
    simp only [run_rebuild hnext hrecords] at hat
    constructor
    · intro k old new hold hnew
      by_contra hmoved
      have hstale := run_saveDiff_stale hprev hnext hbefore hafter hold hnew hmoved
      rw [hat] at hstale
      obtain ⟨row, hrow, -⟩ := Option.map_eq_some_iff.mp hstale
      obtain ⟨l, hl, hpk⟩ := (rowsOf_eq_some hnext).mp hrow
      have hlk : l = k := by rw [← hnext.name l row hl, hpk, hprev.name k old hold]
      rw [hlk, hnew] at hl
      rw [Option.some.inj hl] at hmoved
      exact hmoved hpk.symm
    · intro k v hk
      have hnew := run_saveDiff_new hprev hnext hbefore hafter hk
      rw [hat, (rowsOf_eq_some hnext).mpr ⟨k, hk, rfl⟩] at hnew
      exact Option.some.inj hnew
  · rintro ⟨hsame, hstrip⟩
    funext key
    rw [run_rebuild hnext hrecords]
    cases hrow : rowsOf pk next key with
    | some row =>
      obtain ⟨k, hk, rfl⟩ := (rowsOf_eq_some hnext).mp hrow
      rw [run_saveDiff_new hprev hnext hbefore hafter hk, Option.map_some, hstrip k row hk]
    | none =>
      rw [Option.map_none, Option.eq_none_iff_forall_ne_some]
      intro row hleft
      rw [saveDiff, run_append] at hleft
      have hnone : ∀ (k : String) v, next[k]? = some v → pk v ≠ key := by
        intro k v hk hpk
        rw [(rowsOf_eq_some hnext).mpr ⟨k, hk, hpk⟩] at hrow
        cases hrow
      obtain hupsert | ⟨hheld, -⟩ := run_upserts hleft
      · obtain ⟨k, hk, -, hpk⟩ := (mem_changed hafter).mp hupsert
        exact hnone k row hk hpk
      · obtain ⟨k, hk, hpk, hstays⟩ := (run_deletes_rowsOf hprev hbefore).mp hheld
        rw [ExtTreeMap.contains_eq_isSome_getElem?, Option.isSome_iff_exists] at hstays
        obtain ⟨new, hnew⟩ := hstays
        exact hnone k new hnew ((hsame k row new hk hnew).symm.trans hpk)

include hprev hnext hbefore hafter in
theorem run_saveDiff (hsame : SamePlace pk prev next) :
    run (rowsOf pk prev) (saveDiff pk place prev next before after) = rowsOf pk next := by
  have hrebuilt := (saveDiff_eq_rebuild_iff hprev hnext hbefore hafter id
    (fun _ => Iff.rfl) (rowsOf pk prev)).mpr ⟨hsame, fun _ _ _ => rfl⟩
  funext key
  rw [hrebuilt, run_rebuild hnext (fun _ => Iff.rfl), Option.map_id, id]

end compare

def StaysDistinct (pk : V → K) (place : String × V → K) (column : V → Option C)
    (prev next : Table V) : Prop :=
  ∀ before after, before.Perm prev.toList → after.Perm next.toList →
    ∀ done, done <+: saveDiff pk place prev next before after →
      Distinct column (run (rowsOf pk prev) done)

theorem StaysDistinct.old (hprev : Filed pk name place prev)
    (h : StaysDistinct pk place column prev next) : UniqueBy column prev :=
  (distinct_rowsOf hprev).mp
    (h prev.toList next.toList (.refl _) (.refl _) [] List.nil_prefix)

theorem StaysDistinct.new (hprev : Filed pk name place prev) (hnext : Filed pk name place next)
    (h : StaysDistinct pk place column prev next) : UniqueBy column next := by
  intro k l v w a hv hw hva hwa
  have hlast := h prev.toList next.toList (.refl _) (.refl _) _ List.prefix_rfl
  have hpk := hlast _ _ v w a (run_saveDiff_new hprev hnext (.refl _) (.refl _) hv)
    (run_saveDiff_new hprev hnext (.refl _) (.refl _) hw) hva hwa
  exact hnext.injective hv hw hpk

theorem StaysDistinct.steady (hprev : Filed pk name place prev) (hnext : Filed pk name place next)
    (h : StaysDistinct pk place column prev next) : Steady column prev next := by
  intro k l v w a hv hw hstays hva hwa
  by_cases hchanged : prev[k]? = some v
  · exact h.old hprev k l v w a hchanged hw hva hwa
  · -- The loop may come to the new record first, when the old one is still there.
    have hmem : (k, v) ∈ next.toList := ExtTreeMap.mem_toList_iff_getElem?_eq_some.mpr hv
    have horder := List.perm_cons_erase hmem
    have hfirst : upserts pk prev ((k, v) :: next.toList.erase (k, v)) =
        .upsert (pk v) v :: upserts pk prev (next.toList.erase (k, v)) := by
      simp [upserts, hchanged]
    have hdone : deletes place next prev.toList ++ [.upsert (pk v) v] <+:
        saveDiff pk place prev next prev.toList ((k, v) :: next.toList.erase (k, v)) := by
      rw [saveDiff, hfirst, List.prefix_append_right_inj]
      exact List.prefix_append [_] _
    have hdistinct := h _ _ (.refl _) horder.symm _ hdone
    by_contra hne
    have hpk : pk w ≠ pk v := by
      intro heq
      rw [← hprev.name l w hw, heq, hnext.name k v hv] at hne
      exact hne rfl
    have hnew : run (rowsOf pk prev) (deletes place next prev.toList ++ [.upsert (pk v) v]) (pk v) =
        some v := by
      rw [run_append]
      simp [run, apply]
    have hold : run (rowsOf pk prev) (deletes place next prev.toList ++ [.upsert (pk v) v]) (pk w) =
        some w := by
      rw [run_append]
      have hleft := (run_deletes_rowsOf hprev (.refl _)).mpr ⟨l, hw, rfl, hstays⟩
      simpa [run_cons, run_nil, apply, hpk] using hleft
    exact hpk (hdistinct _ _ w v a hold hnew hwa hva)

theorem staysDistinct_iff (hprev : Filed pk name place prev) (hnext : Filed pk name place next)
    (hsame : SamePlace pk prev next) :
    StaysDistinct pk place column prev next ↔
      UniqueBy column prev ∧ UniqueBy column next ∧ Steady column prev next := by
  constructor
  · intro h
    exact ⟨h.old hprev, h.new hprev hnext, h.steady hprev hnext⟩
  · rintro ⟨holds, hnews, hsteady⟩ before after hbefore hafter done hdone
    exact distinct_during hprev hbefore hafter hsame holds hnews hsteady hdone

end tables

end AgentRelay.RowStatements

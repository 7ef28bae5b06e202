import AgentRelay.CivilCalendar
import AgentRelay.LocalDay

/-! The bucket keys of a chart. SQLite walks from the start of the window in steps of a day, a week
or a month, and reads the local key of each instant it comes by. The digits of a key are zero-padded,
so keys are numbers here; a month is counted from January of the year 0. -/
namespace AgentRelay.Usage.Store
open CivilCalendar

/-- `datetime(ts, 'unixepoch', '+N day')`. -/
def plusDays (days ts : ℤ) : ℤ := ts + days * 86400

/-- `datetime(ts, 'unixepoch', '+1 month')`, in UTC. -/
def plusMonth (ts : ℤ) : ℤ := addMonth (ts / 86400) * 86400 + ts % 86400

/-- The rows of `walk`: each one before the limit has a next one, `NULL` outside SQLite's years. -/
def walk (step : ℤ → ℤ) (limit : ℤ) : ℕ → Option ℤ → List (Option ℤ)
  | 0, _ => []
  | fuel + 1, row => row :: match row.filter (· < limit) with
    | some ts => walk step limit fuel ((sqlInstant ts).bind fun ts => sqlInstant (step ts))
    | none => []

/-- `calendar_keys`. A key that is `NULL` fails the query, which then answers with no key. -/
def calendarKeys (key : ℤ → Option ℤ) (step : ℤ → ℤ) (since till : ℕ) : List ℤ :=
  let limit := toSqlTime till
  let rows := (walk step limit (till - since + 1) (some (toSqlTime since))).filterMap
    (·.filter (· < limit))
  match rows.mapM key with
  | some keys => keys.dedup.mergeSort (· ≤ ·)
  | none => []

/-- `'%Y-W%W'`, as the number of its digits. -/
def weekNumber (day : ℤ) : ℤ := yearOf day * 100 + weekOfYear day

def weekKey (offset instant : ℤ) : Option ℤ := (localDate offset instant).map weekNumber

def monthKey (offset instant : ℤ) : Option ℤ := (localDate offset instant).map monthOf

def calendarDays (offset : ℤ) (since till : ℕ) : List ℤ :=
  calendarKeys (localDate offset) (plusDays 1) since till

def calendarWeeks (offset : ℤ) (since till : ℕ) : List ℤ :=
  calendarKeys (weekKey offset) (plusDays 7) since till

def calendarMonths (offset : ℤ) (since till : ℕ) : List ℤ :=
  calendarKeys (monthKey offset) plusMonth since till

structure Covers (key : ℤ → Option ℤ) (since till : ℕ) (keys : List ℤ) : Prop where
  keyed : ∀ ts, since ≤ ts → ts < till → (key (toSqlTime ts)).isSome
  exact : ∀ k, k ∈ keys ↔ ∃ ts, since ≤ ts ∧ ts < till ∧ key (toSqlTime ts) = some k
  ordered : keys.Pairwise (· < ·)

section walking
variable {step : ℤ → ℤ} (hstep : ∀ ts, ts < step ts)
include hstep

theorem le_iterate (ts : ℤ) (k : ℕ) : ts + k ≤ step^[k] ts := by
  induction k with
  | zero => simp
  | succ k ih =>
    rw [Function.iterate_succ_apply']
    have hnext := hstep (step^[k] ts)
    push_cast
    omega

theorem iterate_strictMono (ts : ℤ) : StrictMono fun k => step^[k] ts := by
  refine strictMono_nat_of_lt_succ fun k => ?_
  rw [Function.iterate_succ_apply']
  exact hstep _

theorem mem_walk {limit : ℤ} (hlimit : limit ≤ 253402300800) (fuel : ℕ) {start : ℤ}
    (hstart : 0 ≤ start) (hfuel : limit - start < fuel) (ts : ℤ) :
    ts ∈ (walk step limit fuel (some start)).filterMap (·.filter (· < limit)) ↔
      ∃ k, step^[k] start = ts ∧ ts < limit := by
  induction fuel generalizing start with
  | zero =>
    refine iff_of_false (by simp [walk]) ?_
    rintro ⟨k, hk, hlt⟩
    have hle := le_iterate hstep start k
    push_cast at hfuel
    omega
  | succ fuel ih =>
    have hnext := hstep start
    by_cases hlt : start < limit
    · have hinstant : sqlInstant start = some start := if_pos (by omega)
      have hrows : (walk step limit (fuel + 1) (some start)).filterMap (·.filter (· < limit)) =
          start :: (walk step limit fuel (sqlInstant (step start))).filterMap
            (·.filter (· < limit)) := by
        simp [walk, Option.filter_some, hlt, hinstant]
      rw [hrows, List.mem_cons]
      have hrest : ts ∈ (walk step limit fuel (sqlInstant (step start))).filterMap
          (·.filter (· < limit)) ↔ ∃ k, step^[k] (step start) = ts ∧ ts < limit := by
        by_cases hyears : step start ≤ 253402300799
        · rw [sqlInstant, if_pos (by omega)]
          exact ih (by omega) (by push_cast at hfuel; omega)
        · rw [sqlInstant, if_neg (by omega)]
          refine iff_of_false (by cases fuel <;> simp [walk]) ?_
          rintro ⟨k, hk, hbefore⟩
          have hle := le_iterate hstep (step start) k
          omega
      rw [hrest]
      constructor
      · rintro (rfl | ⟨k, hk, hbefore⟩)
        · exact ⟨0, rfl, hlt⟩
        · exact ⟨k + 1, hk, hbefore⟩
      · rintro ⟨k, hk, hbefore⟩
        cases k with
        | zero => exact Or.inl hk.symm
        | succ k => exact Or.inr ⟨k, hk, hbefore⟩
    · have hrows : (walk step limit (fuel + 1) (some start)).filterMap (·.filter (· < limit)) =
          [] := by
        simp [walk, Option.filter_some, hlt]
      rw [hrows]
      refine iff_of_false List.not_mem_nil ?_
      rintro ⟨k, hk, hbefore⟩
      have hle := le_iterate hstep start k
      omega

end walking

section covering
variable {key : ℤ → Option ℤ} {number step : ℤ → ℤ} {offset : ℤ} {since till : ℕ}

theorem mapM_keys {rows : List ℤ} {f : ℤ → ℤ} (h : ∀ ts ∈ rows, key ts = some (f ts)) :
    rows.mapM key = some (rows.map f) := by
  induction rows with
  | nil => rfl
  | cons ts rows ih =>
    have hrest := ih fun other hother => h other (List.mem_cons_of_mem _ hother)
    rw [List.mapM_cons, h ts List.mem_cons_self, hrest]
    rfl

theorem sorted_keys (keys : List ℤ) : (keys.dedup.mergeSort (· ≤ ·)).Pairwise (· < ·) := by
  have hsorted : (keys.dedup.mergeSort (· ≤ ·)).Pairwise fun a b => decide (a ≤ b) = true :=
    List.pairwise_mergeSort (by simpa using fun a b c => le_trans) (by simpa using le_total) _
  have hnodup := (List.mergeSort_perm keys.dedup fun a b : ℤ => decide (a ≤ b)).nodup_iff.mpr
    keys.nodup_dedup
  refine (hsorted.and hnodup).imp fun hboth => ?_
  exact lt_of_le_of_ne (of_decide_eq_true hboth.1) hboth.2

/-- The keys cover a window that is not empty exactly if it lies in SQLite's years, and the steps
come by an instant of each bucket before it ends. -/
theorem covers_iff (hkey : ∀ ts, key ts = (localDate offset ts).map number)
    (hstep : ∀ ts, ts < step ts) (hlow : -43200 ≤ offset) (hhigh : offset ≤ 50400)
    (hlt : since < till) :
    Covers key since till (calendarKeys key step since till) ↔
      (till : ℤ) ≤ 253402300800 ∧ till + offset ≤ 253402300800 ∧
        ∀ ts : ℤ, since ≤ ts → ts < till → ∃ k, step^[k] since < till ∧
          number ((step^[k] since + offset) / 86400) = number ((ts + offset) / 86400) := by
  have hyears : ∀ ts : ℕ, (key (toSqlTime ts)).isSome →
      (ts : ℤ) ≤ 253402300799 ∧ ts + offset ≤ 253402300799 := by
    intro ts hsome
    rw [hkey, Option.isSome_map] at hsome
    obtain ⟨day, hday⟩ := Option.isSome_iff_exists.mp hsome
    obtain ⟨hsql, hlocal, -⟩ := localDate_eq_some hday
    unfold toSqlTime at hsql hlocal
    omega
  by_cases hrange : (till : ℤ) ≤ 253402300800 ∧ till + offset ≤ 253402300800
  · have hnumber : ∀ ts : ℤ, 0 ≤ ts → ts < till →
        key ts = some (number ((ts + offset) / 86400)) := by
      intro ts hts hbefore
      rw [hkey, localDate_eq (by omega) (by omega) (by omega) (by omega)]
      rfl
    have hsql : ∀ ts : ℕ, ts ≤ till → toSqlTime ts = ts := by
      intro ts hts
      unfold toSqlTime
      omega
    have hinstant : ∀ j, (since : ℤ) ≤ step^[j] since := fun j => by
      have hle := le_iterate hstep since j
      omega
    have hmem : ∀ k, k ∈ calendarKeys key step since till ↔
        ∃ j, step^[j] since < till ∧ number ((step^[j] since + offset) / 86400) = k := by
      intro k
      have hrows := mem_walk hstep hrange.1 (till - since + 1) (Nat.cast_nonneg since) (by omega)
      unfold calendarKeys
      rw [hsql till le_rfl, hsql since hlt.le]
      dsimp only
      rw [mapM_keys (f := fun ts => number ((ts + offset) / 86400)) fun ts hts => by
        obtain ⟨j, rfl, hbefore⟩ := (hrows ts).mp hts
        exact hnumber _ ((Nat.cast_nonneg since).trans (hinstant j)) hbefore]
      simp only [List.mem_mergeSort, List.mem_dedup, List.mem_map, hrows]
      constructor
      · rintro ⟨ts, ⟨j, rfl, hbefore⟩, rfl⟩
        exact ⟨j, hbefore, rfl⟩
      · rintro ⟨j, hbefore, rfl⟩
        exact ⟨_, ⟨j, rfl, hbefore⟩, rfl⟩
    constructor
    · intro hcovers
      refine ⟨hrange.1, hrange.2, fun ts hsince hbefore => ?_⟩
      refine (hmem _).mp ((hcovers.exact _).mpr ⟨ts.toNat, by omega, by omega, ?_⟩)
      rw [hsql ts.toNat (by omega), Int.toNat_of_nonneg (by omega)]
      exact hnumber ts (by omega) hbefore
    · rintro ⟨-, -, hall⟩
      refine ⟨fun ts hsince hbefore => ?_, fun k => ?_, ?_⟩
      · rw [hsql ts hbefore.le, hnumber ts (by omega) (by omega)]
        rfl
      · rw [hmem]
        constructor
        · rintro ⟨j, hbefore, rfl⟩
          have hle := hinstant j
          refine ⟨(step^[j] since).toNat, by omega, by omega, ?_⟩
          rw [hsql _ (by omega), Int.toNat_of_nonneg (by omega)]
          exact hnumber _ (by omega) hbefore
        · rintro ⟨ts, hsince, hbefore, hk⟩
          rw [hsql ts hbefore.le, hnumber ts (by omega) (by omega)] at hk
          obtain ⟨j, hj, hsame⟩ := hall ts (by omega) (by omega)
          exact ⟨j, hj, hsame.trans (Option.some.inj hk)⟩
      · unfold calendarKeys
        dsimp only
        split
        · exact sorted_keys _
        · exact List.Pairwise.nil
  · refine iff_of_false (fun hcovers => hrange ?_) fun h => hrange ⟨h.1, h.2.1⟩
    obtain ⟨hsql, hlocal⟩ := hyears (till - 1) (hcovers.keyed (till - 1) (by omega) (by omega))
    omega

theorem covers_empty (h : till ≤ since) (key : ℤ → Option ℤ) (step : ℤ → ℤ) :
    Covers key since till (calendarKeys key step since till) := by
  have hkeys : calendarKeys key step since till = [] := by
    have hnot : ¬toSqlTime since < toSqlTime till := by
      unfold toSqlTime
      omega
    simp [calendarKeys, walk, Option.filter_some, hnot]
  rw [hkeys]
  exact ⟨fun ts hfrom hbefore => by omega, fun k => iff_of_false List.not_mem_nil fun ⟨ts, h⟩ => by
    omega, List.Pairwise.nil⟩

end covering

section days
variable {offset : ℤ} {since till : ℕ}

theorem iterate_plusDays (days ts : ℤ) (k : ℕ) : (plusDays days)^[k] ts = ts + k * days * 86400 := by
  induction k with
  | zero => simp
  | succ k ih =>
    rw [Function.iterate_succ_apply', ih, plusDays]
    push_cast
    ring

theorem calendarDays_iff (hlow : -43200 ≤ offset) (hhigh : offset ≤ 50400) (hlt : since < till) :
    Covers (localDate offset) since till (calendarDays offset since till) ↔
      (till : ℤ) ≤ 253402300800 ∧ till + offset ≤ 253402300800 ∧
        (since + offset) % 86400 ≤ (till - 1 + offset) % 86400 := by
  have hstep : ∀ ts, ts < plusDays 1 ts := fun ts => by unfold plusDays; omega
  have hkey : ∀ ts, localDate offset ts = (localDate offset ts).map id := by simp
  rw [calendarDays, covers_iff hkey hstep hlow hhigh hlt]
  refine and_congr_right fun _ => and_congr_right fun _ => ?_
  simp only [iterate_plusDays, id_eq]
  constructor
  · intro hall
    obtain ⟨k, hbefore, hday⟩ := hall (till - 1) (by omega) (by omega)
    omega
  · intro hphase ts hsince hbefore
    refine ⟨((ts + offset) / 86400 - (since + offset) / 86400).toNat, ?_, ?_⟩
    · omega
    · omega

theorem weekNumber_eq_iff {day other : ℤ} :
    weekNumber day = weekNumber other ↔ yearOf day = yearOf other ∧ weekOf day = weekOf other := by
  have hday := weekOfYear_bounds day
  have hother := weekOfYear_bounds other
  unfold weekNumber
  constructor
  · intro heq
    have hyear : yearOf day = yearOf other := by omega
    have hweek : weekOfYear day = weekOfYear other := by omega
    rw [weekOfYear_eq, weekOfYear_eq, hyear] at hweek
    exact ⟨hyear, by omega⟩
  · rintro ⟨hyear, hweek⟩
    rw [weekOfYear_eq, weekOfYear_eq, hyear, hweek]

theorem newYear_between {day later : ℤ} (hle : day ≤ later) (hweek : weekOf day = weekOf later)
    (hyear : yearOf day ≠ yearOf later) :
    day < yearStart (yearOf later) ∧ yearStart (yearOf later) ≤ later ∧
      weekday (yearStart (yearOf later)) ≠ 0 := by
  obtain ⟨hstart, hend⟩ := yearOf_spec later
  have hbefore : day < yearStart (yearOf later) := by
    by_contra hnot
    exact hyear (yearOf_eq_iff.mpr ⟨not_lt.mp hnot, hle.trans_lt hend⟩)
  refine ⟨hbefore, hstart, fun hmonday => ?_⟩
  unfold weekday at hmonday
  unfold weekOf at hweek
  omega

/-- One key for each week: the walk is not behind when the window ends, and no New Year within the
window splits a week. -/
theorem calendarWeeks_iff (hlow : -43200 ≤ offset) (hhigh : offset ≤ 50400) (hlt : since < till) :
    Covers (weekKey offset) since till (calendarWeeks offset since till) ↔
      (till : ℤ) ≤ 253402300800 ∧ till + offset ≤ 253402300800 ∧
        (since + offset + 259200) % 604800 ≤ (till - 1 + offset + 259200) % 604800 ∧
        ∀ year, (since + offset) / 86400 < yearStart year →
          yearStart year ≤ (till - 1 + offset) / 86400 → weekday (yearStart year) = 0 := by
  have hstep : ∀ ts, ts < plusDays 7 ts := fun ts => by unfold plusDays; omega
  have hkey : ∀ ts, weekKey offset ts = (localDate offset ts).map weekNumber := fun _ => rfl
  rw [calendarWeeks, covers_iff hkey hstep hlow hhigh hlt]
  refine and_congr_right fun _ => and_congr_right fun _ => ?_
  simp only [iterate_plusDays, weekNumber_eq_iff]
  constructor
  · intro hall
    constructor
    · obtain ⟨k, hbefore, -, hweek⟩ := hall (till - 1) (by omega) (by omega)
      unfold weekOf at hweek
      omega
    · intro year hafter hwithin
      by_contra hsplit
      obtain ⟨k, -, hyear, hweek⟩ := hall (yearStart year * 86400 - offset) (by omega) (by omega)
      obtain ⟨j, -, hyear', hweek'⟩ := hall (yearStart year * 86400 - 1 - offset) (by omega)
        (by omega)
      have hfirst : yearOf (yearStart year) = year :=
        yearOf_eq_iff.mpr ⟨le_rfl, yearStart_strictMono (lt_add_one year)⟩
      have hlast : yearOf (yearStart year - 1) = year - 1 := by
        have hlength := yearLength_bounds (year - 1)
        rw [sub_add_cancel] at hlength
        refine yearOf_eq_iff.mpr ⟨by omega, ?_⟩
        rw [sub_add_cancel]
        omega
      rw [show (yearStart year * 86400 - offset + offset) / 86400 = yearStart year by omega]
        at hyear hweek
      rw [show (yearStart year * 86400 - 1 - offset + offset) / 86400 = yearStart year - 1 by
        omega] at hyear' hweek'
      have hsame : k = j := by
        unfold weekday at hsplit
        unfold weekOf at hweek hweek'
        omega
      rw [hsame, hyear', hfirst, hlast] at hyear
      omega
  · rintro ⟨hphase, hyears⟩ ts hsince hbefore
    obtain ⟨k, hk⟩ : ∃ k : ℕ, (k : ℤ) =
        weekOf ((ts + offset) / 86400) - weekOf ((since + offset) / 86400) := by
      refine ⟨_, Int.toNat_of_nonneg ?_⟩
      unfold weekOf
      omega
    have hweek : weekOf ((since + k * 7 * 86400 + offset) / 86400) =
        weekOf ((ts + offset) / 86400) := by
      unfold weekOf at hk ⊢
      omega
    have htill : since + k * 7 * 86400 < (till : ℤ) := by
      unfold weekOf at hk
      omega
    refine ⟨k, htill, ?_, hweek⟩
    by_contra hyear
    rcases le_total ((since + k * 7 * 86400 + offset) / 86400) ((ts + offset) / 86400) with hle | hle
    · obtain ⟨hafter, hwithin, hsplit⟩ := newYear_between hle hweek hyear
      exact hsplit (hyears _ (by omega) (by omega))
    · obtain ⟨hafter, hwithin, hsplit⟩ := newYear_between hle hweek.symm (Ne.symm hyear)
      exact hsplit (hyears _ (by omega) (by omega))

end days

end AgentRelay.Usage.Store

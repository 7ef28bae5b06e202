import Mathlib.Order.Bounds.Basic
import Mathlib.Tactic
import Std.Data.ExtTreeMap
import Std.Data.ExtTreeMap.Lemmas

/-! The local day in the token ledger. SQLite turns instants into dates and back through the local
offset; two functions of the ledger look for the start of a day, and one of them shifts the wrong
way. Dates are days since the epoch, instants are seconds. -/
namespace AgentRelay.Usage.Store

/-- `to_sql_time` of a `u64`. -/
def toSqlTime (value : ℕ) : ℤ := min value (2 ^ 63 - 1)

/-- An instant of the years 0000 to 9999; SQLite's date functions answer `NULL` on any other. -/
def sqlInstant (instant : ℤ) : Option ℤ :=
  if -62167219200 ≤ instant ∧ instant ≤ 253402300799 then some instant else none

/-- `date(instant, 'unixepoch', 'localtime')`. -/
def localDate (offset instant : ℤ) : Option ℤ :=
  (sqlInstant instant).bind fun instant => (sqlInstant (instant + offset)).map (· / 86400)

/-- `unixepoch(date, 'utc')`: the date is read as local time. -/
def unixepochUtc (offset date : ℤ) : Option ℤ := sqlInstant (date * 86400 - offset)

/-- `unixepoch(date, 'localtime')`: the date is read as UTC and taken to local time. -/
def unixepochLocaltime (offset date : ℤ) : Option ℤ := sqlInstant (date * 86400 + offset)

def orUtcMidnight (ts : ℕ) (answer : Option ℤ) : ℕ :=
  match answer with
  | some instant => (max instant 0).toNat
  | none => ts - ts % 86400

/-- Local midnight of the calendar day containing `ts`. -/
def localMidnightContaining (offset : ℤ) (ts : ℕ) : ℕ :=
  orUtcMidnight ts ((localDate offset (toSqlTime ts)).bind (unixepochUtc offset))

def localMidnightFromConn (offset : ℤ) (ts : ℕ) : ℕ :=
  orUtcMidnight ts ((localDate offset (toSqlTime ts)).bind (unixepochLocaltime offset))

/-- The key that `by_day` and `calendar_days` give the instant. -/
def dayKey (offset : ℤ) (ts : ℕ) : Option ℤ := localDate offset (toSqlTime ts)

/-- The day `record_budget_hit` files a refusal under. -/
def budgetHitDay (offset : ℤ) (ts : ℕ) : Option ℤ :=
  localDate offset (toSqlTime (localMidnightFromConn offset ts))

structure BudgetHit where
  firstAt : ℤ
  spent : ℕ
  cap : ℕ
  policy : String
  holdCount : ℕ
  deriving DecidableEq, Repr

abbrev BudgetHits := Std.ExtTreeMap ℤ BudgetHit compare

/-- Record that the daily cap refused a turn: one row a day, the first instant stays. -/
def recordBudgetHit (offset : ℤ) (ts spent cap : ℕ) (policy : String) (hits : BudgetHits) :
    BudgetHits :=
  match budgetHitDay offset ts with
  | none => hits
  | some day =>
    let hit : BudgetHit := match hits[day]? with
      | some hit => { hit with spent, cap, policy, holdCount := hit.holdCount + 1 }
      | none => { firstAt := toSqlTime ts, spent, cap, policy, holdCount := 1 }
    hits.insert day hit

theorem filed_iff {offset : ℤ} {ts : ℕ} {day : ℤ} :
    (∀ spent cap policy hits, ∃ hit,
      recordBudgetHit offset ts spent cap policy hits = hits.insert day hit) ↔
        budgetHitDay offset ts = some day := by
  constructor
  · intro hfiled
    obtain ⟨hit, hrow⟩ := hfiled 0 0 "" ∅
    have hday := congrArg (·[day]?) hrow
    unfold recordBudgetHit at hday
    cases hkey : budgetHitDay offset ts with
    | none => simp [hkey] at hday
    | some filed =>
      simp only [hkey, Std.ExtTreeMap.getElem?_insert, compare_eq_iff_eq] at hday
      split_ifs at hday with hsame
      · rw [hsame]
      · simp at hday
  · intro hkey spent cap policy hits
    unfold recordBudgetHit
    rw [hkey]
    exact ⟨_, rfl⟩

/-- Both functions speak of the same day: the budget's midnight is the last local midnight, never
after the instant itself, and a refusal is filed under the local date, the key of the reports. -/
structure OneLocalDay (offset : ℤ) (ts : ℕ) : Prop where
  midnight : IsGreatest {m : ℤ | m ≤ ts ∧ (m + offset) % 86400 = 0}
    (localMidnightContaining offset ts)
  window : localMidnightContaining offset ts ≤ ts
  filed : ∀ spent cap policy hits, ∃ hit, recordBudgetHit offset ts spent cap policy hits =
    hits.insert ((ts + offset) / 86400) hit
  key : budgetHitDay offset ts = dayKey offset ts

section days
variable {offset : ℤ} {ts : ℕ}

theorem localDate_eq {instant : ℤ} (hlow : -62167219200 ≤ instant)
    (hhigh : instant ≤ 253402300799) (hlow' : -62167219200 ≤ instant + offset)
    (hhigh' : instant + offset ≤ 253402300799) :
    localDate offset instant = some ((instant + offset) / 86400) := by
  simp [localDate, sqlInstant, hlow, hhigh, hlow', hhigh']

theorem localDate_eq_some {instant day : ℤ} (h : localDate offset instant = some day) :
    instant ≤ 253402300799 ∧ instant + offset ≤ 253402300799 ∧
      day = (instant + offset) / 86400 := by
  simp only [localDate, sqlInstant, Option.bind_eq_some_iff, Option.map_eq_some_iff] at h
  obtain ⟨i, hi, j, hj, rfl⟩ := h
  split_ifs at hi hj with hrange hrange'
  cases hi
  cases hj
  exact ⟨hrange.2, hrange'.2, rfl⟩

theorem toSqlTime_eq (h : (ts : ℤ) ≤ 253402300799) : toSqlTime ts = ts := by
  unfold toSqlTime
  omega

/-- In the years SQLite knows, the two starts of the day are a local midnight shifted one way and
the other. -/
theorem starts_eq (hlow : -43200 ≤ offset) (hhigh : offset ≤ 50400)
    (hts : (ts : ℤ) ≤ 253402300799) (hlocal : ts + offset ≤ 253402300799) :
    (localMidnightContaining offset ts : ℤ) = max ((ts + offset) / 86400 * 86400 - offset) 0 ∧
      (localMidnightFromConn offset ts : ℤ) = max ((ts + offset) / 86400 * 86400 + offset) 0 := by
  have hdate : localDate offset (toSqlTime ts) = some ((ts + offset) / 86400) := by
    rw [toSqlTime_eq hts]
    exact localDate_eq (by omega) hts (by omega) hlocal
  constructor
  · rw [localMidnightContaining, hdate, Option.bind_some, unixepochUtc, sqlInstant,
      if_pos (by omega)]
    exact Int.toNat_of_nonneg (le_max_right _ _)
  · rw [localMidnightFromConn, hdate, Option.bind_some, unixepochLocaltime, sqlInstant,
      if_pos (by omega)]
    exact Int.toNat_of_nonneg (le_max_right _ _)

end days

/-- The two notions of the local day agree exactly at and east of Greenwich, less than twelve hours
east, from the first local midnight of the epoch to the last date SQLite knows. -/
theorem oneLocalDay_iff (offset : ℤ) (ts : ℕ) (hlow : -43200 ≤ offset) (hhigh : offset ≤ 50400) :
    OneLocalDay offset ts ↔ 0 ≤ offset ∧ offset < 43200 ∧ (offset = 0 ∨ 86400 ≤ ts + offset) ∧
      ts + offset ≤ 253402300799 := by
  constructor
  · rintro ⟨hmidnight, hwindow, hrows, hkey⟩
    have hfiled := filed_iff.mp hrows
    obtain ⟨hsql, hlocal, -⟩ := localDate_eq_some (hkey.symm.trans hfiled)
    have hts : (ts : ℤ) ≤ 253402300799 := by
      unfold toSqlTime at hsql
      omega
    rw [toSqlTime_eq hts] at hlocal
    obtain ⟨hstart, hrefusal⟩ := starts_eq hlow hhigh hts hlocal
    have hmultiple : ((localMidnightContaining offset ts : ℤ) + offset) % 86400 = 0 :=
      hmidnight.1.2
    obtain ⟨-, -, hday⟩ := localDate_eq_some hfiled
    rw [toSqlTime_eq (by omega)] at hday
    -- West of Greenwich and from twelve hours east on, the shift crosses a midnight.
    omega
  · rintro ⟨heast, hhalf, hfirst, hlocal⟩
    have hts : (ts : ℤ) ≤ 253402300799 := by omega
    obtain ⟨hstart, hrefusal⟩ := starts_eq hlow hhigh hts hlocal
    have hkey : dayKey offset ts = some ((ts + offset) / 86400) := by
      rw [dayKey, toSqlTime_eq hts]
      exact localDate_eq (by omega) hts (by omega) hlocal
    have hfiled : budgetHitDay offset ts = some ((ts + offset) / 86400) := by
      rw [budgetHitDay, toSqlTime_eq (by omega),
        localDate_eq (by omega) (by omega) (by omega) (by omega)]
      congr 1
      omega
    refine ⟨⟨⟨by omega, by omega⟩, fun m hm => ?_⟩, by omega, filed_iff.mpr hfiled,
      hfiled.trans hkey.symm⟩
    obtain ⟨hle, hmultiple⟩ : m ≤ ts ∧ (m + offset) % 86400 = 0 := hm
    omega

/-- An hour east of Greenwich the two agree; at noon fourteen hours east they do not. -/
theorem oneLocalDay_iff_noon : OneLocalDay 3600 1700000000 ∧ ¬OneLocalDay 50400 1700000000 := by
  refine ⟨(oneLocalDay_iff 3600 1700000000 (by decide) (by decide)).mpr (by decide), fun h => ?_⟩
  exact absurd ((oneLocalDay_iff 50400 1700000000 (by decide) (by decide)).mp h).2.1 (by decide)

/-- An hour west of Greenwich the refusal is filed under the day before. -/
theorem refusal_filed_dayBefore :
    localMidnightContaining (-3600) 1700000000 = 1699920000 + 3600 ∧
      budgetHitDay (-3600) 1700000000 = some 19674 ∧ dayKey (-3600) 1700000000 = some 19675 ∧
      ¬OneLocalDay (-3600) 1700000000 := by
  refine ⟨by decide, by decide, by decide, fun h => ?_⟩
  exact absurd h.key (by decide)

end AgentRelay.Usage.Store

import Mathlib.Order.Monotone.Basic
import Mathlib.Tactic

/-! The civil calendar. Days count from 1970-01-01, months from January of the year 0; the leap day
ends the year that the month lengths are summed over. -/
namespace AgentRelay.CivilCalendar

def leapDays (year : ℤ) : ℤ := year / 4 - year / 100 + year / 400

/-- The first day of a month, `month = 12 * year + (number of the month - 1)`. -/
def monthStart (month : ℤ) : ℤ :=
  365 * ((month - 2) / 12) + leapDays ((month - 2) / 12) + (153 * ((month - 2) % 12) + 2) / 5 -
    719468

def monthLength (month : ℤ) : ℤ := monthStart (month + 1) - monthStart month

def monthOf (day : ℤ) : ℤ :=
  let month := (day + 719468) * 4800 / 146097 + 2
  if monthStart (month + 1) ≤ day then month + 1
  else if monthStart month ≤ day then month else month - 1

def yearStart (year : ℤ) : ℤ := monthStart (12 * year)

def yearOf (day : ℤ) : ℤ := monthOf day / 12

/-- Monday is 0. -/
def weekday (day : ℤ) : ℤ := (day + 3) % 7

def weekOf (day : ℤ) : ℤ := (day + 3) / 7

def weekOfYear (day : ℤ) : ℤ := (day - yearStart (yearOf day) + 7 - weekday day) / 7

section months

theorem leapDays_succ (year : ℤ) :
    leapDays year ≤ leapDays (year + 1) ∧ leapDays (year + 1) ≤ leapDays year + 1 := by
  have hcentury : ∀ year : ℤ, year / 100 = year / 4 / 25 := fun year => by omega
  have hcycle : ∀ year : ℤ, year / 400 = year / 4 / 25 / 4 := fun year => by omega
  simp only [leapDays, hcentury, hcycle]
  omega

theorem leapDays_bounds (year : ℤ) :
    97 * year - 699 ≤ 400 * leapDays year ∧ 400 * leapDays year ≤ 97 * year + 396 := by
  unfold leapDays
  omega

theorem monthLength_bounds (month : ℤ) : 28 ≤ monthLength month ∧ monthLength month ≤ 31 := by
  have hleap := leapDays_succ ((month - 2) / 12)
  obtain hwithin | hmarch : (month + 1 - 2) / 12 = (month - 2) / 12 ∧
      (month + 1 - 2) % 12 = (month - 2) % 12 + 1 ∨
      (month + 1 - 2) / 12 = (month - 2) / 12 + 1 ∧ (month - 2) % 12 = 11 ∧
        (month + 1 - 2) % 12 = 0 := by omega
  · simp only [monthLength, monthStart, hwithin]
    omega
  · simp only [monthLength, monthStart, hmarch]
    omega

theorem monthStart_bounds (month : ℤ) :
    (month - 2) * 146097 - 19200 ≤ 4800 * (monthStart month + 719468) ∧
      4800 * (monthStart month + 719468) ≤ (month - 2) * 146097 + 19200 := by
  have hleap := leapDays_bounds ((month - 2) / 12)
  unfold monthStart
  omega

theorem monthStart_strictMono : StrictMono monthStart := by
  refine strictMono_int_of_lt_succ fun month => ?_
  have hlength := monthLength_bounds month
  unfold monthLength at hlength
  omega

theorem monthOf_spec (day : ℤ) :
    monthStart (monthOf day) ≤ day ∧ day < monthStart (monthOf day + 1) := by
  unfold monthOf
  dsimp only
  generalize hmonth : (day + 719468) * 4800 / 146097 + 2 = month
  have hbefore := monthStart_bounds (month - 1)
  have hafter := monthStart_bounds (month + 1 + 1)
  split_ifs with hnext hthis
  · exact ⟨hnext, by omega⟩
  · exact ⟨hthis, by omega⟩
  · rw [sub_add_cancel]
    exact ⟨by omega, by omega⟩

theorem monthOf_eq_iff {day month : ℤ} :
    monthOf day = month ↔ monthStart month ≤ day ∧ day < monthStart (month + 1) := by
  obtain ⟨hstart, hend⟩ := monthOf_spec day
  constructor
  · rintro rfl
    exact ⟨hstart, hend⟩
  · rintro ⟨hlow, hhigh⟩
    have hle := monthStart_strictMono.lt_iff_lt.mp (hstart.trans_lt hhigh)
    have hge := monthStart_strictMono.lt_iff_lt.mp (hlow.trans_lt hend)
    omega

theorem monthOf_mono : Monotone monthOf := by
  intro day later hle
  have hstart := (monthOf_spec day).1
  have hend := (monthOf_spec later).2
  have hlt := monthStart_strictMono.lt_iff_lt.mp ((hstart.trans hle).trans_lt hend)
  omega

theorem monthOf_monthStart (month : ℤ) : monthOf (monthStart month) = month :=
  monthOf_eq_iff.mpr ⟨le_refl _, monthStart_strictMono (lt_add_one month)⟩

end months

section weeks

theorem yearStart_strictMono : StrictMono yearStart := by
  intro year later hlt
  exact monthStart_strictMono (by omega)

theorem yearOf_spec (day : ℤ) : yearStart (yearOf day) ≤ day ∧ day < yearStart (yearOf day + 1) := by
  obtain ⟨hstart, hend⟩ := monthOf_spec day
  have hfirst := monthStart_strictMono.monotone
    (show 12 * yearOf day ≤ monthOf day by unfold yearOf; omega)
  have hlast := monthStart_strictMono.monotone
    (show monthOf day + 1 ≤ 12 * (yearOf day + 1) by unfold yearOf; omega)
  exact ⟨hfirst.trans hstart, hend.trans_le hlast⟩

theorem yearOf_eq_iff {day year : ℤ} :
    yearOf day = year ↔ yearStart year ≤ day ∧ day < yearStart (year + 1) := by
  obtain ⟨hstart, hend⟩ := yearOf_spec day
  constructor
  · rintro rfl
    exact ⟨hstart, hend⟩
  · rintro ⟨hlow, hhigh⟩
    have hle := yearStart_strictMono.lt_iff_lt.mp (hstart.trans_lt hhigh)
    have hge := yearStart_strictMono.lt_iff_lt.mp (hlow.trans_lt hend)
    omega

theorem yearLength_bounds (year : ℤ) :
    yearStart year + 365 ≤ yearStart (year + 1) ∧
      yearStart (year + 1) ≤ yearStart year + 366 := by
  have hleap := leapDays_succ (year - 1)
  have hshift : (12 * (year + 1) - 2) / 12 = (12 * year - 2) / 12 + 1 ∧
      (12 * year - 2) / 12 = year - 1 ∧ (12 * (year + 1) - 2) % 12 = (12 * year - 2) % 12 := by
    omega
  simp only [yearStart, monthStart, hshift]
  omega

theorem weekOfYear_eq (day : ℤ) :
    weekOfYear day = weekOf day + (4 - yearStart (yearOf day)) / 7 := by
  unfold weekOfYear weekday weekOf
  omega

theorem weekOfYear_bounds (day : ℤ) : 0 ≤ weekOfYear day ∧ weekOfYear day ≤ 53 := by
  obtain ⟨hstart, hend⟩ := yearOf_spec day
  have hlength := yearLength_bounds (yearOf day)
  unfold weekOfYear weekday
  omega

end weeks

def addMonth (day : ℤ) : ℤ := monthStart (monthOf day + 1) + (day - monthStart (monthOf day))

example : monthOf 11016 = 12 * 2000 + 1 ∧ addMonth (monthStart (12 * 2024) + 30) =
    monthStart (12 * 2024 + 2) + 1 ∧ weekOfYear 19722 = 52 ∧ weekOfYear 19723 = 1 := by
  decide

end AgentRelay.CivilCalendar

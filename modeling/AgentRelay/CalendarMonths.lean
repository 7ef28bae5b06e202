import AgentRelay.CalendarKeys

/-! The month keys of a chart. The steps of a month keep the day of the month, in UTC, until a month
is too short for it; the day is then carried into the month after, and the steps go on from there. -/
namespace AgentRelay.Usage.Store
open CivilCalendar

def firstShort (day : ℤ) : ℕ → ℤ → Option ℤ
  | 0, _ => none
  | count + 1, month =>
    if monthLength month ≤ day then some month else firstShort day count (month + 1)

/-- How far into a later local month the steps first come by, in seconds. Past its end they have
jumped over it. -/
def monthPlace (offset since month : ℤ) : ℤ :=
  let first := monthOf (since / 86400)
  let place := since + offset - monthStart first * 86400
  -- Before the month begins in UTC the local month is about to end.
  if place < 0 then monthLength month * 86400 + place
  else match firstShort (since / 86400 - monthStart first) (month - first - 1).toNat (first + 1) with
    | some short =>
      let carried := place - monthLength short * 86400
      if carried < 0 then monthLength month * 86400 + carried else carried
    | none =>
      if place < monthLength (month - 1) * 86400 then place
      else place - monthLength (month - 1) * 86400

section steps

theorem firstShort_eq_none {day : ℤ} {count : ℕ} {month : ℤ} (h : firstShort day count month = none)
    {later : ℤ} (hfrom : month ≤ later) (hbefore : later < month + count) :
    day < monthLength later := by
  induction count generalizing month with
  | zero =>
    push_cast at hbefore
    omega
  | succ count ih =>
    unfold firstShort at h
    split_ifs at h with hshort
    rcases hfrom.eq_or_lt with rfl | hlt
    · exact not_le.mp hshort
    · exact ih h (by omega) (by push_cast at hbefore; omega)

theorem firstShort_eq_some {day : ℤ} {count : ℕ} {month short : ℤ}
    (h : firstShort day count month = some short) :
    month ≤ short ∧ short < month + count ∧ monthLength short ≤ day ∧
      ∀ earlier, month ≤ earlier → earlier < short → day < monthLength earlier := by
  induction count generalizing month with
  | zero => cases h
  | succ count ih =>
    unfold firstShort at h
    push_cast
    split_ifs at h with hshort
    · cases h
      exact ⟨le_rfl, by omega, hshort, fun earlier hfrom hbefore => by omega⟩
    · obtain ⟨hle, hlt, hday, hothers⟩ := ih h
      refine ⟨by omega, by omega, hday, fun earlier hfrom hbefore => ?_⟩
      rcases hfrom.eq_or_lt with rfl | hlater
      · exact not_le.mp hshort
      · exact hothers earlier (by omega) hbefore

theorem plusMonth_eq {month day time : ℤ} (hday : 0 ≤ day) (hlength : day < monthLength month)
    (htime : 0 ≤ time) (htime' : time < 86400) :
    plusMonth ((monthStart month + day) * 86400 + time) =
      (monthStart (month + 1) + day) * 86400 + time := by
  have hdiv : ((monthStart month + day) * 86400 + time) / 86400 = monthStart month + day := by omega
  have hmod : ((monthStart month + day) * 86400 + time) % 86400 = time := by omega
  have hmonth : monthOf (monthStart month + day) = month := by
    unfold monthLength at hlength
    exact monthOf_eq_iff.mpr ⟨by omega, by omega⟩
  rw [plusMonth, hdiv, hmod, addMonth, hmonth, add_sub_cancel_left]

theorem iterate_plusMonth {month day time : ℤ} (hday : 0 ≤ day) (htime : 0 ≤ time)
    (htime' : time < 86400) (k : ℕ)
    (hlength : ∀ later, month ≤ later → later < month + k → day < monthLength later) :
    plusMonth^[k] ((monthStart month + day) * 86400 + time) =
      (monthStart (month + k) + day) * 86400 + time := by
  induction k with
  | zero => simp
  | succ k ih =>
    have hstep := plusMonth_eq hday (hlength (month + k) (by omega) (by push_cast; omega)) htime
      htime'
    rw [Function.iterate_succ_apply', ih fun later hfrom hbefore =>
      hlength later hfrom (by push_cast; omega), hstep]
    push_cast
    ring_nf

theorem lt_plusMonth (ts : ℤ) : ts < plusMonth ts := by
  have hlength := monthLength_bounds (monthOf (ts / 86400))
  unfold monthLength at hlength
  unfold plusMonth addMonth
  omega

end steps

section places
variable {offset first day time month : ℤ}

def instantAt (first day time : ℤ) : ℤ := (monthStart first + day) * 86400 + time

structure Within (first day time : ℤ) : Prop where
  day_nonneg : 0 ≤ day
  day_lt : day < monthLength first
  time_nonneg : 0 ≤ time
  time_lt : time < 86400

theorem monthOf_instantAt (h : Within first day time) :
    monthOf (instantAt first day time / 86400) = first := by
  obtain ⟨hday, hlength, htime, htime'⟩ := h
  unfold monthLength at hlength
  unfold instantAt
  exact monthOf_eq_iff.mpr ⟨by omega, by omega⟩

theorem exists_instantAt (since : ℤ) :
    ∃ first day time, Within first day time ∧ since = instantAt first day time := by
  obtain ⟨hstart, hend⟩ := monthOf_spec (since / 86400)
  refine ⟨monthOf (since / 86400), since / 86400 - monthStart (monthOf (since / 86400)),
    since % 86400, ⟨by omega, ?_, by omega, by omega⟩, ?_⟩
  · unfold monthLength
    omega
  · unfold instantAt
    omega

theorem monthPlace_eq (h : Within first day time) (offset month : ℤ) :
    monthPlace offset (instantAt first day time) month =
      if day * 86400 + time + offset < 0 then
        monthLength month * 86400 + (day * 86400 + time + offset)
      else match firstShort day (month - first - 1).toNat (first + 1) with
        | some short =>
          if day * 86400 + time + offset - monthLength short * 86400 < 0 then
            monthLength month * 86400 + (day * 86400 + time + offset - monthLength short * 86400)
          else day * 86400 + time + offset - monthLength short * 86400
        | none =>
          if day * 86400 + time + offset < monthLength (month - 1) * 86400 then
            day * 86400 + time + offset
          else day * 86400 + time + offset - monthLength (month - 1) * 86400 := by
  have hday : instantAt first day time / 86400 - monthStart first = day := by
    obtain ⟨-, -, htime, htime'⟩ := h
    unfold instantAt
    omega
  have hplace : instantAt first day time + offset - monthStart first * 86400 =
      day * 86400 + time + offset := by
    unfold instantAt
    ring
  rw [monthPlace, monthOf_instantAt h, hday, hplace]

theorem steps_before (h : Within first day time) {k : ℕ}
    (hlength : ∀ later, first < later → later < first + k → day < monthLength later) :
    plusMonth^[k] (instantAt first day time) = instantAt (first + k) day time := by
  refine iterate_plusMonth h.day_nonneg h.time_nonneg h.time_lt k fun later hfrom hbefore => ?_
  rcases hfrom.eq_or_lt with rfl | hlater
  · exact h.day_lt
  · exact hlength later hlater hbefore

theorem steps_after (h : Within first day time) {short : ℤ} (hfirst : first < short)
    (hshort : monthLength short ≤ day)
    (hlength : ∀ later, first < later → later < short → day < monthLength later) (k : ℕ) :
    plusMonth^[k + (short - first).toNat] (instantAt first day time) =
      instantAt (short + 1 + k) (day - monthLength short) time := by
  have hbounds := monthLength_bounds first
  have hbounds' := monthLength_bounds short
  have hday := h.day_lt
  have hto : first + ((short - first).toNat : ℤ) = short := by omega
  have hbefore := steps_before h (k := (short - first).toNat) fun later hfrom hlt =>
    hlength later hfrom (by omega)
  have hcarry : instantAt short day time = instantAt (short + 1) (day - monthLength short) time := by
    unfold instantAt monthLength
    ring
  rw [Function.iterate_add_apply, hbefore, hto, hcarry]
  refine iterate_plusMonth (by omega) h.time_nonneg h.time_lt k fun later _ _ => ?_
  have hlater := monthLength_bounds later
  omega

theorem le_month_of_local (h : Within first day time) (hlow : -43200 ≤ offset)
    (hmonth : monthOf ((instantAt first day time + offset) / 86400) < month) : first ≤ month := by
  have hmono : monthOf (monthStart (first - 1)) ≤
      monthOf ((instantAt first day time + offset) / 86400) := by
    obtain ⟨hday, -, htime, -⟩ := h
    have hprevious := monthLength_bounds (first - 1)
    unfold monthLength at hprevious
    rw [sub_add_cancel] at hprevious
    apply monthOf_mono
    unfold instantAt
    omega
  rw [monthOf_monthStart] at hmono
  omega

theorem lt_month_of_local (hplace : 0 ≤ day * 86400 + time + offset)
    (hmonth : monthOf ((instantAt first day time + offset) / 86400) < month) : first < month := by
  have hmono : monthOf (monthStart first) ≤
      monthOf ((instantAt first day time + offset) / 86400) := by
    apply monthOf_mono
    unfold instantAt
    omega
  rw [monthOf_monthStart] at hmono
  omega

/-- The steps come by a month first with `place`. -/
def Reaches (offset since month place : ℤ) : Prop :=
  0 ≤ place ∧ ∃ j, plusMonth^[j] since + offset < monthStart month * 86400 ∧
    plusMonth^[j + 1] since + offset = monthStart month * 86400 + place

theorem reaches_end (h : Within first day time) (hlow : -43200 ≤ offset)
    (hplace : day * 86400 + time + offset < 0)
    (hmonth : monthOf ((instantAt first day time + offset) / 86400) < month) :
    Reaches offset (instantAt first day time) month
      (monthLength month * 86400 + (day * 86400 + time + offset)) := by
  have hge := le_month_of_local h hlow hmonth
  have hday := h.day_nonneg
  have htime := h.time_nonneg
  have hzero : day = 0 := by omega
  have hsteps := fun k => steps_before h (k := k) fun later _ _ => by
    have hlater := monthLength_bounds later
    omega
  have hlength := monthLength_bounds month
  refine ⟨by omega, (month - first).toNat, ?_, ?_⟩
  · rw [hsteps, show first + ((month - first).toNat : ℤ) = month by omega]
    unfold instantAt
    omega
  · rw [hsteps, show first + (((month - first).toNat + 1 : ℕ) : ℤ) = month + 1 by omega]
    unfold instantAt monthLength
    omega

/-- After a month that was too short the steps come by at the start of each local month, or, if that
month has not begun locally, at its end. -/
theorem reaches_carried (h : Within first day time) (hlow : -43200 ≤ offset)
    (hhigh : offset ≤ 50400) {short : ℤ} (hfirst : first < short) (hshort : short < month)
    (hday : monthLength short ≤ day)
    (hlength : ∀ later, first < later → later < short → day < monthLength later) :
    Reaches offset (instantAt first day time) month
      (if day * 86400 + time + offset - monthLength short * 86400 < 0 then
        monthLength month * 86400 + (day * 86400 + time + offset - monthLength short * 86400)
      else day * 86400 + time + offset - monthLength short * 86400) := by
  have hsteps := steps_after h hfirst hday hlength
  have hbefore := steps_before h (k := (short - first - 1).toNat) fun later hfrom hlt =>
    hlength later hfrom (by omega)
  obtain ⟨hday', hfirstDay, htime, htime'⟩ := h
  have hfirstLength := monthLength_bounds first
  have hshortLength := monthLength_bounds short
  have hmonthLength := monthLength_bounds month
  split_ifs with hcarried
  · refine ⟨by omega, (month - short - 1).toNat + (short - first).toNat, ?_, ?_⟩
    · rw [hsteps, show short + 1 + ((month - short - 1).toNat : ℤ) = month by omega]
      unfold instantAt
      omega
    · rw [show (month - short - 1).toNat + (short - first).toNat + 1 =
        (month - short).toNat + (short - first).toNat by omega, hsteps,
        show short + 1 + ((month - short).toNat : ℤ) = month + 1 by omega]
      unfold instantAt
      unfold monthLength at hmonthLength ⊢
      omega
  · refine ⟨by omega, (month - short - 1).toNat + (short - first).toNat - 1, ?_, ?_⟩
    · by_cases hnext : month = short + 1
      · rw [show (month - short - 1).toNat + (short - first).toNat - 1 =
          (short - first - 1).toNat by omega, hbefore,
          show first + ((short - first - 1).toNat : ℤ) = short - 1 by omega, hnext]
        have hprevious := monthLength_bounds (short - 1)
        unfold monthLength at hprevious hshortLength
        rw [sub_add_cancel] at hprevious
        unfold instantAt
        omega
      · rw [show (month - short - 1).toNat + (short - first).toNat - 1 =
          (month - short - 2).toNat + (short - first).toNat by omega, hsteps,
          show short + 1 + ((month - short - 2).toNat : ℤ) = month - 1 by omega]
        have hprevious := monthLength_bounds (month - 1)
        unfold monthLength at hprevious
        rw [sub_add_cancel] at hprevious
        unfold instantAt
        omega
    · rw [show (month - short - 1).toNat + (short - first).toNat - 1 + 1 =
        (month - short - 1).toNat + (short - first).toNat by omega, hsteps,
        show short + 1 + ((month - short - 1).toNat : ℤ) = month by omega]
      unfold instantAt
      omega

/-- As long as the months have the day of the start, the steps keep it. -/
theorem reaches_kept (h : Within first day time) (hhigh : offset ≤ 50400)
    (hplace : 0 ≤ day * 86400 + time + offset)
    (hmonth : monthOf ((instantAt first day time + offset) / 86400) < month)
    (hlength : ∀ later, first < later → later < month → day < monthLength later) :
    Reaches offset (instantAt first day time) month
      (if day * 86400 + time + offset < monthLength (month - 1) * 86400 then
        day * 86400 + time + offset
      else day * 86400 + time + offset - monthLength (month - 1) * 86400) := by
  have hlt := lt_month_of_local hplace hmonth
  have hsteps := fun (k : ℕ) (hk : first + k ≤ month) => steps_before h (k := k)
    fun later hfrom hbefore => hlength later hfrom (by omega)
  obtain ⟨hday', hfirstDay, htime, htime'⟩ := h
  have hfirstLength := monthLength_bounds first
  have hprevious := monthLength_bounds (month - 1)
  split_ifs with hkept
  · refine ⟨hplace, (month - first - 1).toNat, ?_, ?_⟩
    · rw [hsteps _ (by omega), show first + ((month - first - 1).toNat : ℤ) = month - 1 by omega]
      unfold monthLength at hkept
      rw [sub_add_cancel] at hkept
      unfold instantAt
      omega
    · rw [hsteps _ (by omega),
        show first + (((month - first - 1).toNat + 1 : ℕ) : ℤ) = month by omega]
      unfold instantAt
      omega
  · -- The start is in the month before already, seen from the local calendar.
    have hnext : first + 1 < month := by
      by_contra hnot
      have hfirst : month - 1 = first := by omega
      rw [hfirst] at hkept
      refine absurd hmonth (not_lt.mpr (le_of_eq (monthOf_eq_iff.mpr ?_).symm))
      have hafter := monthLength_bounds month
      unfold monthLength at hkept hafter hfirstLength hfirstDay
      unfold instantAt
      rw [show month = first + 1 by omega] at hafter ⊢
      omega
    refine ⟨by omega, (month - first - 2).toNat, ?_, ?_⟩
    · rw [hsteps _ (by omega), show first + ((month - first - 2).toNat : ℤ) = month - 2 by omega]
      have hbefore := monthLength_bounds (month - 2)
      unfold monthLength at hbefore hprevious
      rw [sub_add_cancel] at hprevious
      rw [show month - 2 + 1 = month - 1 by omega] at hbefore
      unfold instantAt
      omega
    · rw [hsteps _ (by omega),
        show first + (((month - first - 2).toNat + 1 : ℕ) : ℤ) = month - 1 by omega]
      unfold instantAt monthLength
      rw [sub_add_cancel]
      omega

theorem monthPlace_spec {since : ℤ} (hlow : -43200 ≤ offset) (hhigh : offset ≤ 50400)
    (hmonth : monthOf ((since + offset) / 86400) < month) :
    Reaches offset since month (monthPlace offset since month) := by
  obtain ⟨first, day, time, h, rfl⟩ := exists_instantAt since
  rw [monthPlace_eq h]
  by_cases hplace : day * 86400 + time + offset < 0
  · rw [if_pos hplace]
    exact reaches_end h hlow hplace hmonth
  · have hlt := lt_month_of_local (not_lt.mp hplace) hmonth
    rw [if_neg hplace]
    cases hshort : firstShort day (month - first - 1).toNat (first + 1) with
    | none =>
      exact reaches_kept h hhigh (not_lt.mp hplace) hmonth fun later hfrom hbefore =>
        firstShort_eq_none hshort (by omega) (by omega)
    | some short =>
      obtain ⟨hfrom, hbefore, hday, hothers⟩ := firstShort_eq_some hshort
      exact reaches_carried h hlow hhigh (by omega) (by omega) hday fun later hlater hlt =>
        hothers later (by omega) hlt

end places

section covering
variable {offset : ℤ} {since till : ℕ}

theorem monthOf_local_iff {instant month : ℤ} : monthOf (instant / 86400) = month ↔
    monthStart month * 86400 ≤ instant ∧ instant < monthStart (month + 1) * 86400 := by
  rw [monthOf_eq_iff]
  omega

theorem exists_step_iff {start limit month : ℤ} (hlow : -43200 ≤ offset) (hhigh : offset ≤ 50400)
    (hmonth : monthOf ((start + offset) / 86400) < month) :
    (∃ k, plusMonth^[k] start < limit ∧
        monthOf ((plusMonth^[k] start + offset) / 86400) = month) ↔
      monthPlace offset start month < monthLength month * 86400 ∧
        monthStart month * 86400 + monthPlace offset start month < limit + offset := by
  obtain ⟨hplace, j, hbefore, hreach⟩ := monthPlace_spec hlow hhigh hmonth
  unfold monthLength
  constructor
  · rintro ⟨k, hlimit, hk⟩
    obtain ⟨hstart, hend⟩ := monthOf_local_iff.mp hk
    have hmono := iterate_strictMono lt_plusMonth start
    have hjk : j + 1 ≤ k := by
      by_contra hnot
      have hle := hmono.monotone (show k ≤ j by omega)
      omega
    have hle := hmono.monotone hjk
    omega
  · rintro ⟨hwithin, hlimit⟩
    exact ⟨j + 1, by omega, monthOf_local_iff.mpr ⟨by omega, by omega⟩⟩

/-- One key for each month: the steps come by each later local month that the window meets, within
the month and before the window ends. -/
theorem calendarMonths_iff (hlow : -43200 ≤ offset) (hhigh : offset ≤ 50400) (hlt : since < till) :
    Covers (monthKey offset) since till (calendarMonths offset since till) ↔
      (till : ℤ) ≤ 253402300800 ∧ till + offset ≤ 253402300800 ∧
        ∀ month, monthOf ((since + offset) / 86400) < month →
          month ≤ monthOf ((till - 1 + offset) / 86400) →
            monthPlace offset since month < monthLength month * 86400 ∧
              monthStart month * 86400 + monthPlace offset since month < till + offset := by
  have hkey : ∀ ts, monthKey offset ts = (localDate offset ts).map monthOf := fun _ => rfl
  rw [calendarMonths, covers_iff hkey lt_plusMonth hlow hhigh hlt]
  refine and_congr_right fun _ => and_congr_right fun _ => ?_
  constructor
  · intro hall month hafter hwithin
    rw [← exists_step_iff hlow hhigh hafter]
    -- The first instant of the month is in the window.
    have hstart : (since + offset : ℤ) < monthStart month * 86400 := by
      by_contra hnot
      have hmono := monthOf_mono (show monthStart month ≤ (since + offset : ℤ) / 86400 by omega)
      rw [monthOf_monthStart] at hmono
      omega
    have hend : monthStart month * 86400 ≤ (till - 1 + offset : ℤ) := by
      by_contra hnot
      obtain ⟨hspec, -⟩ := monthOf_spec ((till - 1 + offset : ℤ) / 86400)
      have hle := monthStart_strictMono.monotone hwithin
      omega
    obtain ⟨k, hk, hsame⟩ := hall (monthStart month * 86400 - offset) (by omega) (by omega)
    refine ⟨k, hk, hsame.trans ?_⟩
    rw [show (monthStart month * 86400 - offset + offset) / 86400 = monthStart month by omega]
    exact monthOf_monthStart month
  · intro hall ts hsince hbefore
    have hfrom := monthOf_mono (show (since + offset : ℤ) / 86400 ≤ (ts + offset) / 86400 by omega)
    have hto := monthOf_mono (show (ts + offset) / 86400 ≤ (till - 1 + offset : ℤ) / 86400 by omega)
    rcases hfrom.eq_or_lt with heq | hlater
    · exact ⟨0, by simpa using hlt, heq⟩
    · exact (exists_step_iff hlow hhigh hlater).mpr (hall _ hlater hto)

end covering

section charts

/-- The window lies in the years that SQLite knows, in UTC and locally. -/
def InYears (offset : ℤ) (till : ℕ) : Prop :=
  (till : ℤ) ≤ 253402300800 ∧ till + offset ≤ 253402300800

end charts

end AgentRelay.Usage.Store

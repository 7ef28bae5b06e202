import Mathlib.Tactic

/-! The natural numbers as doubles: from `2 ^ 53` on, a number that is none is rounded to the
nearest. -/
namespace AgentRelay.Doubles

/-- A natural number, `none` for `Infinity`. -/
abbrev Count := Option ℕ

def significand : ℕ := 2 ^ 53
def overflow : ℕ := 2 ^ 1024

/-- The distance of two neighbouring doubles at `n`. -/
def unit (n : ℕ) : ℕ := 2 ^ (n.log2 - 52)

/-- The nearest multiple of the unit, the even one of two equally near. -/
def nearest (n : ℕ) : ℕ :=
  if n % unit n * 2 < unit n ∨ (n % unit n * 2 = unit n ∧ n / unit n % 2 = 0) then
    n / unit n * unit n
  else (n / unit n + 1) * unit n

/-- The double that stands for a number. -/
def double (n : Count) : Count := (n.map nearest).filter (· < overflow)

theorem div_unit_lt (n : ℕ) : n / unit n < significand := by
  rw [Nat.div_lt_iff_lt_mul (by simp [unit]), significand, unit, ← pow_add]
  calc
    n < 2 ^ (n.log2 + 1) := Nat.lt_log2_self
    _ ≤ 2 ^ (53 + (n.log2 - 52)) := Nat.pow_le_pow_right (by decide) (by omega)

theorem unit_dvd {q e : ℕ} (hq : q ≤ significand) : unit (q * 2 ^ e) ∣ q * 2 ^ e := by
  rcases hq.lt_or_eq with hless | rfl
  · have hlog : (q * 2 ^ e).log2 - 52 ≤ e := by
      by_cases hzero : q * 2 ^ e = 0
      · rw [hzero]
        simp
      · have hlt : q * 2 ^ e < 2 ^ (53 + e) := by
          rw [pow_add]
          exact Nat.mul_lt_mul_of_pos_right hless (by positivity)
        have := (Nat.log2_lt hzero).mpr hlt
        omega
    exact (pow_dvd_pow 2 hlog).trans (Dvd.intro_left q rfl)
  · rw [significand, unit, ← pow_add, Nat.log2_two_pow]
    exact pow_dvd_pow 2 (by omega)

theorem nearest_of_dvd {n : ℕ} (h : unit n ∣ n) : nearest n = n := by
  rw [nearest, Nat.mod_eq_zero_of_dvd h, if_pos (Or.inl (by simp [unit]))]
  exact Nat.div_mul_cancel h

theorem nearest_nearest (n : ℕ) : nearest (nearest n) = nearest n := by
  have hmultiple : ∃ q ≤ significand, nearest n = q * 2 ^ (n.log2 - 52) := by
    have hlt := div_unit_lt n
    unfold nearest
    split_ifs
    · exact ⟨_, hlt.le, rfl⟩
    · exact ⟨_, hlt, rfl⟩
  obtain ⟨q, hq, hn⟩ := hmultiple
  rw [hn]
  exact nearest_of_dvd (unit_dvd hq)

theorem double_double (n : Count) : double (double n) = double n := by
  cases n with
  | none => rfl
  | some n =>
    by_cases hsmall : nearest n < overflow
    · simp [double, Option.filter_some, hsmall, nearest_nearest]
    · simp [double, Option.filter_some, hsmall]

example : double (some 9007199254740993) = some 9007199254740992 := by decide +kernel

end AgentRelay.Doubles

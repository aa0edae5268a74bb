import IodriversBase.Timeout

namespace IodriversBase

variable {z : ℤ}

theorem toUnsigned32_of_small (h : 0 ≤ z) (h' : z < 2 ^ 32) : toUnsigned32 z = z :=
  Int.emod_eq_of_lt h h'

theorem toInt32_of_small (h : -2 ^ 31 ≤ z) (h' : z < 2 ^ 31) : toInt32 z = z := by
  apply Int.bmod_eq_of_le <;> simpa

theorem toInt32_of_large (h : 2 ^ 31 ≤ z) (h' : z < 2 ^ 32) : toInt32 z = z - 2 ^ 32 := by
  rw [toInt32, ← Int.sub_bmod_right]
  exact toInt32_of_small (by omega) (by omega)

theorem toInt32_lt (z : ℤ) : toInt32 z < 2 ^ 31 := by
  have h : z.bmod (2 ^ 32) < ((2 ^ 32 : ℕ) + 1) / 2 := Int.bmod_lt (by decide)
  exact h.trans_eq (by decide)

theorem toInt32_le (h : 0 ≤ z) : toInt32 z ≤ z := by
  by_cases hsmall : z < 2 ^ 31
  · rw [toInt32_of_small (by omega) hsmall]
  · have := toInt32_lt z
    omega

theorem toInt32_eq_zero_iff : toInt32 z = 0 ↔ 2 ^ 32 ∣ z := Int.dvd_iff_bmod_eq_zero.symm

theorem toInt32_modEq (z : ℤ) : toInt32 z ≡ z [ZMOD 2 ^ 32] := Int.bmod_emod

theorem toUnsigned32_modEq (z : ℤ) : toUnsigned32 z ≡ z [ZMOD 2 ^ 32] := Int.mod_modEq z (2 ^ 32)

theorem toInt32_congr {z' : ℤ} (h : z ≡ z' [ZMOD 2 ^ 32]) : toInt32 z = toInt32 z' := by
  have hz : (z % 2 ^ 32).bmod (2 ^ 32) = z.bmod (2 ^ 32) := Int.emod_bmod z (2 ^ 32)
  have hz' : (z' % 2 ^ 32).bmod (2 ^ 32) = z'.bmod (2 ^ 32) := Int.emod_bmod z' (2 ^ 32)
  rw [toInt32, toInt32, ← hz, h, hz']

theorem lt_toInt32_iff {n : ℤ} (h : 0 ≤ n) :
    n < toInt32 z ↔ n < z % 2 ^ 32 ∧ z % 2 ^ 32 < 2 ^ 31 := by
  have hmod : toInt32 z = toInt32 (z % 2 ^ 32) := toInt32_congr (Int.mod_modEq z (2 ^ 32)).symm
  rw [hmod]
  by_cases hsmall : z % 2 ^ 32 < 2 ^ 31
  · rw [toInt32_of_small (by omega) hsmall, and_iff_left hsmall]
  · rw [toInt32_of_large (by omega) (by omega)]
    omega

def Timeval.microseconds (t : Timeval) : ℤ := t.sec * 1000000 + t.usec

theorem timevalOf_microseconds (t : Time) : (timevalOf t).microseconds = t :=
  Int.ediv_mul_add_emod t 1000000

variable {start now : Timeval}

theorem elapsedMilliseconds_eq (start now : Timeval) :
    1000 * elapsedMilliseconds start now =
      now.microseconds - start.microseconds - (now.usec - start.usec).tmod 1000 := by
  have hdiv := Int.mul_tdiv_add_tmod (now.usec - start.usec) 1000
  unfold elapsedMilliseconds Timeval.microseconds
  omega

/-- The division towards zero is off by less than a millisecond, to either side. -/
theorem elapsedMilliseconds_near (start now : Timeval) :
    1000 * elapsedMilliseconds start now < now.microseconds - start.microseconds + 1000 ∧
      now.microseconds - start.microseconds < 1000 * elapsedMilliseconds start now + 1000 := by
  have heq := elapsedMilliseconds_eq start now
  have hlt := Int.tmod_lt_of_pos (now.usec - start.usec) (b := 1000) (by decide)
  have hgt := Int.lt_tmod_of_pos (now.usec - start.usec) (b := 1000) (by decide)
  omega

theorem elapsedMilliseconds_nonneg (hle : start.microseconds ≤ now.microseconds) :
    0 ≤ elapsedMilliseconds start now := by
  have := elapsedMilliseconds_near start now
  omega

/-- The last millisecond of the first `2 ^ 31`, which counts in full as soon as it begins: fewer
microseconds are shown than at the start. -/
def InLastMillisecond (start now : Timeval) : Prop :=
  now.usec < start.usec ∧ (2 ^ 31 - 1) * 1000 < now.microseconds - start.microseconds

theorem elapsedMilliseconds_lt_iff
    (hfit : now.microseconds - start.microseconds < 2 ^ 31 * 1000) :
    elapsedMilliseconds start now < 2 ^ 31 ↔ ¬ InLastMillisecond start now := by
  have heq := elapsedMilliseconds_eq start now
  have hlt := Int.tmod_lt_of_pos (now.usec - start.usec) (b := 1000) (by decide)
  have hgt := Int.lt_tmod_of_pos (now.usec - start.usec) (b := 1000) (by decide)
  unfold InLastMillisecond
  by_cases hless : now.usec < start.usec
  · -- rounded up
    have hneg : (now.usec - start.usec).tmod 1000 ≤ 0 := by
      rw [← neg_nonneg, ← Int.neg_tmod]
      exact Int.tmod_nonneg _ (by omega)
    omega
  · have hpos : 0 ≤ (now.usec - start.usec).tmod 1000 := Int.tmod_nonneg _ (by omega)
    omega

variable {t : ℤ}

/-- `elapsed` goes by the milliseconds that have passed, as long as an `unsigned` holds them. -/
theorem elapsed_eq_true_iff (hpassed : 0 ≤ elapsedMilliseconds start now)
    (hfit : elapsedMilliseconds start now < 2 ^ 32) :
    (Timeout.mk t start).elapsed now = true ↔ t < elapsedMilliseconds start now := by
  unfold Timeout.elapsed
  rw [toUnsigned32_of_small hpassed hfit, decide_eq_true_iff]

/-- The two conversions to `int` keep the order when both values change sign, or none does. -/
theorem timeLeft_of_same_side (ht : 0 ≤ t) (ht' : t < 2 ^ 32)
    (hpassed : 0 ≤ elapsedMilliseconds start now) (hfit : elapsedMilliseconds start now < 2 ^ 32)
    (hside : t < 2 ^ 31 ↔ elapsedMilliseconds start now < 2 ^ 31) :
    (Timeout.mk t start).timeLeft now = max 0 (t - elapsedMilliseconds start now) := by
  unfold Timeout.timeLeft
  generalize elapsedMilliseconds start now = m at *
  have hconvert : toInt32 t = t ∧ toInt32 m = m ∨
      toInt32 t = t - 2 ^ 32 ∧ toInt32 m = m - 2 ^ 32 := by
    by_cases hsmall : t < 2 ^ 31
    · exact .inl ⟨toInt32_of_small (by omega) hsmall,
        toInt32_of_small (by omega) (hside.mp hsmall)⟩
    · exact .inr ⟨toInt32_of_large (by omega) ht', toInt32_of_large (by omega) hfit⟩
  have hless : toInt32 t < toInt32 m ↔ t < m := by omega
  have hdifference : toUnsigned32 (t - toInt32 m) = toUnsigned32 (t - m) :=
    (toInt32_modEq m).sub_left t
  dsimp only
  rw [hdifference]
  by_cases hlate : t < m
  · rw [if_pos (hless.mpr hlate)]
    omega
  · rw [if_neg (mt hless.mp hlate), toUnsigned32_of_small (by omega) (by omega)]
    omega

/-- A timeout that becomes negative is over at once; to one that does not, milliseconds that do
become negative are in the future. -/
theorem timeLeft_of_other_side (ht : 0 ≤ t) (ht' : t < 2 ^ 32)
    (hpassed : 0 ≤ elapsedMilliseconds start now) (hfit : elapsedMilliseconds start now < 2 ^ 32)
    (hside : ¬ (t < 2 ^ 31 ↔ elapsedMilliseconds start now < 2 ^ 31)) :
    (Timeout.mk t start).timeLeft now ≠ max 0 (t - elapsedMilliseconds start now) := by
  unfold Timeout.timeLeft
  generalize elapsedMilliseconds start now = m at *
  dsimp only
  by_cases hsmall : t < 2 ^ 31
  · have hm := toInt32_of_large (z := m) (by omega) hfit
    rw [toInt32_of_small (by omega) hsmall, hm, if_neg (by omega),
      toUnsigned32_of_small (by omega) (by omega)]
    omega
  · rw [toInt32_of_large (by omega) ht', toInt32_of_small (by omega) (by omega),
      if_pos (by omega)]
    omega

/-- What `elapsed` and `timeLeft` tell of a timeout of `t` milliseconds at one reading. -/
structure ViewsAgree (t : ℤ) (start now : Timeval) : Prop where
  late : (Timeout.mk t start).elapsed now = true →
    1000 * t < now.microseconds - start.microseconds
  noneLeft : (Timeout.mk t start).elapsed now = true → (Timeout.mk t start).timeLeft now = 0
  left : (Timeout.mk t start).elapsed now = false →
    (Timeout.mk t start).timeLeft now = t - elapsedMilliseconds start now
  range : (Timeout.mk t start).elapsed now = false →
    0 ≤ (Timeout.mk t start).timeLeft now ∧ (Timeout.mk t start).timeLeft now ≤ t

/-- The views agree for the timeouts below `2 ^ 31`, and in the last millisecond for the others
only. -/
theorem timeout_views_agree_iff (ht : 0 ≤ t) (ht' : t < 2 ^ 32)
    (hle : start.microseconds ≤ now.microseconds)
    (hfit : now.microseconds - start.microseconds < 2 ^ 31 * 1000) :
    ViewsAgree t start now ↔ (t < 2 ^ 31 ↔ ¬ InLastMillisecond start now) := by
  rw [← elapsedMilliseconds_lt_iff hfit]
  have hpassed := elapsedMilliseconds_nonneg hle
  have hnear := elapsedMilliseconds_near start now
  have hfit' : elapsedMilliseconds start now < 2 ^ 32 := by omega
  have helapsed := elapsed_eq_true_iff (t := t) hpassed hfit'
  have hnot : (Timeout.mk t start).elapsed now = false ↔ ¬ t < elapsedMilliseconds start now := by
    rw [← helapsed, Bool.not_eq_true]
  constructor
  · intro h
    by_contra hside
    -- one of the two conversions changes the sign, so that the views differ on either side of `t`
    apply timeLeft_of_other_side ht ht' hpassed hfit' hside
    by_cases hlate : t < elapsedMilliseconds start now
    · rw [h.noneLeft (helapsed.mpr hlate)]
      omega
    · rw [h.left (hnot.mpr hlate)]
      omega
  · intro hside
    have hleft := timeLeft_of_same_side ht ht' hpassed hfit' hside
    constructor
    · intro hlate
      have := helapsed.mp hlate
      omega
    · intro hlate
      have := helapsed.mp hlate
      rw [hleft]
      omega
    · intro hlate
      have := hnot.mp hlate
      rw [hleft]
      omega
    · intro hlate
      have := hnot.mp hlate
      rw [hleft]
      omega

/-- A second has passed, across the end of a second of the clock. -/
theorem timeout_views_agree_iff_sample :
    ViewsAgree 1500 ⟨5, 700000⟩ ⟨6, 700000⟩ ↔
      ((1500 : ℤ) < 2 ^ 31 ↔ ¬ InLastMillisecond ⟨5, 700000⟩ ⟨6, 700000⟩) :=
  timeout_views_agree_iff (by decide) (by decide) (by decide) (by decide)

/-- A timeout of 30 days: at the start, it has not elapsed and no time is left. -/
theorem timeout_views_disagree :
    ¬ ViewsAgree (30 * 86400000) ⟨0, 0⟩ ⟨0, 0⟩ := by
  intro h
  exact absurd (h.left (by decide)) (by decide)

end IodriversBase

import Mathlib.Tactic

namespace Signed

/-- What an operation is undefined for. -/
inductive Fault
  | overflow
  | divisionByZero
  deriving DecidableEq

/-- The values of `w` bits. -/
def InRange (w : ℕ) (n : ℤ) : Prop := -2 ^ (w - 1) ≤ n ∧ n < 2 ^ (w - 1)

instance (w : ℕ) (n : ℤ) : Decidable (InRange w n) := inferInstanceAs (Decidable (_ ∧ _))

def checked (w : ℕ) (n : ℤ) : Except Fault ℤ := if InRange w n then .ok n else .error .overflow

def add (w : ℕ) (a b : ℤ) : Except Fault ℤ := checked w (a + b)

def mul (w : ℕ) (a b : ℤ) : Except Fault ℤ := checked w (a * b)

def div (w : ℕ) (a b : ℤ) : Except Fault ℤ :=
  if b = 0 then .error .divisionByZero else checked w (a.tdiv b)

variable {w : ℕ} {a b c n : ℤ}

theorem checked_eq_ok : checked w n = .ok c ↔ InRange w n ∧ c = n := by
  rw [checked]
  by_cases h : InRange w n
  · simp [h, eq_comm]
  · simp [h]

theorem add_eq_ok : add w a b = .ok c ↔ InRange w (a + b) ∧ c = a + b := checked_eq_ok

theorem mul_eq_ok : mul w a b = .ok c ↔ InRange w (a * b) ∧ c = a * b := checked_eq_ok

theorem tdiv_of_nonpos (h : a ≤ 0) : a.tdiv b = -(-a / b) := by
  rw [← Int.tdiv_eq_ediv_of_nonneg (by omega), Int.neg_tdiv, neg_neg]

theorem InRange.tdiv (h : InRange w a) (hb : b = -1 → a ≠ -2 ^ (w - 1)) :
    InRange w (a.tdiv b) := by
  obtain ⟨hlo, hhi⟩ := h
  have habs := Int.natAbs_tdiv_le_natAbs a b
  by_cases hmin : a = -2 ^ (w - 1)
  swap
  · exact ⟨by omega, by omega⟩
  have hpos : (0 : ℤ) < 2 ^ (w - 1) := by positivity
  refine ⟨by omega, ?_⟩
  rcases le_or_gt 0 b with hb0 | hb0
  · rw [tdiv_of_nonpos (by omega)]
    have := Int.ediv_nonneg (a := -a) (b := b) (by omega) hb0
    omega
  · have htwo : 2 ≤ -b := by
      have : b ≠ -1 := fun h => hb h hmin
      omega
    calc a.tdiv b = (-a) / (-b) := by
          rw [← Int.neg_tdiv_neg, Int.tdiv_eq_ediv_of_nonneg (by omega)]
      _ < -a := Int.ediv_lt_self_of_pos_of_ne_one (by omega) (by omega)
      _ = 2 ^ (w - 1) := by omega

theorem eq_tdiv_of_div (h : div w a b = .ok c) : c = a.tdiv b := by
  rw [div] at h
  split_ifs at h
  exact (checked_eq_ok.mp h).2

theorem div_eq_ok (h : InRange w a) (hb : b = -1 → a ≠ -2 ^ (w - 1)) :
    div w a b = .ok c ↔ b ≠ 0 ∧ c = a.tdiv b := by
  rw [div]
  by_cases hb0 : b = 0
  · simp [hb0]
  · rw [if_neg hb0, checked_eq_ok, and_iff_right (h.tdiv hb), and_iff_right hb0]

theorem div_eq_ok_of_pos (h : InRange w a) (hb : 0 < b) : div w a b = .ok c ↔ c = a.tdiv b := by
  rw [div_eq_ok h (by omega), and_iff_right hb.ne']

theorem bind_eq_ok {α β : Type} {x : Except Fault α} {f : α → Except Fault β} {r : β} :
    x >>= f = .ok r ↔ ∃ y, x = .ok y ∧ f y = .ok r := by
  cases x with
  | error e => simp [bind, Except.bind]
  | ok y => simp [bind, Except.bind]

/-- A rounded quotient lies between the multiples of the divisor. -/
theorem tdiv_eq_iff (ha : 0 ≤ a) (hb : 0 < b) : a.tdiv b = n ↔ n * b ≤ a ∧ a < (n + 1) * b := by
  rw [Int.tdiv_eq_ediv_of_nonneg ha, Int.ediv_eq_iff_of_pos hb]
  constructor
  · rintro ⟨h, h'⟩
    exact ⟨by linarith, by linarith⟩
  · rintro ⟨h, h'⟩
    exact ⟨by linarith, by linarith⟩

end Signed

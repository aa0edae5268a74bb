import Mathlib.Data.Nat.Notation
import Mathlib.Logic.Basic

namespace Fields

variable {w : ℕ} {x m m' v : BitVec w}

def put (m v x : BitVec w) : BitVec w := (x &&& ~~~m) ||| v

def Fits (m v : BitVec w) : Prop := v &&& m = v

def Apart (m m' : BitVec w) : Prop := m &&& m' = 0

instance (m v : BitVec w) : Decidable (Fits m v) := inferInstanceAs (Decidable (_ = _))

instance (m m' : BitVec w) : Decidable (Apart m m') := inferInstanceAs (Decidable (_ = _))

theorem Fits.bit (h : Fits m v) (i : ℕ) : (v.getLsbD i && m.getLsbD i) = v.getLsbD i := by
  rw [← BitVec.getLsbD_and, h]

theorem Apart.bit (h : Apart m m') (i : ℕ) : (m.getLsbD i && m'.getLsbD i) = false := by
  rw [← BitVec.getLsbD_and, h]
  exact BitVec.getLsbD_zero

theorem put_and (h : Fits m v) (x : BitVec w) : put m v x &&& m = v := by
  apply BitVec.eq_of_getLsbD_eq
  intro i hi
  have hbit := h.bit i
  simp only [put, BitVec.getLsbD_and, BitVec.getLsbD_or, BitVec.getLsbD_not, hi, decide_true,
    Bool.true_and]
  revert hbit
  cases x.getLsbD i <;> cases m.getLsbD i <;> cases v.getLsbD i <;> decide

theorem put_and_of_apart (h : Fits m v) (hapart : Apart m m') (x : BitVec w) :
    put m v x &&& m' = x &&& m' := by
  apply BitVec.eq_of_getLsbD_eq
  intro i hi
  have hbit := h.bit i
  have hone := hapart.bit i
  simp only [put, BitVec.getLsbD_and, BitVec.getLsbD_or, BitVec.getLsbD_not, hi, decide_true,
    Bool.true_and]
  revert hbit hone
  cases x.getLsbD i <;> cases m.getLsbD i <;> cases v.getLsbD i <;> cases m'.getLsbD i <;> decide

theorem put_all : put m m x = x ||| m := by
  apply BitVec.eq_of_getLsbD_eq
  intro i hi
  simp only [put, BitVec.getLsbD_and, BitVec.getLsbD_or, BitVec.getLsbD_not, hi, decide_true,
    Bool.true_and]
  cases x.getLsbD i <;> cases m.getLsbD i <;> decide

theorem put_none : put m 0 x = x &&& ~~~m := BitVec.or_zero

end Fields

import Mathlib.Analysis.SpecialFunctions.Complex.Arg

/-!
# Real arithmetic that may fail

Quotients and square roots are defined on a part of the real numbers only; `atan2` is the angle of
a point of the plane.
-/

namespace Navisim.RealMath

/-- A quotient, if it is defined. -/
noncomputable def quotient (x y : ℝ) : Option ℝ :=
  if y = 0 then none else some (x / y)

/-- A square root, if it is defined. -/
noncomputable def root (x : ℝ) : Option ℝ :=
  if 0 ≤ x then some √x else none

noncomputable def atan2 (y x : ℝ) : ℝ :=
  Complex.arg ⟨x, y⟩

/-- A cast to an integer type: division towards zero. -/
noncomputable def castInt (x : ℝ) : ℤ :=
  open Classical in if 0 ≤ x then ⌊x⌋ else ⌈x⌉

variable {x y : ℝ}

theorem quotient_eq (nonzero : y ≠ 0) : quotient x y = some (x / y) :=
  if_neg nonzero

theorem root_eq (nonneg : 0 ≤ x) : root x = some √x :=
  if_pos nonneg

/-- A number that is not as low as minus one is not cast below zero. -/
theorem castInt_range {n : ℤ} (nonneg : 0 ≤ n) (lower : -1 < x) (upper : x < n + 1) :
    0 ≤ castInt x ∧ castInt x ≤ n := by
  unfold castInt
  split
  · rename_i positive
    exact ⟨Int.floor_nonneg.mpr positive, Int.lt_add_one_iff.mp (Int.floor_lt.mpr (by
      push_cast
      exact upper))⟩
  · rename_i negative
    have zero : ⌈x⌉ = 0 := Int.ceil_eq_zero_iff.mpr ⟨lower, (not_le.mp negative).le⟩
    rw [zero]
    exact ⟨le_rfl, nonneg⟩

end Navisim.RealMath

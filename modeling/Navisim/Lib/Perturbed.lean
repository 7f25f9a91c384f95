import Mathlib

/-!
# Perturbed values

Two values of one quantity, with a bound of their size and a bound of their difference, and how
both pass through sums and products.
-/

namespace Navisim

/-- Two values of at most this size that differ by at most this much. -/
structure Perturbed (size change x y : ℝ) : Prop where
  left : |x| ≤ size
  right : |y| ≤ size
  near : |x - y| ≤ change

namespace Perturbed

variable {size change size' change' x y x' y' : ℝ}

theorem refl (bound : |x| ≤ size) : Perturbed size 0 x x :=
  ⟨bound, bound, by rw [sub_self, abs_zero]⟩

theorem mono (values : Perturbed size change x y) (larger : size ≤ size')
    (more : change ≤ change') : Perturbed size' change' x y :=
  ⟨values.left.trans larger, values.right.trans larger, values.near.trans more⟩

theorem neg (values : Perturbed size change x y) : Perturbed size change (-x) (-y) := by
  refine ⟨(abs_neg x).trans_le values.left, (abs_neg y).trans_le values.right, ?_⟩
  rw [neg_sub_neg, abs_sub_comm]
  exact values.near

theorem add (first : Perturbed size change x y) (second : Perturbed size' change' x' y') :
    Perturbed (size + size') (change + change') (x + x') (y + y') := by
  refine ⟨?_, ?_, ?_⟩
  · exact (abs_add_le _ _).trans (add_le_add first.left second.left)
  · exact (abs_add_le _ _).trans (add_le_add first.right second.right)
  · rw [add_sub_add_comm]
    exact (abs_add_le _ _).trans (add_le_add first.near second.near)

theorem sub (first : Perturbed size change x y) (second : Perturbed size' change' x' y') :
    Perturbed (size + size') (change + change') (x - x') (y - y') := by
  rw [sub_eq_add_neg, sub_eq_add_neg]
  exact first.add second.neg

theorem abs_mul_le_mul {a b bound bound' : ℝ} (left : |a| ≤ bound) (right : |b| ≤ bound') :
    |a * b| ≤ bound * bound' := by
  rw [abs_mul]
  exact mul_le_mul left right (abs_nonneg b) ((abs_nonneg a).trans left)

/-- **Products.**  The change of one factor counts with the size of the other. -/
theorem mul (first : Perturbed size change x y) (second : Perturbed size' change' x' y') :
    Perturbed (size * size') (change * size' + size * change') (x * x') (y * y') := by
  refine ⟨abs_mul_le_mul first.left second.left, abs_mul_le_mul first.right second.right, ?_⟩
  have split : x * x' - y * y' = (x - y) * x' + y * (x' - y') := by ring
  rw [split]
  exact (abs_add_le _ _).trans
    (add_le_add (abs_mul_le_mul first.near second.left) (abs_mul_le_mul first.right second.near))

/-- Products with a number. -/
theorem const_mul (values : Perturbed size change x y) {c bound : ℝ} (small : |c| ≤ bound) :
    Perturbed (bound * size) (bound * change) (c * x) (c * y) := by
  have product := (refl small).mul values
  rwa [zero_mul, zero_add] at product

/-- Values away from zero have inverses. -/
theorem inv {low : ℝ} (positive : 0 < low) (above : low ≤ x) (above' : low ≤ y)
    (near : |x - y| ≤ change) : Perturbed low⁻¹ (low⁻¹ * low⁻¹ * change) x⁻¹ y⁻¹ := by
  have inverse : ∀ z, low ≤ z → |z⁻¹| ≤ low⁻¹ := by
    intro z larger
    rw [abs_of_pos (inv_pos.mpr (positive.trans_le larger))]
    exact inv_anti₀ positive larger
  refine ⟨inverse x above, inverse y above', ?_⟩
  have quotient : x⁻¹ - y⁻¹ = x⁻¹ * y⁻¹ * (y - x) := by
    have nonzero := (positive.trans_le above).ne'
    have nonzero' := (positive.trans_le above').ne'
    field_simp
  rw [quotient]
  exact abs_mul_le_mul (abs_mul_le_mul (inverse x above) (inverse y above'))
    ((abs_sub_comm _ _).trans_le near)

end Perturbed

end Navisim

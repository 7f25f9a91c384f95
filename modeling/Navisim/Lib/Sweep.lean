import Mathlib.Algebra.BigOperators.Intervals
import Mathlib.Logic.Function.Basic
import Mathlib.Tactic

/-!
# Loops over the cells of an array

A loop that visits the cells 0, 1, .. of an array, adds what each of them yields to an
accumulator and replaces the cell.
-/

namespace Navisim.Sweep

variable {α M : Type*} [AddCommMonoid M]

/-- The loop over the first `count` cells; a visit yields a summand and the new cell. -/
def sweep (visit : Nat → α → M × α) : Nat → M × (Nat → α) → M × (Nat → α)
  | 0, s => s
  | count + 1, s =>
      let t := sweep visit count s
      let r := visit count (t.2 count)
      (t.1 + r.1, Function.update t.2 count r.2)

variable {visit visit' : Nat → α → M × α} {count : Nat} {s : M × (Nat → α)}

theorem sweep_succ_self :
    (sweep visit (count + 1) s).2 count = (visit count ((sweep visit count s).2 count)).2 :=
  Function.update_self ..

theorem sweep_succ_of_ne {i : Nat} (other : i ≠ count) :
    (sweep visit (count + 1) s).2 i = (sweep visit count s).2 i :=
  Function.update_of_ne other ..

theorem sweep_cell_of_le {i : Nat} (outside : count ≤ i) : (sweep visit count s).2 i = s.2 i := by
  induction count with
  | zero => rfl
  | succ count ih =>
      rw [sweep_succ_of_ne (by omega)]
      exact ih (by omega)

/-- Each cell is visited once, with the value it had before the loop. -/
theorem sweep_cell {i : Nat} (inside : i < count) :
    (sweep visit count s).2 i = (visit i (s.2 i)).2 := by
  induction count with
  | zero => omega
  | succ count ih =>
      rcases Nat.lt_succ_iff_lt_or_eq.mp inside with earlier | rfl
      · rw [sweep_succ_of_ne (by omega)]
        exact ih earlier
      · rw [sweep_succ_self, sweep_cell_of_le le_rfl]

/-- The accumulator grows by the sum over the cells. -/
theorem sweep_sum :
    (sweep visit count s).1 = s.1 + ∑ i ∈ Finset.range count, (visit i (s.2 i)).1 := by
  induction count with
  | zero => simp [sweep]
  | succ count ih =>
      rw [sweep, ih, Finset.sum_range_succ, sweep_cell_of_le le_rfl, add_assoc]

end Navisim.Sweep

import Mathlib.Logic.Function.Basic
import Mathlib.Tactic

/-!
# Chained writes

A loop that writes consecutive cells of a memory, each computed from the cell written before
it.
-/

namespace Navisim.Chain

variable {α : Type*}

/-- Writes `count` cells from position `base` on; the second component is the cell written
last. -/
def fill (emit : Nat → α → α) (base : Int) : Nat → (Int → α) × α → (Int → α) × α
  | 0, s => s
  | count + 1, s =>
      let filled := fill emit base count s
      let cell := emit count filled.2
      (Function.update filled.1 (base + count) cell, cell)

variable {emit : Nat → α → α} {base : Int} {count : Nat} {s : (Int → α) × α}

theorem fill_succ_self :
    (fill emit base (count + 1) s).1 (base + count) = emit count (fill emit base count s).2 :=
  Function.update_self ..

theorem fill_succ_of_ne {j : Int} (other : j ≠ base + count) :
    (fill emit base (count + 1) s).1 j = (fill emit base count s).1 j :=
  Function.update_of_ne other ..

/-- The cells outside the target stay as they are. -/
theorem fill_outside {j : Int} (outside : j < base ∨ base + count ≤ j) :
    (fill emit base count s).1 j = s.1 j := by
  induction count with
  | zero => rfl
  | succ count ih =>
      rw [fill_succ_of_ne (by omega)]
      exact ih (by omega)

/-- The loop ends with the last cell it wrote. -/
theorem fill_last : (fill emit base count s).2 =
    if count = 0 then s.2 else (fill emit base count s).1 (base + count - 1) := by
  cases count with
  | zero => rfl
  | succ count =>
      have last : base + ((count + 1 : Nat) : Int) - 1 = base + count := by push_cast; omega
      rw [if_neg (by omega), last, fill_succ_self]
      rfl

/-- Each cell is computed from the one in front of it. -/
theorem fill_cell (emit : Nat → α → α) (base : Int) (s : (Int → α) × α) {i : Nat}
    (bound : i < count) :
    (fill emit base count s).1 (base + i) =
      emit i (if i = 0 then s.2 else (fill emit base count s).1 (base + i - 1)) := by
  induction count with
  | zero => omega
  | succ count ih =>
      rw [fill_succ_of_ne (j := base + i - 1) (by omega)]
      rcases Nat.lt_succ_iff_lt_or_eq.mp bound with earlier | rfl
      · rw [fill_succ_of_ne (by omega), ih earlier]
      · rw [fill_succ_self, fill_last]

/-- The chain is continued: when the loop starts behind the cell it starts from, every cell
is computed from the one in front of it. -/
theorem fill_chain (start : s.1 (base - 1) = s.2) {i : Nat} (bound : i < count) :
    (fill emit base count s).1 (base + i) =
      emit i ((fill emit base count s).1 (base + i - 1)) := by
  rw [fill_cell emit base s bound]
  split
  · rename_i first
    subst first
    have front : base + ((0 : Nat) : Int) - 1 = base - 1 := by simp
    rw [front, fill_outside (by omega), start]
  · rfl

/-- A chain that starts behind its first cell ends behind its last one. -/
theorem fill_chain_last (start : s.1 (base - 1) = s.2) :
    (fill emit base count s).1 (base + count - 1) = (fill emit base count s).2 := by
  rw [fill_last]
  split
  · rename_i none
    subst none
    simpa [fill] using start
  · rfl

end Navisim.Chain

import Mathlib.Algebra.BigOperators.Intervals
import Mathlib.Tactic

/-!
# A store that cannot be overdrawn

A store gets an amount at every step, or gives one away as far as it has it.  An amount that it
does not have is refused.  Whether the store has refused something and still ends with something
left is known from the sums of the amounts alone (`refused_and_left_iff`).
-/

namespace Navisim.Store

open Finset

variable (move : Nat → Int) (initial : Int)

/-- What is in the store after some steps. -/
def level : Nat → Int
  | 0 => initial
  | k + 1 => max 0 (level k + move k)

/-- The sum of the first amounts. -/
def total (k : Nat) : Int :=
  ∑ j ∈ range k, move j

/-- A step asks for more than there is. -/
def Refused (k : Nat) : Prop :=
  level move initial k + move k < 0

variable {move : Nat → Int} {initial : Int} {k n : Nat}

theorem total_succ (k : Nat) : total move (k + 1) = total move k + move k :=
  sum_range_succ move k

theorem level_nonneg (nonneg : 0 ≤ initial) (k : Nat) : 0 ≤ level move initial k := by
  cases k with
  | zero => exact nonneg
  | succ k => exact le_max_left ..

theorem initial_add_total_le (k : Nat) : initial + total move k ≤ level move initial k := by
  induction k with
  | zero => simp [total, level]
  | succ k ih =>
      have step : level move initial k + move k ≤ level move initial (k + 1) := le_max_right ..
      rw [total_succ]
      omega

/-- What comes in from a step on stays, or is given away later. -/
theorem total_sub_le (nonneg : 0 ≤ initial) (before : k ≤ n) :
    total move n - total move k ≤ level move initial n := by
  induction n, before using Nat.le_induction with
  | base =>
      have lower : 0 ≤ level move initial k := level_nonneg nonneg k
      omega
  | succ n _ ih =>
      have step : level move initial n + move n ≤ level move initial (n + 1) := le_max_right ..
      rw [total_succ]
      omega

/-- Without a refusal nothing is lost. -/
theorem level_eq_of_not_refused (kept : ∀ k < n, ¬ Refused move initial k) :
    level move initial n = initial + total move n := by
  induction n with
  | zero => simp [total, level]
  | succ n ih =>
      have before := ih fun k below => kept k (by omega)
      have here := kept n (by omega)
      unfold Refused at here
      rw [level, max_eq_right (by omega), total_succ, before]
      ring

/-- **The level**: what was there and all amounts, or the amounts since the store was empty. -/
theorem level_cases (n : Nat) :
    level move initial n = initial + total move n ∨
      ∃ k ≤ n, level move initial n = total move n - total move k := by
  induction n with
  | zero => exact Or.inl (by simp [total, level])
  | succ n ih =>
      by_cases refused : Refused move initial n
      · refine Or.inr ⟨n + 1, le_rfl, ?_⟩
        unfold Refused at refused
        rw [level, max_eq_left (by omega), sub_self]
      · unfold Refused at refused
        have step : level move initial (n + 1) = level move initial n + move n :=
          max_eq_right (by omega)
        rcases ih with whole | ⟨k, before, since⟩
        · apply Or.inl
          rw [step, whole, total_succ]
          ring
        · refine Or.inr ⟨k, by omega, ?_⟩
          rw [step, since, total_succ]
          ring

/-- **Refused, and yet something left**: the first steps ask for more than there is, and from some
step on more comes in than is asked for. -/
theorem refused_and_left_iff (nonneg : 0 ≤ initial) :
    ((∃ k < n, Refused move initial k) ∧ 0 < level move initial n) ↔
      (∃ k ≤ n, initial + total move k < 0) ∧ ∃ k ≤ n, total move k < total move n := by
  constructor
  · intro both
    rcases both with ⟨⟨k, below, refused⟩, left⟩
    have short : initial + total move (k + 1) < 0 := by
      have lower : initial + total move k ≤ level move initial k := initial_add_total_le k
      unfold Refused at refused
      rw [total_succ]
      omega
    refine ⟨⟨k + 1, below, short⟩, ?_⟩
    rcases @level_cases move initial n with whole | ⟨l, before, since⟩
    · exact ⟨k + 1, below, by omega⟩
    · exact ⟨l, before, by omega⟩
  · intro both
    rcases both with ⟨⟨k, before, short⟩, l, before', more⟩
    have left : total move n - total move l ≤ level move initial n :=
      total_sub_le nonneg before'
    refine ⟨?_, by omega⟩
    by_contra kept
    push Not at kept
    have whole := level_eq_of_not_refused (n := k) fun j below => kept j (by omega)
    have lower : 0 ≤ level move initial k := level_nonneg nonneg k
    omega

end Navisim.Store

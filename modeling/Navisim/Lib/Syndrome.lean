import Mathlib

/-!
# Parity checks

Parity checks of a block of bits, in general.  A check is linear when the check of a difference
is the difference of the checks.  Then what the checks say of a wrong block depends on the
wrong bits alone, and the weights of the single bits decide which errors are seen.
-/

namespace Navisim.Syndrome

variable {ι κ : Type*}

/-- A bit as an element of the field of two elements. -/
def unit (b : Bool) : ZMod 2 :=
  if b then 1 else 0

@[simp] theorem unit_eq_zero {b : Bool} : unit b = 0 ↔ b = false := by
  cases b <;> decide

theorem unit_xor (a b : Bool) : unit (a ^^ b) = unit a + unit b := by
  cases a <;> cases b <;> decide

/-- A block whose only set bit is `i`. -/
def single [DecidableEq ι] (i : ι) : ι → Bool :=
  fun k => decide (k = i)

/-- The checks of a block are linear. -/
structure Linear (check : (ι → Bool) → κ → Bool) : Prop where
  xor : ∀ x y j, check (fun i => x i ^^ y i) j = (check x j ^^ check y j)

variable {check : (ι → Bool) → κ → Bool}

theorem Linear.zero (linear : Linear check) (j : κ) : check (fun _ => false) j = false := by
  have twice := linear.xor (fun _ => false) (fun _ => false) j
  rw [Bool.xor_self, Bool.xor_self] at twice
  exact twice

section Sum

variable [DecidableEq ι]

/-- What the checks say of a set of bits is the sum of what they say of each. -/
theorem Linear.sum (linear : Linear check) (errors : Finset ι) (j : κ) :
    unit (check (fun i => decide (i ∈ errors)) j) = ∑ i ∈ errors, unit (check (single i) j) := by
  induction errors using Finset.induction_on with
  | empty => simp [linear.zero]
  | insert i errors fresh ih =>
      have split : (fun k => decide (k ∈ insert i errors)) =
          fun k => single i k ^^ decide (k ∈ errors) := by
        funext k
        by_cases same : k = i
        · simp [single, same, fresh]
        · simp [single, same]
      rw [split, linear.xor, unit_xor, Finset.sum_insert fresh, ih]

end Sum

variable [Fintype ι]

/-- The bits in which two blocks differ. -/
def wrong (x y : ι → Bool) : Finset ι :=
  Finset.univ.filter fun i => x i ≠ y i

theorem mem_wrong {x y : ι → Bool} {i : ι} : i ∈ wrong x y ↔ x i ≠ y i := by
  simp [wrong]

section Checks

variable [DecidableEq ι]

/-- What is wrong with a block is what is wrong with its wrong bits. -/
theorem Linear.syndrome (linear : Linear check) (x y : ι → Bool) (j : κ) :
    unit (check x j) + unit (check y j) = ∑ i ∈ wrong x y, unit (check (single i) j) := by
  have difference : (fun i => decide (i ∈ wrong x y)) = fun i => x i ^^ y i := by
    funext i
    by_cases same : x i = y i
    · simp [mem_wrong, same]
    · cases a : x i <;> cases b : y i <;> simp_all [mem_wrong]
  rw [← linear.sum, difference, linear.xor, unit_xor]

variable [Fintype κ]

/-- Every single bit is seen by an odd number of checks, and no two bits by the same checks. -/
structure Separates (check : (ι → Bool) → κ → Bool) : Prop where
  odd : ∀ i, ∑ j, unit (check (single i) j) = 1
  distinct : ∀ i k, check (single i) = check (single k) → i = k

variable {x y : ι → Bool}

/-- **An odd number of wrong bits is seen.** -/
theorem Linear.detects_odd (linear : Linear check) (separates : Separates check)
    (passes : ∀ j, check x j = false) (odd : Odd (wrong x y).card) :
    ∃ j, check y j = true := by
  by_contra unseen
  have silent : ∀ j, check y j = false := by
    intro j
    exact Bool.eq_false_of_not_eq_true fun seen => unseen ⟨j, seen⟩
  have total : ∑ j, ∑ i ∈ wrong x y, unit (check (single i) j) = 0 := by
    apply Finset.sum_eq_zero
    intro j _
    rw [← linear.syndrome, passes, silent]
    rfl
  rw [Finset.sum_comm, Finset.sum_congr rfl fun i _ => separates.odd i, Finset.sum_const,
    nsmul_one] at total
  exact Nat.not_even_iff_odd.mpr odd (ZMod.natCast_eq_zero_iff_even.mp total)

/-- **One, two or three wrong bits are seen.** -/
theorem Linear.detects_few (linear : Linear check) (separates : Separates check)
    (passes : ∀ j, check x j = false) (some : (wrong x y).Nonempty)
    (few : (wrong x y).card ≤ 3) : ∃ j, check y j = true := by
  have positive : 0 < (wrong x y).card := some.card_pos
  rcases Nat.even_or_odd (wrong x y).card with even | odd
  · have two : (wrong x y).card = 2 := by
      rcases even with ⟨half, double⟩
      omega
    obtain ⟨i, k, different, both⟩ := Finset.card_eq_two.mp two
    by_contra unseen
    refine different (separates.distinct i k ?_)
    funext j
    have silent : check y j = false :=
      Bool.eq_false_of_not_eq_true fun seen => unseen ⟨j, seen⟩
    have sum := linear.syndrome x y j
    rw [both, Finset.sum_pair different, passes, silent] at sum
    revert sum
    cases check (single i) j <;> cases check (single k) j <;> decide
  · exact linear.detects_odd separates passes odd

end Checks

end Navisim.Syndrome

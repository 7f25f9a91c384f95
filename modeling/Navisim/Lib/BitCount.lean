import Mathlib.Data.Nat.Bitwise
import Mathlib.Tactic

/-!
# Counting bits by folding digits

A number is read as a row of digits of `k` bits.  `fold` adds each digit at an odd place to its
neighbour at an even place, so that the row of `2 * n` digits becomes a row of `n` digits of
twice the width, with the same sum.  Five folds of a 32-bit word leave the number of its bits.
-/

namespace Navisim.BitCount

/-- The mask of the digits at even places of a row of `2 * n` digits of `k` bits. -/
def evenMask (k : Nat) : Nat → Nat
  | 0 => 0
  | n + 1 => 2 ^ k * (2 ^ k * evenMask k n) + (2 ^ k - 1)

/-- The digits at even places, each in its place. -/
def evenDigits (k : Nat) : Nat → Nat → Nat
  | 0, _ => 0
  | n + 1, x => 2 ^ k * (2 ^ k * evenDigits k n (x / 2 ^ k / 2 ^ k)) + x % 2 ^ k

/-- The sum of the first `n` digits of `k` bits. -/
def digitSum (k : Nat) : Nat → Nat → Nat
  | 0, _ => 0
  | n + 1, x => x % 2 ^ k + digitSum k n (x / 2 ^ k)

/-- The addition of neighbouring digits. -/
def fold (k n x : Nat) : Nat :=
  ((x >>> k) &&& evenMask k n) + (x &&& evenMask k n)

variable {k n x : Nat}

/-- A conjunction splits at bit `k` into its high and low part. -/
theorem and_split (y high low : Nat) (bound : low < 2 ^ k) :
    y &&& (2 ^ k * high + low) = 2 ^ k * ((y / 2 ^ k) &&& high) + (y % 2 ^ k &&& low) := by
  apply Nat.eq_of_testBit_eq
  intro i
  have small : (y % 2 ^ k &&& low) < 2 ^ k := lt_of_le_of_lt Nat.and_le_right bound
  rw [Nat.testBit_and, Nat.testBit_two_pow_mul_add _ bound, Nat.testBit_two_pow_mul_add _ small]
  split
  · simp_all [Nat.testBit_mod_two_pow]
  · rw [Nat.testBit_and, Nat.testBit_div_two_pow]
    congr 2
    omega

theorem and_evenMask : ∀ n x, x &&& evenMask k n = evenDigits k n x := by
  intro n
  induction n with
  | zero => simp [evenMask, evenDigits]
  | succ n ih =>
    intro x
    have positive : 0 < 2 ^ k := Nat.two_pow_pos k
    have shifted : ∀ y, y &&& (2 ^ k * evenMask k n) = 2 ^ k * ((y / 2 ^ k) &&& evenMask k n) := by
      intro y
      simpa using and_split (k := k) y (evenMask k n) 0 positive
    rw [evenMask, and_split x _ _ (by omega), shifted, ih, evenDigits,
      Nat.and_two_pow_sub_one_eq_mod, Nat.mod_mod]

theorem fold_eq : fold k n x = evenDigits k n (x / 2 ^ k) + evenDigits k n x := by
  rw [fold, and_evenMask, and_evenMask, Nat.shiftRight_eq_div_pow]

/-- A fold acts on the lowest pair of digits and on the rest of the row. -/
theorem fold_succ :
    fold k (n + 1) x =
      2 ^ (k + k) * fold k n (x / 2 ^ (k + k)) + (x / 2 ^ k % 2 ^ k + x % 2 ^ k) := by
  simp only [fold_eq, evenDigits, pow_add, ← Nat.div_div_eq_div_mul]
  ring

/-- The sum of two digits fits into a digit of twice the width. -/
theorem pair_lt (positive : 0 < k) : x / 2 ^ k % 2 ^ k + x % 2 ^ k < 2 ^ (k + k) := by
  have two : 2 ≤ 2 ^ k := by
    calc 2 = 2 ^ 1 := rfl
      _ ≤ 2 ^ k := Nat.pow_le_pow_right (by omega) positive
  have high : x / 2 ^ k % 2 ^ k < 2 ^ k := Nat.mod_lt _ (by omega)
  have low : x % 2 ^ k < 2 ^ k := Nat.mod_lt _ (by omega)
  rw [pow_add]
  nlinarith

theorem fold_lt (positive : 0 < k) : ∀ n x, fold k n x < 2 ^ ((k + k) * n) := by
  intro n
  induction n with
  | zero => simp [fold, evenMask]
  | succ n ih =>
    intro x
    have rest := ih (x / 2 ^ (k + k))
    have pair := pair_lt (x := x) positive
    rw [fold_succ, Nat.mul_succ, pow_add _ _ (k + k)]
    generalize 2 ^ (k + k) = base at rest pair ⊢
    nlinarith

/-- Folding keeps the sum of the digits. -/
theorem digitSum_fold (positive : 0 < k) :
    ∀ n x, digitSum (k + k) n (fold k n x) = digitSum k (n + n) x := by
  intro n
  induction n with
  | zero => simp [digitSum]
  | succ n ih =>
    intro x
    have pair := pair_lt (x := x) positive
    have pos : 0 < 2 ^ (k + k) := Nat.two_pow_pos _
    have low : fold k (n + 1) x % 2 ^ (k + k) = x / 2 ^ k % 2 ^ k + x % 2 ^ k := by
      rw [fold_succ, Nat.mul_add_mod, Nat.mod_eq_of_lt pair]
    have high : fold k (n + 1) x / 2 ^ (k + k) = fold k n (x / 2 ^ (k + k)) := by
      rw [fold_succ, Nat.mul_add_div pos, Nat.div_eq_of_lt pair, Nat.add_zero]
    have row : n + 1 + (n + 1) = n + n + 1 + 1 := by omega
    rw [digitSum, low, high, ih, row, digitSum, digitSum, Nat.div_div_eq_div_mul, ← pow_add]
    omega

/-- One digit that holds the whole number. -/
theorem digitSum_one (bound : x < 2 ^ k) : digitSum k 1 x = x := by
  simp [digitSum, Nat.mod_eq_of_lt bound]

/-- `j` folds of a row of `2 ^ j` digits. -/
def foldAll : Nat → Nat → Nat → Nat
  | _, 0, x => x
  | k, j + 1, x => foldAll (k + k) j (fold k (2 ^ j) x)

/-- Folding to the end leaves the sum. -/
theorem foldAll_eq (positive : 0 < k) :
    ∀ j x, x < 2 ^ (k * 2 ^ j) → foldAll k j x = digitSum k (2 ^ j) x := by
  intro j
  induction j generalizing k with
  | zero =>
    intro x bound
    rw [pow_zero, mul_one] at bound
    rw [foldAll, pow_zero, digitSum_one bound]
  | succ j ih =>
    intro x _
    rw [foldAll, ih (by omega) _ (fold_lt positive _ _), digitSum_fold positive, pow_succ,
      Nat.mul_two]

/-! ## Parity -/

/-- The exclusive or of the first `n` bits, from the highest one down. -/
def xorBits (bit : Nat → Bool) : Nat → Bool
  | 0 => false
  | n + 1 => bit n ^^ xorBits bit n

theorem xorBits_xor (bit bit' : Nat → Bool) :
    ∀ n, xorBits (fun i => bit i ^^ bit' i) n = (xorBits bit n ^^ xorBits bit' n) := by
  intro n
  induction n with
  | zero => rfl
  | succ n ih =>
    rw [xorBits, ih, xorBits, xorBits]
    cases bit n <;> cases bit' n <;> simp

/-- A single bit. -/
theorem xorBits_single (b : Bool) (k : Nat) :
    ∀ n, xorBits (fun i => b && decide (i = k)) n = (b && decide (k < n)) := by
  intro n
  induction n with
  | zero => simp [xorBits]
  | succ n ih =>
    rw [xorBits, ih]
    rcases Nat.lt_trichotomy k n with below | same | above
    · have other : n ≠ k := by omega
      have inside : k < n + 1 := by omega
      simp [other, below, inside]
    · subst same
      simp
    · have other : n ≠ k := by omega
      have outside : ¬ k < n ∧ ¬ k < n + 1 := by omega
      simp [other, outside]

/-- The sum of the bits, with the highest bit split off. -/
theorem digitSum_bits_succ :
    ∀ n x, digitSum 1 (n + 1) x = (x.testBit n).toNat + digitSum 1 n x := by
  intro n
  induction n with
  | zero => intro x; simp [digitSum, Nat.toNat_testBit, -Nat.testBit_zero]
  | succ n ih =>
    intro x
    rw [digitSum, ih, digitSum, Nat.testBit_succ]
    simp only [pow_one]
    omega

/-- The number of set bits is odd exactly when their exclusive or is true. -/
theorem digitSum_bits_mod_two (x : Nat) :
    ∀ n, digitSum 1 n x % 2 = (xorBits x.testBit n).toNat := by
  intro n
  induction n with
  | zero => rfl
  | succ n ih =>
    rw [digitSum_bits_succ, Nat.add_mod, ih, xorBits]
    cases x.testBit n <;> cases xorBits x.testBit n <;> rfl

end Navisim.BitCount

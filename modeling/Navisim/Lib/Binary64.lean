import Mathlib.Data.Int.Log
import Mathlib.Data.Rat.Floor
import Mathlib.Tactic

/-!
# Double precision

The numbers of the `binary64` format and rounding to the nearest of them, of two to the even one,
in exact arithmetic.  Infinities are left out: nothing that is computed here comes near the largest
number.

A quotient of two numbers never lies halfway between two numbers, so that a rounded quotient
reaches a bound exactly if the quotient reaches the middle below it (`le_rounded_div_iff`).
-/

namespace Navisim

namespace Binary64

/-- A number of the format: 53 bits, at an exponent with a lower end. -/
def Represented (x : ℚ) : Prop :=
  ∃ m e : Int, |m| < 2 ^ 53 ∧ -1074 ≤ e ∧ x = m * 2 ^ e

/-- The nearest integer, of two the even one. -/
def nearestEven (x : ℚ) : Int :=
  if x - ⌊x⌋ < 1 / 2 ∨ x - ⌊x⌋ = 1 / 2 ∧ Even ⌊x⌋ then ⌊x⌋ else ⌊x⌋ + 1

/-- The exponent of the last place. -/
def lastPlace (x : ℚ) : Int :=
  max (Int.log 2 |x| - 52) (-1074)

def rounded (x : ℚ) : ℚ :=
  nearestEven (x / 2 ^ lastPlace x) * 2 ^ lastPlace x

variable {x y d a b c : ℚ} {e : Int}

/-! ## Rounding to integers -/

theorem nearestEven_cases (x : ℚ) :
    nearestEven x = ⌊x⌋ ∧ x - ⌊x⌋ ≤ 1 / 2 ∨ nearestEven x = ⌊x⌋ + 1 ∧ 1 / 2 ≤ x - ⌊x⌋ := by
  unfold nearestEven
  split
  case isTrue down =>
    rcases down with less | ⟨half, -⟩
    · exact Or.inl ⟨rfl, less.le⟩
    · exact Or.inl ⟨rfl, half.le⟩
  case isFalse up =>
    rw [not_or] at up
    exact Or.inr ⟨rfl, not_lt.mp up.1⟩

/-- No integer is nearer. -/
theorem abs_nearestEven_sub_le (x : ℚ) (n : Int) : |nearestEven x - x| ≤ |n - x| := by
  have floor := Int.floor_le x
  have above := Int.lt_floor_add_one x
  rcases lt_or_ge ⌊x⌋ n with higher | lower
  · have higher' : (⌊x⌋ : ℚ) + 1 ≤ n := by exact_mod_cast higher
    rw [abs_of_nonneg (show 0 ≤ n - x by linarith)]
    rcases nearestEven_cases x with ⟨same, near⟩ | ⟨same, near⟩
    · rw [same, abs_of_nonpos (by linarith)]
      linarith
    · rw [same]
      push_cast
      rw [abs_of_nonneg (by linarith)]
      linarith
  · have lower' : (n : ℚ) ≤ ⌊x⌋ := by exact_mod_cast lower
    rw [abs_of_nonpos (show n - x ≤ 0 by linarith)]
    rcases nearestEven_cases x with ⟨same, near⟩ | ⟨same, near⟩
    · rw [same, abs_of_nonpos (by linarith)]
      linarith
    · rw [same]
      push_cast
      rw [abs_of_nonneg (by linarith)]
      linarith

/-- An integer bound is kept. -/
theorem nearestEven_le {n : Int} (below : x ≤ n) : nearestEven x ≤ n := by
  have floor : ⌊x⌋ ≤ n := by
    have bound := (Int.floor_le x).trans below
    exact_mod_cast bound
  rcases nearestEven_cases x with ⟨same, -⟩ | ⟨same, half⟩
  · omega
  · have apart : ⌊x⌋ ≠ n := by
      rintro rfl
      linarith
    omega

theorem nearestEven_neg (x : ℚ) : nearestEven (-x) = -nearestEven x := by
  have floor := Int.floor_le x
  have above := Int.lt_floor_add_one x
  rcases floor.eq_or_lt with whole | between
  · have negated : ⌊-x⌋ = -⌊x⌋ := by
      rw [← whole, ← Int.cast_neg, Int.floor_intCast, Int.floor_intCast]
    have down : ∀ y : ℚ, (⌊y⌋ : ℚ) = y → nearestEven y = ⌊y⌋ := by
      intro y same
      rw [nearestEven, if_pos (Or.inl (by rw [same, sub_self]; norm_num))]
    rw [down x whole, down (-x) (by rw [negated]; push_cast; rw [whole]), negated]
  · have negated : ⌊-x⌋ = -⌊x⌋ - 1 := by
      rw [Int.floor_eq_iff]
      push_cast
      constructor <;> linarith
    have parity : Even (-⌊x⌋ - 1) ↔ ¬ Even ⌊x⌋ := by
      rw [Int.even_sub_one, even_neg]
    unfold nearestEven
    rw [negated]
    simp only [parity]
    push_cast
    by_cases half : x - ⌊x⌋ = 1 / 2
    · have half' : -x - (-⌊x⌋ - 1) = 1 / 2 := by linarith
      rw [half, half']
      by_cases even : Even ⌊x⌋
      · simp only [lt_irrefl, even, not_true, and_false, or_false, and_true, if_false, or_true,
          if_true]
        omega
      · simp only [lt_irrefl, even, not_false_eq_true, and_true, or_true, if_true, and_false,
          or_false, if_false]
        omega
    · have half' : -x - (-⌊x⌋ - 1) ≠ 1 / 2 := fun same => half (by linarith)
      have opposite : -x - (-⌊x⌋ - 1) < 1 / 2 ↔ ¬ x - ⌊x⌋ < 1 / 2 := by
        rw [not_lt]
        constructor
        · intro less
          linarith
        · intro more
          rcases more.eq_or_lt with same | past
          · exact absurd same.symm half
          · linarith
      simp only [half, half', false_and, or_false, opposite]
      by_cases less : x - ⌊x⌋ < 1 / 2
      · simp only [less, not_true, if_false, if_true]
        omega
      · simp only [less, not_false_eq_true, if_false, if_true]
        omega

/-! ## Rounding -/

theorem two_zpow_pos (e : Int) : (0 : ℚ) < 2 ^ e :=
  zpow_pos two_pos e

theorem two_pow_mul_zpow (n : ℕ) (e : Int) : (2 : ℚ) ^ n * 2 ^ e = 2 ^ (e + n) := by
  rw [← zpow_natCast, ← zpow_add₀ two_ne_zero, add_comm]

theorem abs_lt_of_lastPlace (x : ℚ) : |x| < 2 ^ (lastPlace x + 53) := by
  have above := Int.lt_zpow_succ_log_self (b := 2) one_lt_two |x|
  push_cast at above
  refine above.trans_le (zpow_le_zpow_right₀ one_le_two ?_)
  unfold lastPlace
  omega

theorem represented_mul_zpow {n : Int} (fits : |n| ≤ 2 ^ 53) (lower : -1074 ≤ e) :
    Represented (n * 2 ^ e) := by
  rcases fits.lt_or_eq with less | full
  · exact ⟨n, e, less, lower, rfl⟩
  · -- a full mantissa goes to the next exponent
    have next : (2 : ℚ) ^ 53 * 2 ^ e = 2 ^ 52 * 2 ^ (e + 1) := by
      rw [zpow_add_one₀ two_ne_zero]
      ring
    rcases (abs_eq (by norm_num)).mp full with rfl | rfl
    · exact ⟨2 ^ 52, e + 1, by norm_num, by omega, by exact_mod_cast next⟩
    · refine ⟨-2 ^ 52, e + 1, by norm_num, by omega, ?_⟩
      rw [Int.cast_neg, Int.cast_neg, neg_mul, neg_mul, neg_inj]
      exact_mod_cast next

theorem represented_rounded (x : ℚ) : Represented (rounded x) := by
  have positive := two_zpow_pos (lastPlace x)
  have small : |x / 2 ^ lastPlace x| ≤ (2 ^ 53 : Int) := by
    rw [abs_div, abs_of_pos positive, div_le_iff₀ positive, Int.cast_pow, Int.cast_ofNat,
      two_pow_mul_zpow]
    exact (abs_lt_of_lastPlace x).le
  obtain ⟨lower, upper⟩ := abs_le.mp small
  have below : nearestEven (-(x / 2 ^ lastPlace x)) ≤ 2 ^ 53 := nearestEven_le (by linarith)
  rw [nearestEven_neg] at below
  exact represented_mul_zpow (abs_le.mpr ⟨by omega, nearestEven_le upper⟩) (le_max_right _ _)

theorem rounded_neg (x : ℚ) : rounded (-x) = -rounded x := by
  have place : lastPlace (-x) = lastPlace x := by
    rw [lastPlace, abs_neg, lastPlace]
  rw [rounded, rounded, place, neg_div, nearestEven_neg]
  push_cast
  ring

/-- A multiple of the last place is not nearer. -/
theorem abs_rounded_sub_le_mul (x : ℚ) (n : Int) :
    |rounded x - x| ≤ |n * 2 ^ lastPlace x - x| := by
  have positive := two_zpow_pos (lastPlace x)
  have scaled : ∀ m : Int, |m * 2 ^ lastPlace x - x| =
      |m - x / 2 ^ lastPlace x| * 2 ^ lastPlace x := by
    intro m
    rw [← abs_of_pos positive, ← abs_mul, abs_of_pos positive, sub_mul,
      div_mul_cancel₀ _ positive.ne']
  rw [rounded, scaled, scaled]
  exact mul_le_mul_of_nonneg_right (abs_nearestEven_sub_le _ n) positive.le

theorem zpow_eq_mul_zpow {a b : Int} (le : a ≤ b) :
    ∃ n : Int, (2 : ℚ) ^ b = n * 2 ^ a ∧ n = 2 ^ (b - a).toNat := by
  refine ⟨2 ^ (b - a).toNat, ?_, rfl⟩
  push_cast
  rw [← zpow_natCast, Int.toNat_of_nonneg (by omega), ← zpow_add₀ two_ne_zero, sub_add_cancel]

/-- **No number of the format is nearer.** -/
theorem abs_rounded_sub_le (x : ℚ) (represented : Represented d) :
    |rounded x - x| ≤ |d - x| := by
  obtain ⟨m, e, small, lower, rfl⟩ := represented
  rcases le_or_gt (lastPlace x) e with coarse | fine
  · obtain ⟨n, power, -⟩ := zpow_eq_mul_zpow coarse
    have multiple : (m : ℚ) * 2 ^ e = (m * n : Int) * 2 ^ lastPlace x := by
      rw [power]
      push_cast
      ring
    rw [multiple]
    exact abs_rounded_sub_le_mul x (m * n)
  · -- the number is smaller than the power of two below `x`, which is a multiple
    have place : lastPlace x = Int.log 2 |x| - 52 := by
      unfold lastPlace at fine ⊢
      omega
    rcases eq_or_ne x 0 with rfl | nonzero
    · have zero := abs_rounded_sub_le_mul 0 0
      rw [Int.cast_zero, zero_mul, sub_self, abs_zero] at zero
      exact zero.trans (abs_nonneg _)
    have power : (2 : ℚ) ^ 52 * 2 ^ lastPlace x ≤ |x| := by
      have below := Int.zpow_log_le_self (b := 2) one_lt_two (abs_pos.mpr nonzero)
      rw [Nat.cast_ofNat] at below
      rwa [place, two_pow_mul_zpow, Nat.cast_ofNat, sub_add_cancel]
    have inside : |(m : ℚ) * 2 ^ e| ≤ 2 ^ 52 * 2 ^ lastPlace x := by
      have mantissa : |(m : ℚ)| ≤ 2 ^ 53 := by exact_mod_cast small.le
      have half : (2 : ℚ) ^ e * 2 ≤ 2 ^ lastPlace x := by
        rw [← zpow_add_one₀ two_ne_zero]
        exact zpow_le_zpow_right₀ one_le_two (by omega)
      rw [abs_mul, abs_of_pos (two_zpow_pos e)]
      have product := mul_le_mul_of_nonneg_right mantissa (two_zpow_pos e).le
      linarith
    rcases le_total 0 x with nonneg | nonpos
    · rw [abs_of_nonneg nonneg] at power
      have near := abs_rounded_sub_le_mul x (2 ^ 52)
      rw [Int.cast_pow, Int.cast_ofNat] at near
      rw [abs_of_nonpos (show (2 : ℚ) ^ 52 * 2 ^ lastPlace x - x ≤ 0 by linarith)] at near
      have apart := neg_abs_le ((m : ℚ) * 2 ^ e - x)
      have upper := (abs_le.mp inside).2
      linarith
    · rw [abs_of_nonpos nonpos] at power
      have near := abs_rounded_sub_le_mul x (-2 ^ 52)
      rw [Int.cast_neg, Int.cast_pow, Int.cast_ofNat] at near
      rw [abs_of_nonneg (show 0 ≤ -(2 : ℚ) ^ 52 * 2 ^ lastPlace x - x by linarith)] at near
      have apart := le_abs_self ((m : ℚ) * 2 ^ e - x)
      have lower := (abs_le.mp inside).1
      linarith

/-! ## Bounds of rounded numbers -/

/-- The middle between the least number that is not below `c` and the number before it. -/
def reach (c : ℚ) : ℚ :=
  (⌈c / 2 ^ (Int.clog 2 c - 53)⌉ - 1 / 2) * 2 ^ (Int.clog 2 c - 53)

/-- Numbers from a power of two on are multiples of a last place. -/
theorem Represented.eq_mul (represented : Represented d) (large : 2 ^ (e - 1) ≤ |d|) :
    ∃ n : Int, d = n * 2 ^ (e - 53) := by
  obtain ⟨m, a, small, -, rfl⟩ := represented
  have mantissa : |(m : ℚ)| < 2 ^ (53 : Int) := by exact_mod_cast small
  rw [abs_mul, abs_of_pos (two_zpow_pos a)] at large
  have less : (2 : ℚ) ^ (e - 1) < 2 ^ (53 + a) := by
    rw [zpow_add₀ two_ne_zero]
    exact large.trans_lt (mul_lt_mul_of_pos_right mantissa (two_zpow_pos a))
  have order := (zpow_lt_zpow_iff_right₀ one_lt_two).mp less
  obtain ⟨n, power, -⟩ := zpow_eq_mul_zpow (show e - 53 ≤ a by omega)
  exact ⟨m * n, by rw [power]; push_cast; ring⟩

/-- The bound counted in last places. -/
theorem reach_places (positive : 0 < c) :
    2 ^ 52 < ⌈c / 2 ^ (Int.clog 2 c - 53)⌉ ∧ ⌈c / 2 ^ (Int.clog 2 c - 53)⌉ ≤ 2 ^ 53 := by
  have above := Int.self_le_zpow_clog (b := 2) one_lt_two c
  have below := Int.zpow_pred_clog_lt_self (b := 2) one_lt_two positive
  have place := two_zpow_pos (Int.clog 2 c - 53)
  rw [Nat.cast_ofNat] at above below
  constructor
  · have exponent : Int.clog 2 c - 53 + (52 : ℕ) = Int.clog 2 c - 1 := by omega
    rwa [Int.lt_ceil, lt_div_iff₀ place, Int.cast_pow, Int.cast_ofNat, two_pow_mul_zpow, exponent]
  · have exponent : Int.clog 2 c - 53 + (53 : ℕ) = Int.clog 2 c := by omega
    rwa [Int.ceil_le, div_le_iff₀ place, Int.cast_pow, Int.cast_ofNat, two_pow_mul_zpow, exponent]

/-- A number that is rounded past a number of the format lies past the middle to it. -/
theorem middle_le_of_le_rounded (lower : Represented a) (less : a < b) (reached : b ≤ rounded x) :
    (a + b) / 2 ≤ x := by
  have near := abs_rounded_sub_le x lower
  have distance := le_abs_self (rounded x - x)
  rcases le_total a x with past | under
  · rw [abs_of_nonpos (sub_nonpos.mpr past)] at near
    linarith
  · rw [abs_of_nonneg (sub_nonneg.mpr under)] at near
    linarith

/-- A number past the middle to a number of the format is rounded past the other end. -/
theorem lt_rounded_of_middle_lt (upper : Represented b) (less : a < b) (past : (a + b) / 2 < x) :
    a < rounded x := by
  have near := abs_rounded_sub_le x upper
  have distance := neg_abs_le (rounded x - x)
  rcases le_total b x with above | below
  · rw [abs_of_nonpos (sub_nonpos.mpr above)] at near
    linarith
  · rw [abs_of_nonneg (sub_nonneg.mpr below)] at near
    linarith

/-- A rounded number reaches a bound from the middle below it on. -/
theorem le_rounded_iff (large : 1 ≤ c) (apart : x ≠ reach c) :
    c ≤ rounded x ↔ reach c ≤ x := by
  have nonneg : 0 ≤ Int.clog 2 c := by
    rw [Int.clog_of_one_le_right 2 large]
    exact Int.natCast_nonneg _
  have below := Int.zpow_pred_clog_lt_self (b := 2) one_lt_two (zero_lt_one.trans_le large)
  obtain ⟨many, few⟩ := reach_places (zero_lt_one.trans_le large)
  have ceil := Int.le_ceil (c / 2 ^ (Int.clog 2 c - 53))
  have ceil' : ∀ j : Int, c ≤ j * 2 ^ (Int.clog 2 c - 53) →
      ⌈c / 2 ^ (Int.clog 2 c - 53)⌉ ≤ j := fun j reached =>
    Int.ceil_le.mpr ((div_le_iff₀ (two_zpow_pos _)).mpr reached)
  unfold reach at apart ⊢
  generalize Int.clog 2 c = e at *
  generalize ⌈c / 2 ^ (e - 53)⌉ = n at *
  have place := two_zpow_pos (e - 53)
  rw [div_le_iff₀ place] at ceil
  have upper : Represented (n * 2 ^ (e - 53)) :=
    represented_mul_zpow (abs_le.mpr ⟨by omega, few⟩) (by omega)
  have lower : Represented ((n - 1 : Int) * 2 ^ (e - 53)) :=
    represented_mul_zpow (abs_le.mpr ⟨by omega, by omega⟩) (by omega)
  have middle : ((n - 1 : Int) * 2 ^ (e - 53) + n * 2 ^ (e - 53)) / 2 =
      (n - 1 / 2 : ℚ) * 2 ^ (e - 53) := by
    push_cast
    ring
  have multiple : 2 ^ (e - 1) ≤ rounded x → ∃ j : Int, rounded x = j * 2 ^ (e - 53) := fun high =>
    (represented_rounded x).eq_mul (high.trans (le_abs_self _))
  rw [Nat.cast_ofNat] at below
  have order : ((n - 1 : Int) : ℚ) * 2 ^ (e - 53) < n * 2 ^ (e - 53) :=
    mul_lt_mul_of_pos_right (by exact_mod_cast sub_one_lt n) place
  constructor
  · intro reached
    obtain ⟨j, value⟩ := multiple (below.le.trans reached)
    have more : (n : ℚ) ≤ j := by exact_mod_cast ceil' j (by rwa [← value])
    have high : (n : ℚ) * 2 ^ (e - 53) ≤ rounded x := by
      rw [value]
      exact mul_le_mul_of_nonneg_right more place.le
    rw [← middle]
    exact middle_le_of_le_rounded lower order high
  · intro reached
    have high := lt_rounded_of_middle_lt upper order
      (middle.trans_lt (lt_of_le_of_ne reached apart.symm))
    have power : (2 : ℚ) ^ (e - 1) ≤ (n - 1 : Int) * 2 ^ (e - 53) := by
      rw [show e - 1 = e - 53 + (52 : ℕ) by omega, ← two_pow_mul_zpow]
      exact mul_le_mul_of_nonneg_right (by exact_mod_cast Int.le_sub_one_of_lt many) place.le
    obtain ⟨j, value⟩ := multiple (power.trans high.le)
    rw [value] at high ⊢
    have past : n - 1 < j := by exact_mod_cast lt_of_mul_lt_mul_right high place.le
    have reaches : (n : ℚ) ≤ j := by exact_mod_cast Int.le_of_sub_one_lt past
    exact ceil.trans (mul_le_mul_of_nonneg_right reaches place.le)

/-- The middle between two numbers has too many places to be a quotient. -/
theorem div_ne_reach (large : 1 ≤ c) (dividend : Represented x) (divisor : Represented y)
    (positive : 0 < y) : x / y ≠ reach c := by
  intro same
  obtain ⟨many, -⟩ := reach_places (zero_lt_one.trans_le large)
  unfold reach at same
  generalize Int.clog 2 c = e at *
  generalize ⌈c / 2 ^ (e - 53)⌉ = n at *
  obtain ⟨m, a, small, -, rfl⟩ := dividend
  obtain ⟨p, b, -, -, rfl⟩ := divisor
  have nonzero : p ≠ 0 := by
    rintro rfl
    simp at positive
  -- an odd factor of the middle divides the mantissa
  have odd : (m : ℚ) * 2 ^ a = ((2 * n - 1) * p : Int) * 2 ^ (e - 54 + b) := by
    have power : (2 : ℚ) ^ (e - 53) = 2 * 2 ^ (e - 54) := by
      rw [← zpow_one_add₀ two_ne_zero]
      congr 1
      ring
    rw [div_eq_iff positive.ne', power] at same
    rw [same, zpow_add₀ two_ne_zero]
    push_cast
    ring
  have divides : 2 * n - 1 ∣ m := by
    rcases le_total a (e - 54 + b) with le | le
    · obtain ⟨q, power, -⟩ := zpow_eq_mul_zpow le
      rw [power, ← mul_assoc] at odd
      have whole : m = (2 * n - 1) * p * q := by
        exact_mod_cast mul_right_cancel₀ (two_zpow_pos a).ne' odd
      exact ⟨p * q, by rw [whole, mul_assoc]⟩
    · obtain ⟨q, power, value⟩ := zpow_eq_mul_zpow le
      rw [power, ← mul_assoc] at odd
      have whole : m * q = (2 * n - 1) * p := by
        exact_mod_cast mul_right_cancel₀ (two_zpow_pos _).ne' odd
      have coprime : IsCoprime (2 * n - 1) q := by
        rw [value]
        exact IsCoprime.pow_right ⟨-1, n, by ring⟩
      exact coprime.dvd_of_dvd_mul_right ⟨p, whole⟩
  have zero : m ≠ 0 := by
    rintro rfl
    rw [Int.cast_zero, zero_mul, eq_comm, mul_eq_zero] at odd
    rcases odd with factor | power
    · have factor' : (2 * n - 1) * p = 0 := by exact_mod_cast factor
      rcases mul_eq_zero.mp factor' with first | second
      · omega
      · exact nonzero second
    · exact (two_zpow_pos _).ne' power
  have le := Int.le_of_dvd (abs_pos.mpr zero) ((dvd_abs _ _).mpr divides)
  omega

/-- **A rounded quotient reaches a bound** exactly if the dividend reaches the middle below the
bound, times the divisor. -/
theorem le_rounded_div_iff (large : 1 ≤ c) (dividend : Represented x) (divisor : Represented y)
    (positive : 0 < y) : c ≤ rounded (x / y) ↔ reach c * y ≤ x := by
  rw [le_rounded_iff large (div_ne_reach large dividend divisor positive), le_div_iff₀ positive]

/-- The middle lies close below the bound, or above it. -/
theorem mul_le_reach (positive : 0 < c) : c * (1 - 1 / 2 ^ 53) ≤ reach c := by
  have ceil := Int.le_ceil (c / 2 ^ (Int.clog 2 c - 53))
  rw [div_le_iff₀ (two_zpow_pos _)] at ceil
  have below := Int.zpow_pred_clog_lt_self (b := 2) one_lt_two positive
  rw [Nat.cast_ofNat, show Int.clog 2 c - 1 = Int.clog 2 c - 53 + (52 : ℕ) by omega,
    ← two_pow_mul_zpow] at below
  unfold reach
  linarith

theorem reach_nonpos (nonpos : c ≤ 0) : reach c ≤ 0 := by
  have place := two_zpow_pos (Int.clog 2 c - 53)
  have ceil : ⌈c / 2 ^ (Int.clog 2 c - 53)⌉ ≤ 0 :=
    Int.ceil_le.mpr (by simpa using div_nonpos_of_nonpos_of_nonneg nonpos place.le)
  have ceil' : (⌈c / 2 ^ (Int.clog 2 c - 53)⌉ : ℚ) ≤ 0 := by exact_mod_cast ceil
  exact mul_nonpos_of_nonpos_of_nonneg (by linarith) place.le

theorem rounded_nonneg (nonneg : 0 ≤ x) : 0 ≤ rounded x := by
  have zero : Represented 0 := ⟨0, 0, by norm_num, by norm_num, by norm_num⟩
  have near := abs_rounded_sub_le x zero
  rw [zero_sub, abs_neg, abs_of_nonneg nonneg] at near
  linarith [neg_abs_le (rounded x - x)]

theorem Represented.neg (represented : Represented d) : Represented (-d) := by
  obtain ⟨m, e, small, lower, rfl⟩ := represented
  exact ⟨-m, e, by rwa [abs_neg], lower, by push_cast; ring⟩

end Binary64

/-! ## The type -/

/-- `double` -/
structure Binary64 where
  val : ℚ
  represented : Binary64.Represented val

namespace Binary64

/-- The nearest number. -/
def ofRat (x : ℚ) : Binary64 :=
  ⟨rounded x, represented_rounded x⟩

instance : OfScientific Binary64 where
  ofScientific m sign e := ofRat (OfScientific.ofScientific m sign e)

instance : Div Binary64 where
  div x y := ofRat (x.val / y.val)

@[simp] theorem ofRat_val (x : ℚ) : (ofRat x).val = rounded x := rfl

@[simp] theorem div_val (x y : Binary64) : (x / y).val = rounded (x.val / y.val) := rfl

end Binary64

end Navisim

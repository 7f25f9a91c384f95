import Mathlib.Algebra.BigOperators.Group.Finset.Basic
import Mathlib.Algebra.BigOperators.Pi
import Mathlib.Algebra.GroupWithZero.Units.Fintype
import Mathlib.Data.Fintype.BigOperators
import Mathlib.Data.Int.Order.Units
import Mathlib.Data.Nat.Periodic
import Mathlib.Tactic
import Navisim.Lib.BitCount

/-!
# Gold codes

Sequences of signs that a feedback shift register of `n` places produces.  The product of two of
them is again one (`Recurrent.mul`).  A register that goes through all its states but the trivial
one, a `Maximal` one, produces every sequence of its recurrence, up to a shift; so the product of
such a sequence with a shift of itself is another shift of it (`Maximal.exists_mul_shift`).  The
correlation of two products of the same two maximal sequences is therefore the period, minus one,
or a correlation of the two sequences themselves (`correlation_cases`).
-/

namespace Navisim.Gold

variable {n N : ℕ} {taps : Finset ℕ} {s t r : ℕ → ℤˣ}

/-! ## Recurrences -/

/-- The register of `n` places feeds back the product of its `taps`. -/
def Recurrent (n : ℕ) (taps : Finset ℕ) (s : ℕ → ℤˣ) : Prop :=
  ∀ i, s (i + n) = ∏ k ∈ taps, s (i + k)

/-- The contents of the register. -/
def window (n : ℕ) (s : ℕ → ℤˣ) (i : ℕ) : Fin n → ℤˣ :=
  fun k => s (i + k)

theorem Recurrent.mul (left : Recurrent n taps s) (right : Recurrent n taps t) :
    Recurrent n taps fun i => s i * t i := by
  intro i
  dsimp only
  rw [left i, right i, Finset.prod_mul_distrib]

theorem Recurrent.shift (recurrent : Recurrent n taps s) (u : ℕ) :
    Recurrent n taps fun i => s (i + u) := by
  intro i
  have here := recurrent (i + u)
  simpa only [add_right_comm] using here

/-- The register determines what follows. -/
theorem Recurrent.eq_of_window (inside : ∀ k ∈ taps, k < n) (left : Recurrent n taps s)
    (right : Recurrent n taps t) (same : window n s 0 = window n t 0) : s = t := by
  funext i
  induction i using Nat.strong_induction_on with
  | _ i ih =>
      by_cases first : i < n
      · have here := congrFun same ⟨i, first⟩
        simpa [window] using here
      · obtain ⟨j, rfl⟩ : ∃ j, i = j + n := ⟨i - n, by omega⟩
        rw [left j, right j]
        refine Finset.prod_congr rfl fun k tap => ih _ ?_
        have below := inside k tap
        omega

/-- From two places with the same contents on, the sequence is the same. -/
theorem Recurrent.eq_from (inside : ∀ k ∈ taps, k < n) (recurrent : Recurrent n taps s) {i j : ℕ}
    (same : window n s i = window n s j) (m : ℕ) : s (m + i) = s (m + j) := by
  have windows : window n (fun m => s (m + i)) 0 = window n (fun m => s (m + j)) 0 := by
    funext k
    have here := congrFun same k
    simpa only [window, Nat.add_zero, Nat.add_comm _ (k : ℕ)] using here
  exact congrFun ((recurrent.shift i).eq_of_window inside (recurrent.shift j) windows) m

/-! ## Maximal sequences -/

/-- A register of `n` places that comes back to its first contents after `2 ^ n - 1` turns, and
not before. -/
structure Maximal (n : ℕ) (taps : Finset ℕ) (s : ℕ → ℤˣ) : Prop where
  places : 2 ≤ n
  inside : ∀ k ∈ taps, k < n
  recurrent : Recurrent n taps s
  closes : window n s (2 ^ n - 1) = window n s 0
  returns : ∀ d, 0 < d → d < 2 ^ n - 1 → window n s d ≠ window n s 0

section Maximal

variable (maximal : Maximal n taps s)
include maximal

theorem Maximal.periodic : Function.Periodic s (2 ^ n - 1) :=
  fun i => maximal.recurrent.eq_from maximal.inside maximal.closes i

theorem Maximal.periodic_mul (i c : ℕ) : s (i + (2 ^ n - 1) * c) = s i := by
  have whole := maximal.periodic.nat_mul c i
  rwa [Nat.cast_id, Nat.mul_comm] at whole

theorem Maximal.mod (i : ℕ) : s (i % (2 ^ n - 1)) = s i :=
  maximal.periodic.map_mod_nat i

theorem Maximal.one_lt : 1 < 2 ^ n - 1 := by
  have power : 2 ^ 2 ≤ 2 ^ n := Nat.pow_le_pow_right (by norm_num) maximal.places
  omega

/-- No contents come twice in a period. -/
theorem Maximal.window_ne {i j : ℕ} (before : i < j) (inside : j < 2 ^ n - 1) :
    window n s i ≠ window n s j := by
  intro same
  refine maximal.returns (j - i) (by omega) (by omega) ?_
  -- What holds from `i` on holds from the next multiple of the period on.
  funext k
  have here := maximal.recurrent.eq_from maximal.inside same (k + (2 ^ n - 1 - i))
  rw [show k + (2 ^ n - 1 - i) + i = k + (2 ^ n - 1) by omega,
    show k + (2 ^ n - 1 - i) + j = k + (j - i) + (2 ^ n - 1) by omega,
    maximal.periodic, maximal.periodic] at here
  simp only [window, Nat.zero_add]
  rw [here, Nat.add_comm]

theorem Maximal.window_injective :
    Function.Injective fun i : Fin (2 ^ n - 1) => window n s i := by
  intro i j same
  rcases lt_trichotomy i j with before | here | behind
  · exact absurd same (maximal.window_ne before j.isLt)
  · exact here
  · exact absurd same.symm (maximal.window_ne behind i.isLt)

/-- The register is never trivial. -/
theorem Maximal.window_ne_one (i : ℕ) : window n s i ≠ 1 := by
  intro trivial
  have one := maximal.one_lt
  have ones : ∀ m, s (m + i) = 1 := by
    have constant : Recurrent n taps fun _ => 1 := fun _ => by rw [Finset.prod_const_one]
    refine congrFun ((maximal.recurrent.shift i).eq_of_window maximal.inside constant ?_)
    funext k
    have here := congrFun trivial k
    simpa only [window, Nat.add_zero, Nat.add_comm _ (k : ℕ), Pi.one_apply] using here
  refine maximal.window_ne (Nat.zero_lt_one) one ?_
  funext k
  have left := ones (k + (2 ^ n - 1) * i - i)
  have right := ones (k + 1 + (2 ^ n - 1) * i - i)
  have room : i ≤ (2 ^ n - 1) * i := Nat.le_mul_of_pos_left i (by omega)
  rw [Nat.sub_add_cancel (by omega), maximal.periodic_mul] at left right
  simp only [window, Nat.zero_add]
  rw [left, Nat.add_comm, right]

/-- **Every contents but the trivial one occur in a period.** -/
theorem Maximal.exists_window {w : Fin n → ℤˣ} (nontrivial : w ≠ 1) :
    ∃ u < 2 ^ n - 1, window n s u = w := by
  let seen : Finset (Fin n → ℤˣ) := Finset.univ.image fun i : Fin (2 ^ n - 1) => window n s i
  have size : seen.card = 2 ^ n - 1 := by
    rw [Finset.card_image_of_injective _ maximal.window_injective, Finset.card_univ,
      Fintype.card_fin]
  have subset : seen ⊆ Finset.univ.erase 1 := by
    intro v member
    obtain ⟨i, -, rfl⟩ := Finset.mem_image.mp member
    exact Finset.mem_erase.mpr ⟨maximal.window_ne_one i, Finset.mem_univ _⟩
  have whole : (Finset.univ.erase (1 : Fin n → ℤˣ)).card = 2 ^ n - 1 := by
    rw [Finset.card_erase_of_mem (Finset.mem_univ _), Finset.card_univ, Fintype.card_fun,
      Fintype.card_fin]
    rfl
  have all : seen = Finset.univ.erase 1 :=
    Finset.eq_of_subset_of_card_le subset (by rw [size, whole])
  have member : w ∈ seen := by
    rw [all]
    exact Finset.mem_erase.mpr ⟨nontrivial, Finset.mem_univ _⟩
  obtain ⟨i, -, same⟩ := Finset.mem_image.mp member
  exact ⟨i, i.isLt, same⟩

/-- Another sequence of the recurrence is trivial or a shift. -/
theorem Maximal.exists_shift (other : Recurrent n taps r) (nontrivial : window n r 0 ≠ 1) :
    ∃ u < 2 ^ n - 1, ∀ i, r i = s (i + u) := by
  obtain ⟨u, below, same⟩ := maximal.exists_window nontrivial
  refine ⟨u, below, congrFun (other.eq_of_window maximal.inside
    (maximal.recurrent.shift u) ?_)⟩
  rw [← same]
  funext k
  simp only [window, Nat.zero_add, Nat.add_comm u]

/-- **Shift and add.**  The product with a shift is a shift. -/
theorem Maximal.exists_mul_shift {k : ℕ} (moved : ¬ 2 ^ n - 1 ∣ k) :
    ∃ u < 2 ^ n - 1, ∀ i, s i * s (i + k) = s (i + u) := by
  refine maximal.exists_shift (maximal.recurrent.mul (maximal.recurrent.shift k)) ?_
  intro trivial
  have one := maximal.one_lt
  have rest : 0 < k % (2 ^ n - 1) := by
    rcases Nat.eq_zero_or_pos (k % (2 ^ n - 1)) with zero | positive
    · exact absurd (Nat.dvd_of_mod_eq_zero zero) moved
    · exact positive
  refine maximal.returns (k % (2 ^ n - 1)) rest (Nat.mod_lt _ (by omega)) ?_
  funext j
  have here := congrFun trivial j
  simp only [window, Nat.zero_add, Pi.one_apply] at here ⊢
  have inverse : s j = s (j + k) := by
    have unit := mul_eq_one_iff_eq_inv.mp here
    rwa [Int.units_inv_eq_self] at unit
  rw [inverse, ← maximal.mod (k % (2 ^ n - 1) + j), Nat.add_comm, Nat.add_mod, Nat.mod_mod,
    ← Nat.add_mod, maximal.mod]

end Maximal

/-! ## Sums over a period -/

/-- A sum over a period of a periodic sequence may start anywhere. -/
theorem sum_shift {M : Type*} [AddCommGroup M] {f : ℕ → M} (periodic : Function.Periodic f N)
    (u : ℕ) : ∑ i ∈ Finset.range N, f (i + u) = ∑ i ∈ Finset.range N, f i := by
  induction u with
  | zero => rfl
  | succ u ih =>
      have turned := (Finset.sum_range_succ' (fun i => f (i + u)) N).symm.trans
        (Finset.sum_range_succ (fun i => f (i + u)) N)
      rw [Nat.zero_add, Nat.add_comm N u, periodic] at turned
      rw [← ih, ← add_right_cancel turned]
      refine Finset.sum_congr rfl fun i _ => ?_
      rw [Nat.add_right_comm, Nat.add_assoc]

/-- The signs at one place, over all contents, cancel. -/
theorem sum_place (k : Fin n) : ∑ w : Fin n → ℤˣ, ((w k : ℤˣ) : ℤ) = 0 := by
  have flip : ∑ w : Fin n → ℤˣ, ((w k : ℤˣ) : ℤ) = ∑ w : Fin n → ℤˣ, (((-w) k : ℤˣ) : ℤ) :=
    (Equiv.sum_comp (Equiv.neg (Fin n → ℤˣ)) fun w => ((w k : ℤˣ) : ℤ)).symm
  simp only [Pi.neg_apply, Units.val_neg, Finset.sum_neg_distrib] at flip
  linarith

/-- **Balance.**  A maximal sequence has one minus more than it has pluses. -/
theorem Maximal.sum_eq (maximal : Maximal n taps s) :
    ∑ i ∈ Finset.range (2 ^ n - 1), ((s i : ℤˣ) : ℤ) = -1 := by
  have place : 0 < n := Nat.zero_lt_of_lt maximal.places
  have bijection : ∑ i : Fin (2 ^ n - 1), (((window n s i) ⟨0, place⟩ : ℤˣ) : ℤ) =
      ∑ w ∈ Finset.univ.erase (1 : Fin n → ℤˣ), ((w ⟨0, place⟩ : ℤˣ) : ℤ) := by
    refine Finset.sum_bij (fun i _ => window n s i) ?_ ?_ ?_ ?_
    · intro i _
      exact Finset.mem_erase.mpr ⟨maximal.window_ne_one i, Finset.mem_univ _⟩
    · intro i _ j _ same
      exact maximal.window_injective same
    · intro w member
      obtain ⟨u, below, same⟩ := maximal.exists_window (Finset.mem_erase.mp member).1
      exact ⟨⟨u, below⟩, Finset.mem_univ _, same⟩
    · intro i _
      rfl
  have all := Finset.add_sum_erase Finset.univ
    (fun w : Fin n → ℤˣ => ((w ⟨0, place⟩ : ℤˣ) : ℤ)) (Finset.mem_univ 1)
  rw [sum_place, ← bijection] at all
  simp only [Pi.one_apply, Units.val_one, window, Nat.add_zero] at all
  rw [Finset.sum_range]
  linarith

/-! ## Correlations -/

/-- The product of `s` with a shift of `t`. -/
def code (s t : ℕ → ℤˣ) (d i : ℕ) : ℤˣ :=
  s i * t (i + d)

/-- The correlation of two sequences over `N` places. -/
def correlation (N : ℕ) (x y : ℕ → ℤˣ) (k : ℕ) : ℤ :=
  ∑ i ∈ Finset.range N, ((x i * y (i + k) : ℤˣ) : ℤ)

/-- The correlation of two shifts. -/
theorem correlation_shift {x y : ℕ → ℤˣ} (left : Function.Periodic x N)
    (right : Function.Periodic y N) (positive : 0 < N) (u v : ℕ) :
    ∑ i ∈ Finset.range N, ((x (i + u) * y (i + v) : ℤˣ) : ℤ) =
      correlation N x y ((v + (N - 1) * u) % N) := by
  have moved : ∀ i, y (i + u + (v + (N - 1) * u) % N) = y (i + v) := by
    intro i
    have whole : i + u + (v + (N - 1) * u) = i + v + u * N := by
      obtain ⟨m, rfl⟩ : ∃ m, N = m + 1 := ⟨N - 1, by omega⟩
      rw [Nat.add_sub_cancel]
      ring
    rw [← right.map_mod_nat, Nat.add_mod_mod, whole, Nat.add_mul_mod_self_right,
      right.map_mod_nat]
  have turned := sum_shift (N := N)
    (f := fun i => ((x i * y (i + (v + (N - 1) * u) % N) : ℤˣ) : ℤ))
    (fun i => by dsimp only; rw [left, Nat.add_right_comm, right]) u
  simp only [moved] at turned
  exact turned

theorem Maximal.sum_shift_eq (maximal : Maximal n taps s) (u : ℕ) :
    ∑ i ∈ Finset.range (2 ^ n - 1), ((s (i + u) : ℤˣ) : ℤ) = -1 := by
  have turned := sum_shift (f := fun i => ((s i : ℤˣ) : ℤ))
    (fun i => congrArg _ (maximal.periodic i)) u
  exact turned.trans maximal.sum_eq

/-- The product of a sequence with a shift is trivial exactly if the shift is. -/
theorem Maximal.mul_shift_eq_one (maximal : Maximal n taps s) {k : ℕ} (still : 2 ^ n - 1 ∣ k)
    (i : ℕ) : s i * s (i + k) = 1 := by
  obtain ⟨c, rfl⟩ := still
  rw [maximal.periodic_mul, Int.units_mul_self]

/-- **The correlations of a family of products.**  A code correlates with itself in the period,
and with a shift of itself or with another code in minus one or as the two maximal sequences
do. -/
theorem correlation_cases {tapsS tapsT : Finset ℕ} (left : Maximal n tapsS s)
    (right : Maximal n tapsT t) (d e k : ℕ) :
    (2 ^ n - 1 ∣ k ∧ 2 ^ n - 1 ∣ k + e + (2 ^ n - 1 - 1) * d ∧
      correlation (2 ^ n - 1) (code s t d) (code s t e) k = (2 ^ n - 1 : ℕ)) ∨
    ¬ (2 ^ n - 1 ∣ k ∧ 2 ^ n - 1 ∣ k + e + (2 ^ n - 1 - 1) * d) ∧
      (correlation (2 ^ n - 1) (code s t d) (code s t e) k = -1 ∨
        ∃ m < 2 ^ n - 1, correlation (2 ^ n - 1) (code s t d) (code s t e) k =
          correlation (2 ^ n - 1) s t m) := by
  have positive := left.one_lt
  -- The factors of a term, those of `s` first; those of `t` from the place `i + d` on.
  have term : ∀ i, code s t d i * code s t e (i + k) =
      s i * s (i + k) * (t (i + d) * t (i + d + (k + e + (2 ^ n - 1 - 1) * d))) := by
    intro i
    have whole : i + d + (k + e + (2 ^ n - 1 - 1) * d) = i + k + e + (2 ^ n - 1) * d := by
      obtain ⟨m, turns⟩ : ∃ m, 2 ^ n - 1 = m + 1 := ⟨2 ^ n - 1 - 1, by omega⟩
      rw [turns, Nat.add_sub_cancel]
      ring
    rw [whole, right.periodic_mul]
    exact mul_mul_mul_comm _ _ _ _
  simp only [correlation, term]
  generalize k + e + (2 ^ n - 1 - 1) * d = c
  by_cases still : 2 ^ n - 1 ∣ k
  · simp only [left.mul_shift_eq_one still, one_mul]
    by_cases same : 2 ^ n - 1 ∣ c
    · refine Or.inl ⟨still, same, ?_⟩
      simp only [right.mul_shift_eq_one same, Units.val_one, Finset.sum_const,
        Finset.card_range, nsmul_eq_mul, mul_one]
    · obtain ⟨v, -, shifted⟩ := right.exists_mul_shift same
      refine Or.inr ⟨fun both => same both.2, Or.inl ?_⟩
      simp only [shifted]
      simp only [Nat.add_assoc]
      exact right.sum_shift_eq (d + v)
  · obtain ⟨u, -, shifted⟩ := left.exists_mul_shift still
    refine Or.inr ⟨fun both => still both.1, ?_⟩
    simp only [shifted]
    by_cases same : 2 ^ n - 1 ∣ c
    · simp only [right.mul_shift_eq_one same, mul_one]
      exact Or.inl (left.sum_shift_eq u)
    · obtain ⟨v, -, moved⟩ := right.exists_mul_shift same
      simp only [moved]
      simp only [Nat.add_assoc]
      exact Or.inr ⟨_, Nat.mod_lt _ (by omega),
        correlation_shift left.periodic right.periodic (by omega) u (d + v)⟩

/-! ## Packed sequences -/

/-- The bits of a number as signs. -/
def signs (x i : ℕ) : ℤˣ :=
  if x.testBit i then -1 else 1

theorem signs_eq_iff {x y i j : ℕ} : signs x i = signs y j ↔ x.testBit i = y.testBit j := by
  unfold signs
  cases x.testBit i <;> cases y.testBit j <;> decide

theorem signs_xor (x y i : ℕ) : signs (x ^^^ y) i = signs x i * signs y i := by
  unfold signs
  rw [Nat.testBit_xor]
  cases x.testBit i <;> cases y.testBit i <;> decide

/-- The sum of the signs counts the bits. -/
theorem sum_signs (x N : ℕ) :
    ∑ i ∈ Finset.range N, ((signs x i : ℤˣ) : ℤ) = N - 2 * BitCount.digitSum 1 N x := by
  induction N with
  | zero => rfl
  | succ N ih =>
      have last : ((signs x N : ℤˣ) : ℤ) = 1 - 2 * ((x.testBit N).toNat : ℤ) := by
        unfold signs
        cases x.testBit N <;> rfl
      rw [Finset.sum_range_succ, ih, last, BitCount.digitSum_bits_succ]
      push_cast
      ring

/-- **The correlation of packed sequences**, by folding: a row of `2 ^ j` bits holds a period. -/
theorem correlation_signs {j x m : ℕ} (period : N = 2 ^ j - 1) (fits : x < 2 ^ N) (y : ℕ) :
    correlation N (signs x) (signs y) m =
      N - 2 * (BitCount.foldAll 1 j (x ^^^ (y >>> m) % 2 ^ N) : ℤ) := by
  have size : 2 ^ j = N + 1 := by
    have positive : 0 < 2 ^ j := Nat.two_pow_pos j
    omega
  have bound : x ^^^ (y >>> m) % 2 ^ N < 2 ^ N :=
    Nat.xor_lt_two_pow fits (Nat.mod_lt _ (Nat.two_pow_pos N))
  have wide : x ^^^ (y >>> m) % 2 ^ N < 2 ^ (1 * 2 ^ j) := by
    rw [one_mul, size, pow_succ]
    omega
  have beyond : (x ^^^ (y >>> m) % 2 ^ N).testBit N = false := Nat.testBit_lt_two_pow bound
  rw [BitCount.foldAll_eq Nat.one_pos j _ wide, size, BitCount.digitSum_bits_succ, beyond,
    Bool.toNat_false, Nat.zero_add, ← sum_signs]
  refine Finset.sum_congr rfl fun i inside => ?_
  have turned : signs ((y >>> m) % 2 ^ N) i = signs y (i + m) := by
    rw [signs_eq_iff, Nat.testBit_mod_two_pow, decide_eq_true (Finset.mem_range.mp inside),
      Bool.true_and, Nat.testBit_shiftRight, Nat.add_comm]
  rw [signs_xor, turned]

end Navisim.Gold

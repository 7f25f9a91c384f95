import Navisim.Lib.Division
import Navisim.Lib.Syndrome

/-!
# What a remainder detects

The places of the remainder are parity checks of the bits of the dividend, and these are linear.
A divisor with an even number of terms, whose register does not come back to one as long as the
message lasts, sees every odd number of wrong bits and every pair of them.  Every divisor sees
the wrong bits that fit into a remainder (`divide_ne_zero_of_detectable`).
-/

namespace Navisim.Division

open Syndrome

variable {w n m : Nat} {gen r s : BitVec (w + 1)}

/-- The places of the remainder, as checks of the dividend. -/
def remainder (gen : BitVec (w + 1)) (x : Fin n → Bool) (j : Fin (w + 1)) : Bool :=
  (divide gen (List.ofFn x)).getLsbD j

theorem divide_eq_zero_iff {x : Fin n → Bool} :
    divide gen (List.ofFn x) = 0#(w + 1) ↔ ∀ j, remainder gen x j = false := by
  constructor
  · intro zero j
    rw [remainder, zero, BitVec.getLsbD_zero]
  · intro clear
    apply BitVec.eq_of_getLsbD_eq
    intro i inside
    rw [BitVec.getLsbD_zero]
    exact clear ⟨i, inside⟩

/-! ## The checks are linear -/

theorem bit_xor (a b : Bool) : (bit (a ^^ b) : BitVec (w + 1)) = bit a ^^^ bit b := by
  apply BitVec.eq_of_getLsbD_eq
  intro i _
  rw [BitVec.getLsbD_xor, getLsbD_bit, getLsbD_bit, getLsbD_bit]
  cases decide (i = 0) <;> simp

theorem bringDown_xor (positive : 0 < w) (gen r s : BitVec (w + 1)) (a b : Bool) :
    bringDown gen (r ^^^ s) (a ^^ b) = bringDown gen r a ^^^ bringDown gen s b := by
  rw [bringDown_eq positive, bringDown_eq positive, bringDown_eq positive, shift_xor, bit_xor]
  ac_rfl

theorem foldl_bringDown_xor (positive : 0 < w) (gen r s : BitVec (w + 1)) (x y : Fin n → Bool) :
    (List.ofFn fun i => x i ^^ y i).foldl (bringDown gen) (r ^^^ s) =
      (List.ofFn x).foldl (bringDown gen) r ^^^ (List.ofFn y).foldl (bringDown gen) s := by
  induction n generalizing r s with
  | zero => simp
  | succ n ih =>
      rw [List.ofFn_succ, List.ofFn_succ, List.ofFn_succ, List.foldl_cons, List.foldl_cons,
        List.foldl_cons, bringDown_xor positive, ih]

theorem linear_remainder (positive : 0 < w) (gen : BitVec (w + 1)) :
    Linear (remainder gen : (Fin n → Bool) → Fin (w + 1) → Bool) := by
  constructor
  intro x y j
  have sum := foldl_bringDown_xor positive gen 0 0 x y
  rw [BitVec.xor_self] at sum
  rw [remainder, divide, sum, BitVec.getLsbD_xor]
  rfl

/-! ## Bits between zeros -/

/-- Zeros in front change nothing, and zeros behind move the remainder up. -/
theorem divide_between (gen : BitVec (w + 1)) {bits : List Bool} (fits : bits.length ≤ w)
    (before after : Nat) :
    divide gen (List.replicate before false ++ bits ++ List.replicate after false) =
      (shift gen)^[after] (BitVec.ofNat (w + 1) (number bits)) := by
  have idle : ∀ m, (shift gen)^[m] 0#(w + 1) = 0#(w + 1) := by
    intro m
    rw [iterate_shift_small gen (by simp), BitVec.zero_shiftLeft]
  rw [divide, List.foldl_append, List.foldl_append, foldl_bringDown_zeros gen _ after,
    foldl_bringDown_zeros gen _ before, idle, foldl_bringDown gen _ fits, idle, BitVec.zero_xor]

theorem number_pos {bits : List Bool} (some : true ∈ bits) : 0 < number bits := by
  induction bits using List.reverseRecOn with
  | nil => exact absurd some (List.not_mem_nil)
  | append_singleton bits b ih =>
      rw [number, List.foldl_append, ← number, List.foldl_cons, List.foldl_nil]
      rcases List.mem_append.mp some with front | last
      · have positive := ih front
        omega
      · obtain rfl := List.mem_singleton.mp last
        simp

/-- **A burst** that fits into a remainder leaves one. -/
theorem divide_ne_zero_of_burst (odd : gen.getLsbD 0 = true) (monic : gen.msb = true)
    {bits : List Bool} {first : Nat} (some : true ∈ bits)
    (burst : ∀ i, bits[i]? = .some true → first ≤ i ∧ i < first + w) :
    divide gen bits ≠ 0#(w + 1) := by
  have clear : ∀ part : List Bool, true ∉ part → part = List.replicate part.length false := by
    intro part none
    refine List.eq_replicate_iff.mpr ⟨rfl, fun b inside => ?_⟩
    cases b with
    | false => rfl
    | true => exact absurd inside none
  have front : true ∉ bits.take first := by
    intro inside
    obtain ⟨i, place⟩ := List.mem_iff_getElem?.mp inside
    rw [List.getElem?_take] at place
    split at place
    · rename_i before
      exact absurd (burst i place).1 (by omega)
    · cases place
  have back : true ∉ (bits.drop first).drop w := by
    intro inside
    obtain ⟨i, place⟩ := List.mem_iff_getElem?.mp inside
    rw [List.getElem?_drop, List.getElem?_drop] at place
    exact absurd (burst _ place).2 (by omega)
  have split : bits = bits.take first ++ (bits.drop first).take w ++ (bits.drop first).drop w := by
    rw [List.append_assoc, List.take_append_drop, List.take_append_drop]
  have middle : true ∈ (bits.drop first).take w := by
    rw [split] at some
    simpa only [List.mem_append, front, back, false_or, or_false] using some
  have fits : ((bits.drop first).take w).length ≤ w := List.length_take_le w _
  have bound : number ((bits.drop first).take w) < 2 ^ w :=
    (number_lt _).trans_le (Nat.pow_le_pow_right (by decide) fits)
  have value : (BitVec.ofNat (w + 1) (number ((bits.drop first).take w))).toNat =
      number ((bits.drop first).take w) := by
    rw [BitVec.toNat_ofNat, Nat.mod_eq_of_lt]
    exact bound.trans (Nat.pow_lt_pow_right (by decide) (by omega))
  have top : (BitVec.ofNat (w + 1) (number ((bits.drop first).take w))).msb = false := by
    rw [BitVec.msb_eq_decide, value, decide_eq_false_iff_not, not_le, Nat.add_sub_cancel]
    exact bound
  rw [split, clear _ front, clear _ back, divide_between gen fits, Ne,
    iterate_shift_eq_zero_iff odd monic top, ← BitVec.toNat_inj, value]
  exact (number_pos middle).ne'

/-! ## Single bits -/

/-- The powers of the variable are what single bits leave. -/
theorem divide_single (positive : 0 < w) (gen : BitVec (w + 1)) (i : Fin n) :
    divide gen (List.ofFn (single i)) = (shift gen)^[n - 1 - i] 1#(w + 1) := by
  have split : List.ofFn (single i) =
      List.replicate i false ++ [true] ++ List.replicate (n - 1 - i) false := by
    apply List.ext_getElem
    · simp only [List.length_ofFn, List.length_append, List.length_replicate, List.length_singleton]
      omega
    · intro j inside _
      rw [List.length_ofFn] at inside
      rw [List.getElem_ofFn, single]
      rcases Nat.lt_trichotomy j i with before | same | behind
      · have front : j < (List.replicate i.val false).length := by simpa using before
        rw [List.getElem_append_left (by simp; omega), List.getElem_append_left front,
          List.getElem_replicate, decide_eq_false_iff_not, Fin.ext_iff]
        exact before.ne
      · subst same
        simp
      · rw [List.getElem_append_right (by simpa using behind), List.getElem_replicate,
          decide_eq_false_iff_not, Fin.ext_iff]
        exact behind.ne'
  have fits : [true].length ≤ w := positive
  rw [split, divide_between gen fits]
  rfl

/-- The parity of the number of terms. -/
def weight (r : BitVec (w + 1)) : ZMod 2 :=
  ∑ j : Fin (w + 1), unit (r.getLsbD j)

theorem weight_xor (r s : BitVec (w + 1)) : weight (r ^^^ s) = weight r + weight s := by
  rw [weight, weight, weight, ← Finset.sum_add_distrib]
  refine Finset.sum_congr rfl fun j _ => ?_
  rw [BitVec.getLsbD_xor, unit_xor]

theorem weight_shiftLeft (top : r.msb = false) : weight (r <<< 1) = weight r := by
  rw [BitVec.msb_eq_getLsbD_last, Nat.add_sub_cancel] at top
  rw [weight, weight, Fin.sum_univ_succ, Fin.sum_univ_castSucc, Fin.val_last, top]
  have lowest : (r <<< 1).getLsbD (0 : Fin (w + 1)) = false := by simp
  rw [lowest, unit_eq_zero.mpr rfl, zero_add, add_zero]
  refine Finset.sum_congr rfl fun j _ => ?_
  have inside := j.isLt
  rw [BitVec.getLsbD_shiftLeft, Fin.val_succ, Fin.val_castSucc]
  simp [inside]

theorem weight_one : weight 1#(w + 1) = 1 := by
  have lowest : 1#(w + 1) = bit true := by
    apply BitVec.eq_of_toNat_eq
    simp [bit]
  rw [lowest, weight, Fin.sum_univ_succ, getLsbD_bit, Finset.sum_eq_zero]
  · rfl
  · intro j _
    rw [getLsbD_bit]
    rfl

/-- A divisor with an even number of terms keeps the parity of the remainder. -/
theorem weight_iterate_shift (even : weight gen = 0) (monic : gen.msb = true) (m : Nat)
    (top : r.msb = false) : weight ((shift gen)^[m] r) = weight r := by
  induction m generalizing r with
  | zero => rfl
  | succ m ih =>
      rw [Function.iterate_succ_apply, ih (msb_shift monic r), shift_eq, weight_xor,
        weight_shiftLeft top]
      split
      · rw [even, add_zero]
      · simp [weight]

/-- The register comes back to one within some steps. -/
def returns (gen : BitVec (w + 1)) : Nat → BitVec (w + 1) → Bool
  | 0, _ => false
  | m + 1, r => shift gen r == 1#(w + 1) || returns gen m (shift gen r)

theorem ne_one_of_not_returns {k : Nat} (never : returns gen m r = false) (positive : 0 < k)
    (within : k ≤ m) : (shift gen)^[k] r ≠ 1#(w + 1) := by
  induction m generalizing r k with
  | zero => omega
  | succ m ih =>
      rw [returns, Bool.or_eq_false_iff, beq_eq_false_iff_ne] at never
      rcases k with _ | _ | k
      · omega
      · exact never.1
      · rw [Function.iterate_succ_apply]
        exact ih never.2 (by omega) (by omega)

theorem msb_one (positive : 0 < w) : (1#(w + 1)).msb = false := by
  have one : (1#(w + 1)).toNat = 1 := by simp
  rw [BitVec.msb_eq_decide, one, decide_eq_false_iff_not, not_le, Nat.add_sub_cancel]
  exact Nat.one_lt_two_pow positive.ne'

/-- Different powers of the variable leave different remainders. -/
theorem iterate_shift_injective (positive : 0 < w) (odd : gen.getLsbD 0 = true)
    (monic : gen.msb = true) (never : returns gen m 1#(w + 1) = false) {a b : Nat}
    (below : a < b) (within : b ≤ m) :
    (shift gen)^[a] 1#(w + 1) ≠ (shift gen)^[b] 1#(w + 1) := by
  intro same
  have apart : (shift gen)^[b] 1#(w + 1) = (shift gen)^[a] ((shift gen)^[b - a] 1#(w + 1)) := by
    rw [← Function.iterate_add_apply, Nat.add_sub_cancel' below.le]
  have moved : ((shift gen)^[b - a] 1#(w + 1)).msb = false := by
    obtain ⟨m, step⟩ : ∃ m, b - a = m + 1 := ⟨b - a - 1, by omega⟩
    rw [step, Function.iterate_succ_apply']
    exact msb_shift monic _
  have top : (1#(w + 1) ^^^ (shift gen)^[b - a] 1#(w + 1)).msb = false := by
    rw [BitVec.msb_xor, msb_one positive, moved]
    rfl
  rw [apart, ← xor_eq_zero_iff, ← iterate_shift_xor, iterate_shift_eq_zero_iff odd monic top,
    xor_eq_zero_iff] at same
  exact ne_one_of_not_returns never (by omega) (by omega) same.symm

/-- The checks tell the single bits apart. -/
theorem separates_remainder (positive : 0 < w) (odd : gen.getLsbD 0 = true)
    (monic : gen.msb = true) (even : weight gen = 0) (never : returns gen m 1#(w + 1) = false)
    (short : n ≤ m) :
    Separates (remainder gen : (Fin n → Bool) → Fin (w + 1) → Bool) where
  odd i := by
    calc ∑ j, unit (remainder gen (single i) j)
        = weight (divide gen (List.ofFn (single i))) := rfl
      _ = 1 := by
        rw [divide_single positive, weight_iterate_shift even monic _ (msb_one positive),
          weight_one]
  distinct i k same := by
    have equal : divide gen (List.ofFn (single i)) = divide gen (List.ofFn (single k)) := by
      apply BitVec.eq_of_getLsbD_eq
      intro j inside
      exact congrFun same ⟨j, inside⟩
    rw [divide_single positive, divide_single positive] at equal
    have left := i.isLt
    have right := k.isLt
    rcases Nat.lt_trichotomy i k with before | here | behind
    · exact absurd equal.symm
        (iterate_shift_injective positive odd monic never (by omega) (by omega))
    · exact Fin.ext here
    · exact absurd equal
        (iterate_shift_injective positive odd monic never (by omega) (by omega))

/-! ## Wrong bits -/

/-- Wrong bits that a remainder of `w` places shows: an odd number of them, two, or some within
`w` places. -/
def Detectable (w : Nat) (places : Finset (Fin n)) : Prop :=
  Odd places.card ∨ places.card = 2 ∨
    places.Nonempty ∧ ∃ first, ∀ i ∈ places, first ≤ i.val ∧ i.val < first + w

/-- **Detectable errors leave a remainder** where the divisor goes into the message. -/
theorem divide_ne_zero_of_detectable (positive : 0 < w) (odd : gen.getLsbD 0 = true)
    (monic : gen.msb = true) (even : weight gen = 0) (never : returns gen m 1#(w + 1) = false)
    (short : n ≤ m) {x y : Fin n → Bool} (passes : divide gen (List.ofFn x) = 0#(w + 1))
    (errors : Detectable w (wrong x y)) : divide gen (List.ofFn y) ≠ 0#(w + 1) := by
  have linear := linear_remainder (n := n) positive gen
  have separates := separates_remainder positive odd monic even never short
  rw [divide_eq_zero_iff] at passes
  intro unseen
  rw [divide_eq_zero_iff] at unseen
  have silent : ¬ ∃ j, remainder gen y j = true := by
    rintro ⟨j, seen⟩
    rw [unseen j] at seen
    cases seen
  rcases errors with single | two | ⟨some, first, burst⟩
  · exact silent (linear.detects_odd separates passes single)
  · have nonempty : (wrong x y).Nonempty := Finset.card_pos.mp (by omega)
    exact silent (linear.detects_few separates passes nonempty (by omega))
  · -- the difference of the two messages is the burst
    have difference : divide gen (List.ofFn fun i => x i ^^ y i) = 0#(w + 1) := by
      rw [divide_eq_zero_iff]
      intro j
      rw [linear.xor, passes, unseen]
      rfl
    have some' : true ∈ List.ofFn fun i => x i ^^ y i := by
      obtain ⟨i, inside⟩ := some
      refine List.mem_ofFn.mpr ⟨i, ?_⟩
      rw [mem_wrong] at inside
      simpa using inside
    have burst' : ∀ i, (List.ofFn fun i => x i ^^ y i)[i]? = .some true →
        first ≤ i ∧ i < first + w := by
      intro i place
      obtain ⟨inside, set⟩ := List.getElem?_eq_some_iff.mp place
      rw [List.length_ofFn] at inside
      rw [List.getElem_ofFn] at set
      exact burst ⟨i, inside⟩ (mem_wrong.mpr (by simpa using set))
    exact divide_ne_zero_of_burst odd monic some' burst' difference

end Navisim.Division

import Mathlib.Algebra.CharP.Two
import Mathlib.Algebra.Field.ZMod
import Mathlib.Algebra.Polynomial.Div
import Mathlib.Tactic

/-!
# Bit-serial polynomial division

The division of polynomials over the field of two elements, bit by bit in a register as long as
the divisor (`divide`, `poly_divide`), and the checksum of a message, which is the remainder of the
message with as many zeros behind it as the divisor has places (`crc`).  The register is linear in
what goes into it.  So a checksum can be computed several bits at a time from a table
(`crc_append`), and a message followed by its own checksum has the checksum zero
(`crc_append_eq_zero_iff`).
-/

namespace Navisim.Division

variable {w : Nat}

/-- A bit in the lowest place. -/
def bit (b : Bool) : BitVec (w + 1) :=
  (BitVec.ofBool b).setWidth (w + 1)

/-- The next bit of the dividend is brought down, and the divisor is subtracted if it goes in. -/
def bringDown (gen r : BitVec (w + 1)) (b : Bool) : BitVec (w + 1) :=
  let r := r <<< 1 ||| bit b
  if r.msb then r ^^^ gen else r

/-- The remainder of a dividend, the highest bit first. -/
def divide (gen : BitVec (w + 1)) (bits : List Bool) : BitVec (w + 1) :=
  bits.foldl (bringDown gen) 0#(w + 1)

/-- The checksum of a message. -/
def crc (gen : BitVec (w + 1)) (bits : List Bool) : BitVec (w + 1) :=
  divide gen (bits ++ List.replicate w false)

/-- The remainder moves up one place. -/
def shift (gen r : BitVec (w + 1)) : BitVec (w + 1) :=
  bringDown gen r false

/-- The number that some bits make. -/
def number (bits : List Bool) : Nat :=
  bits.foldl (fun n b => 2 * n + b.toNat) 0

section Linear

variable {gen r s : BitVec (w + 1)} {bits more : List Bool} {n : Nat}

theorem getLsbD_bit (b : Bool) (i : Nat) :
    (bit b : BitVec (w + 1)).getLsbD i = (decide (i = 0) && b) := by
  rw [bit, BitVec.getLsbD_setWidth, BitVec.getLsbD_ofBool]
  by_cases zero : i = 0
  · simp [zero]
  · simp [zero]

@[simp] theorem bit_false : (bit false : BitVec (w + 1)) = 0#(w + 1) := by
  simp [bit]

theorem shift_eq (gen r : BitVec (w + 1)) :
    shift gen r = r <<< 1 ^^^ (if (r <<< 1).msb then gen else 0#(w + 1)) := by
  rw [shift, bringDown, bit_false, BitVec.or_zero]
  split
  · rfl
  · rw [BitVec.xor_zero]

theorem or_bit (r : BitVec (w + 1)) (b : Bool) : r <<< 1 ||| bit b = r <<< 1 ^^^ bit b := by
  apply BitVec.eq_of_getLsbD_eq
  intro i _
  rw [BitVec.getLsbD_or, BitVec.getLsbD_xor, getLsbD_bit]
  by_cases zero : i = 0
  · simp [zero]
  · simp [zero]

/-- Bringing down a bit adds it to the remainder that has moved up. -/
theorem bringDown_eq (positive : 0 < w) (gen r : BitVec (w + 1)) (b : Bool) :
    bringDown gen r b = shift gen r ^^^ bit b := by
  have top : (r <<< 1 ^^^ bit b).msb = (r <<< 1).msb := by
    rw [BitVec.msb_xor, BitVec.msb_eq_getLsbD_last (bit b), getLsbD_bit]
    simp [positive.ne']
  rw [shift_eq, bringDown, or_bit, top]
  split
  · rw [BitVec.xor_assoc, BitVec.xor_assoc, BitVec.xor_comm (bit b)]
  · rw [BitVec.xor_zero]

/-- **Moving up is linear.** -/
theorem shift_xor (gen r s : BitVec (w + 1)) :
    shift gen (r ^^^ s) = shift gen r ^^^ shift gen s := by
  rw [shift_eq, shift_eq, shift_eq, BitVec.shiftLeft_xor_distrib, BitVec.msb_xor]
  have apart : ∀ a b c d : BitVec (w + 1), a ^^^ b ^^^ (c ^^^ d) = a ^^^ c ^^^ (b ^^^ d) := by
    intro a b c d
    rw [BitVec.xor_assoc, ← BitVec.xor_assoc b, BitVec.xor_comm b, BitVec.xor_assoc,
      ← BitVec.xor_assoc]
  rw [apart]
  congr 1
  cases (r <<< 1).msb <;> cases (s <<< 1).msb <;> simp

theorem iterate_shift_xor (gen : BitVec (w + 1)) (n : Nat) (r s : BitVec (w + 1)) :
    (shift gen)^[n] (r ^^^ s) = (shift gen)^[n] r ^^^ (shift gen)^[n] s := by
  induction n generalizing r s with
  | zero => rfl
  | succ n ih => rw [Function.iterate_succ_apply, shift_xor, ih]; rfl

/-- As long as there is room, the divisor does not go in. -/
theorem iterate_shift_small (gen : BitVec (w + 1)) {r : BitVec (w + 1)}
    (room : r.toNat * 2 ^ n < 2 ^ w) :
    (shift gen)^[n] r = r <<< n := by
  induction n with
  | zero => simp
  | succ n ih =>
      have room' : r.toNat * 2 ^ n * 2 < 2 ^ w := by
        rw [pow_succ] at room
        rwa [mul_assoc]
      have value : (r <<< (n + 1)).toNat = r.toNat * 2 ^ (n + 1) := by
        rw [BitVec.toNat_shiftLeft, Nat.shiftLeft_eq, Nat.mod_eq_of_lt]
        exact room.trans (Nat.pow_lt_pow_right (by decide) (by omega))
      have top : (r <<< (n + 1)).msb = false := by
        rw [BitVec.msb_eq_decide, value, decide_eq_false_iff_not, not_le]
        simpa using room
      rw [Function.iterate_succ_apply', ih (by omega), shift_eq, ← BitVec.shiftLeft_add, top]
      exact BitVec.xor_zero

theorem number_lt (bits : List Bool) : number bits < 2 ^ bits.length := by
  induction bits using List.reverseRecOn with
  | nil => decide
  | append_singleton bits b ih =>
      have low := b.toNat_lt
      rw [number, List.foldl_append, List.length_append, List.length_singleton, pow_succ]
      rw [number] at ih
      simp only [List.foldl_cons, List.foldl_nil]
      omega

/-- Bits that fit in go into the remainder as the number they make. -/
theorem foldl_bringDown (gen r : BitVec (w + 1)) (fits : bits.length ≤ w) :
    bits.foldl (bringDown gen) r =
      (shift gen)^[bits.length] r ^^^ BitVec.ofNat (w + 1) (number bits) := by
  induction bits using List.reverseRecOn with
  | nil => simp [number]
  | append_singleton bits b ih =>
      rw [List.length_append, List.length_singleton] at fits
      have bound := number_lt bits
      have power : 2 ^ bits.length * 2 ≤ 2 ^ w := by
        rw [← pow_succ]
        exact Nat.pow_le_pow_right (by decide) fits
      have value : (BitVec.ofNat (w + 1) (number bits)).toNat = number bits := by
        rw [BitVec.toNat_ofNat, Nat.mod_eq_of_lt]
        rw [pow_succ]
        omega
      have moved : shift gen (BitVec.ofNat (w + 1) (number bits)) =
          BitVec.ofNat (w + 1) (number bits) <<< 1 :=
        iterate_shift_small (n := 1) gen (by rw [value]; omega)
      have next : BitVec.ofNat (w + 1) (number bits) <<< 1 ^^^ bit b =
          BitVec.ofNat (w + 1) (number (bits ++ [b])) := by
        have sum : number (bits ++ [b]) = 2 * number bits + b.toNat := by
          simp [number]
        apply BitVec.eq_of_getLsbD_eq
        intro i inside
        rw [BitVec.getLsbD_xor, getLsbD_bit, BitVec.getLsbD_shiftLeft, BitVec.getLsbD_ofNat,
          BitVec.getLsbD_ofNat, sum]
        rcases i with _ | i
        · cases b <;> simp [Nat.testBit_zero]
        · have half : (2 * number bits + b.toNat).testBit (i + 1) = (number bits).testBit i := by
            rw [Nat.testBit_add_one]
            have low := b.toNat_lt
            congr 1
            omega
          rw [half]
          have inside' : i < w + 1 := by omega
          simp [inside, inside']
      rw [List.foldl_append, List.foldl_cons, List.foldl_nil, ih (by omega),
        bringDown_eq (by omega), shift_xor, BitVec.xor_assoc, moved, next, List.length_append,
        List.length_singleton, Function.iterate_succ_apply']

theorem foldl_bringDown_zeros (gen r : BitVec (w + 1)) (n : Nat) :
    (List.replicate n false).foldl (bringDown gen) r = (shift gen)^[n] r := by
  induction n generalizing r with
  | zero => rfl
  | succ n ih => rw [List.replicate_succ, List.foldl_cons, ih]; rfl

/-- The checksum is the remainder, moved up by the length of the divisor. -/
theorem crc_eq (gen : BitVec (w + 1)) (bits : List Bool) :
    crc gen bits = (shift gen)^[w] (divide gen bits) := by
  rw [crc, divide, List.foldl_append, foldl_bringDown_zeros]
  rfl

/-- **More of the message**, as much as fits in. -/
theorem crc_append (gen : BitVec (w + 1)) (bits : List Bool) (fits : more.length ≤ w) :
    crc gen (bits ++ more) = (shift gen)^[more.length] (crc gen bits) ^^^
      (shift gen)^[w] (BitVec.ofNat (w + 1) (number more)) := by
  rw [crc_eq, divide, List.foldl_append, foldl_bringDown gen _ fits, iterate_shift_xor, crc_eq,
    ← Function.iterate_add_apply, ← Function.iterate_add_apply, Nat.add_comm w more.length]
  rfl

/-! ## Remainders are shorter than the divisor -/

theorem msb_bringDown (monic : gen.msb = true) (r : BitVec (w + 1)) (b : Bool) :
    (bringDown gen r b).msb = false := by
  rw [bringDown]
  split
  · rename_i top
    rw [BitVec.msb_xor, top, monic]
    rfl
  · rename_i top
    simpa using top

theorem msb_shift (monic : gen.msb = true) (r : BitVec (w + 1)) : (shift gen r).msb = false :=
  msb_bringDown monic r false

theorem msb_divide (monic : gen.msb = true) (bits : List Bool) :
    (divide gen bits).msb = false := by
  induction bits using List.reverseRecOn with
  | nil => simp [divide]
  | append_singleton bits b _ =>
      rw [divide, List.foldl_append, List.foldl_cons, List.foldl_nil]
      exact msb_bringDown monic _ b

theorem toNat_crc_lt (monic : gen.msb = true) (bits : List Bool) :
    (crc gen bits).toNat < 2 ^ w := by
  have top := msb_divide monic (bits ++ List.replicate w false)
  rw [BitVec.msb_eq_decide, decide_eq_false_iff_not, not_le, Nat.add_sub_cancel] at top
  exact top

/-- **By a table**: the highest places of a remainder go through the divisor, the others only move
up. -/
theorem iterate_shift_split (gen r : BitVec (w + 1)) (short : r.toNat < 2 ^ w) (fits : n ≤ w) :
    (shift gen)^[n] r = (shift gen)^[w] (r >>> (w - n)) ^^^
      (r &&& BitVec.ofNat (w + 1) (2 ^ (w - n) - 1)) <<< n := by
  have power : 2 ^ w = 2 ^ (w - n) * 2 ^ n := by
    rw [← pow_add, Nat.sub_add_cancel fits]
  have wide : 2 ^ (w - n) < 2 ^ (w + 1) := Nat.pow_lt_pow_right (by decide) (by omega)
  have split : r = (r >>> (w - n)) <<< (w - n) ^^^
      (r &&& BitVec.ofNat (w + 1) (2 ^ (w - n) - 1)) := by
    apply BitVec.eq_of_getLsbD_eq
    intro i inside
    rw [BitVec.getLsbD_xor, BitVec.getLsbD_and, BitVec.getLsbD_shiftLeft,
      BitVec.getLsbD_ushiftRight, BitVec.getLsbD_ofNat, Nat.testBit_two_pow_sub_one]
    by_cases low : i < w - n
    · simp [inside, low]
    · have place : w - n + (i - (w - n)) = i := by omega
      simp [inside, low, place]
  have high : (r >>> (w - n)).toNat * 2 ^ (w - n) < 2 ^ w := by
    rw [BitVec.toNat_ushiftRight, Nat.shiftRight_eq_div_pow]
    exact (Nat.div_mul_le_self ..).trans_lt short
  have low : (r &&& BitVec.ofNat (w + 1) (2 ^ (w - n) - 1)).toNat * 2 ^ n < 2 ^ w := by
    have mask : (BitVec.ofNat (w + 1) (2 ^ (w - n) - 1)).toNat = 2 ^ (w - n) - 1 := by
      rw [BitVec.toNat_ofNat, Nat.mod_eq_of_lt (by omega)]
    have bound : (r &&& BitVec.ofNat (w + 1) (2 ^ (w - n) - 1)).toNat < 2 ^ (w - n) := by
      rw [BitVec.toNat_and, mask, Nat.and_two_pow_sub_one_eq_mod]
      exact Nat.mod_lt _ (Nat.two_pow_pos _)
    rw [power]
    exact Nat.mul_lt_mul_of_pos_right bound (Nat.two_pow_pos n)
  conv_lhs => rw [split]
  rw [iterate_shift_xor, iterate_shift_small gen low, ← iterate_shift_small gen high,
    ← Function.iterate_add_apply, Nat.add_sub_cancel' fits]

/-! ## Messages with their checksum -/

/-- The divisor does not divide a power of the variable: only zero moves up to zero. -/
theorem shift_eq_zero_iff (odd : gen.getLsbD 0 = true) (top : r.msb = false) :
    shift gen r = 0#(w + 1) ↔ r = 0#(w + 1) := by
  constructor
  · intro zero
    have lowest := congrArg (fun x => x.getLsbD 0) zero
    simp only [shift_eq, BitVec.getLsbD_xor, BitVec.getLsbD_shiftLeft, BitVec.getLsbD_zero]
      at lowest
    by_cases goes : (r <<< 1).msb = true
    · rw [if_pos goes, odd] at lowest
      simp at lowest
    · rw [shift_eq, if_neg goes, BitVec.xor_zero] at zero
      apply BitVec.eq_of_getLsbD_eq
      intro i inside
      rcases Nat.lt_succ_iff_lt_or_eq.mp inside with below | rfl
      · have bit := congrArg (fun x => x.getLsbD (i + 1)) zero
        rw [BitVec.getLsbD_shiftLeft] at bit
        simpa only [show i + 1 < w + 1 by omega, decide_true, Bool.true_and, Nat.add_sub_cancel,
          show ¬ i + 1 < 1 by omega, decide_false, Bool.not_false, BitVec.getLsbD_zero] using bit
      · rw [BitVec.msb_eq_getLsbD_last, Nat.add_sub_cancel] at top
        rw [top, BitVec.getLsbD_zero]
  · intro same
    subst same
    rw [shift_eq]
    simp

theorem iterate_shift_eq_zero_iff (odd : gen.getLsbD 0 = true) (monic : gen.msb = true)
    (top : r.msb = false) : (shift gen)^[n] r = 0#(w + 1) ↔ r = 0#(w + 1) := by
  induction n generalizing r with
  | zero => rfl
  | succ n ih =>
      rw [Function.iterate_succ_apply, ih (msb_shift monic r), shift_eq_zero_iff odd top]

theorem xor_eq_zero_iff {x y : BitVec w} : x ^^^ y = 0#w ↔ x = y := by
  constructor
  · intro zero
    calc x = x ^^^ (y ^^^ y) := by rw [BitVec.xor_self, BitVec.xor_zero]
      _ = y := by rw [← BitVec.xor_assoc, zero, BitVec.zero_xor]
  · intro same
    subst same
    exact BitVec.xor_self

/-- **A message followed by its own checksum**, and by no other number of this length, has the
checksum zero. -/
theorem crc_append_eq_zero_iff (odd : gen.getLsbD 0 = true) (monic : gen.msb = true)
    (bits : List Bool) (length : more.length = w) :
    crc gen (bits ++ more) = 0#(w + 1) ↔ (crc gen bits).toNat = number more := by
  have bound := number_lt more
  have value : (BitVec.ofNat (w + 1) (number more)).toNat = number more := by
    rw [BitVec.toNat_ofNat, Nat.mod_eq_of_lt]
    rw [length] at bound
    exact bound.trans (Nat.pow_lt_pow_right (by decide) (by omega))
  have top : (crc gen bits ^^^ BitVec.ofNat (w + 1) (number more)).msb = false := by
    have first := msb_divide monic (bits ++ List.replicate w false)
    have second : (BitVec.ofNat (w + 1) (number more)).msb = false := by
      rw [BitVec.msb_eq_decide, value, decide_eq_false_iff_not, not_le, Nat.add_sub_cancel,
        ← length]
      exact bound
    rw [BitVec.msb_xor, second, crc, first]
    rfl
  rw [crc_append gen bits length.le, length, ← iterate_shift_xor,
    iterate_shift_eq_zero_iff odd monic top, xor_eq_zero_iff, ← BitVec.toNat_inj, value]

end Linear

/-! ## Polynomials over the field of two elements -/

section Polynomials

open Polynomial

/-- The polynomial whose coefficients are the bits of a register. -/
noncomputable def poly {n : Nat} (r : BitVec n) : (ZMod 2)[X] :=
  ∑ i ∈ Finset.range n, if r.getLsbD i then X ^ i else 0

/-- The polynomial of some bits, the highest coefficient first. -/
noncomputable def dividend (bits : List Bool) : (ZMod 2)[X] :=
  bits.foldl (fun p b => p * X + if b then 1 else 0) 0

variable {n : Nat} {gen r s : BitVec (w + 1)}

theorem coeff_poly (r : BitVec n) (i : Nat) :
    (poly r).coeff i = if r.getLsbD i then 1 else 0 := by
  have term : ∀ j, (if r.getLsbD j then (X : (ZMod 2)[X]) ^ j else 0).coeff i =
      if i = j then if r.getLsbD j then 1 else 0 else 0 := by
    intro j
    cases r.getLsbD j
    · simp
    · simp [coeff_X_pow]
  rw [poly, finsetSum_coeff, Finset.sum_congr rfl fun j _ => term j, Finset.sum_ite_eq]
  by_cases inside : i < n
  · rw [if_pos (Finset.mem_range.mpr inside)]
  · rw [if_neg (mt Finset.mem_range.mp inside), BitVec.getLsbD_of_ge r i (by omega)]
    rfl

theorem poly_xor (r s : BitVec n) : poly (r ^^^ s) = poly r + poly s := by
  ext i
  rw [coeff_add, coeff_poly, coeff_poly, coeff_poly, BitVec.getLsbD_xor]
  cases r.getLsbD i <;> cases s.getLsbD i <;> decide

theorem poly_bit (b : Bool) : poly (bit b : BitVec (w + 1)) = if b then 1 else 0 := by
  ext i
  rw [coeff_poly, getLsbD_bit]
  cases b
  · simp
  · simp [coeff_one]

/-- Moving up is multiplication by the variable. -/
theorem poly_shiftLeft (top : r.msb = false) : poly (r <<< 1) = poly r * X := by
  ext i
  rcases i with _ | i
  · rw [coeff_poly, BitVec.getLsbD_shiftLeft]
    simp
  · rw [coeff_mul_X, coeff_poly, coeff_poly, BitVec.getLsbD_shiftLeft]
    rw [BitVec.msb_eq_getLsbD_last, Nat.add_sub_cancel] at top
    rcases Nat.lt_trichotomy i w with below | rfl | above
    · simp [below]
    · rw [top]
      simp
    · rw [BitVec.getLsbD_of_ge r i (by omega)]
      simp [show ¬ i < w by omega]

/-- One step of the division. -/
theorem poly_bringDown (top : r.msb = false) (b : Bool) :
    ∃ q : (ZMod 2)[X], poly r * X + (if b then 1 else 0) =
      poly gen * q + poly (bringDown gen r b) := by
  have down : poly (r <<< 1 ||| bit b) = poly r * X + if b then 1 else 0 := by
    rw [or_bit, poly_xor, poly_shiftLeft top, poly_bit]
  rw [bringDown, ← down]
  split
  · refine ⟨1, ?_⟩
    rw [poly_xor, mul_one, add_left_comm, CharTwo.add_self_eq_zero, add_zero]
  · exact ⟨0, by rw [mul_zero, zero_add]⟩

theorem exists_quotient (monic : gen.msb = true) (bits : List Bool) :
    ∃ q, dividend bits = poly gen * q + poly (divide gen bits) := by
  induction bits using List.reverseRecOn with
  | nil =>
      refine ⟨0, ?_⟩
      ext i
      simp [dividend, divide, coeff_poly]
  | append_singleton bits b ih =>
      obtain ⟨q, quotient⟩ := ih
      obtain ⟨q', step⟩ : ∃ q', poly (divide gen bits) * X + (if b then 1 else 0) =
          poly gen * q' + poly (bringDown gen (divide gen bits) b) :=
        poly_bringDown (msb_divide monic bits) b
      refine ⟨q * X + q', ?_⟩
      have next : divide gen (bits ++ [b]) = bringDown gen (divide gen bits) b := by
        rw [divide, List.foldl_append]
        rfl
      have brought : dividend (bits ++ [b]) = dividend bits * X + if b then 1 else 0 := by
        rw [dividend, List.foldl_append]
        rfl
      rw [next, brought, quotient, add_mul, add_assoc, step]
      ring

theorem poly_monic (monic : gen.msb = true) : (poly gen).Monic ∧ (poly gen).degree = w := by
  rw [BitVec.msb_eq_getLsbD_last, Nat.add_sub_cancel] at monic
  have top : (poly gen).coeff w = 1 := by rw [coeff_poly, monic]; rfl
  have bound : (poly gen).natDegree ≤ w := by
    rw [natDegree_le_iff_coeff_eq_zero]
    intro i above
    rw [coeff_poly, BitVec.getLsbD_of_ge gen i (by omega)]
    rfl
  refine ⟨monic_of_natDegree_le_of_coeff_eq_one w bound top, ?_⟩
  refine le_antisymm (natDegree_le_iff_degree_le.mp bound) (le_degree_of_ne_zero ?_)
  rw [top]
  exact one_ne_zero

/-- **The register holds the remainder** of the polynomials. -/
theorem poly_divide (monic : gen.msb = true) (bits : List Bool) :
    poly (divide gen bits) = dividend bits %ₘ poly gen := by
  obtain ⟨q, quotient⟩ := exists_quotient monic bits
  obtain ⟨leading, degree⟩ := poly_monic monic
  have short : (poly (divide gen bits)).degree < (poly gen).degree := by
    rw [degree, degree_lt_iff_coeff_zero]
    intro i above
    have top := msb_divide monic bits
    rw [BitVec.msb_eq_getLsbD_last, Nat.add_sub_cancel] at top
    rw [coeff_poly]
    rcases above.lt_or_eq with beyond | rfl
    · rw [BitVec.getLsbD_of_ge _ i (by omega)]
      rfl
    · rw [top]
      rfl
  rw [(div_modByMonic_unique q _ leading ⟨by rw [quotient, add_comm], short⟩).2]

/-- Zeros behind a message multiply it by a power of the variable. -/
theorem dividend_zeros (bits : List Bool) (n : Nat) :
    dividend (bits ++ List.replicate n false) = dividend bits * X ^ n := by
  induction n with
  | zero => simp
  | succ n ih =>
      rw [List.replicate_succ', ← List.append_assoc, dividend, List.foldl_append, ← dividend, ih,
        pow_succ]
      simp [mul_assoc]

/-- **The checksum** is the remainder of the message times a power of the variable. -/
theorem poly_crc (monic : gen.msb = true) (bits : List Bool) :
    poly (crc gen bits) = (dividend bits * X ^ w) %ₘ poly gen := by
  rw [crc, poly_divide monic, dividend_zeros]

end Polynomials

end Navisim.Division

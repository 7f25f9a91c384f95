import Navisim.Rinex.Read
import Navisim.Rtcm.Rebroadcast

/-!
# The broadcast fields through a RINEX file

A RINEX file has the numbers of an ephemeris in decimals, so that a field comes back as a `double`
near a multiple of its unit.  `eph2sbf` divides by the constants of the unit, where every division
is rounded, and cuts the quotient off towards zero.  It encodes the multiple exactly if the value
is not nearer to zero than the multiple, up to half a last place of the quotient (`encodes_iff`).
-/

namespace Navisim.Rinex

open Binary64 BitField Nav Rtcm

/-! ## The fields -/

/-- A field that `eph2sbf` scales: its width, whether it is in two's complement, the power of two of
its unit and the constant of `gpssim.h` for it, whether it is an angle, the value it is scaled
from, and the parts of the subframes that carry it. -/
structure ScaledField where
  len : Nat
  signed : Bool
  power : Nat
  unit : Binary64
  angle : Bool
  value : Ephem Binary64 → Binary64
  parts : List Part

/-- The raw integers of a field. -/
def ScaledField.InRange (f : ScaledField) (k : Int) : Prop :=
  if f.signed then Signed f.len k else Unsigned f.len k

instance (f : ScaledField) (k : Int) : Decidable (f.InRange k) :=
  inferInstanceAs (Decidable (if f.signed then Signed f.len k else Unsigned f.len k))

/-- The raw integer that subframes carry in a field. -/
def ScaledField.read (f : ScaledField) (sbf : Subframes) : Int :=
  if f.signed then signExtend f.len (partsValue sbf f.parts) else partsValue sbf f.parts

/-- What a unit stands for: a power of two, times `PI` for an angle. -/
def ScaledField.lsb (f : ScaledField) : ℚ :=
  1 / 2 ^ f.power * if f.angle then pi else 1

/-- The quotient that is cut off. -/
def ScaledField.quotient (f : ScaledField) (x : ℚ) : ℚ :=
  if f.angle then rounded (rounded (x / f.unit.val) / (pi : Binary64).val)
  else rounded (x / f.unit.val)

/-- The least value for `c` units: the product of `c` and the constants, with half a last place
taken off in front of each multiplication. -/
def ScaledField.least (f : ScaledField) (c : ℚ) : ℚ :=
  if f.angle then reach (reach c * (pi : Binary64).val) * f.unit.val else reach c * f.unit.val

/-- The fields with a power of two as their unit, times `PI` for the angles. -/
def scaledFields : List ScaledField :=
  [⟨16, true, 43, pow2M43, true, Ephem.deltan, [⟨1, 3, 14, 16⟩]⟩,
   ⟨16, true, 29, pow2M29, false, Ephem.cuc, [⟨1, 5, 14, 16⟩]⟩,
   ⟨16, true, 29, pow2M29, false, Ephem.cus, [⟨1, 7, 14, 16⟩]⟩,
   ⟨16, true, 29, pow2M29, false, Ephem.cic, [⟨2, 2, 14, 16⟩]⟩,
   ⟨16, true, 29, pow2M29, false, Ephem.cis, [⟨2, 4, 14, 16⟩]⟩,
   ⟨16, true, 5, pow2M5, false, Ephem.crc, [⟨2, 6, 14, 16⟩]⟩,
   ⟨16, true, 5, pow2M5, false, Ephem.crs, [⟨1, 2, 6, 16⟩]⟩,
   ⟨32, false, 33, pow2M33, false, Ephem.ecc, [⟨1, 5, 6, 8⟩, ⟨1, 6, 6, 24⟩]⟩,
   ⟨32, false, 19, pow2M19, false, Ephem.sqrta, [⟨1, 7, 6, 8⟩, ⟨1, 8, 6, 24⟩]⟩,
   ⟨32, true, 31, pow2M31, true, Ephem.m0, [⟨1, 3, 6, 8⟩, ⟨1, 4, 6, 24⟩]⟩,
   ⟨32, true, 31, pow2M31, true, Ephem.omg0, [⟨2, 2, 6, 8⟩, ⟨2, 3, 6, 24⟩]⟩,
   ⟨32, true, 31, pow2M31, true, Ephem.inc0, [⟨2, 4, 6, 8⟩, ⟨2, 5, 6, 24⟩]⟩,
   ⟨32, true, 31, pow2M31, true, Ephem.aop, [⟨2, 6, 6, 8⟩, ⟨2, 7, 6, 24⟩]⟩,
   ⟨24, true, 43, pow2M43, true, Ephem.omgdot, [⟨2, 8, 6, 24⟩]⟩,
   ⟨14, true, 43, pow2M43, true, Ephem.idot, [⟨2, 9, 8, 14⟩]⟩,
   ⟨22, true, 31, pow2M31, false, Ephem.af0, [⟨0, 9, 8, 22⟩]⟩,
   ⟨16, true, 43, pow2M43, false, Ephem.af1, [⟨0, 8, 6, 16⟩]⟩,
   ⟨8, true, 55, pow2M55, false, Ephem.af2, [⟨0, 8, 22, 8⟩]⟩,
   ⟨8, true, 31, pow2M31, false, Ephem.tgd, [⟨0, 6, 6, 8⟩]⟩]

/-- `PI` is a double near its literal. -/
theorem pi_double : 3 ≤ (pi : Binary64).val ∧
    (pi : ℚ) * (1 - 1 / 2 ^ 52) ≤ (pi : Binary64).val := by
  decide +kernel

/-- Every field has at most 32 bits, and its constant is hardly below its unit. -/
theorem scaledFields_ok : ∀ f ∈ scaledFields, (0 < f.len ∧ f.len ≤ 32) ∧
    0 < f.unit.val ∧ 1 / 2 ^ f.power * (1 - 1 / 2 ^ 52) ≤ f.unit.val := by
  decide +kernel

/-- `eph2sbf` packs the quotient of every field, cut off towards zero. -/
theorem partsValue_eph2sbf (eph : Ephem Binary64) (ionoutc : IonoUtc Binary64) :
    ∀ f ∈ scaledFields, partsValue (eph2sbf eph ionoutc) f.parts =
      residue f.len (trunc (f.quotient (f.value eph).val)) := by
  simp (disch := decide) only [scaledFields, List.forall_mem_cons, partsValue, List.foldl_cons,
    List.foldl_nil, eph2sbf, subframe1, subframe2, subframe3, scaleEphem, field_or,
    field_apart, field_piece, ofInt_toNat_mod, residue_split, Nat.or_zero, Nat.zero_or, zero_mul,
    zero_add, trunc_double, div_val, ScaledField.quotient, if_true, if_false, Bool.false_eq_true,
    Nat.reduceAdd, List.not_mem_nil, IsEmpty.forall_iff, implies_true, and_self]

theorem ScaledField.lsb_pos (f : ScaledField) : 0 < f.lsb := by
  have angle : (0 : ℚ) < pi := by norm_num [pi]
  unfold ScaledField.lsb
  split <;> positivity

/-! ## Quotients near a multiple -/

section Near

variable {f : ScaledField} {x c : ℚ} {k : Int}

theorem ScaledField.quotient_neg (f : ScaledField) (x : ℚ) :
    f.quotient (-x) = -f.quotient x := by
  unfold ScaledField.quotient
  split
  · rw [neg_div, rounded_neg, neg_div, rounded_neg]
  · rw [neg_div, rounded_neg]

/-- The quotient reaches a bound from the least value for it on. -/
theorem le_quotient_iff (member : f ∈ scaledFields) (represented : Represented x) (large : 1 ≤ c) :
    c ≤ f.quotient x ↔ f.least c ≤ x := by
  have positive := (scaledFields_ok f member).2.1
  unfold ScaledField.quotient ScaledField.least
  split
  · have near := mul_le_reach (zero_lt_one.trans_le large)
    have one : 1 ≤ reach c * (pi : Binary64).val := by
      have half : 1 / 2 ≤ reach c := by
        norm_num at near
        linarith
      nlinarith [pi_double.1]
    rw [le_rounded_div_iff large (represented_rounded _) (pi : Binary64).represented
      (by linarith [pi_double.1]), le_rounded_div_iff one represented f.unit.represented positive]
  · exact le_rounded_div_iff large represented f.unit.represented positive

/-- Nothing is taken off zero. -/
theorem least_zero (member : f ∈ scaledFields) : f.least 0 ≤ 0 := by
  have positive := (scaledFields_ok f member).2.1
  have zero := reach_nonpos (le_refl (0 : ℚ))
  unfold ScaledField.least
  split
  · have product : reach 0 * (pi : Binary64).val ≤ 0 :=
      mul_nonpos_of_nonpos_of_nonneg zero (by linarith [pi_double.1])
    exact mul_nonpos_of_nonpos_of_nonneg (reach_nonpos product) positive.le
  · exact mul_nonpos_of_nonpos_of_nonneg zero positive.le

/-- A product with a number hardly below its constant loses at most an eighth of a unit. -/
theorem eighth_off {q a u r d : ℚ} (nonneg : 0 ≤ q) (fits : q ≤ 2 ^ 32) (some : 1 / 8 ≤ a)
    (le : a ≤ 1) (unit : 0 ≤ u) (reached : (q + a) * u ≤ r) (positive : 0 ≤ c)
    (constant : c * (1 - 1 / 2 ^ 52) ≤ d) : (q + (a - 1 / 8)) * (u * c) ≤ r * d := by
  have loss : q + (a - 1 / 8) ≤ (q + a) * (1 - 1 / 2 ^ 52) := by
    norm_num at fits ⊢
    linarith
  have start : 0 ≤ (q + a) * u := mul_nonneg (by linarith) unit
  calc (q + (a - 1 / 8)) * (u * c) ≤ (q + a) * (1 - 1 / 2 ^ 52) * (u * c) :=
        mul_le_mul_of_nonneg_right loss (mul_nonneg unit positive)
    _ = (q + a) * u * (c * (1 - 1 / 2 ^ 52)) := by ring
    _ ≤ r * d :=
        mul_le_mul reached constant (mul_nonneg positive (by norm_num)) (start.trans reached)

/-- The middle below a bound is such a product too. -/
theorem eighth_off_reach {q a u r : ℚ} (nonneg : 0 ≤ q) (fits : q ≤ 2 ^ 32) (some : 1 / 8 ≤ a)
    (le : a ≤ 1) (unit : 0 < u) (reached : (q + a) * u ≤ r) :
    (q + (a - 1 / 8)) * u ≤ reach r := by
  have positive : 0 < r := (mul_pos (by linarith) unit).trans_le reached
  have product := eighth_off nonneg fits some le unit.le reached zero_le_one
    (show (1 : ℚ) * (1 - 1 / 2 ^ 52) ≤ 1 - 1 / 2 ^ 53 by norm_num)
  rw [mul_one] at product
  exact product.trans (mul_le_reach positive)

/-- The constants and the rounding take off less than half a unit. -/
theorem lt_least (member : f ∈ scaledFields) (nonneg : 0 ≤ k) (fits : k < 2 ^ 32)
    (near : x < (k + 1 / 2) * f.lsb) : x < f.least (k + 1) := by
  obtain ⟨-, -, constant⟩ := scaledFields_ok f member
  have nonneg' : (0 : ℚ) ≤ k := by exact_mod_cast nonneg
  have fits' : (k : ℚ) ≤ 2 ^ 32 := by exact_mod_cast fits.le
  have power : (0 : ℚ) < 1 / 2 ^ f.power := by positivity
  have angle : (0 : ℚ) < pi := by norm_num [pi]
  -- the bound is `k + 1` units, and each of at most four steps takes off an eighth of one
  have first := eighth_off_reach (a := 1) nonneg' fits' (by norm_num) le_rfl one_pos
    (mul_one _).le
  refine near.trans_le ?_
  unfold ScaledField.lsb ScaledField.least
  cases f.angle with
  | false =>
      rw [if_neg Bool.false_ne_true, if_neg Bool.false_ne_true, mul_one]
      have second := eighth_off nonneg' fits' (by norm_num) (by norm_num) zero_le_one first
        power.le constant
      rw [one_mul] at second
      refine le_trans (mul_le_mul_of_nonneg_right ?_ power.le) second
      linarith
  | true =>
      rw [if_pos rfl, if_pos rfl]
      have second := eighth_off nonneg' fits' (by norm_num) (by norm_num) zero_le_one first
        angle.le pi_double.2
      have third := eighth_off_reach nonneg' fits' (by norm_num) (by norm_num)
        (by linarith) second
      have fourth := eighth_off nonneg' fits' (by norm_num) (by norm_num) (by linarith) third
        power.le constant
      rw [one_mul, mul_comm (pi : ℚ)] at fourth
      refine le_trans (mul_le_mul_of_nonneg_right ?_ (mul_pos power angle).le) fourth
      linarith

/-- Cutting the quotient off for values and multiples that are not negative. -/
theorem trunc_quotient_nonneg (member : f ∈ scaledFields) (represented : Represented x)
    (nonneg : 0 ≤ k) (fits : k < 2 ^ 32) (positive : 0 ≤ x) (near : x < (k + 1 / 2) * f.lsb) :
    0 ≤ trunc (f.quotient x) ∧ trunc (f.quotient x) ≤ k ∧
      (trunc (f.quotient x) = k ↔ f.least k ≤ x) := by
  have above : ∀ y : ℚ, 0 ≤ y → 0 ≤ y / f.unit.val := fun y nonneg =>
    div_nonneg nonneg (scaledFields_ok f member).2.1.le
  have quotient : 0 ≤ f.quotient x := by
    unfold ScaledField.quotient
    split
    · exact rounded_nonneg (div_nonneg (rounded_nonneg (above x positive))
        (by linarith [pi_double.1]))
    · exact rounded_nonneg (above x positive)
  have floor : trunc (f.quotient x) = ⌊f.quotient x⌋ := trunc_of_nonneg quotient
  have nonneg' : (0 : ℚ) ≤ k := by exact_mod_cast nonneg
  have below : ⌊f.quotient x⌋ < k + 1 := by
    rw [Int.floor_lt]
    push_cast
    rw [← not_le, le_quotient_iff member represented (by linarith), not_le]
    exact lt_least member nonneg fits near
  rw [floor]
  refine ⟨Int.floor_nonneg.mpr quotient, by omega, ?_⟩
  rcases nonneg.eq_or_lt with rfl | some
  · have zero : ⌊f.quotient x⌋ = 0 := by
      have := Int.floor_nonneg.mpr quotient
      omega
    rw [zero, Int.cast_zero]
    exact ⟨fun _ => (least_zero member).trans positive, fun _ => rfl⟩
  · have one : (1 : ℚ) ≤ k := by exact_mod_cast some
    have reached : k ≤ ⌊f.quotient x⌋ ↔ f.least k ≤ x := by
      rw [Int.le_floor, le_quotient_iff member represented one]
    rw [← reached]
    omega

/-- Cutting the quotient off near a multiple that is not negative. -/
theorem trunc_quotient_of_nonneg (member : f ∈ scaledFields) (represented : Represented x)
    (nonneg : 0 ≤ k) (fits : k < 2 ^ 32) (near : |x - k * f.lsb| < f.lsb / 2) :
    0 ≤ trunc (f.quotient x) ∧ trunc (f.quotient x) ≤ k ∧
      (trunc (f.quotient x) = k ↔ f.least |k| ≤ |x|) := by
  obtain ⟨lower, upper⟩ := abs_lt.mp near
  have nonneg' : (0 : ℚ) ≤ k := by exact_mod_cast nonneg
  rw [abs_of_nonneg nonneg']
  rcases le_or_gt 0 x with positive | negative
  · rw [abs_of_nonneg positive]
    exact trunc_quotient_nonneg member represented nonneg fits positive (by linarith)
  · -- only zero has a negative value near to it
    have zero : k = 0 := by
      by_contra other
      have one : (1 : ℚ) ≤ k := by exact_mod_cast (show 1 ≤ k by omega)
      nlinarith [f.lsb_pos]
    subst zero
    have mirrored : -x < ((0 : Int) + 1 / 2) * f.lsb := by linarith
    obtain ⟨above, below, -⟩ := trunc_quotient_nonneg member represented.neg le_rfl (by norm_num)
      (by linarith : 0 ≤ -x) mirrored
    rw [f.quotient_neg, trunc_neg] at above below
    have cut : trunc (f.quotient x) = 0 := by omega
    rw [cut, Int.cast_zero]
    exact ⟨le_rfl, le_rfl, fun _ => (least_zero member).trans (abs_nonneg x), fun _ => rfl⟩

/-- The raw integers have at most 32 bits. -/
theorem ScaledField.InRange.lt_two_pow (member : f ∈ scaledFields) (range : f.InRange k) :
    |k| < 2 ^ 32 := by
  have len := (scaledFields_ok f member).1
  have power : (2 : Int) ^ f.len ≤ 2 ^ 32 := pow_le_pow_right₀ one_le_two len.2
  have half : (2 : Int) ^ (f.len - 1) * 2 = 2 ^ f.len := by
    rw [← pow_succ, Nat.sub_add_cancel len.1]
  have positive : (0 : Int) < 2 ^ (f.len - 1) := by positivity
  rw [abs_lt]
  unfold ScaledField.InRange at range
  cases signed : f.signed with
  | true =>
      rw [signed] at range
      obtain ⟨lower, upper⟩ : Signed f.len k := range
      constructor <;> omega
  | false =>
      rw [signed] at range
      obtain ⟨lower, upper⟩ : Unsigned f.len k := range
      constructor <;> omega

/-- Cutting the quotient off near a raw integer: between zero and the integer, and the integer from
the least value for it on. -/
theorem trunc_quotient (member : f ∈ scaledFields) (represented : Represented x)
    (range : f.InRange k) (near : |x - k * f.lsb| < f.lsb / 2) :
    ((0 ≤ trunc (f.quotient x) ∧ trunc (f.quotient x) ≤ k) ∨
        (k ≤ trunc (f.quotient x) ∧ trunc (f.quotient x) ≤ 0)) ∧
      (trunc (f.quotient x) = k ↔ f.least |k| ≤ |x|) := by
  obtain ⟨lower, upper⟩ := abs_lt.mp (range.lt_two_pow member)
  rcases le_total 0 k with nonneg | nonpos
  · obtain ⟨above, below, reached⟩ := trunc_quotient_of_nonneg member represented nonneg upper near
    exact ⟨Or.inl ⟨above, below⟩, reached⟩
  · have mirrored : |-x - (-k : Int) * f.lsb| < f.lsb / 2 := by
      rw [Int.cast_neg, neg_mul, sub_neg_eq_add, neg_add_eq_sub, abs_sub_comm]
      exact near
    obtain ⟨above, below, reached⟩ := trunc_quotient_of_nonneg member represented.neg
      (by omega) (by omega) mirrored
    rw [f.quotient_neg, trunc_neg] at above below reached
    rw [neg_inj, Int.cast_neg, abs_neg, abs_neg] at reached
    exact ⟨Or.inr ⟨by omega, by omega⟩, reached⟩

end Near

/-! ## The fields of a file -/

/-- A range goes from zero to its integers. -/
theorem ScaledField.InRange.of_between {f : ScaledField} {k x : Int} (range : f.InRange k)
    (between : (0 ≤ x ∧ x ≤ k) ∨ (k ≤ x ∧ x ≤ 0)) : f.InRange x := by
  have positive : (0 : Int) < 2 ^ (f.len - 1) := by positivity
  have positive' : (0 : Int) < 2 ^ f.len := by positivity
  unfold ScaledField.InRange at range ⊢
  cases signed : f.signed with
  | true =>
      rw [signed] at range
      obtain ⟨lower, upper⟩ : Signed f.len k := range
      exact ⟨by omega, by omega⟩
  | false =>
      rw [signed] at range
      obtain ⟨lower, upper⟩ : Unsigned f.len k := range
      exact ⟨by omega, by omega⟩

/-- A receiver reads the quotient of a field, if it fits. -/
theorem read_eph2sbf {f : ScaledField} (member : f ∈ scaledFields) (eph : Ephem Binary64)
    (ionoutc : IonoUtc Binary64)
    (range : f.InRange (trunc (f.quotient (f.value eph).val))) :
    f.read (eph2sbf eph ionoutc) = trunc (f.quotient (f.value eph).val) := by
  have packed := partsValue_eph2sbf eph ionoutc f member
  have positive := (scaledFields_ok f member).1.1
  unfold ScaledField.InRange at range
  unfold ScaledField.read
  rw [packed]
  cases signed : f.signed with
  | true =>
      rw [signed] at range
      exact signExtend_residue positive range
  | false =>
      rw [signed] at range
      exact residue_of_unsigned range

/-- **What is encoded for a value near a multiple of the unit**, for every scaled field: the
multiple, exactly if the value is not nearer to zero than the multiple, as the divisions round. -/
theorem encodes_iff : ∀ f ∈ scaledFields, ∀ (eph : Ephem Binary64) (ionoutc : IonoUtc Binary64)
    (k : Int), f.InRange k → |(f.value eph).val - k * f.lsb| < f.lsb / 2 →
      (f.read (eph2sbf eph ionoutc) = k ↔ f.least |k| ≤ |(f.value eph).val|) := by
  intro f member eph ionoutc k range near
  obtain ⟨between, reached⟩ := trunc_quotient member (f.value eph).represented range near
  rw [read_eph2sbf member eph ionoutc (range.of_between between), reached]

/-- The field of the clock correction. -/
def af0Field : ScaledField :=
  ⟨22, true, 31, pow2M31, false, Ephem.af0, [⟨0, 9, 8, 22⟩]⟩

theorem af0Field_mem : af0Field ∈ scaledFields :=
  List.mem_of_getElem? (show scaledFields[15]? = some af0Field from rfl)

/-- An ephemeris with a clock correction from a file, and nothing else. -/
def withClock (af0 : Binary64) : Ephem Binary64 where
  vflg := 1
  t := ⟨1980, 1, 6, 0, 0, 0⟩
  toc := ⟨0, 0.0⟩
  toe := ⟨0, 0.0⟩
  iodc := 0
  iode := 0
  deltan := 0.0
  cuc := 0.0
  cus := 0.0
  cic := 0.0
  cis := 0.0
  crc := 0.0
  crs := 0.0
  ecc := 0.0
  sqrta := 0.0
  m0 := 0.0
  omg0 := 0.0
  inc0 := 0.0
  aop := 0.0
  omgdot := 0.0
  idot := 0.0
  af0 := af0
  af1 := 0.0
  af2 := 0.0
  tgd := 0.0
  svhlth := 0
  codeL2 := 0
  n := 0.0
  sq1e2 := 0.0
  A := 0.0
  omgkdot := 0.0

/-- No ionosphere and no offset from UTC. -/
def withoutIono : IonoUtc Binary64 where
  enable := 0
  vflg := 0
  alpha0 := 0.0
  alpha1 := 0.0
  alpha2 := 0.0
  alpha3 := 0.0
  beta0 := 0.0
  beta1 := 0.0
  beta2 := 0.0
  beta3 := 0.0
  A0 := 0.0
  A1 := 0.0
  dtls := 0
  tot := 0
  wnt := 0
  dtlsf := 0
  dn := 0
  wnlsf := 0

/-- A clock correction of two units is rounded up in print. -/
theorem encodes_iff_sample :
    af0Field.read (eph2sbf (withClock 9.313225746155e-10) withoutIono) = 2 :=
  (encodes_iff af0Field af0Field_mem (withClock 9.313225746155e-10) withoutIono 2
    (by decide) (by decide +kernel)).mpr (by decide +kernel)

/-- A clock correction of one unit is rounded down in print, and loses the unit. -/
theorem printed_unit_lost :
    af0Field ∈ scaledFields ∧ af0Field.InRange 1 ∧
      |(af0Field.value (withClock 4.656612873077e-10)).val - (1 : Int) * af0Field.lsb| <
        af0Field.lsb / 2 ∧
      af0Field.read (eph2sbf (withClock 4.656612873077e-10) withoutIono) = 0 :=
  ⟨af0Field_mem, by decide, by decide +kernel, by decide +kernel⟩

/-- A clock correction that is printed exactly stays. -/
example : af0Field.read (eph2sbf (withClock (.ofRat (-4.8828125e-4))) withoutIono) = -1048576 := by
  decide +kernel

end Navisim.Rinex

import Mathlib.Data.Nat.Bitwise
import Mathlib.Tactic

/-!
# Bit fields of words

`field` cuts a field out of a word.  A word that is put together from masked and shifted pieces
gives back each piece at its place and nothing at the places of the others.
-/

namespace Navisim.BitField

variable {w : Nat}

/-- The `len` bits of `x` from bit `off` on, as a number. -/
def field (off len : Nat) (x : BitVec w) : Nat :=
  x.toNat / 2 ^ off % 2 ^ len

variable {off off' len low : Nat} {x y v mask : BitVec w}

theorem testBit_field {w : Nat} (off len : Nat) (x : BitVec w) (i : Nat) :
    (field off len x).testBit i = (decide (i < len) && x.getLsbD (off + i)) := by
  simp [field, Nat.testBit_mod_two_pow, Nat.testBit_div_two_pow, Nat.add_comm, BitVec.getLsbD]

/-- Fields agree when their bits do. -/
theorem field_congr {u : Nat} {z : BitVec u} {off' : Nat}
    (same : ∀ i < len, x.getLsbD (off + i) = z.getLsbD (off' + i)) :
    field off len x = field off' len z := by
  apply Nat.eq_of_testBit_eq
  intro i
  rw [testBit_field, testBit_field]
  by_cases inside : i < len
  · rw [same i inside]
  · simp [inside]

theorem field_or : field off len (x ||| y) = field off len x ||| field off len y := by
  apply Nat.eq_of_testBit_eq
  intro i
  simp only [Nat.testBit_or, testBit_field, BitVec.getLsbD_or, Bool.and_or_distrib_left]

@[simp] theorem field_zero : field off len (0#w) = 0 := by
  simp [field]

/-- A masked piece is its field. -/
theorem field_piece (ones : mask.toNat + 1 = 2 ^ len) (fits : off + len ≤ w) :
    field off len ((v &&& mask) <<< off) = v.toNat % 2 ^ len := by
  have maskBits : mask.toNat = 2 ^ len - 1 := by omega
  apply Nat.eq_of_testBit_eq
  intro i
  rw [testBit_field, Nat.testBit_mod_two_pow]
  by_cases inside : i < len
  · have bit : mask.getLsbD i = true := by
      rw [BitVec.getLsbD, maskBits, Nat.testBit_two_pow_sub_one, decide_eq_true inside]
    have place : off + i < w := by omega
    rw [BitVec.getLsbD_shiftLeft, Nat.add_sub_cancel_left, BitVec.getLsbD_and, bit]
    simp [inside, place, BitVec.getLsbD]
  · simp [inside]

/-- A masked piece leaves the fields apart from it empty. -/
theorem field_apart (apart : field off len (mask <<< off') = 0) :
    field off len ((v &&& mask) <<< off') = 0 := by
  apply Nat.eq_of_testBit_eq
  intro i
  have maskBit : (field off len (mask <<< off')).testBit i = false := by simp [apart]
  rw [testBit_field] at maskBit ⊢
  rw [Nat.zero_testBit]
  simp only [BitVec.getLsbD_shiftLeft, BitVec.getLsbD_and] at maskBit ⊢
  grind

/-! ## Numbers in fields -/

/-- The number that a field of `len` bits holds in two's complement. -/
def signExtend (len value : Nat) : Int :=
  if value < 2 ^ (len - 1) then value else (value : Int) - 2 ^ len

/-- The field of `len` bits that an integer leaves under a mask. -/
def residue (len : Nat) (value : Int) : Nat :=
  (value % 2 ^ len).toNat

theorem residue_coe (len : Nat) (value : Int) : (residue len value : Int) = value % 2 ^ len :=
  Int.toNat_of_nonneg (Int.emod_nonneg _ (by positivity))

/-- The low bits of the machine word of an integer. -/
theorem ofInt_toNat_mod (value : Int) (fits : len ≤ w) :
    (BitVec.ofInt w value).toNat % 2 ^ len = residue len value := by
  have word : ((BitVec.ofInt w value).toNat : Int) = value % 2 ^ w := by
    rw [BitVec.toNat_ofInt]
    simpa using Int.toNat_of_nonneg (Int.emod_nonneg value (by positivity))
  have divides : (2 : Int) ^ len ∣ 2 ^ w := pow_dvd_pow 2 fits
  have same : ((((BitVec.ofInt w value).toNat % 2 ^ len : Nat)) : Int) = residue len value := by
    push_cast
    rw [residue_coe, word, Int.emod_emod_of_dvd _ divides]
  exact_mod_cast same

theorem emod_split {high low : Nat} (value : Int) :
    value / 2 ^ low % 2 ^ high * 2 ^ low + value % 2 ^ low = value % 2 ^ (low + high) := by
  have whole := Int.emod_add_mul_ediv value (2 ^ low)
  have digit := Int.emod_add_mul_ediv (value / 2 ^ low) (2 ^ high)
  have lowNonneg := Int.emod_nonneg value (b := 2 ^ low) (by positivity)
  have lowLt := Int.emod_lt_of_pos value (b := 2 ^ low) (by positivity)
  have highNonneg := Int.emod_nonneg (value / 2 ^ low) (b := 2 ^ high) (by positivity)
  have highLt := Int.emod_lt_of_pos (value / 2 ^ low) (b := 2 ^ high) (by positivity)
  refine ((Int.ediv_emod_unique (q := value / 2 ^ low / 2 ^ high) (by positivity)).2
    ⟨?_, by positivity, ?_⟩).2.symm
  · rw [pow_add]
    linear_combination whole + 2 ^ low * digit
  · rw [pow_add]
    nlinarith

/-- The high and the low part of an integer are the residue of the whole. -/
theorem residue_split {high low base : Nat} (power : base = 2 ^ low) (value : Int) :
    residue high (value >>> low) * base + residue low value = residue (low + high) value := by
  subst power
  have same : ((residue high (value >>> low) * 2 ^ low + residue low value : Nat) : Int) =
      residue (low + high) value := by
    push_cast
    rw [residue_coe, residue_coe, residue_coe, Int.shiftRight_eq_div_pow]
    push_cast
    exact emod_split value
  exact_mod_cast same

/-- The integers that an unsigned field of `len` bits holds. -/
def Unsigned (len : Nat) (value : Int) : Prop :=
  0 ≤ value ∧ value < 2 ^ len

/-- The integers that a field of `len` bits holds in two's complement. -/
def Signed (len : Nat) (value : Int) : Prop :=
  -2 ^ (len - 1) ≤ value ∧ value < 2 ^ (len - 1)

instance (len : Nat) (value : Int) : Decidable (Unsigned len value) :=
  inferInstanceAs (Decidable (_ ∧ _))

instance (len : Nat) (value : Int) : Decidable (Signed len value) :=
  inferInstanceAs (Decidable (_ ∧ _))

theorem residue_of_unsigned {value : Int} (range : Unsigned len value) :
    (residue len value : Int) = value := by
  rw [residue_coe, Int.emod_eq_of_lt range.1 range.2]

/-- Sign extension recovers an integer that fits into its field. -/
theorem signExtend_residue {value : Int} (positive : 0 < len) (range : Signed len value) :
    signExtend len (residue len value) = value := by
  obtain ⟨lower, upper⟩ := range
  have double : (2 : Int) ^ len = 2 * 2 ^ (len - 1) := by
    rw [← pow_succ']
    congr
    omega
  have coe := residue_coe len value
  unfold signExtend
  rcases lt_or_ge value 0 with negative | nonneg
  · have wrapped : value % 2 ^ len = value + 2 ^ len := by
      rw [← Int.add_emod_right, Int.emod_eq_of_lt (by omega) (by omega)]
    rw [if_neg, coe, wrapped, add_sub_cancel_right]
    have : ¬ (residue len value : Int) < 2 ^ (len - 1) := by omega
    exact_mod_cast this
  · have plain : value % 2 ^ len = value := Int.emod_eq_of_lt nonneg (by omega)
    rw [if_pos, coe, plain]
    have : (residue len value : Int) < 2 ^ (len - 1) := by omega
    exact_mod_cast this

/-- A field holds the residue of the number that it sign-extends to. -/
theorem residue_signExtend {value : Nat} (bound : value < 2 ^ len) :
    residue len (signExtend len value) = value := by
  have cast : (2 : Int) ^ len = (2 ^ len : Nat) := by push_cast; rfl
  have same : (residue len (signExtend len value) : Int) = value := by
    rw [residue_coe]
    unfold signExtend
    split
    · exact Int.emod_eq_of_lt (by omega) (by omega)
    · rw [Int.sub_emod_right, Int.emod_eq_of_lt (by omega) (by omega)]
  exact_mod_cast same

theorem residue_natCast {value : Nat} (bound : value < 2 ^ len) : residue len value = value := by
  have cast : (2 : Int) ^ len = (2 ^ len : Nat) := by push_cast; rfl
  rw [residue, Int.emod_eq_of_lt (by omega) (by omega), Int.toNat_natCast]

end Navisim.BitField

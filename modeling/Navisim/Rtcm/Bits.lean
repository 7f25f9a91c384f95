import Navisim.Lib.BitField

/-!
# Bits of RTCM messages

`getbitu` and `getbits`, which read big-endian bit fields of a byte buffer.
-/

namespace Navisim.Rtcm

open BitField

/-- `unsigned char *` -/
abbrev Buffer := Nat → BitVec 8

def getbitu (buff : Buffer) (pos : Nat) : Nat → BitVec 32
  | 0 => 0
  | len + 1 =>
      let i := pos + len
      let bits := getbitu buff pos len
      (bits <<< 1) + ((buff (i / 8) >>> (7 - i % 8)) &&& 1).setWidth 32

def getbits (buff : Buffer) (pos len : Nat) : Int :=
  let bits := getbitu buff pos len
  if len = 0 ∨ 32 ≤ len ∨ bits &&& ((1 : BitVec 32) <<< (len - 1)) = 0 then bits.toInt
  else (bits ||| ((~~~0 : BitVec 32) <<< len)).toInt -- extend sign

/-! ## Fields of a message -/

/-- Bit `k` of a message, which sends the highest bit of each byte first. -/
def messageBit (buff : Buffer) (k : Nat) : Bool :=
  (buff (k / 8)).getLsbD (7 - k % 8)

/-- The number that the `len` bits from `pos` on make, the first one being the highest. -/
def messageField (buff : Buffer) (pos : Nat) : Nat → Nat
  | 0 => 0
  | len + 1 => 2 * messageField buff pos len + (messageBit buff (pos + len)).toNat

variable {buff : Buffer} {pos len : Nat}

theorem messageField_lt (buff : Buffer) (pos len : Nat) : messageField buff pos len < 2 ^ len := by
  induction len with
  | zero => simp [messageField]
  | succ len ih =>
      have bit := (messageBit buff (pos + len)).toNat_lt
      rw [messageField, pow_succ]
      omega

/-- `(buff[i/8]>>(7-i%8))&1` -/
theorem byte_bit (byte : BitVec 8) (j : Nat) :
    ((byte >>> j &&& 1).setWidth 32).toNat = (byte.getLsbD j).toNat := by
  rw [BitVec.toNat_setWidth, BitVec.toNat_and, BitVec.toNat_ushiftRight,
    Nat.shiftRight_eq_div_pow]
  change (byte.toNat / 2 ^ j &&& 1) % 2 ^ 32 = (byte.toNat.testBit j).toNat
  rw [Nat.and_one_is_mod, Nat.toNat_testBit]
  omega

/-- `getbitu` reads the field, up to the width of an `unsigned int`. -/
theorem getbitu_toNat (buff : Buffer) (pos : Nat) (fits : len ≤ 32) :
    (getbitu buff pos len).toNat = messageField buff pos len := by
  induction len with
  | zero => rfl
  | succ len ih =>
      have bound : messageField buff pos (len + 1) < 2 ^ 32 :=
        lt_of_lt_of_le (messageField_lt ..) (Nat.pow_le_pow_right (by decide) fits)
      have bits := ih (by omega)
      rw [messageField] at bound ⊢
      rw [getbitu, BitVec.toNat_add, byte_bit, BitVec.toNat_shiftLeft, bits, Nat.shiftLeft_eq]
      change (messageField buff pos len * 2 ^ 1 % 2 ^ 32 + (messageBit buff (pos + len)).toNat)
        % 2 ^ 32 = _
      omega

/-- `bits&(1u<<(len-1))` -/
theorem signBit {bits : BitVec 32} (positive : 0 < len) (fits : len ≤ 32)
    (bound : bits.toNat < 2 ^ len) :
    bits &&& ((1 : BitVec 32) <<< (len - 1)) = 0 ↔ bits.toNat < 2 ^ (len - 1) := by
  have mask : ((1 : BitVec 32) <<< (len - 1)).toNat = 2 ^ (len - 1) := by
    have power : 2 ^ (len - 1) < 2 ^ 32 := Nat.pow_lt_pow_right (by decide) (by omega)
    rw [BitVec.toNat_shiftLeft, Nat.shiftLeft_eq]
    change 1 * 2 ^ (len - 1) % 2 ^ 32 = _
    rw [one_mul, Nat.mod_eq_of_lt power]
  have top : 2 ^ len = 2 * 2 ^ (len - 1) := by
    rw [← pow_succ']
    congr
    omega
  rw [← BitVec.toNat_inj, BitVec.toNat_and, mask, Nat.and_two_pow]
  change _ = 0 ↔ _
  have bit : bits.toNat.testBit (len - 1) = decide (2 ^ (len - 1) ≤ bits.toNat) := by
    rw [Nat.testBit_eq_decide_div_mod_eq]
    congr 1
    rw [eq_iff_iff]
    have positive := Nat.two_pow_pos (len - 1)
    constructor
    · intro odd
      by_contra small
      rw [Nat.div_eq_of_lt (by omega)] at odd
      omega
    · intro large
      have quotient : bits.toNat / 2 ^ (len - 1) = 1 := by
        rw [Nat.div_eq_iff positive]
        omega
      rw [quotient]
  rw [bit]
  by_cases large : 2 ^ (len - 1) ≤ bits.toNat
  · simp [large]
  · simp [large]
    omega

/-- `bits|(~0u<<len)` is the number less the weight of the bit above the field. -/
theorem extendSign {bits : BitVec 32} (short : len < 32) (bound : bits.toNat < 2 ^ len) :
    (bits ||| ((~~~0 : BitVec 32) <<< len)).toNat = 2 ^ 32 - 2 ^ len + bits.toNat := by
  have whole : 2 ^ len * 2 ^ (32 - len) = 2 ^ 32 := by
    rw [← pow_add, Nat.add_sub_cancel' short.le]
  have high : ((~~~0 : BitVec 32) <<< len).toNat = (2 ^ (32 - len) - 1) <<< len := by
    rw [BitVec.toNat_shiftLeft, Nat.shiftLeft_eq, Nat.shiftLeft_eq]
    change (2 ^ 32 - 1) * 2 ^ len % 2 ^ 32 = _
    rw [← whole]
    obtain ⟨low, lowEq⟩ := Nat.exists_eq_add_of_lt (Nat.two_pow_pos len)
    obtain ⟨rest, restEq⟩ := Nat.exists_eq_add_of_lt (Nat.two_pow_pos (32 - len))
    rw [lowEq, restEq]
    have turns : ((0 + low + 1) * (0 + rest + 1) - 1) * (0 + low + 1) =
        (0 + low + 1) * (0 + rest + 1) * low + rest * (0 + low + 1) := by
      have factor : (0 + low + 1) * (0 + rest + 1) - 1 = low * rest + low + rest := by
        have : (0 + low + 1) * (0 + rest + 1) = low * rest + low + rest + 1 := by ring
        omega
      rw [factor]
      ring
    rw [turns, Nat.mul_add_mod, Nat.mod_eq_of_lt (by nlinarith)]
    congr 1
    omega
  rw [BitVec.toNat_or, high, Nat.or_comm, ← Nat.shiftLeft_add_eq_or_of_lt bound, Nat.shiftLeft_eq,
    Nat.sub_mul, one_mul, mul_comm, whole]

/-- The field of a signed number, at any width up to that of an `int`. -/
theorem getbits_eq (pos : Nat) (positive : 0 < len) (fits : len ≤ 32) :
    getbits buff pos len = signExtend len (messageField buff pos len) := by
  have value := getbitu_toNat buff pos fits
  have bound := messageField_lt buff pos len
  rw [← value] at bound ⊢
  unfold getbits signExtend
  dsimp only
  generalize getbitu buff pos len = bits at bound ⊢
  have top : 2 ^ len = 2 * 2 ^ (len - 1) := by
    rw [← pow_succ']
    congr
    omega
  rcases fits.lt_or_eq with short | rfl
  · have power : 2 ^ len ≤ 2 ^ 31 := Nat.pow_le_pow_right (by decide) (by omega)
    simp only [signBit positive fits bound]
    by_cases sign : bits.toNat < 2 ^ (len - 1)
    · rw [if_pos (by omega), if_pos sign, BitVec.toInt_eq_toNat_of_lt (by omega)]
    · rw [if_neg (by omega), if_neg sign, BitVec.toInt_eq_toNat_cond, extendSign short bound,
        if_neg (by omega)]
      have cast : (2 : Int) ^ len = (2 ^ len : Nat) := by push_cast; rfl
      rw [cast]
      omega
  · rw [if_pos (by omega), BitVec.toInt_eq_toNat_cond]
    split <;> split <;> omega

end Navisim.Rtcm

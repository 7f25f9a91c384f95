import Navisim.Lib.Division
import Navisim.Rtcm.Crc

/-!
# The parity is a remainder

`crc24q`, which works through its table byte by byte, is the bit-serial division of the message by
the generator polynomial of CRC-24Q.
-/

namespace Navisim.Rtcm

open Division

/-- The generator polynomial of CRC-24Q. -/
def generator : BitVec 25 := 0x1864CFB

/-- `len` bits of a message. -/
def bitsFrom (buff : Buffer) (pos len : Nat) : List Bool :=
  (List.range len).map fun k => messageBit buff (pos + k)

/-- The bits of the first `len` bytes. -/
def messageBits (buff : Buffer) (len : Nat) : List Bool :=
  bitsFrom buff 0 (8 * len)

/-- `(crc>>16)^buff[i]` -/
def tableIndex (buff : Buffer) (i : Nat) : Nat :=
  (crc24q buff i >>> 16 ^^^ (buff i).setWidth 32).toNat

section Bits

variable {buff : Buffer} {pos len : Nat}

@[simp] theorem length_bitsFrom (buff : Buffer) (pos len : Nat) :
    (bitsFrom buff pos len).length = len := by
  rw [bitsFrom, List.length_map, List.length_range]

theorem bitsFrom_add (buff : Buffer) (pos len more : Nat) :
    bitsFrom buff pos (len + more) = bitsFrom buff pos len ++ bitsFrom buff (pos + len) more := by
  rw [bitsFrom, List.range_add, List.map_append, List.map_map]
  refine congrArg (bitsFrom buff pos len ++ ·) (List.map_congr_left fun k _ => ?_)
  rw [Function.comp_apply, add_assoc]

/-- More bytes of a message. -/
theorem messageBits_add (buff : Buffer) (len more : Nat) :
    messageBits buff (len + more) = messageBits buff len ++ bitsFrom buff (8 * len) (8 * more) := by
  rw [messageBits, mul_add, bitsFrom_add, zero_add]
  rfl

theorem number_bitsFrom (buff : Buffer) (pos len : Nat) :
    number (bitsFrom buff pos len) = messageField buff pos len := by
  induction len with
  | zero => rfl
  | succ len ih =>
      rw [bitsFrom_add, number, List.foldl_append, ← number, ih]
      rfl

/-- The field of a byte. -/
theorem messageField_byte (buff : Buffer) (i : Nat) :
    messageField buff (8 * i) 8 = (buff i).toNat := by
  have bits : ∀ byte : BitVec 8, number ((List.range 8).map fun k => byte.getLsbD (7 - k)) =
      byte.toNat := by
    decide +kernel
  rw [← number_bitsFrom, ← bits]
  refine congrArg number (List.map_congr_left fun k inside => ?_)
  have bound := List.mem_range.mp inside
  rw [messageBit, show (8 * i + k) / 8 = i by omega, show (8 * i + k) % 8 = k by omega]

end Bits

/-! ## The table -/

/-- **Every entry of the table** is the checksum of its index. -/
theorem tblCRC24Q_eq : ∀ i < 256,
    tblCRC24Q.getD i 0 = ((shift generator)^[24] (BitVec.ofNat 25 i)).setWidth 32 := by
  intro i small
  have entries : tblCRC24Q.toList = (List.range 256).map fun i =>
      ((shift generator)^[24] (BitVec.ofNat 25 i)).setWidth 32 := by
    decide +kernel
  rw [Array.getD_eq_getD_getElem?, ← Array.getElem?_toList, entries, List.getElem?_map,
    List.getElem?_range small]
  rfl

theorem generator_monic : generator.msb = true := by
  decide

theorem generator_odd : generator.getLsbD 0 = true := by
  decide

section Registers

variable {r : BitVec 25}

/-- `((crc<<8)&0xFFFFFF)` -/
theorem shiftLeft_and (r : BitVec 25) :
    r.setWidth 32 <<< 8 &&& 0xFFFFFF =
      ((r &&& BitVec.ofNat 25 (2 ^ 16 - 1)) <<< 8).setWidth 32 := by
  have mask : ((0xFFFFFF : Nat) : BitVec 32).toNat = 2 ^ 24 - 1 := rfl
  have mask' : (BitVec.ofNat 25 (2 ^ 16 - 1)).toNat = 2 ^ 16 - 1 := rfl
  rw [← BitVec.toNat_inj, BitVec.toNat_and, mask, Nat.and_two_pow_sub_one_eq_mod,
    BitVec.toNat_setWidth, BitVec.toNat_shiftLeft, BitVec.toNat_shiftLeft, BitVec.toNat_and, mask',
    Nat.and_two_pow_sub_one_eq_mod, BitVec.toNat_setWidth, Nat.shiftLeft_eq, Nat.shiftLeft_eq]
  omega

/-- The index of the table fits into a byte. -/
theorem index_lt (short : r.toNat < 2 ^ 24) (byte : BitVec 8) :
    (r.setWidth 32 >>> 16 ^^^ byte.setWidth 32).toNat =
        (r >>> 16 ^^^ BitVec.ofNat 25 byte.toNat).toNat ∧
      (r.setWidth 32 >>> 16 ^^^ byte.setWidth 32).toNat < 256 := by
  have small := byte.isLt
  have high : r.toNat / 2 ^ 16 < 2 ^ 8 := by omega
  have first : (r.setWidth 32 >>> 16).toNat = r.toNat / 2 ^ 16 := by
    rw [BitVec.toNat_ushiftRight, BitVec.toNat_setWidth, Nat.shiftRight_eq_div_pow]
    omega
  have second : (byte.setWidth 32).toNat = byte.toNat := by
    rw [BitVec.toNat_setWidth]
    omega
  have first' : (r >>> 16).toNat = r.toNat / 2 ^ 16 := by
    rw [BitVec.toNat_ushiftRight, Nat.shiftRight_eq_div_pow]
  have second' : (BitVec.ofNat 25 byte.toNat).toNat = byte.toNat := by
    rw [BitVec.toNat_ofNat]
    omega
  rw [BitVec.toNat_xor, BitVec.toNat_xor, first, second, first', second']
  exact ⟨rfl, Nat.xor_lt_two_pow high small⟩

end Registers

/-- **The table computes the division**, eight bits at a time. -/
theorem crc24q_eq (buff : Buffer) (len : Nat) :
    crc24q buff len = (Division.crc generator (messageBits buff len)).setWidth 32 := by
  induction len with
  | zero =>
      have none : (Division.crc generator []).setWidth 32 = 0#32 := by decide +kernel
      exact none.symm
  | succ len ih =>
      have short := toNat_crc_lt generator_monic (messageBits buff len)
      obtain ⟨index, inside⟩ := index_lt short (buff len)
      have byte : number (bitsFrom buff (8 * len) (8 * 1)) = (buff len).toNat := by
        rw [number_bitsFrom, mul_one, messageField_byte]
      have entry := tblCRC24Q_eq _ inside
      have back : ∀ x : BitVec 25, BitVec.ofNat 25 x.toNat = x := by
        intro x
        rw [BitVec.ofNat_toNat, BitVec.setWidth_eq]
      have swap : ∀ a b c : BitVec 25, a ^^^ (c ^^^ b) = a ^^^ b ^^^ c := by
        intro a b c
        rw [BitVec.xor_assoc, BitVec.xor_comm b]
      rw [index, back] at entry
      rw [crc24q, ih, index, entry, shiftLeft_and, messageBits_add, crc_append _ _ (by simp), byte,
        length_bitsFrom, mul_one, iterate_shift_split generator _ short (by decide),
        iterate_shift_xor, ← BitVec.setWidth_xor, BitVec.xor_comm, BitVec.xor_assoc, swap]

/-- The parity that follows a message is read as the number its bits make. -/
theorem crc24q_eq_getbitu_iff (buff : Buffer) (len : Nat) :
    crc24q buff len = getbitu buff (len * 8) 24 ↔ crc24q buff (len + 3) = 0 := by
  have short := toNat_crc_lt generator_monic (messageBits buff len)
  have short' := toNat_crc_lt generator_monic (messageBits buff (len + 3))
  have own := crc_append_eq_zero_iff generator_odd generator_monic (messageBits buff len)
    (length_bitsFrom buff (8 * len) (8 * 3))
  rw [← messageBits_add, number_bitsFrom, ← BitVec.toNat_inj] at own
  rw [← BitVec.toNat_inj, ← BitVec.toNat_inj, crc24q_eq, crc24q_eq,
    getbitu_toNat _ _ (by decide), BitVec.toNat_setWidth, BitVec.toNat_setWidth,
    Nat.mod_eq_of_lt (by omega), Nat.mod_eq_of_lt (by omega), mul_comm len]
  exact own.symm

open Polynomial in
/-- **The parity of a message**: it is the bit-serial division by the generator, and so the
remainder of the message polynomial; the table is never left; and a message is followed by its own
parity exactly if the two together have the parity zero. -/
theorem crc24q_spec (buff : Buffer) (len : Nat) :
    crc24q buff len = (Division.crc generator (messageBits buff len)).setWidth 32 ∧
      poly ((crc24q buff len).setWidth 25) =
        (dividend (messageBits buff len) * X ^ 24) %ₘ poly generator ∧
      (∀ i < len, tableIndex buff i < 256) ∧
      (crc24q buff len = getbitu buff (len * 8) 24 ↔ crc24q buff (len + 3) = 0) := by
  refine ⟨crc24q_eq buff len, ?_, fun i _ => ?_, crc24q_eq_getbitu_iff buff len⟩
  · rw [crc24q_eq, BitVec.setWidth_setWidth_of_le _ (by decide), BitVec.setWidth_eq,
      poly_crc generator_monic]
  · rw [tableIndex, crc24q_eq]
    exact (index_lt (toNat_crc_lt generator_monic _) _).2

end Navisim.Rtcm

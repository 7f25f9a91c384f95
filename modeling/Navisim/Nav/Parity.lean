import Navisim.Lib.BitCount
import Navisim.Nav.Subframe

/-!
# The parity of navigation words

`countBits` and `computeChecksum`, and what they compute: `countBits` counts the bits of a word
(`countBits_mod_two`), and a checksummed word passes the six parity equations of a receiver
(`parityOk_computeChecksum`).
-/

namespace Navisim.Nav

open BitCount

def countBits (v : Word) : Word :=
  let c := v
  let c := ((c >>> 1) &&& 0x55555555) + (c &&& 0x55555555)
  let c := ((c >>> 2) &&& 0x33333333) + (c &&& 0x33333333)
  let c := ((c >>> 4) &&& 0x0F0F0F0F) + (c &&& 0x0F0F0F0F)
  let c := ((c >>> 8) &&& 0x00FF00FF) + (c &&& 0x00FF00FF)
  let c := ((c >>> 16) &&& 0x0000FFFF) + (c &&& 0x0000FFFF)
  c

/-- `bmask` -/
def bmask : Fin 6 → Word :=
  ![0x3B1F3480, 0x1D8F9A40, 0x2EC7CD00, 0x1763E680, 0x2BB1F340, 0x0B7A89C0]

/-- The non-information bearing bits of words 2 and 10: bits 23 and 24 are solved so that the
last two parity bits come out as zeros. -/
def solveBits (D29 D30 d : Word) : Word :=
  let d := if (D30 + countBits (bmask 4 &&& d)) % 2 ≠ 0 then d ^^^ ((0x1 : Word) <<< 6) else d
  if (D29 + countBits (bmask 5 &&& d)) % 2 ≠ 0 then d ^^^ ((0x1 : Word) <<< 7) else d

def computeChecksum (source : Word) (nib : Bool) : Word :=
  let d := source &&& 0x3FFFFFC0
  let D29 := (source >>> 31) &&& 0x1
  let D30 := (source >>> 30) &&& 0x1
  let d := if nib then solveBits D29 D30 d else d
  let D := d
  let D := if D30 ≠ 0 then D ^^^ 0x3FFFFFC0 else D
  let D := D ||| ((D29 + countBits (bmask 0 &&& d)) % 2) <<< 5
  let D := D ||| ((D30 + countBits (bmask 1 &&& d)) % 2) <<< 4
  let D := D ||| ((D29 + countBits (bmask 2 &&& d)) % 2) <<< 3
  let D := D ||| ((D30 + countBits (bmask 3 &&& d)) % 2) <<< 2
  let D := D ||| ((D30 + countBits (bmask 4 &&& d)) % 2) <<< 1
  let D := D ||| (D29 + countBits (bmask 5 &&& d)) % 2
  D &&& 0x3FFFFFFF

/-! ## Counting -/

/-- One stage of `countBits` is a fold of digits. -/
theorem stage_toNat (k n : Nat) (c mask : Word) (positive : 0 < k) (width : (k + k) * n = 32)
    (even : mask.toNat = evenMask k n) :
    (((c >>> k) &&& mask) + (c &&& mask)).toNat = fold k n c.toNat := by
  have bound := fold_lt (k := k) positive n c.toNat
  rw [BitVec.toNat_add, BitVec.toNat_and, BitVec.toNat_and, BitVec.toNat_ushiftRight, even]
  rw [width] at bound
  exact Nat.mod_eq_of_lt bound

/-- `countBits` returns the sum of the bits. -/
theorem countBits_toNat (v : Word) : (countBits v).toNat = digitSum 1 32 v.toNat := by
  have stage1 := stage_toNat 1 16 v 0x55555555 (by decide) (by decide) (by decide)
  have stage2 := fun c => stage_toNat 2 8 c 0x33333333 (by decide) (by decide) (by decide)
  have stage3 := fun c => stage_toNat 4 4 c 0x0F0F0F0F (by decide) (by decide) (by decide)
  have stage4 := fun c => stage_toNat 8 2 c 0x00FF00FF (by decide) (by decide) (by decide)
  have stage5 := fun c => stage_toNat 16 1 c 0x0000FFFF (by decide) (by decide) (by decide)
  simp only [countBits]
  rw [← digitSum_one (k := 32) (BitVec.isLt _), stage5, digitSum_fold (k := 16) (by decide) 1,
    stage4, digitSum_fold (k := 8) (by decide) 2, stage3, digitSum_fold (k := 4) (by decide) 4,
    stage2, digitSum_fold (k := 2) (by decide) 8, stage1, digitSum_fold (k := 1) (by decide) 16]

/-- The parity of a word. -/
def parity (v : Word) : Bool :=
  xorBits v.getLsbD 32

theorem countBits_mod_two (v : Word) : (countBits v).toNat % 2 = (parity v).toNat := by
  rw [countBits_toNat, digitSum_bits_mod_two]
  rfl

/-! ## A receiver's equations -/

/-- An equation of the parity encoding: the parity bit it gives, whether `D30*` or `D29*` of
the previous word enters, and the numbers of the data bits that enter. -/
structure ParityEquation where
  bit : Nat
  useD30 : Bool
  data : List Nat
  deriving DecidableEq, Repr

/-- The parity encoding equations of IS-GPS-200. -/
def parityEquations : Fin 6 → ParityEquation :=
  ![⟨25, false, [1, 2, 3, 5, 6, 10, 11, 12, 13, 14, 17, 18, 20, 23]⟩,
    ⟨26, true, [2, 3, 4, 6, 7, 11, 12, 13, 14, 15, 18, 19, 21, 24]⟩,
    ⟨27, false, [1, 3, 4, 5, 7, 8, 12, 13, 14, 15, 16, 19, 20, 22]⟩,
    ⟨28, true, [2, 4, 5, 6, 8, 9, 13, 14, 15, 16, 17, 20, 21, 23]⟩,
    ⟨29, true, [1, 3, 5, 6, 7, 9, 10, 14, 15, 16, 17, 18, 21, 22, 24]⟩,
    ⟨30, false, [3, 5, 6, 8, 9, 10, 11, 13, 15, 19, 22, 23, 24]⟩]

/-- Bit `k` of a word, counted from 1 in the order of transmission. -/
def transmittedBit (w : Word) (k : Nat) : Bool :=
  w.getLsbD (30 - k)

/-- The data bits of a word, with the inversion by `D30*` undone; bit `d1` is the highest. -/
def receivedData (prev w : Word) : BitVec 24 :=
  let D := w.extractLsb' 6 24
  if transmittedBit prev 30 then ~~~D else D

/-- The right-hand side of an equation. -/
def ParityEquation.value (e : ParityEquation) (prev : Word) (d : BitVec 24) : Bool :=
  let star := if e.useD30 then transmittedBit prev 30 else transmittedBit prev 29
  e.data.foldr (fun k acc => d.getLsbD (24 - k) ^^ acc) star

/-- The six parity equations of a word that follows the word `prev`. -/
def ParityOk (prev w : Word) : Prop :=
  ∀ j, transmittedBit w (parityEquations j).bit =
    (parityEquations j).value prev (receivedData prev w)

instance (prev w : Word) : Decidable (ParityOk prev w) :=
  inferInstanceAs (Decidable (∀ j, transmittedBit w (parityEquations j).bit = _))

/-! ## Checksums pass the equations -/

/-- One bit as a word. -/
def bitWord (b : Bool) : Word :=
  if b then 1 else 0

theorem bitWord_getLsbD (b : Bool) (i : Nat) :
    (bitWord b).getLsbD i = (b && decide (i = 0)) := by
  cases b <;> simp [bitWord]

/-- `(source>>i)&0x1` -/
theorem shift_and_one (source : Word) (i : Nat) :
    (source >>> i) &&& 0x1 = bitWord (source.getLsbD i) := by
  apply BitVec.eq_of_getLsbD_eq
  intro j _
  rw [bitWord_getLsbD]
  by_cases first : j = 0
  · simp [first]
  · simp [first]

/-- A sum of a bit and a count, modulo 2. -/
theorem parityBit (b : Bool) (x : Word) :
    (bitWord b + countBits x) % 2 = bitWord (b ^^ parity x) := by
  have count := countBits_mod_two x
  have bound := (countBits x).isLt
  apply BitVec.eq_of_toNat_eq
  cases b <;> cases odd : parity x <;> simp [bitWord, odd] at count ⊢ <;> omega

/-- The data bits a checksum is computed from. -/
def checksumData (source : Word) (nib : Bool) : Word :=
  let d := source &&& 0x3FFFFFC0
  if nib then solveBits (bitWord (source.getLsbD 31)) (bitWord (source.getLsbD 30)) d else d

theorem bitWord_ne_zero (b : Bool) : bitWord b ≠ 0 ↔ b = true := by
  cases b <;> simp [bitWord]

/-- The value of `computeChecksum`, with the sums read as parities. -/
theorem computeChecksum_eq (source : Word) (nib : Bool) :
    let d := checksumData source nib
    let D29 := source.getLsbD 31
    let D30 := source.getLsbD 30
    computeChecksum source nib =
      ((if D30 then d ^^^ 0x3FFFFFC0 else d) |||
        bitWord (D29 ^^ parity (bmask 0 &&& d)) <<< 5 |||
        bitWord (D30 ^^ parity (bmask 1 &&& d)) <<< 4 |||
        bitWord (D29 ^^ parity (bmask 2 &&& d)) <<< 3 |||
        bitWord (D30 ^^ parity (bmask 3 &&& d)) <<< 2 |||
        bitWord (D30 ^^ parity (bmask 4 &&& d)) <<< 1 |||
        bitWord (D29 ^^ parity (bmask 5 &&& d))) &&& 0x3FFFFFFF := by
  simp only [computeChecksum, checksumData, shift_and_one, parityBit, bitWord_ne_zero]

theorem flip_getLsbD (d : Word) {i k : Nat} (other : i ≠ k) :
    (d ^^^ ((0x1 : Word) <<< k)).getLsbD i = d.getLsbD i := by
  have bit : ((0x1 : Word) <<< k).getLsbD i = false := by
    simp only [BitVec.getLsbD_shiftLeft, BitVec.ofNat_eq_ofNat, BitVec.getLsbD_one]
    grind
  rw [BitVec.getLsbD_xor, bit, Bool.xor_false]

/-- Solving changes no bit but the two it solves. -/
theorem solveBits_getLsbD (D29 D30 d : Word) {i : Nat} (six : i ≠ 6) (seven : i ≠ 7) :
    (solveBits D29 D30 d).getLsbD i = d.getLsbD i := by
  unfold solveBits
  dsimp only
  split <;> split <;> simp only [flip_getLsbD _ six, flip_getLsbD _ seven]

/-- The data lie in bits 6 to 29. -/
theorem checksumData_low (source : Word) (nib : Bool) {i : Nat} (low : i < 6) :
    (checksumData source nib).getLsbD i = false := by
  have cleared : (source &&& 0x3FFFFFC0).getLsbD i = false := by
    interval_cases i <;> simp
  unfold checksumData
  dsimp only
  split
  · rw [solveBits_getLsbD _ _ _ (by omega) (by omega), cleared]
  · exact cleared

/-- Bits 29 to 6 of the checksummed word are the data, inverted when `D30*` is set. -/
theorem computeChecksum_data (source : Word) (nib : Bool) :
    (computeChecksum source nib).extractLsb' 6 24 =
      if source.getLsbD 30 then ~~~((checksumData source nib).extractLsb' 6 24)
      else (checksumData source nib).extractLsb' 6 24 := by
  rw [computeChecksum_eq]
  apply BitVec.eq_of_getLsbD_eq
  intro i bound
  have mask : (0x3FFFFFFF : Word).getLsbD (6 + i) = true ∧
      (0x3FFFFFC0 : Word).getLsbD (6 + i) = true := by
    interval_cases i <;> decide
  have place : 6 + i < 32 := by omega
  cases star : source.getLsbD 30 <;>
    simp only [BitVec.getLsbD_extractLsb', BitVec.getLsbD_and, BitVec.getLsbD_or,
      BitVec.getLsbD_shiftLeft, bitWord_getLsbD, mask.1, bound, place] <;>
    grind

/-- The parity bits of the checksummed word. -/
theorem computeChecksum_parity (source : Word) (nib : Bool) (j : Fin 6) :
    (computeChecksum source nib).getLsbD (5 - j) =
      (source.getLsbD (if j = 1 ∨ j = 3 ∨ j = 4 then 30 else 31) ^^
        parity (bmask j &&& checksumData source nib)) := by
  rw [computeChecksum_eq]
  have low := fun i => checksumData_low source nib (i := i)
  have mask : ∀ i < 6, (0x3FFFFFFF : Word).getLsbD i = true ∧
      (0x3FFFFFC0 : Word).getLsbD i = false := by decide
  fin_cases j <;> cases star : source.getLsbD 30 <;>
    simp only [BitVec.getLsbD_and, BitVec.getLsbD_or,
      BitVec.getLsbD_shiftLeft, bitWord_getLsbD] <;>
    grind

/-- The parity of the masked data is the exclusive or of the data bits that the equation
lists. -/
theorem parity_bmask (j : Fin 6) (d : Word) (star : Bool) :
    (star ^^ parity (bmask j &&& d)) =
      (parityEquations j).data.foldr
        (fun k acc => (d.extractLsb' 6 24).getLsbD (24 - k) ^^ acc) star := by
  fin_cases j <;> cases star <;>
    simp [parity, xorBits, bmask, parityEquations, -BitVec.getLsbD_eq_getElem]

/-- Which of `D29*` and `D30*` enters an equation. -/
theorem parityEquations_useD30 (j : Fin 6) :
    (parityEquations j).bit = 25 + j ∧
      ((parityEquations j).useD30 = true ↔ j = 1 ∨ j = 3 ∨ j = 4) := by
  revert j
  decide

section Receive

variable {source prev : Word} {nib : Bool}

/-- A receiver gets the data the checksum was computed from. -/
theorem receivedData_computeChecksum (D30 : source.getLsbD 30 = transmittedBit prev 30) :
    receivedData prev (computeChecksum source nib) =
      (checksumData source nib).extractLsb' 6 24 := by
  simp only [receivedData, computeChecksum_data, D30]
  split
  · exact BitVec.not_not
  · rfl

/-- A checksummed word passes the parity equations. -/
theorem parityOk_computeChecksum (D29 : source.getLsbD 31 = transmittedBit prev 29)
    (D30 : source.getLsbD 30 = transmittedBit prev 30) :
    ParityOk prev (computeChecksum source nib) := by
  intro j
  obtain ⟨bit, star⟩ := parityEquations_useD30 j
  have place : 30 - (parityEquations j).bit = 5 - j := by omega
  rw [ParityEquation.value, receivedData_computeChecksum D30, transmittedBit, place,
    computeChecksum_parity source nib j, parity_bmask]
  congr 1
  by_cases which : j = 1 ∨ j = 3 ∨ j = 4
  · rw [if_pos which, if_pos (star.mpr which), D30]
  · rw [if_neg which, if_neg (fun use => which (star.mp use)), D29]

end Receive

end Navisim.Nav

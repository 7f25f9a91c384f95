import Mathlib.Tactic

/-!
# Samples on the link

`LMS_FMT_I12` sends twelve bits of every sample: `Samples2FPGAPacketPayload` puts a sample into
three bytes, and `FPGAPacketPayload2Samples` reads samples of this format.  What is read back is
a sample modulo 4096, with its sign.
-/

namespace Navisim.RealTime

/-- `complex16_t` -/
structure Complex16 where
  i : BitVec 16
  q : BitVec 16
  deriving DecidableEq, Repr

/-- The three bytes of a sample; the operands are promoted to `int`. -/
def packSample (s : Complex16) : List (BitVec 8) :=
  [s.i.setWidth 8,
    (((s.i.signExtend 32).sshiftRight 8 &&& 0x0F) ||| (s.q.signExtend 32 <<< 4)).setWidth 8,
    ((s.q.signExtend 32).sshiftRight 4).setWidth 8]

/-- Compressed samples of one channel. -/
def samples2FPGAPacketPayload (samples : List Complex16) : List (BitVec 8) :=
  samples.flatMap packSample

/-- `sample <<= 4; sample >> 4` -/
def unpackI (b0 b1 : BitVec 8) : BitVec 16 :=
  ((b0.setWidth 16 ||| b1.setWidth 16 <<< 8) <<< 4).sshiftRight 4

def unpackQ (b1 b2 : BitVec 8) : BitVec 16 :=
  (b1.setWidth 16 ||| b2.setWidth 16 <<< 8).sshiftRight 4

/-- Compressed samples of one channel, from whole groups of three bytes. -/
def fpgaPacketPayload2Samples : List (BitVec 8) → List Complex16
  | b0 :: b1 :: b2 :: rest =>
      { i := unpackI b0 b1, q := unpackQ b1 b2 } :: fpgaPacketPayload2Samples rest
  | _ => []

/-! ## The way there and back -/

/-- The low twelve bits, with the sign of the highest of them. -/
def lowTwelve (x : BitVec 16) : BitVec 16 :=
  (x <<< 4).sshiftRight 4

/-- What is sent for a sample. -/
def linkSample (s : Complex16) : Complex16 where
  i := lowTwelve s.i
  q := lowTwelve s.q

/-- A sample that the format can hold. -/
def InTwelveBits (x : BitVec 16) : Prop :=
  -2048 ≤ x.toInt ∧ x.toInt ≤ 2047

/-- The byte that holds the high bits of one value and the low bits of the other. -/
def middleByte (s : Complex16) : BitVec 8 :=
  (((s.i.signExtend 32).sshiftRight 8 &&& 0x0F) ||| (s.q.signExtend 32 <<< 4)).setWidth 8

theorem unpackI_pack (s : Complex16) :
    unpackI (s.i.setWidth 8) (middleByte s) = lowTwelve s.i := by
  have bits : ((s.i.setWidth 8).setWidth 16 ||| (middleByte s).setWidth 16 <<< 8) <<< 4 =
      s.i <<< 4 := by
    apply BitVec.eq_of_getLsbD_eq
    intro k bound
    unfold middleByte
    interval_cases k <;>
      simp [BitVec.getElem_sshiftRight, BitVec.getElem_signExtend]
  rw [unpackI, lowTwelve, bits]

theorem unpackQ_pack (s : Complex16) :
    unpackQ (middleByte s) (((s.q.signExtend 32).sshiftRight 4).setWidth 8) = lowTwelve s.q := by
  apply BitVec.eq_of_getLsbD_eq
  intro k bound
  unfold unpackQ lowTwelve middleByte
  interval_cases k <;>
    simp [BitVec.getElem_sshiftRight, BitVec.getElem_signExtend, BitVec.msb_eq_getLsbD_last]

/-- **Packing and reading a payload** keeps twelve bits of every value. -/
theorem payload_samples (samples : List Complex16) :
    fpgaPacketPayload2Samples (samples2FPGAPacketPayload samples) = samples.map linkSample := by
  induction samples with
  | nil => rfl
  | cons s rest ih =>
      have here : samples2FPGAPacketPayload (s :: rest) =
          s.i.setWidth 8 :: middleByte s :: ((s.q.signExtend 32).sshiftRight 4).setWidth 8 ::
            samples2FPGAPacketPayload rest := rfl
      rw [here, fpgaPacketPayload2Samples, unpackI_pack, unpackQ_pack, ih]
      rfl

theorem toInt_lowTwelve (x : BitVec 16) : (lowTwelve x).toInt = Int.bmod x.toInt 4096 := by
  have signed := BitVec.toInt_eq_toNat_bmod x
  rw [lowTwelve, BitVec.toInt_sshiftRight, BitVec.toInt_shiftLeft, Int.shiftRight_eq_div_pow,
    Nat.shiftLeft_eq]
  simp only [Int.bmod_def] at signed ⊢
  push_cast at signed ⊢
  split_ifs at signed ⊢ <;> omega

theorem lowTwelve_eq_iff (x : BitVec 16) : lowTwelve x = x ↔ InTwelveBits x := by
  rw [← BitVec.toInt_inj, toInt_lowTwelve, InTwelveBits, Int.bmod_def]
  constructor
  · intro same
    split at same <;> omega
  · intro bounds
    split <;> omega

/-- A sample is sent as it is exactly if both its values have twelve bits. -/
theorem linkSample_eq_iff (s : Complex16) :
    linkSample s = s ↔ InTwelveBits s.i ∧ InTwelveBits s.q := by
  rw [← lowTwelve_eq_iff, ← lowTwelve_eq_iff]
  cases s
  rw [linkSample, Complex16.mk.injEq]

end Navisim.RealTime

import Navisim.Nav.RoundTrip
import Navisim.Rtcm.Decode

/-!
# The broadcast fields are those of the message

An ephemeris that `decode_rtcm3` stores and `eph2sbf` encodes arrives in the subframes bit for
bit: the scale factors of the two files cancel exactly.
-/

namespace Navisim.Rtcm

open BitField Nav

/-- A part of a field in the subframes: `len` bits from bit `off` on of a word. -/
structure Part where
  isbf : Nat
  iwrd : Nat
  off : Nat
  len : Nat
  deriving DecidableEq, Repr

/-- The number in the parts of a field, the highest part first. -/
def partsValue (sbf : Subframes) (parts : List Part) : Nat :=
  parts.foldl (fun value p => value * 2 ^ p.len + field p.off p.len (sbf p.isbf p.iwrd)) 0

/-- A field: its position in the payload of message 1019 and its width, and the parts of the
subframes that carry it. -/
structure Rebroadcast where
  pos : Nat
  len : Nat
  parts : List Part
  deriving DecidableEq, Repr

/-- The fields of message 1019 that the subframes 1 to 3 carry, with the positions of the RTCM
table and of IS-GPS-200. -/
def rebroadcasts : List Rebroadcast :=
  [⟨34, 14, [⟨2, 9, 8, 14⟩]⟩, -- IDOT
   ⟨48, 8, [⟨1, 2, 22, 8⟩]⟩, -- IODE of subframe 2
   ⟨48, 8, [⟨2, 9, 22, 8⟩]⟩, -- IODE of subframe 3
   ⟨56, 16, [⟨0, 7, 6, 16⟩]⟩, -- toc
   ⟨72, 8, [⟨0, 8, 22, 8⟩]⟩, -- af2
   ⟨80, 16, [⟨0, 8, 6, 16⟩]⟩, -- af1
   ⟨96, 22, [⟨0, 9, 8, 22⟩]⟩, -- af0
   ⟨118, 10, [⟨0, 2, 6, 2⟩, ⟨0, 7, 22, 8⟩]⟩, -- IODC
   ⟨128, 16, [⟨1, 2, 6, 16⟩]⟩, -- Crs
   ⟨144, 16, [⟨1, 3, 14, 16⟩]⟩, -- delta n
   ⟨160, 32, [⟨1, 3, 6, 8⟩, ⟨1, 4, 6, 24⟩]⟩, -- M0
   ⟨192, 16, [⟨1, 5, 14, 16⟩]⟩, -- Cuc
   ⟨208, 32, [⟨1, 5, 6, 8⟩, ⟨1, 6, 6, 24⟩]⟩, -- e
   ⟨240, 16, [⟨1, 7, 14, 16⟩]⟩, -- Cus
   ⟨256, 32, [⟨1, 7, 6, 8⟩, ⟨1, 8, 6, 24⟩]⟩, -- sqrt(A)
   ⟨288, 16, [⟨1, 9, 14, 16⟩]⟩, -- toe
   ⟨304, 16, [⟨2, 2, 14, 16⟩]⟩, -- Cic
   ⟨320, 32, [⟨2, 2, 6, 8⟩, ⟨2, 3, 6, 24⟩]⟩, -- Omega0
   ⟨352, 16, [⟨2, 4, 14, 16⟩]⟩, -- Cis
   ⟨368, 32, [⟨2, 4, 6, 8⟩, ⟨2, 5, 6, 24⟩]⟩, -- i0
   ⟨400, 16, [⟨2, 6, 14, 16⟩]⟩, -- Crc
   ⟨416, 32, [⟨2, 6, 6, 8⟩, ⟨2, 7, 6, 24⟩]⟩, -- omega
   ⟨448, 24, [⟨2, 8, 6, 24⟩]⟩, -- OMEGA-dot
   ⟨472, 8, [⟨0, 6, 6, 8⟩]⟩] -- TGD

/-! ## The scale factors cancel -/

section Unscale

variable {k l : ℚ}

theorem trunc_unscale (x : Int) (nonzero : k ≠ 0) : trunc ((x : ℚ) * k / k) = x := by
  rw [mul_div_assoc, div_self nonzero, mul_one, trunc_intCast]

theorem trunc_unscale_unsigned (x : Nat) (nonzero : k ≠ 0) : trunc ((x : ℚ) * k / k) = x :=
  trunc_unscale x nonzero

theorem trunc_unscale_angle (x : Int) (nonzero : k ≠ 0) (nonzero' : l ≠ 0) :
    trunc ((x : ℚ) * k * l / k / l) = x := by
  have cancel : (x : ℚ) * k * l / k / l = x := by
    field_simp
  rw [cancel, trunc_intCast]

end Unscale

/-- The integers that `eph2sbf` packs are those that `decode_rtcm3` has read. -/
theorem scaleEphem_decodeEphem (sqrt : ℚ → ℚ) (buffer : Buffer) :
    let s := scaleEphem (decodeEphem sqrt buffer)
    s.idot = getbits buffer 58 14 ∧ s.iode = (getbitu buffer 72 8).toNat ∧
    s.toc = (getbitu buffer 80 16).toNat ∧ s.af2 = getbits buffer 96 8 ∧
    s.af1 = getbits buffer 104 16 ∧ s.af0 = getbits buffer 120 22 ∧
    s.iodc = (getbitu buffer 142 10).toNat ∧ s.crs = getbits buffer 152 16 ∧
    s.deltan = getbits buffer 168 16 ∧ s.m0 = getbits buffer 184 32 ∧
    s.cuc = getbits buffer 216 16 ∧ s.ecc = (getbitu buffer 232 32).toNat ∧
    s.cus = getbits buffer 264 16 ∧ s.sqrta = (getbitu buffer 280 32).toNat ∧
    s.toe = (getbitu buffer 312 16).toNat ∧ s.cic = getbits buffer 328 16 ∧
    s.omg0 = getbits buffer 344 32 ∧ s.cis = getbits buffer 376 16 ∧
    s.inc0 = getbits buffer 392 32 ∧ s.crc = getbits buffer 424 16 ∧
    s.aop = getbits buffer 440 32 ∧ s.omgdot = getbits buffer 472 24 ∧
    s.tgd = getbits buffer 496 8 := by
  have angle : (pi : ℚ) ≠ 0 := by norm_num [pi]
  have sixteen : (16.0 : ℚ) ≠ 0 := by norm_num
  have m5 : (pow2M5 : ℚ) ≠ 0 := by norm_num [pow2M5]
  have m19 : (pow2M19 : ℚ) ≠ 0 := by norm_num [pow2M19]
  have m29 : (pow2M29 : ℚ) ≠ 0 := by norm_num [pow2M29]
  have m31 : (pow2M31 : ℚ) ≠ 0 := by norm_num [pow2M31]
  have m33 : (pow2M33 : ℚ) ≠ 0 := by norm_num [pow2M33]
  have m43 : (pow2M43 : ℚ) ≠ 0 := by norm_num [pow2M43]
  have m55 : (pow2M55 : ℚ) ≠ 0 := by norm_num [pow2M55]
  exact ⟨trunc_unscale_angle _ m43 angle, rfl, trunc_unscale_unsigned _ sixteen,
    trunc_unscale _ m55, trunc_unscale _ m43, trunc_unscale _ m31, rfl, trunc_unscale _ m5,
    trunc_unscale_angle _ m43 angle, trunc_unscale_angle _ m31 angle, trunc_unscale _ m29,
    trunc_unscale_unsigned _ m33, trunc_unscale _ m29, trunc_unscale_unsigned _ m19,
    trunc_unscale_unsigned _ sixteen, trunc_unscale _ m29, trunc_unscale_angle _ m31 angle,
    trunc_unscale _ m29, trunc_unscale_angle _ m31 angle, trunc_unscale _ m5,
    trunc_unscale_angle _ m31 angle, trunc_unscale_angle _ m43 angle, trunc_unscale _ m31⟩

section Fields

variable {buffer : Buffer} {len : Nat}

/-- The packed bits of a signed field are those of the message. -/
theorem residue_getbits (pos : Nat) (positive : 0 < len) (fits : len ≤ 32) :
    residue len (getbits buffer pos len) = messageField buffer pos len := by
  rw [getbits_eq pos positive fits, residue_signExtend (messageField_lt ..)]

/-- The packed bits of an unsigned field are those of the message. -/
theorem residue_getbitu (pos : Nat) (fits : len ≤ 32) :
    residue len (getbitu buffer pos len).toNat = messageField buffer pos len := by
  rw [getbitu_toNat _ _ fits, residue_natCast (messageField_lt ..)]

end Fields

/-- `eph2sbf` packs a decoded ephemeris field by field as the message has it. -/
theorem partsValue_decodeEphem (sqrt : ℚ → ℚ) (buffer : Buffer) (ionoutc : IonoUtc ℚ) :
    ∀ r ∈ rebroadcasts,
      partsValue (eph2sbf (decodeEphem sqrt buffer) ionoutc) r.parts =
        messageField buffer (24 + r.pos) r.len := by
  have scaled := scaleEphem_decodeEphem sqrt buffer
  dsimp only at scaled
  generalize decodeEphem sqrt buffer = eph at scaled
  simp (disch := decide) only [rebroadcasts, List.forall_mem_cons, partsValue, List.foldl_cons,
    List.foldl_nil, eph2sbf, subframe1, subframe2, subframe3, ura, field_or, field_apart,
    field_piece, ofInt_toNat_mod, residue_split, Nat.or_zero, Nat.zero_or, zero_mul, zero_add,
    scaled, Nat.reduceAdd, residue_getbits, residue_getbitu, List.not_mem_nil,
    IsEmpty.forall_iff, implies_true, and_self]

/-- `decode_rtcm3` stores the ephemeris of a message 1019 under its satellite. -/
theorem decodeRtcm3_stored (sqrt : ℚ → ℚ) (eph : Table) (buffer : Buffer) {len : Int}
    (type : messageField buffer 24 12 = 1019) (sat : messageField buffer 36 6 ≤ 32)
    (whole : 61 + 3 ≤ len) :
    (decodeRtcm3 sqrt eph buffer len).2.eph (messageField buffer 36 6 - 1) =
      decodeEphem sqrt buffer := by
  have type' : (getbitu buffer 24 12).toNat = 1019 := by
    rw [getbitu_toNat _ _ (by decide), type]
  have prn : (getbitu buffer (24 + 12) 6).toNat = messageField buffer 36 6 :=
    getbitu_toNat _ _ (by decide)
  simp only [decodeRtcm3]
  rw [if_pos type', if_pos (by push_cast; omega), prn, if_pos (by omega)]
  exact Function.update_self ..

/-- **The message is rebroadcast bit for bit.**  Every message 1019 of 61 bytes for one of the
satellites 1 to 32, whatever its bits are, arrives field by field in the subframes 1 to 3. -/
theorem rebroadcast_exact (sqrt : ℚ → ℚ) (eph : Table) (buffer : Buffer) (len : Int)
    (ionoutc : IonoUtc ℚ) (type : messageField buffer 24 12 = 1019)
    (sat : 1 ≤ messageField buffer 36 6 ∧ messageField buffer 36 6 ≤ 32) (whole : 61 + 3 ≤ len) :
    ∀ r ∈ rebroadcasts,
      partsValue (eph2sbf ((decodeRtcm3 sqrt eph buffer len).2.eph (messageField buffer 36 6 - 1))
        ionoutc) r.parts = messageField buffer (24 + r.pos) r.len := by
  rw [decodeRtcm3_stored sqrt eph buffer type sat.2 whole]
  exact partsValue_decodeEphem sqrt buffer ionoutc

/-- A message 1019 for satellite 5 with a pattern of bits in its fields. -/
def sampleMessage : Buffer := fun k =>
  if k < 6 then [0xD3, 0x00, 0x3D, 0x3F, 0xB1, 0x7A].getD k 0 else BitVec.ofNat 8 (37 * k + 200)

theorem rebroadcast_exact_sample :
    (rebroadcasts.map fun r =>
      partsValue (eph2sbf ((decodeRtcm3 id { eph := fun _ => Nav.sampleEphem, nSV := 0 }
        sampleMessage 64).2.eph (messageField sampleMessage 36 6 - 1)) Nav.sampleIono) r.parts) =
      rebroadcasts.map fun r => messageField sampleMessage (24 + r.pos) r.len :=
  List.map_congr_left
    (rebroadcast_exact id _ sampleMessage 64 Nav.sampleIono (by decide) (by decide) (by decide))

end Navisim.Rtcm

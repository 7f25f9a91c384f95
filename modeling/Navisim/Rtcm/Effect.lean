import Navisim.Rtcm.History

/-!
# What a message reads and writes

The bit fields that `decode_rtcm3` reads (`decodeReads`), and the entry it replaces.  Its tests
leave two gaps: the type is read before any length is tested, and the satellite 0 passes the test
of the id (`effectSafe_iff`).
-/

namespace Navisim.Rtcm

/-! ## The bits that are read -/

/-- A field of a message: its position and its length. -/
abbrev BitRange := Nat × Nat

/-- Fields that follow each other, as `i` is advanced. -/
def fieldsFrom : Nat → List Nat → List BitRange
  | _, [] => []
  | i, len :: rest => (i, len) :: fieldsFrom (i + len) rest

/-- The lengths of the fields of an ephemeris behind the satellite id, from `week` to `vflg`. -/
def ephemLengths : List Nat :=
  [10, 4, 2, 14, 8, 16, 8, 16, 22, 10, 16, 16, 32, 16, 32, 16, 32, 16, 16, 32, 16, 32, 16, 32, 24,
    8, 6, 1]

/-- The calls of `getbitu` and `getbits` that `decode_rtcm3` makes. -/
def decodeReads (buffer : Buffer) (len : Int) : List BitRange :=
  (24, 12) ::
    if (getbitu buffer 24 12).toNat = 1019 then
      if ((24 + 12 : Nat) : Int) + 476 ≤ len * 8 then
        (24 + 12, 6) ::
          if (getbitu buffer (24 + 12) 6).toNat ≤ 32 then fieldsFrom (24 + 12 + 6) ephemLengths
          else []
      else []
    else []

/-! ## The effect of a message -/

section Effect

variable {buffer : Buffer} {len : Int}

/-- Only bits of the first `len` bytes are read. -/
def ReadsInside (buffer : Buffer) (len : Int) : Prop :=
  ∀ r ∈ decodeReads buffer len, ((r.1 + r.2 : Nat) : Int) ≤ len * 8

/-- Whatever the table is, it is left unchanged, or only the entry of the satellite of the message
is replaced, which is one of the satellites that the table has. -/
def ReplacesOne (sqrt : ℚ → ℚ) (buffer : Buffer) (len : Int) : Prop :=
  ∀ eph : Table, (decodeRtcm3 sqrt eph buffer len).2.eph = eph.eph ∨
    ∃ p entry, 1 ≤ p ∧ p ≤ maxSat ∧ p = messageField buffer 36 6 ∧
      (decodeRtcm3 sqrt eph buffer len).2.eph = Function.update eph.eph ((p : Int) - 1) entry

structure EffectSafe (sqrt : ℚ → ℚ) (buffer : Buffer) (len : Int) : Prop where
  inside : ReadsInside buffer len
  one : ReplacesOne sqrt buffer len

/-- An ephemeris message of the satellite 0. -/
def NoSatellite (buffer : Buffer) (len : Int) : Prop :=
  messageField buffer 24 12 = 1019 ∧ 61 + 3 ≤ len ∧ messageField buffer 36 6 = 0

/-- The fields of an ephemeris lie inside a message that is long enough. -/
theorem readsInside_iff : ReadsInside buffer len ↔ 5 ≤ len := by
  constructor
  · intro inside
    have type := inside (24, 12) List.mem_cons_self
    dsimp only at type
    omega
  · intro payload r member
    rw [decodeReads, List.mem_cons] at member
    rcases member with rfl | member
    · push_cast
      omega
    split at member
    · split at member
      · rename_i long
        have last : ∀ r ∈ (24 + 12, 6) :: fieldsFrom (24 + 12 + 6) ephemLengths,
            r.1 + r.2 ≤ 511 := by
          decide
        have field : r.1 + r.2 ≤ 511 := by
          apply last r
          rw [List.mem_cons] at member ⊢
          rcases member with rfl | member
          · exact Or.inl rfl
          · split at member
            · exact Or.inr member
            · exact absurd member (by simp)
        omega
      · exact absurd member (by simp)
    · exact absurd member (by simp)

theorem stores_iff : Stores (buffer, len) ↔
    messageField buffer 24 12 = 1019 ∧ 61 + 3 ≤ len ∧ messageField buffer 36 6 ≤ 32 := by
  unfold Stores
  dsimp only
  rw [getbitu_toNat _ _ (by decide), getbitu_toNat _ _ (by decide)]
  refine and_congr_right fun _ => and_congr_left fun _ => ?_
  push_cast
  omega

/-- The table after a message. -/
theorem decodeRtcm3_table (sqrt : ℚ → ℚ) (eph : Table) (buffer : Buffer) (len : Int) :
    (decodeRtcm3 sqrt eph buffer len).2.eph =
      if Stores (buffer, len) then
        Function.update eph.eph ((messageField buffer 36 6 : Int) - 1) (decodeEphem sqrt buffer)
      else eph.eph := by
  have prn : (getbitu buffer (24 + 12) 6).toNat = messageField buffer 36 6 :=
    getbitu_toNat _ _ (by decide)
  rw [decodeRtcm3_eq sqrt eph (buffer, len)]
  by_cases truncated : Truncated (buffer, len)
  · have passes : ¬ Stores (buffer, len) := fun stores => stores.whole truncated
    rw [if_pos truncated, if_neg passes]
  rw [if_neg truncated]
  split
  · rw [prn]
  · rfl

/-- The entry of a known satellite is replaced, and that of satellite 0 lies in front of the
table. -/
theorem replacesOne_iff (sqrt : ℚ → ℚ) :
    ReplacesOne sqrt buffer len ↔ ¬ NoSatellite buffer len := by
  constructor
  · intro one stray
    rcases stray with ⟨type, long, sat⟩
    have stores : Stores (buffer, len) := stores_iff.mpr ⟨type, long, by omega⟩
    -- Every entry of the table differs from the one that is stored.
    let other : Ephem ℚ := { decodeEphem sqrt buffer with vflg := 0 }
    have differs : decodeEphem sqrt buffer ≠ other := by
      intro same
      have flag := congrArg Ephem.vflg same
      exact absurd flag (by simp [other, decodeEphem])
    have written := decodeRtcm3_table sqrt { eph := fun _ => other, nSV := 0 } buffer len
    rw [if_pos stores, sat] at written
    have front := congrFun written (-1)
    rw [show ((0 : Nat) : Int) - 1 = -1 by rfl, Function.update_self] at front
    rcases one { eph := fun _ => other, nSV := 0 } with same | ⟨p, entry, lower, -, -, replaced⟩
    · rw [same] at front
      exact differs front.symm
    · rw [replaced, Function.update_of_ne (by omega)] at front
      exact differs front.symm
  · intro satellite eph
    rw [decodeRtcm3_table]
    by_cases stores : Stores (buffer, len)
    · obtain ⟨type, long, sat⟩ := stores_iff.mp stores
      have positive : messageField buffer 36 6 ≠ 0 := fun zero => satellite ⟨type, long, zero⟩
      rw [if_pos stores]
      exact Or.inr ⟨messageField buffer 36 6, decodeEphem sqrt buffer, by omega, sat, rfl, rfl⟩
    · rw [if_neg stores]
      exact Or.inl rfl

/-- **When a message is safe**: it has at least two bytes of payload, and is no ephemeris of the
satellite 0. -/
theorem effectSafe_iff (sqrt : ℚ → ℚ) (buffer : Buffer) (len : Int) :
    EffectSafe sqrt buffer len ↔ 5 ≤ len ∧ ¬ NoSatellite buffer len := by
  rw [← readsInside_iff, ← replacesOne_iff sqrt]
  exact ⟨fun ⟨inside, one⟩ => ⟨inside, one⟩, fun ⟨inside, one⟩ => ⟨inside, one⟩⟩

/-- A message 1019 of satellite 0. -/
def strayMessage : List (BitVec 8) :=
  [0xD3, 0x00, 0x3D, 0x3F, 0xB0, 0x00] ++ List.replicate 58 0 ++ [0x40, 0xA2, 0x0E]

/-- A frame without a payload. -/
def emptyMessage : List (BitVec 8) :=
  [0xD3, 0x00, 0x00, 0x47, 0xEA, 0x4B]

theorem strayMessage_effect :
    (crc24q (toBuffer strayMessage) 64 = getbitu (toBuffer strayMessage) (64 * 8) 24 ∧
      ¬ ReplacesOne id (toBuffer strayMessage) 64) ∧
    crc24q (toBuffer emptyMessage) 3 = getbitu (toBuffer emptyMessage) (3 * 8) 24 ∧
      ¬ ReadsInside (toBuffer emptyMessage) 3 := by
  have stray : NoSatellite (toBuffer strayMessage) 64 := by
    refine ⟨?_, ?_, ?_⟩ <;> decide
  refine ⟨⟨by decide +kernel, fun one => (replacesOne_iff id).mp one stray⟩, by decide +kernel,
    fun inside => ?_⟩
  exact absurd (readsInside_iff.mp inside) (by decide)

end Effect

end Navisim.Rtcm

import Navisim.Nav.Receiver

/-!
# What is sent is received

A receiver of a message that `generateNavMsg` has made from the subframes of `eph2sbf` accepts
every word and reads the integers that `eph2sbf` has scaled (`receiveFrame_generateNavMsg`).
-/

namespace Navisim.Nav

open BitField

/-! ## Words -/

/-- A word whose bits 30 and 31 are free for the last two bits of the previous word. -/
def Free (w : Word) : Prop :=
  field 30 2 w = 0

instance (w : Word) : Decidable (Free w) :=
  inferInstanceAs (Decidable (_ = _))

theorem free_or {v w : Word} : Free (v ||| w) ↔ Free v ∧ Free w := by
  rw [Free, field_or, Nat.or_eq_zero_iff, Free, Free]

theorem free_piece {v mask : Word} {off : Nat} (apart : Free (mask <<< off)) :
    Free ((v &&& mask) <<< off) :=
  field_apart apart

theorem Free.getLsbD {w : Word} (free : Free w) : w.getLsbD 30 = false ∧ w.getLsbD 31 = false := by
  have bit30 := testBit_field 30 2 w 0
  have bit31 := testBit_field 30 2 w 1
  rw [free] at bit30 bit31
  simpa using And.intro bit30.symm bit31.symm

theorem Free.addTow {w : Word} (free : Free w) (iwrd tow : Nat) : Free (addTow w iwrd tow) := by
  unfold Nav.addTow
  split
  · exact free_or.mpr ⟨free, free_piece (by decide)⟩
  · exact free

theorem Free.addWeek {w : Word} (free : Free w) (isbf iwrd : Nat) (wn : Word) :
    Free (addWeek w isbf iwrd wn) := by
  unfold Nav.addWeek
  split
  · exact free_or.mpr ⟨free, free_piece (by decide)⟩
  · exact free

section Words

variable {w prev : Word} {iwrd tow : Nat}

/-- The last two bits of the previous word, in bits 31 and 30. -/
theorem stars_getLsbD (prev : Word) (free : Free w) :
    (w ||| (prev <<< 30 &&& 0xC0000000)).getLsbD 31 = transmittedBit prev 29 ∧
      (w ||| (prev <<< 30 &&& 0xC0000000)).getLsbD 30 = transmittedBit prev 30 := by
  obtain ⟨bit30, bit31⟩ := free.getLsbD
  simp only [BitVec.getLsbD_or, bit30, bit31, BitVec.getLsbD_and, BitVec.getLsbD_shiftLeft,
    transmittedBit]
  constructor <;> simp

/-- A receiver accepts a word that is sent. -/
theorem parityOk_sendWord (free : Free w) : ParityOk prev (sendWord w iwrd tow prev) := by
  obtain ⟨D29, D30⟩ := stars_getLsbD prev (free.addTow iwrd tow)
  exact parityOk_computeChecksum D29 D30

/-- The data a receiver gets are the bits that were sent, up to the solved ones. -/
theorem receivedData_sendWord (free : Free w) {i : Nat} (bound : i < 24)
    (kept : iwrd = 1 ∨ iwrd = 9 → 2 ≤ i) :
    (receivedData prev (sendWord w iwrd tow prev)).getLsbD i =
      (addTow w iwrd tow).getLsbD (6 + i) := by
  obtain ⟨-, D30⟩ := stars_getLsbD prev (free.addTow iwrd tow)
  rw [sendWord, receivedData_computeChecksum D30, BitVec.getLsbD_extractLsb']
  have masks : (0x3FFFFFC0 : Word).getLsbD (6 + i) = true ∧
      (0xC0000000 : Word).getLsbD (6 + i) = false := by
    interval_cases i <;> decide
  have source : ((addTow w iwrd tow ||| (prev <<< 30 &&& 0xC0000000)) &&&
      0x3FFFFFC0).getLsbD (6 + i) = (addTow w iwrd tow).getLsbD (6 + i) := by
    simp only [BitVec.getLsbD_and, BitVec.getLsbD_or, masks.1, masks.2, Bool.and_false,
      Bool.or_false, Bool.and_true]
  unfold checksumData
  dsimp only
  split
  · rename_i nib
    have place := kept (by simpa using nib)
    rw [solveBits_getLsbD _ _ _ (by omega) (by omega), source]
    simp [bound]
  · rw [source]
    simp [bound]

end Words

/-- The data of a subframe are the bits of the words `src` with the TOW count, where the last
two bits of words 2 and 10 are not data. -/
def Carries (d : Nat → BitVec 24) (tow : Nat) (src : Subframe) : Prop :=
  ∀ n first last, 1 ≤ n → n ≤ 10 → 1 ≤ first → first ≤ last → last ≤ 24 →
    (n = 2 ∨ n = 10 → last ≤ 22) →
    cut (d n) first last =
      field (30 - last) (last + 1 - first) (addTow (src (n - 1)) (n - 1) tow)

/-! ## Fields -/

/-- The scaled fields of an ephemeris lie in the ranges of their widths. -/
structure Scaled.InRange (s : Scaled) : Prop where
  toe : Unsigned 16 s.toe
  toc : Unsigned 16 s.toc
  iode : Unsigned 8 s.iode
  iodc : Unsigned 10 s.iodc
  deltan : Signed 16 s.deltan
  cuc : Signed 16 s.cuc
  cus : Signed 16 s.cus
  cic : Signed 16 s.cic
  cis : Signed 16 s.cis
  crc : Signed 16 s.crc
  crs : Signed 16 s.crs
  ecc : Unsigned 32 s.ecc
  sqrta : Unsigned 32 s.sqrta
  m0 : Signed 32 s.m0
  omg0 : Signed 32 s.omg0
  inc0 : Signed 32 s.inc0
  aop : Signed 32 s.aop
  omgdot : Signed 24 s.omgdot
  idot : Signed 14 s.idot
  af0 : Signed 22 s.af0
  af1 : Signed 16 s.af1
  af2 : Signed 8 s.af2
  tgd : Signed 8 s.tgd
  svhlth : Unsigned 6 s.svhlth
  codeL2 : Unsigned 2 s.codeL2
  wna : Unsigned 8 s.wna
  toa : Unsigned 8 s.toa

/-- The scaled fields of page 18 lie in the ranges of their widths. -/
structure ScaledIono.InRange (u : ScaledIono) : Prop where
  alpha0 : Signed 8 u.alpha0
  alpha1 : Signed 8 u.alpha1
  alpha2 : Signed 8 u.alpha2
  alpha3 : Signed 8 u.alpha3
  beta0 : Signed 8 u.beta0
  beta1 : Signed 8 u.beta1
  beta2 : Signed 8 u.beta2
  beta3 : Signed 8 u.beta3
  A0 : Signed 32 u.A0
  A1 : Signed 24 u.A1
  dtls : Signed 8 u.dtls
  tot : Unsigned 8 u.tot
  wnt : Unsigned 8 u.wnt
  wnlsf : Unsigned 8 u.wnlsf
  dn : Unsigned 8 u.dn
  dtlsf : Signed 8 u.dtlsf

def Scaled.clock (s : Scaled) (wn : Int) : Clock where
  wn := wn
  codeL2 := s.codeL2
  ura := 0
  svhlth := s.svhlth
  iodc := s.iodc
  tgd := s.tgd
  toc := s.toc
  af2 := s.af2
  af1 := s.af1
  af0 := s.af0

def Scaled.orbit (s : Scaled) : Orbit where
  iode := s.iode
  crs := s.crs
  deltan := s.deltan
  m0 := s.m0
  cuc := s.cuc
  ecc := s.ecc
  cus := s.cus
  sqrta := s.sqrta
  toe := s.toe

def Scaled.plane (s : Scaled) : Plane where
  cic := s.cic
  omg0 := s.omg0
  cis := s.cis
  inc0 := s.inc0
  crc := s.crc
  aop := s.aop
  omgdot := s.omgdot
  iode := s.iode
  idot := s.idot

section Decode

variable {d : Nat → BitVec 24} {s : Scaled} {u : ScaledIono} {tow : Nat}

/-- The first two words are read back, with the TOW count they were sent with. -/
theorem decodeHeader_of_carries {src : Subframe} (id : Nat) (carries : Carries d tow src)
    (tlm : src 0 = (0x8B0000 : Word) <<< 6) (how : src 1 = BitVec.ofNat 32 id <<< 8)
    (small : id < 8) (range : tow < 2 ^ 17) :
    decodeHeader d = { preamble := 0x8B, tow := tow, id := id } := by
  have towField : (BitVec.ofNat 32 tow).toNat % 2 ^ 17 = tow := by
    rw [BitVec.toNat_ofNat]
    omega
  have preamble : field 22 8 (src 0) = 0x8B := by
    rw [tlm]
    decide
  have idField : field 13 17 (src 1) = 0 ∧ field 8 3 (src 1) = id := by
    rw [how]
    interval_cases id <;> decide
  unfold Carries at carries
  simp (disch := decide) only [decodeHeader, carries]
  simp (disch := decide) only [addTow, field_or, field_apart, field_piece, preamble, idField,
    towField, Nat.or_zero, Nat.zero_or, Nat.reduceSub, Nat.reduceAdd, reduceIte, zero_ne_one]

/-- Subframe 1 is read back, with the week number it was sent with. -/
theorem decodeClock_of_carries {wn : Int}
    (carries : Carries d tow fun iwrd => addWeek (subframe1 s iwrd) 0 iwrd (word wn))
    (week : Unsigned 10 wn) (range : s.InRange) : decodeClock d = s.clock wn := by
  have zero : (0 : Word).toNat = 0 := rfl
  unfold Carries at carries
  simp (disch := decide) only [decodeClock, cutSplit, carries]
  simp (disch := decide) only [addTow, addWeek, subframe1, ura, field_or, field_apart, field_piece,
    ofInt_toNat_mod, residue_split, Nat.or_zero, Nat.zero_or, Nat.reduceSub, Nat.reduceAdd,
    reduceIte, OfNat.ofNat_ne_one, and_true, and_false, Nat.reduceEqDiff, zero, Nat.zero_mod]
  rw [Scaled.clock, Clock.mk.injEq]
  exact ⟨residue_of_unsigned week, residue_of_unsigned range.codeL2, rfl,
    residue_of_unsigned range.svhlth, residue_of_unsigned range.iodc,
    signExtend_residue (by decide) range.tgd, residue_of_unsigned range.toc,
    signExtend_residue (by decide) range.af2, signExtend_residue (by decide) range.af1,
    signExtend_residue (by decide) range.af0⟩

/-- Subframe 2 is read back. -/
theorem decodeOrbit_of_carries (carries : Carries d tow (subframe2 s)) (range : s.InRange) :
    decodeOrbit d = s.orbit := by
  unfold Carries at carries
  simp (disch := decide) only [decodeOrbit, cutSplit, carries]
  simp (disch := decide) only [addTow, subframe2, field_or, field_apart, field_piece,
    ofInt_toNat_mod, residue_split, Nat.or_zero, Nat.zero_or, Nat.reduceSub, Nat.reduceAdd,
    OfNat.ofNat_ne_one, reduceIte]
  rw [Scaled.orbit, Orbit.mk.injEq]
  exact ⟨residue_of_unsigned range.iode, signExtend_residue (by decide) range.crs,
    signExtend_residue (by decide) range.deltan, signExtend_residue (by decide) range.m0,
    signExtend_residue (by decide) range.cuc, residue_of_unsigned range.ecc,
    signExtend_residue (by decide) range.cus, residue_of_unsigned range.sqrta,
    residue_of_unsigned range.toe⟩

/-- Subframe 3 is read back. -/
theorem decodePlane_of_carries (carries : Carries d tow (subframe3 s)) (range : s.InRange) :
    decodePlane d = s.plane := by
  unfold Carries at carries
  simp (disch := decide) only [decodePlane, cutSplit, carries]
  simp (disch := decide) only [addTow, subframe3, field_or, field_apart, field_piece,
    ofInt_toNat_mod, residue_split, Nat.or_zero, Nat.zero_or, Nat.reduceSub, Nat.reduceAdd,
    OfNat.ofNat_ne_one, reduceIte]
  rw [Scaled.plane, Plane.mk.injEq]
  exact ⟨signExtend_residue (by decide) range.cic, signExtend_residue (by decide) range.omg0,
    signExtend_residue (by decide) range.cis, signExtend_residue (by decide) range.inc0,
    signExtend_residue (by decide) range.crc, signExtend_residue (by decide) range.aop,
    signExtend_residue (by decide) range.omgdot, residue_of_unsigned range.iode,
    signExtend_residue (by decide) range.idot⟩

/-- The page identification of subframes 4 and 5, which is not masked. -/
theorem field_dataId : field 28 2 (dataId <<< 28) = 1 ∧ field 22 6 (dataId <<< 28) = 0 ∧
    field 14 8 (dataId <<< 28) = 0 ∧ field 6 8 (dataId <<< 28) = 0 := by
  decide

theorem field_svId18 : field 28 2 (sbf4Page18SvId <<< 22) = 0 ∧
    field 22 6 (sbf4Page18SvId <<< 22) = 56 ∧ field 14 8 (sbf4Page18SvId <<< 22) = 0 ∧
    field 6 8 (sbf4Page18SvId <<< 22) = 0 := by
  decide

theorem field_svId25 : field 28 2 (sbf4Page25SvId <<< 22) = 0 ∧
    field 22 6 (sbf4Page25SvId <<< 22) = 63 := by
  decide

theorem field_svId5 : field 28 2 (sbf5Page25SvId <<< 22) = 0 ∧
    field 22 6 (sbf5Page25SvId <<< 22) = 51 ∧ field 14 8 (sbf5Page25SvId <<< 22) = 0 ∧
    field 6 8 (sbf5Page25SvId <<< 22) = 0 := by
  decide

/-- Page 18 of subframe 4 is read back. -/
theorem decodePage4_of_carries18 (carries : Carries d tow (subframe4Page18 u))
    (range : u.InRange) : decodePage4 d = some (.page18 { dataId := 1, svId := 56 } u) := by
  unfold Carries at carries
  have id : decodePageId d = { dataId := 1, svId := 56 } := by
    simp (disch := decide) only [decodePageId, carries]
    simp (disch := decide) only [addTow, subframe4Page18, field_or, field_apart, field_dataId,
      field_svId18, Nat.or_zero, Nat.zero_or, Nat.reduceSub, Nat.reduceAdd, OfNat.ofNat_ne_one,
      reduceIte]
  have fields : decodePage18 d = u := by
    simp (disch := decide) only [decodePage18, cutSplit, carries]
    simp (disch := decide) only [addTow, subframe4Page18, field_or, field_apart, field_piece,
      field_dataId, field_svId18, ofInt_toNat_mod, residue_split, Nat.or_zero, Nat.zero_or,
      Nat.reduceSub, Nat.reduceAdd, OfNat.ofNat_ne_one, reduceIte]
    obtain ⟨⟩ := u
    rw [ScaledIono.mk.injEq]
    exact ⟨signExtend_residue (by decide) range.alpha0,
      signExtend_residue (by decide) range.alpha1, signExtend_residue (by decide) range.alpha2,
      signExtend_residue (by decide) range.alpha3, signExtend_residue (by decide) range.beta0,
      signExtend_residue (by decide) range.beta1, signExtend_residue (by decide) range.beta2,
      signExtend_residue (by decide) range.beta3, signExtend_residue (by decide) range.A0,
      signExtend_residue (by decide) range.A1, signExtend_residue (by decide) range.dtls,
      residue_of_unsigned range.tot, residue_of_unsigned range.wnt,
      residue_of_unsigned range.wnlsf, residue_of_unsigned range.dn,
      signExtend_residue (by decide) range.dtlsf⟩
  rw [decodePage4, id, fields]
  rfl

/-- Page 25 of subframe 4 is read back. -/
theorem decodePage4_of_carries25 (carries : Carries d tow subframe4Page25) :
    decodePage4 d = some (.page25 { dataId := 1, svId := 63 } [0, 0, 0, 0, 0, 0, 0]) := by
  have page : addTow (subframe4Page25 2) 2 tow = dataId <<< 28 ||| sbf4Page25SvId <<< 22 := rfl
  have id : decodePageId d = { dataId := 1, svId := 63 } := by
    rw [decodePageId, carries 3 1 2 (by decide) (by decide) (by decide) (by decide) (by decide)
      (by decide), carries 3 3 8 (by decide) (by decide) (by decide) (by decide) (by decide)
      (by decide), page]
    simp only [field_or, field_dataId, field_svId25, Nat.or_zero, Nat.zero_or, Nat.reduceSub,
      Nat.reduceAdd]
  have empty : ∀ n last, 4 ≤ n → n ≤ 10 → 1 ≤ last → last ≤ 24 → (n = 2 ∨ n = 10 → last ≤ 22) →
      cut (d n) 1 last = 0 := by
    intro n last lower upper first bound kept
    have word : addTow (subframe4Page25 (n - 1)) (n - 1) tow = 0 := by
      interval_cases n <;> rfl
    rw [carries n 1 last (by omega) upper le_rfl first bound kept, word]
    exact field_zero
  have other : (63 : Nat) ≠ 56 := by decide
  simp (disch := decide) only [decodePage4, id, if_neg other, reduceIte, empty]

/-- Page 25 of subframe 5 is read back. -/
theorem decodePage5_of_carries (carries : Carries d tow (subframe5 s)) (range : s.InRange) :
    decodePage5 d = {
      id := { dataId := 1, svId := 51 }
      toa := s.toa
      wna := s.wna
      health := [0, 0, 0, 0, 0, 0] } := by
  have zero : field 6 24 (0 : Word) = 0 := field_zero
  unfold Carries at carries
  simp (disch := decide) only [decodePage5, decodePageId, carries]
  simp (disch := decide) only [addTow, subframe5, field_or, field_apart, field_piece,
    field_dataId, field_svId5, ofInt_toNat_mod, Nat.or_zero, Nat.zero_or, Nat.reduceSub,
    Nat.reduceAdd, OfNat.ofNat_ne_one, reduceIte, zero, residue_of_unsigned range.toa,
    residue_of_unsigned range.wna]

end Decode

/-! ## Frames -/

/-- `eph2sbf` leaves the two highest bits of every word free, whatever the ephemeris is. -/
theorem eph2sbf_free {F : Type*} [Div F] [OfScientific F] [Rounding F] (eph : Ephem F)
    (ionoutc : IonoUtc F) (isbf iwrd : Nat) : Free (eph2sbf eph ionoutc isbf iwrd) := by
  have dataId30 : Free (dataId <<< 28) ∧ Free (sbf4Page18SvId <<< 22) ∧
      Free (sbf5Page25SvId <<< 22) := by
    decide
  unfold eph2sbf
  split
  case h_1 =>
    unfold subframe1
    split <;> first | decide | simp (disch := decide) only [free_or, free_piece, and_self]
  case h_2 =>
    unfold subframe2
    split <;> first | decide | simp (disch := decide) only [free_or, free_piece, and_self]
  case h_3 =>
    unfold subframe3
    split <;> first | decide | simp (disch := decide) only [free_or, free_piece, and_self]
  case h_4 =>
    split
    · unfold subframe4Page18
      split <;>
        first | decide | simp (disch := decide) only [free_or, free_piece, dataId30, and_self]
    · unfold subframe4Page25
      split <;> decide
  case h_5 =>
    unfold subframe5
    split <;> first | decide | simp (disch := decide) only [free_or, free_piece, dataId30, and_self]
  case h_6 => exact (by decide : Free 0)

section Frames

variable (g : GpsTime ℚ) {chan : Channel} (init : Int) {isbf : Nat}

/-- A receiver accepts every subframe of a frame. -/
theorem receiveSubframe_generateNavMsg (free : ∀ iwrd, Free (chan.sbf isbf iwrd))
    (inFrame : isbf < nSbf) :
    receiveSubframe (generateNavMsg g chan init).dwrd ((isbf + 1) * nDwrdSbf : Nat) =
      some (subframeData (generateNavMsg g chan init).dwrd ((isbf + 1) * nDwrdSbf : Nat)) := by
  rw [receiveSubframe, if_pos]
  intro iwrd inSubframe
  rw [← Nat.cast_add, generateNavMsg_frame g chan init inFrame inSubframe]
  exact parityOk_sendWord ((free iwrd).addWeek ..)

/-- What a receiver reads in a subframe is what was put into it. -/
theorem carries_generateNavMsg (free : ∀ iwrd, Free (chan.sbf isbf iwrd))
    (inFrame : isbf < nSbf) :
    Carries (subframeData (generateNavMsg g chan init).dwrd ((isbf + 1) * nDwrdSbf : Nat))
      (frameTow g + (isbf + 1))
      (fun iwrd => addWeek (chan.sbf isbf iwrd) isbf iwrd (frameWeek g)) := by
  intro n first last lower upper pos ordered bound kept
  have inSubframe : n - 1 < nDwrdSbf := by
    simp only [nDwrdSbf]
    omega
  have word := generateNavMsg_frame g chan init inFrame inSubframe
  have here : (((isbf + 1) * nDwrdSbf : Nat) : Int) + n - 1 =
      ((isbf + 1) * nDwrdSbf + (n - 1) : Nat) := by
    push_cast [lower]
    ring
  have before : (((isbf + 1) * nDwrdSbf : Nat) : Int) + n - 2 =
      ((isbf + 1) * nDwrdSbf + (n - 1) : Nat) - 1 := by
    rw [← here]
    ring
  rw [cut, subframeData, here, before, word]
  apply field_congr
  intro i inside
  rw [receivedData_sendWord ((free (n - 1)).addWeek ..) (by omega) (by omega)]
  congr 1
  omega

/-- Only subframe 1 gets a week number. -/
theorem carries_generateNavMsg_other (free : ∀ iwrd, Free (chan.sbf isbf iwrd))
    (inFrame : isbf < nSbf) (other : isbf ≠ 0) :
    Carries (subframeData (generateNavMsg g chan init).dwrd ((isbf + 1) * nDwrdSbf : Nat))
      (frameTow g + (isbf + 1)) (chan.sbf isbf) := by
  have plain : ∀ iwrd,
      addWeek (chan.sbf isbf iwrd) isbf iwrd (frameWeek g) = chan.sbf isbf iwrd :=
    fun iwrd => if_neg fun both => other both.1
  simpa only [plain] using carries_generateNavMsg g init free inFrame

end Frames

/-- The TOW counts of a frame fit into their field. -/
theorem frameTow_le {g : GpsTime ℚ} (inWeek : g.InWeek) : frameTow g ≤ 100800 := by
  obtain ⟨nonneg, upper⟩ := inWeek
  have second : trunc (g.sec + 0.5) ≤ 604800 := by
    rw [trunc_of_nonneg (by linarith [show (0.5 : ℚ) ≥ 0 by norm_num])]
    have : ⌊g.sec + 0.5⌋ < (604801 : Int) := by
      rw [Int.floor_lt]
      norm_num
      linarith
    omega
  have whole : (frameStart g).sec = ((trunc (g.sec + 0.5)).toNat / 30 * 30 : Nat) := by
    simp only [frameStart]
    push_cast
    norm_num
  rw [frameTow, whole, trunc_natCast]
  omega

/-- Subframe 4, which depends on `vflg`. -/
def sentPage4 {F : Type*} [Div F] [OfScientific F] [Rounding F] (ionoutc : IonoUtc F) : Page4 :=
  if ionoutc.vflg = 1 then .page18 { dataId := 1, svId := 56 } (scaleIono ionoutc)
  else .page25 { dataId := 1, svId := 63 } [0, 0, 0, 0, 0, 0, 0]

/-- The frame that is sent for an ephemeris. -/
def sentFrame {F : Type*} [Div F] [OfScientific F] [Rounding F] (eph : Ephem F)
    (ionoutc : IonoUtc F) (g : GpsTime ℚ) : Frame where
  headers := (List.range nSbf).map fun isbf =>
    { preamble := 0x8B, tow := frameTow g + (isbf + 1), id := isbf + 1 }
  clock := (scaleEphem eph).clock (g.week % 1024)
  orbit := (scaleEphem eph).orbit
  plane := (scaleEphem eph).plane
  page4 := sentPage4 ionoutc
  page5 := {
    id := { dataId := 1, svId := 51 }
    toa := (scaleEphem eph).toa
    wna := (scaleEphem eph).wna
    health := [0, 0, 0, 0, 0, 0] }

section RoundTrip

variable {F : Type*} [Div F] [OfScientific F] [Rounding F]

/-- Subframe 4 is read back, whichever page it is. -/
theorem decodePage4_of_carries {d : Nat → BitVec 24} {tow : Nat} {eph : Ephem F}
    {ionoutc : IonoUtc F} (carries : Carries d tow (eph2sbf eph ionoutc 3))
    (range : ionoutc.vflg = 1 → (scaleIono ionoutc).InRange) :
    decodePage4 d = some (sentPage4 ionoutc) := by
  have page : eph2sbf eph ionoutc 3 =
      if ionoutc.vflg = 1 then subframe4Page18 (scaleIono ionoutc) else subframe4Page25 := rfl
  rw [page] at carries
  unfold sentPage4
  split
  · rename_i enabled
    rw [if_pos enabled] at carries
    exact decodePage4_of_carries18 carries (range enabled)
  · rename_i disabled
    rw [if_neg disabled] at carries
    exact decodePage4_of_carries25 carries

/-- The first two words of subframe 4 are the same for both pages. -/
theorem eph2sbf_header4 (eph : Ephem F) (ionoutc : IonoUtc F) :
    eph2sbf eph ionoutc 3 0 = (0x8B0000 : Word) <<< 6 ∧
      eph2sbf eph ionoutc 3 1 = (0x4 : Word) <<< 8 := by
  unfold eph2sbf
  constructor <;> split <;> rfl

/-- **The message is received.**  Whatever the arithmetic of the scaling is: when the scaled
fields lie in their ranges, a receiver accepts every word of the frame that `generateNavMsg`
makes of the subframes of `eph2sbf` and reads the scaled integers, the subframe ids in order and
the transmission week number. -/
theorem receiveFrame_generateNavMsg (eph : Ephem F) (ionoutc : IonoUtc F) (g : GpsTime ℚ)
    (chan : Channel) (subframes : chan.sbf = eph2sbf eph ionoutc)
    (range : (scaleEphem eph).InRange)
    (rangeIono : ionoutc.vflg = 1 → (scaleIono ionoutc).InRange)
    (week : 0 ≤ g.week) (inWeek : g.InWeek) :
    receiveFrame (generateNavMsg g chan 1).dwrd = some (sentFrame eph ionoutc g) := by
  have free : ∀ isbf iwrd, Free (chan.sbf isbf iwrd) := by
    intro isbf iwrd
    rw [subframes]
    exact eph2sbf_free eph ionoutc isbf iwrd
  have accepted := fun isbf (inFrame : isbf < nSbf) =>
    receiveSubframe_generateNavMsg g 1 (free isbf) inFrame
  have carried := carries_generateNavMsg g 1 (free 0) (by decide)
  have carriedOther := fun isbf (inFrame : isbf < nSbf) =>
    carries_generateNavMsg_other g 1 (free isbf) inFrame
  generalize (generateNavMsg g chan 1).dwrd = dwrd at accepted carried carriedOther ⊢
  rw [subframes] at carried carriedOther
  have tow := frameTow_le inWeek
  have wn : g.week.tmod 1024 = g.week % 1024 := Int.tmod_eq_emod_of_nonneg week
  have wnRange : Unsigned 10 (g.week % 1024) :=
    ⟨Int.emod_nonneg _ (by decide), Int.emod_lt_of_pos _ (by decide)⟩
  have carried1 : Carries (subframeData dwrd 10) (frameTow g + 1) fun iwrd =>
      addWeek (subframe1 (scaleEphem eph) iwrd) 0 iwrd (word (g.week % 1024)) := by
    rw [← wn]
    exact carried
  have carried2 : Carries (subframeData dwrd 20) (frameTow g + 2) (subframe2 (scaleEphem eph)) :=
    carriedOther 1 (by decide) (by decide)
  have carried3 : Carries (subframeData dwrd 30) (frameTow g + 3) (subframe3 (scaleEphem eph)) :=
    carriedOther 2 (by decide) (by decide)
  have carried4 : Carries (subframeData dwrd 40) (frameTow g + 4) (eph2sbf eph ionoutc 3) :=
    carriedOther 3 (by decide) (by decide)
  have carried5 : Carries (subframeData dwrd 50) (frameTow g + 5) (subframe5 (scaleEphem eph)) :=
    carriedOther 4 (by decide) (by decide)
  have accepted1 : receiveSubframe dwrd 10 = some (subframeData dwrd 10) :=
    accepted 0 (by decide)
  have accepted2 : receiveSubframe dwrd 20 = some (subframeData dwrd 20) :=
    accepted 1 (by decide)
  have accepted3 : receiveSubframe dwrd 30 = some (subframeData dwrd 30) :=
    accepted 2 (by decide)
  have accepted4 : receiveSubframe dwrd 40 = some (subframeData dwrd 40) :=
    accepted 3 (by decide)
  have accepted5 : receiveSubframe dwrd 50 = some (subframeData dwrd 50) :=
    accepted 4 (by decide)
  have header1 := decodeHeader_of_carries 1 carried1 rfl rfl (by decide) (by omega)
  have header2 := decodeHeader_of_carries 2 carried2 rfl rfl (by decide) (by omega)
  have header3 := decodeHeader_of_carries 3 carried3 rfl rfl (by decide) (by omega)
  obtain ⟨tlm, how⟩ := eph2sbf_header4 eph ionoutc
  have header4 := decodeHeader_of_carries 4 carried4 tlm how (by decide) (by omega)
  have header5 := decodeHeader_of_carries 5 carried5 rfl rfl (by decide) (by omega)
  simp only [receiveFrame, accepted1, accepted2, accepted3, accepted4, accepted5,
    Option.bind_eq_bind, Option.bind_some, decodePage4_of_carries carried4 rangeIono,
    List.map_cons, List.map_nil, header1, header2, header3, header4, header5,
    decodeClock_of_carries carried1 wnRange range, decodeOrbit_of_carries carried2 range,
    decodePlane_of_carries carried3 range, decodePage5_of_carries carried5 range]
  rfl

end RoundTrip

/-- An ephemeris with fields of both signs. -/
def sampleEphem : Ephem ℚ where
  vflg := 1
  t := ⟨2018, 5, 6, 2, 0, 0⟩
  toc := { week := 2000, sec := 7200 }
  toe := { week := 2000, sec := 7200 }
  iodc := 300
  iode := 44
  deltan := 4.5e-9
  cuc := -1.0e-6
  cus := 8.0e-6
  cic := 1.0e-7
  cis := -1.0e-7
  crc := 210.5
  crs := -20.25
  ecc := 0.01
  sqrta := 5153.7
  m0 := -1.5
  omg0 := 2.5
  inc0 := 0.96
  aop := -0.75
  omgdot := -8.0e-9
  idot := 1.0e-10
  af0 := -1.0e-4
  af1 := 1.0e-12
  af2 := 0
  tgd := -1.0e-8
  svhlth := 0
  codeL2 := 1
  n := 0
  sq1e2 := 0
  A := 0
  omgkdot := 0

def sampleIono : IonoUtc ℚ where
  enable := 1
  vflg := 1
  alpha0 := 1.0e-8
  alpha1 := -1.5e-8
  alpha2 := -6.0e-8
  alpha3 := 1.2e-7
  beta0 := 90112
  beta1 := -65536
  beta2 := -131072
  beta3 := 196608
  A0 := -1.0e-8
  A1 := -5.0e-14
  dtls := 18
  tot := 405504
  wnt := 2000
  dtlsf := 18
  dn := 7
  wnlsf := 1929

theorem receiveFrame_generateNavMsg_sample :
    receiveFrame (generateNavMsg { week := 2000, sec := 7230.4 }
      (idleChannel (eph2sbf sampleEphem sampleIono)) 1).dwrd =
      some (sentFrame sampleEphem sampleIono { week := 2000, sec := 7230.4 }) := by
  have range : (scaleEphem sampleEphem).InRange := by
    constructor <;> decide +kernel
  have rangeIono : (scaleIono sampleIono).InRange := by
    constructor <;> decide +kernel
  exact receiveFrame_generateNavMsg sampleEphem sampleIono _ _ rfl range (fun _ => rangeIono)
    (by decide) ⟨by norm_num, by norm_num⟩

end Navisim.Nav

import Navisim.Nav.RoundTrip

/-!
# The TOW counts of a window

Each of the six subframes of a window has a TOW count in its HOW.  Those of the frame count on
from the frame's start, and the leading one is computed or copied (`howTow_frame`,
`howTow_first`, `howTow_saved`).  A week has 100800 counts, at which the code does not start again
from zero, so the window is right in all frames but the last of a week, if its leading count is
(`towCounts_iff_of_words`).
-/

namespace Navisim.Nav

open BitField

/-- The TOW count in the HOW of subframe `k` of a window, with the inversion undone. -/
def howTow (dwrd : Int → Word) (k : Nat) : Nat :=
  (decodeHeader (subframeData dwrd (k * nDwrdSbf : Nat))).tow

/-- The half minutes from the start of the week to the frame of a time. -/
def frameNumber (g : GpsTime ℚ) : Int :=
  ⌊g.sec + 1 / 2⌋ / 30

/-- The number of TOW counts in a week. -/
def towInWeek : Int := 100800

/-- The six TOW counts of the window for the time `g`. -/
structure TowCounts (g : GpsTime ℚ) (dwrd : Int → Word) : Prop where
  counts : ∀ k ≤ nSbf, (howTow dwrd k : Int) = (frameNumber g * 5 + k) % towInWeek
  consecutive : ∀ k < nSbf, (howTow dwrd (k + 1) : Int) = (howTow dwrd k + 1) % towInWeek

/-! ## Frames of a week -/

section Week

variable {g : GpsTime ℚ}

theorem trunc_second (inWeek : g.InWeek) :
    trunc (g.sec + 0.5) = ⌊g.sec + 1 / 2⌋ ∧ 0 ≤ ⌊g.sec + 1 / 2⌋ := by
  have nonneg := inWeek.1
  have half : g.sec + 0.5 = g.sec + 1 / 2 := by norm_num
  rw [half, trunc_of_nonneg (by linarith)]
  exact ⟨rfl, Int.floor_nonneg.mpr (by linarith)⟩

/-- The frame starts at its number of half minutes. -/
theorem frameStart_sec (inWeek : g.InWeek) :
    (frameStart g).sec = ((frameNumber g * 30 : Int) : ℚ) ∧ 0 ≤ frameNumber g := by
  obtain ⟨second, nonneg⟩ := trunc_second inWeek
  obtain ⟨m, whole⟩ := Int.eq_ofNat_of_zero_le nonneg
  have number : frameNumber g = (m / 30 : Nat) := by
    rw [frameNumber, whole, Int.natCast_ediv, Nat.cast_ofNat]
  constructor
  · rw [number, frameStart]
    dsimp only
    rw [second, whole, Int.toNat_natCast, Int.cast_mul, Int.cast_natCast]
    norm_num
  · omega

theorem frameTow_eq (inWeek : g.InWeek) : (frameTow g : Int) = 5 * frameNumber g := by
  obtain ⟨sec, nonneg⟩ := frameStart_sec inWeek
  rw [frameTow, sec, trunc_intCast]
  omega

/-- The frame of the frame's start is the same. -/
theorem frameNumber_frameStart (inWeek : g.InWeek) :
    frameNumber (frameStart g) = frameNumber g := by
  have floor : ⌊((frameNumber g * 30 : Int) : ℚ) + 1 / 2⌋ = frameNumber g * 30 := by
    rw [Int.floor_intCast_add]
    norm_num
  rw [frameNumber, (frameStart_sec inWeek).1, floor]
  omega

/-- The last frame of a week is the one from which the rounded second is 604770 or later. -/
theorem frameNumber_lt_iff : frameNumber g < 20159 ↔ g.sec < 604769.5 := by
  have floor : ⌊g.sec + 1 / 2⌋ < (604770 : Int) ↔ g.sec < 604769.5 := by
    rw [Int.floor_lt]
    norm_num
    constructor <;> intro bound <;> linarith
  rw [frameNumber, ← floor]
  omega

end Week

/-! ## The counts that are sent -/

/-- The place of the TOW count in a HOW is empty. -/
def Plain (src : Subframe) : Prop :=
  field 13 17 (src 1) = 0

/-- `eph2sbf` leaves the place of the TOW count empty in every subframe. -/
theorem eph2sbf_plain {F : Type*} [Div F] [OfScientific F] [Rounding F] (eph : Ephem F)
    (ionoutc : IonoUtc F) {isbf : Nat} (inFrame : isbf < nSbf) :
    Plain (eph2sbf eph ionoutc isbf) := by
  have id : ∃ id : Fin 8, eph2sbf eph ionoutc isbf 1 = BitVec.ofNat 32 id <<< 8 := by
    simp only [nSbf] at inFrame
    interval_cases isbf
    · exact ⟨1, rfl⟩
    · exact ⟨2, rfl⟩
    · exact ⟨3, rfl⟩
    · exact ⟨4, (eph2sbf_header4 eph ionoutc).2⟩
    · exact ⟨5, rfl⟩
  obtain ⟨id, word⟩ := id
  rw [Plain, word]
  clear word
  revert id
  decide

section Counts

variable {dwrd : Int → Word} {src : Word} {k tow : Nat}

/-- A receiver reads the count that a HOW was sent with. -/
theorem howTow_of_sendWord (free : Free src) (plain : field 13 17 src = 0) (range : tow < 2 ^ 17)
    (word : dwrd (k * nDwrdSbf + 1 : Nat) = sendWord src 1 tow (dwrd (k * nDwrdSbf : Nat))) :
    howTow dwrd k = tow := by
  have here : ((k * nDwrdSbf : Nat) : Int) + (2 : Nat) - 1 = (k * nDwrdSbf + 1 : Nat) := by
    push_cast
    ring
  have before : ((k * nDwrdSbf : Nat) : Int) + (2 : Nat) - 2 = (k * nDwrdSbf : Nat) := by
    push_cast
    ring
  have sent : howTow dwrd k = field 13 17 (addTow src 1 tow) := by
    rw [howTow, decodeHeader]
    dsimp only
    rw [cut, subframeData, here, before, word]
    apply field_congr
    intro i inside
    rw [receivedData_sendWord free (by omega) (fun _ => by omega)]
    congr 1
    omega
  have small : tow % 2 ^ 32 % 2 ^ 17 = tow := by omega
  rw [sent, addTow, if_pos rfl, field_or, plain, field_piece (by decide) (by decide), Nat.zero_or,
    BitVec.toNat_ofNat, small]

variable {g : GpsTime ℚ} {chan : Channel} {init : Int} {isbf : Nat}

/-- The subframes of the frame count on from its start. -/
theorem howTow_frame (inWeek : g.InWeek) (free : ∀ isbf iwrd, Free (chan.sbf isbf iwrd))
    (plain : ∀ isbf < nSbf, Plain (chan.sbf isbf)) (inFrame : isbf < nSbf) :
    howTow (generateNavMsg g chan init).dwrd (isbf + 1) = frameTow g + (isbf + 1) := by
  have bound := frameTow_le inWeek
  have noWeek : addWeek (chan.sbf isbf 1) isbf 1 (frameWeek g) = chan.sbf isbf 1 :=
    if_neg fun both => absurd both.2 (by decide)
  have word := generateNavMsg_frame g chan init inFrame (show 1 < nDwrdSbf by decide)
  have before : (((isbf + 1) * nDwrdSbf + 1 : Nat) : Int) - 1 = ((isbf + 1) * nDwrdSbf : Nat) := by
    push_cast
    ring
  rw [noWeek, before] at word
  simp only [nSbf] at inFrame
  exact howTow_of_sendWord (free isbf 1) (plain isbf inFrame) (by omega) word

/-- The leading subframe of a new message has the count of the frame's start. -/
theorem howTow_first (inWeek : g.InWeek) (free : ∀ isbf iwrd, Free (chan.sbf isbf iwrd))
    (plain : ∀ isbf < nSbf, Plain (chan.sbf isbf)) :
    howTow (generateNavMsg g chan 1).dwrd 0 = frameTow g := by
  have bound := frameTow_le inWeek
  have word := generateNavMsg_first g chan (show 1 < nDwrdSbf by decide)
  rw [if_neg one_ne_zero, Nat.cast_one, sub_self] at word
  exact howTow_of_sendWord (free 4 1) (plain 4 (by decide)) (by omega) word

/-- The leading subframe of a renewed message has the count of the old subframe 5. -/
theorem howTow_saved (renewed : init ≠ 1) :
    howTow (generateNavMsg g chan init).dwrd 0 = howTow chan.dwrd nSbf := by
  have word0 := generateNavMsg_saved g chan renewed (show 0 < nDwrdSbf by decide)
  have word1 := generateNavMsg_saved g chan renewed (show 1 < nDwrdSbf by decide)
  have data : subframeData (generateNavMsg g chan init).dwrd (0 * nDwrdSbf : Nat) 2 =
      subframeData chan.dwrd (nSbf * nDwrdSbf : Nat) 2 :=
    congrArg₂ receivedData word0 word1
  rw [howTow, howTow, decodeHeader, decodeHeader, data]

/-- **When the counts of a window are right**: the frame is not the last of the week, and the
leading count is that of the frame's start. -/
theorem towCounts_iff_of_words (inWeek : g.InWeek)
    (frame : ∀ isbf < nSbf, howTow dwrd (isbf + 1) = frameTow g + (isbf + 1)) :
    TowCounts g dwrd ↔ g.sec < 604769.5 ∧ (howTow dwrd 0 : Int) = frameNumber g * 5 := by
  have start := frameTow_eq inWeek
  have bound := frameTow_le inWeek
  have nonneg := (frameStart_sec inWeek).2
  rw [← frameNumber_lt_iff]
  constructor
  · intro right
    have first := right.counts 0 (by decide)
    have last := right.counts 5 (by decide)
    have sent := frame 4 (by decide)
    push_cast [towInWeek] at first last sent
    constructor <;> omega
  · intro ⟨early, first⟩
    have count : ∀ k ≤ nSbf, (howTow dwrd k : Int) = frameNumber g * 5 + k := by
      intro k inside
      cases k with
      | zero =>
          rw [first]
          push_cast
          ring
      | succ isbf =>
          rw [frame isbf inside]
          push_cast
          omega
    constructor
    · intro k inside
      rw [count k inside, Int.emod_eq_of_lt] <;> simp only [nSbf, towInWeek] at * <;> omega
    · intro k inside
      rw [count (k + 1) inside, count k inside.le, Int.emod_eq_of_lt] <;>
        simp only [nSbf, towInWeek] at * <;> omega

end Counts

end Navisim.Nav

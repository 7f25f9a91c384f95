import Navisim.Gps.Channel
import Navisim.Lib.Chain
import Navisim.Nav.Parity

/-!
# The navigation message of a channel

`generateNavMsg` puts the words of subframe 5 of the frame before and of the five subframes of
the frame into `dwrd`, each with the parity that follows from the word in front of it.
-/

namespace Navisim.Nav

open BitField Chain

/-- The TOW-count message goes into the HOW. -/
def addTow (sbfwrd : Word) (iwrd tow : Nat) : Word :=
  if iwrd = 1 then sbfwrd ||| (BitVec.ofNat 32 tow &&& 0x1FFFF) <<< 13 else sbfwrd

/-- The transmission week number goes into subframe 1. -/
def addWeek (sbfwrd : Word) (isbf iwrd : Nat) (wn : Word) : Word :=
  if isbf = 0 ∧ iwrd = 2 then sbfwrd ||| (wn &&& 0x3FF) <<< 20 else sbfwrd

/-- What the two loops do with a word; the last two bits of the previous word go into bits 31
and 30. -/
def sendWord (sbfwrd : Word) (iwrd tow : Nat) (prevwrd : Word) : Word :=
  let sbfwrd := addTow sbfwrd iwrd tow
  let sbfwrd := sbfwrd ||| (prevwrd <<< 30 &&& 0xC0000000)
  -- Non-information bearing bits for word 2 and 10
  let nib := iwrd = 1 ∨ iwrd = 9
  computeChecksum sbfwrd nib

/-- The loop over the subframes; `tow` counts up before each of them. -/
def sendSubframes (sbf : Subframes) (wn : Word) (tow : Nat) :
    Nat → (Int → Word) × Word → (Int → Word) × Word
  | 0, s => s
  | isbf + 1, s =>
      fill (fun iwrd prevwrd => sendWord (addWeek (sbf isbf iwrd) isbf iwrd wn) iwrd
        (tow + (isbf + 1)) prevwrd) ((isbf + 1) * nDwrdSbf : Nat) nDwrdSbf
        (sendSubframes sbf wn tow isbf s)

/-- `g0`: the time aligned with the full frame length of 30 seconds. -/
def frameStart (g : GpsTime ℚ) : GpsTime ℚ where
  week := g.week
  sec := ((trunc (g.sec + 0.5)).toNat / 30 : Nat) * 30.0

def generateNavMsg (g : GpsTime ℚ) (chan : Channel) (init : Int) : Channel :=
  let g0 := frameStart g
  let wn := word (g0.week.tmod 1024)
  let tow := (trunc g0.sec).toNat / 6
  let start :=
    if init = 1 then
      -- Initialize subframe 5
      fill (fun iwrd prevwrd => sendWord (chan.sbf 4 iwrd) iwrd tow prevwrd) 0 nDwrdSbf
        (chan.dwrd, 0)
    else
      -- Save subframe 5
      fill (fun iwrd _ => chan.dwrd ((nDwrdSbf * nSbf : Nat) + iwrd)) 0 nDwrdSbf (chan.dwrd, 0)
  { chan with g0 := g0, dwrd := (sendSubframes chan.sbf wn tow nSbf start).1 }

/-! ## What is written -/

section Subframes

variable {sbf : Subframes} {wn : Word} {tow count isbf iwrd : Nat} {s : (Int → Word) × Word}

theorem sendSubframes_outside {j : Int} (outside : j < nDwrdSbf ∨ (count + 1) * nDwrdSbf ≤ j) :
    (sendSubframes sbf wn tow count s).1 j = s.1 j := by
  induction count with
  | zero => rfl
  | succ count ih =>
      rw [sendSubframes, fill_outside, ih] <;> simp only [nDwrdSbf] at outside ⊢ <;> omega

/-- The loop ends behind the last word it wrote. -/
theorem sendSubframes_last (sbf : Subframes) (wn : Word) (tow count : Nat)
    (start : s.1 (nDwrdSbf - 1) = s.2) :
    (sendSubframes sbf wn tow count s).1 ((count + 1) * nDwrdSbf - 1) =
      (sendSubframes sbf wn tow count s).2 := by
  induction count with
  | zero => simpa [sendSubframes] using start
  | succ count ih =>
      have place : (((count + 1 : Nat) : Int) + 1) * nDwrdSbf - 1 =
          ((count + 1) * nDwrdSbf : Nat) + (nDwrdSbf : Int) - 1 := by
        push_cast
        ring
      rw [sendSubframes, place, fill_chain_last (by simpa using ih)]

/-- Every word of the frame is sent behind the word in front of it. -/
theorem sendSubframes_word (start : s.1 (nDwrdSbf - 1) = s.2) (inFrame : isbf < count)
    (inSubframe : iwrd < nDwrdSbf) :
    (sendSubframes sbf wn tow count s).1 ((isbf + 1) * nDwrdSbf + iwrd : Nat) =
      sendWord (addWeek (sbf isbf iwrd) isbf iwrd wn) iwrd (tow + (isbf + 1))
        ((sendSubframes sbf wn tow count s).1 (((isbf + 1) * nDwrdSbf + iwrd : Nat) - 1)) := by
  induction count with
  | zero => omega
  | succ count ih =>
      rcases Nat.lt_succ_iff_lt_or_eq.mp inFrame with earlier | rfl
      · have before : ∀ j : Int, j < (count + 1) * nDwrdSbf →
            (sendSubframes sbf wn tow (count + 1) s).1 j =
              (sendSubframes sbf wn tow count s).1 j := by
          intro j bound
          rw [sendSubframes, fill_outside]
          exact Or.inl (by push_cast; exact bound)
        simp only [nDwrdSbf] at before inSubframe ih ⊢
        rw [before _ (by omega), before _ (by omega)]
        exact ih earlier
      · have last := sendSubframes_last sbf wn tow isbf start
        rw [sendSubframes, Nat.cast_add, fill_chain (by simpa using last) inSubframe]

end Subframes

/-- A loop over subframe 5 ends behind its last word. -/
theorem fill_start (emit : Nat → Word → Word) (dwrd : Int → Word) (prev : Word) :
    (fill emit 0 nDwrdSbf (dwrd, prev)).1 (nDwrdSbf - 1) =
      (fill emit 0 nDwrdSbf (dwrd, prev)).2 := by
  rw [fill_last]
  simp [nDwrdSbf]

section Generate

variable (g : GpsTime ℚ) (chan : Channel) {isbf iwrd : Nat}

/-- The week number of the frame. -/
def frameWeek : Word :=
  word (g.week.tmod 1024)

/-- The TOW count of the frame's start. -/
def frameTow : Nat :=
  (trunc (frameStart g).sec).toNat / 6

/-- The words 10 to 59 hold the frame. -/
theorem generateNavMsg_frame (init : Int) (inFrame : isbf < nSbf) (inSubframe : iwrd < nDwrdSbf) :
    (generateNavMsg g chan init).dwrd ((isbf + 1) * nDwrdSbf + iwrd : Nat) =
      sendWord (addWeek (chan.sbf isbf iwrd) isbf iwrd (frameWeek g)) iwrd
        (frameTow g + (isbf + 1))
        ((generateNavMsg g chan init).dwrd (((isbf + 1) * nDwrdSbf + iwrd : Nat) - 1)) := by
  unfold generateNavMsg
  dsimp only
  split <;> exact sendSubframes_word (fill_start ..) inFrame inSubframe

/-- The first ten words of a new message are subframe 5 of the frame before. -/
theorem generateNavMsg_first (inSubframe : iwrd < nDwrdSbf) :
    (generateNavMsg g chan 1).dwrd iwrd =
      sendWord (chan.sbf 4 iwrd) iwrd (frameTow g)
        (if iwrd = 0 then 0 else (generateNavMsg g chan 1).dwrd (iwrd - 1)) := by
  unfold generateNavMsg
  dsimp only
  rw [if_pos rfl, sendSubframes_outside (Or.inl (by omega)),
    sendSubframes_outside (Or.inl (by omega))]
  have cell := fill_cell (fun iwrd prevwrd => sendWord (chan.sbf 4 iwrd) iwrd (frameTow g) prevwrd)
    0 (chan.dwrd, 0) inSubframe
  simpa only [zero_add, frameTow] using cell

/-- A renewed message starts with the words of the old subframe 5. -/
theorem generateNavMsg_saved {init : Int} (renewed : init ≠ 1) (inSubframe : iwrd < nDwrdSbf) :
    (generateNavMsg g chan init).dwrd iwrd = chan.dwrd (nDwrdSbf * nSbf + iwrd : Nat) := by
  unfold generateNavMsg
  dsimp only
  rw [if_neg renewed, sendSubframes_outside (Or.inl (by omega))]
  have cell := fill_cell (fun iwrd _ => chan.dwrd ((nDwrdSbf * nSbf : Nat) + iwrd)) 0 (chan.dwrd, 0)
    inSubframe
  simpa only [zero_add, Nat.cast_add] using cell

end Generate

end Navisim.Nav

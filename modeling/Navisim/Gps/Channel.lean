import Navisim.Nav.Subframe

/-!
# Channels

`range_t` and `channel_t`, in exact arithmetic.  The arrays of a channel are read at indices
that are computed, so `ca` and `dwrd` are memories: their cells 0 to `CA_SEQ_LEN - 1` and 0 to
`N_DWRD - 1` are the arrays, the others whatever lies around them.
-/

namespace Navisim

/-- `range_t` -/
structure Range where
  g : GpsTime ℚ
  /-- pseudorange -/
  range : ℚ
  rate : ℚ
  /-- geometric distance -/
  d : ℚ
  azel : ℚ × ℚ
  ionoDelay : ℚ

/-- The fields of `channel_t` that the signal loops read or write. -/
structure Channel where
  prn : Int
  ca : Int → Int
  fCarr : ℚ
  fCode : ℚ
  carrPhase : BitVec 32
  carrPhasestep : Int
  codePhase : ℚ
  /-- Data bit reference time. -/
  g0 : GpsTime ℚ
  sbf : Nav.Subframes
  dwrd : Int → Nav.Word
  iword : Int
  ibit : Int
  icode : Int
  dataBit : Int
  codeCA : Int
  azel : ℚ × ℚ
  rho0 : Range
  gainValue : Int

/-- A channel that tracks no satellite. -/
def idleChannel (sbf : Nav.Subframes) : Channel where
  prn := 0
  ca _ := 0
  fCarr := 0
  fCode := 0
  carrPhase := 0
  carrPhasestep := 0
  codePhase := 0
  g0 := { week := 0, sec := 0 }
  sbf := sbf
  dwrd _ := 0
  iword := 0
  ibit := 0
  icode := 0
  dataBit := 0
  codeCA := 0
  azel := (0, 0)
  rho0 := {
    g := { week := 0, sec := 0 }
    range := 0
    rate := 0
    d := 0
    azel := (0, 0)
    ionoDelay := 0 }
  gainValue := 0

def maxChan : Nat := 12
def caSeqLen : Nat := 1023

/-- The position in the signal of the window, in chips. -/
def Channel.position (chan : Channel) : ℚ :=
  (((chan.iword * 30 + chan.ibit) * 20 + chan.icode : Int) : ℚ) * 1023 + chan.codePhase

/-- The counters below the word index lie in their ranges. -/
structure Channel.Counters (chan : Channel) : Prop where
  ibit : 0 ≤ chan.ibit ∧ chan.ibit < 30
  icode : 0 ≤ chan.icode ∧ chan.icode < 20

/-- The counters and the code phase lie in their ranges. -/
structure Channel.Counting (chan : Channel) : Prop extends chan.Counters where
  codePhase : 0 ≤ chan.codePhase ∧ chan.codePhase < 1023

end Navisim

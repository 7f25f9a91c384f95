import Navisim.Nav.RoundTrip

/-!
# The ephemeris parameters on the air

What a receiver makes of subframes 1 to 3 of a message, and what the subframes of an ephemeris
hold at the same places.  A message carries the parameters of the subframes it was generated from,
whatever their values are (`receiveParameters_generateNavMsg`).  The transmission week is not a
parameter: it comes from the time of the message.
-/

namespace Navisim.Nav

open BitField

/-- The data of subframes 1 to 3, with the week left out. -/
structure Parameters where
  clock : Clock
  orbit : Orbit
  plane : Plane
  deriving DecidableEq, Repr

def readParameters (d1 d2 d3 : Nat → BitVec 24) : Parameters where
  clock := { decodeClock d1 with wn := 0 }
  orbit := decodeOrbit d2
  plane := decodePlane d3

/-- The parameters a receiver gets from a message. -/
def receiveParameters (dwrd : Int → Word) : Option Parameters := do
  let d1 ← receiveSubframe dwrd 10
  let d2 ← receiveSubframe dwrd 20
  let d3 ← receiveSubframe dwrd 30
  some (readParameters d1 d2 d3)

/-- The data of a subframe before it is sent. -/
def sourceData (src : Subframe) (n : Nat) : BitVec 24 :=
  (src (n - 1)).extractLsb' 6 24

/-- The parameters that subframes encode. -/
def encoded (sbf : Subframes) : Parameters :=
  readParameters (sourceData (sbf 0)) (sourceData (sbf 1)) (sourceData (sbf 2))

/-- The parameters of an ephemeris. -/
def parameters {F : Type*} [Div F] [OfScientific F] [Rounding F] (eph : Ephem F) : Parameters :=
  readParameters (sourceData (subframe1 (scaleEphem eph)))
    (sourceData (subframe2 (scaleEphem eph))) (sourceData (subframe3 (scaleEphem eph)))

theorem encoded_eph2sbf {F : Type*} [Div F] [OfScientific F] [Rounding F] (eph : Ephem F)
    (ionoutc : IonoUtc F) : encoded (eph2sbf eph ionoutc) = parameters eph := rfl

/-! ## Fields of words 3 to 10 -/

section Fields

variable {d d' : Nat → BitVec 24}

/-- Two subframes agree in the fields from bit `start` of word 3 on. -/
def SameFields (start : Nat) (d d' : Nat → BitVec 24) : Prop :=
  ∀ n first last, 3 ≤ n → n ≤ 10 → 1 ≤ first → first ≤ last → last ≤ 24 →
    (n = 3 → start ≤ first) → (n = 10 → last ≤ 22) →
    cut (d n) first last = cut (d' n) first last

theorem SameFields.decodeClock (same : SameFields 11 d d') :
    { decodeClock d with wn := 0 } = { decodeClock d' with wn := 0 } := by
  unfold SameFields at same
  simp (disch := decide) only [Nav.decodeClock, cutSplit, same]

theorem SameFields.decodeOrbit (same : SameFields 1 d d') : decodeOrbit d = decodeOrbit d' := by
  unfold SameFields at same
  simp (disch := decide) only [Nav.decodeOrbit, cutSplit, same]

theorem SameFields.decodePlane (same : SameFields 1 d d') : decodePlane d = decodePlane d' := by
  unfold SameFields at same
  simp (disch := decide) only [Nav.decodePlane, cutSplit, same]

/-- The fields of a word before it is sent. -/
theorem cut_sourceData (src : Subframe) {n first last : Nat} (pos : 1 ≤ first)
    (ordered : first ≤ last) (bound : last ≤ 24) :
    cut (sourceData src n) first last = field (30 - last) (last + 1 - first) (src (n - 1)) := by
  rw [cut]
  apply field_congr
  intro i inside
  have place : 24 - last + i < 24 := by omega
  rw [sourceData, BitVec.getLsbD_extractLsb', decide_eq_true place, Bool.true_and]
  congr 1
  omega

/-- The week number is in the first ten bits of word 3 of subframe 1. -/
theorem field_addWeek (w wn : Word) (isbf : Nat) {iwrd first last : Nat}
    (apart : isbf = 0 → iwrd = 2 → 11 ≤ first) (ordered : first ≤ last) (bound : last ≤ 24) :
    field (30 - last) (last + 1 - first) (addWeek w isbf iwrd wn) =
      field (30 - last) (last + 1 - first) w := by
  unfold addWeek
  split
  · rename_i week
    have behind := apart week.1 week.2
    apply field_congr
    intro i inside
    have below : 30 - last + i < 20 := by omega
    rw [BitVec.getLsbD_or, BitVec.getLsbD_shiftLeft, decide_eq_true below]
    simp
  · rfl

variable {g : GpsTime ℚ} {chan : Channel} {init : Int} {isbf : Nat}

/-- A subframe on the air has the fields of the subframe it was made from. -/
theorem sameFields_generateNavMsg (free : ∀ iwrd, Free (chan.sbf isbf iwrd))
    (inFrame : isbf < nSbf) {start : Nat} (apart : isbf = 0 → 11 ≤ start) :
    SameFields start
      (subframeData (generateNavMsg g chan init).dwrd ((isbf + 1) * nDwrdSbf : Nat))
      (sourceData (chan.sbf isbf)) := by
  intro n first last lower upper pos ordered bound high low
  have carries := carries_generateNavMsg g init free inFrame n first last (by omega) upper pos
    ordered bound (by omega)
  have noTow : n - 1 ≠ 1 := by omega
  rw [carries, addTow, if_neg noTow, cut_sourceData _ pos ordered bound]
  exact field_addWeek _ _ _ (fun first' third => (apart first').trans (high (by omega))) ordered
    bound

/-- **What a message carries.**  A receiver gets the parameters of the subframes that the message
was generated from. -/
theorem receiveParameters_generateNavMsg (free : ∀ isbf iwrd, Free (chan.sbf isbf iwrd)) :
    receiveParameters (generateNavMsg g chan init).dwrd = some (encoded chan.sbf) := by
  have accepted : ∀ isbf < nSbf, receiveSubframe (generateNavMsg g chan init).dwrd
      ((isbf + 1) * nDwrdSbf : Nat) =
        some (subframeData (generateNavMsg g chan init).dwrd ((isbf + 1) * nDwrdSbf : Nat)) :=
    fun isbf inFrame => receiveSubframe_generateNavMsg g init (free isbf) inFrame
  have accepted1 : receiveSubframe (generateNavMsg g chan init).dwrd 10 = _ :=
    accepted 0 (by decide)
  have accepted2 : receiveSubframe (generateNavMsg g chan init).dwrd 20 = _ :=
    accepted 1 (by decide)
  have accepted3 : receiveSubframe (generateNavMsg g chan init).dwrd 30 = _ :=
    accepted 2 (by decide)
  have same1 : SameFields 11 (subframeData (generateNavMsg g chan init).dwrd 10)
      (sourceData (chan.sbf 0)) :=
    sameFields_generateNavMsg (free 0) (by decide) fun _ => le_rfl
  have same2 : SameFields 1 (subframeData (generateNavMsg g chan init).dwrd 20)
      (sourceData (chan.sbf 1)) :=
    sameFields_generateNavMsg (free 1) (by decide) fun zero => absurd zero one_ne_zero
  have same3 : SameFields 1 (subframeData (generateNavMsg g chan init).dwrd 30)
      (sourceData (chan.sbf 2)) :=
    sameFields_generateNavMsg (free 2) (by decide) fun zero => absurd zero two_ne_zero
  simp only [receiveParameters, accepted1, accepted2, accepted3, Option.bind_eq_bind,
    Option.bind_some, readParameters, encoded, Option.some.injEq, Parameters.mk.injEq]
  exact ⟨same1.decodeClock, same2.decodeOrbit, same3.decodePlane⟩

end Fields

end Navisim.Nav

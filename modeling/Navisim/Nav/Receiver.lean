import Navisim.Nav.Message

/-!
# A receiver of the navigation message

What a receiver makes of a frame: it checks the parity of every word, undoes the inversion of
its data bits and cuts the fields at the places of IS-GPS-200, where the words of a subframe
and the bits of a word are counted from 1 and a signed field is in two's complement.
-/

namespace Navisim.Nav

open BitField

/-- Bits `first` to `last` of the data of a word. -/
def cut (d : BitVec 24) (first last : Nat) : Nat :=
  field (24 - last) (last + 1 - first) d

/-- A field whose high part ends one word and whose low part starts another. -/
def cutSplit (high : BitVec 24) (first last : Nat) (low : BitVec 24) (first' last' : Nat) : Nat :=
  cut high first last * 2 ^ (last' + 1 - first') + cut low first' last'

/-- The data of the words of the subframe that starts at `dwrd[start]`. -/
def subframeData (dwrd : Int → Word) (start : Int) (n : Nat) : BitVec 24 :=
  receivedData (dwrd (start + n - 2)) (dwrd (start + n - 1))

/-- A subframe is received when each of its words passes the parity equations. -/
def receiveSubframe (dwrd : Int → Word) (start : Int) : Option (Nat → BitVec 24) :=
  if ∀ k < nDwrdSbf, ParityOk (dwrd (start + k - 1)) (dwrd (start + k)) then
    some (subframeData dwrd start)
  else none

/-! ## Fields -/

/-- The first two words of a subframe. -/
structure Header where
  preamble : Nat
  tow : Nat
  id : Nat
  deriving DecidableEq, Repr

def decodeHeader (d : Nat → BitVec 24) : Header where
  preamble := cut (d 1) 1 8
  tow := cut (d 2) 1 17
  id := cut (d 2) 20 22

/-- Subframe 1. -/
structure Clock where
  wn : Int
  codeL2 : Int
  ura : Int
  svhlth : Int
  iodc : Int
  tgd : Int
  toc : Int
  af2 : Int
  af1 : Int
  af0 : Int
  deriving DecidableEq, Repr

def decodeClock (d : Nat → BitVec 24) : Clock where
  wn := cut (d 3) 1 10
  codeL2 := cut (d 3) 11 12
  ura := cut (d 3) 13 16
  svhlth := cut (d 3) 17 22
  iodc := cutSplit (d 3) 23 24 (d 8) 1 8
  tgd := signExtend 8 (cut (d 7) 17 24)
  toc := cut (d 8) 9 24
  af2 := signExtend 8 (cut (d 9) 1 8)
  af1 := signExtend 16 (cut (d 9) 9 24)
  af0 := signExtend 22 (cut (d 10) 1 22)

/-- Subframe 2. -/
structure Orbit where
  iode : Int
  crs : Int
  deltan : Int
  m0 : Int
  cuc : Int
  ecc : Int
  cus : Int
  sqrta : Int
  toe : Int
  deriving DecidableEq, Repr

def decodeOrbit (d : Nat → BitVec 24) : Orbit where
  iode := cut (d 3) 1 8
  crs := signExtend 16 (cut (d 3) 9 24)
  deltan := signExtend 16 (cut (d 4) 1 16)
  m0 := signExtend 32 (cutSplit (d 4) 17 24 (d 5) 1 24)
  cuc := signExtend 16 (cut (d 6) 1 16)
  ecc := cutSplit (d 6) 17 24 (d 7) 1 24
  cus := signExtend 16 (cut (d 8) 1 16)
  sqrta := cutSplit (d 8) 17 24 (d 9) 1 24
  toe := cut (d 10) 1 16

/-- Subframe 3. -/
structure Plane where
  cic : Int
  omg0 : Int
  cis : Int
  inc0 : Int
  crc : Int
  aop : Int
  omgdot : Int
  iode : Int
  idot : Int
  deriving DecidableEq, Repr

def decodePlane (d : Nat → BitVec 24) : Plane where
  cic := signExtend 16 (cut (d 3) 1 16)
  omg0 := signExtend 32 (cutSplit (d 3) 17 24 (d 4) 1 24)
  cis := signExtend 16 (cut (d 5) 1 16)
  inc0 := signExtend 32 (cutSplit (d 5) 17 24 (d 6) 1 24)
  crc := signExtend 16 (cut (d 7) 1 16)
  aop := signExtend 32 (cutSplit (d 7) 17 24 (d 8) 1 24)
  omgdot := signExtend 24 (cut (d 9) 1 24)
  iode := cut (d 10) 1 8
  idot := signExtend 14 (cut (d 10) 9 22)

/-- The data and satellite (page) identification of subframes 4 and 5. -/
structure PageId where
  dataId : Nat
  svId : Nat
  deriving DecidableEq, Repr

def decodePageId (d : Nat → BitVec 24) : PageId where
  dataId := cut (d 3) 1 2
  svId := cut (d 3) 3 8

/-- Subframe 4, page 18: ionosphere and UTC. -/
def decodePage18 (d : Nat → BitVec 24) : ScaledIono where
  alpha0 := signExtend 8 (cut (d 3) 9 16)
  alpha1 := signExtend 8 (cut (d 3) 17 24)
  alpha2 := signExtend 8 (cut (d 4) 1 8)
  alpha3 := signExtend 8 (cut (d 4) 9 16)
  beta0 := signExtend 8 (cut (d 4) 17 24)
  beta1 := signExtend 8 (cut (d 5) 1 8)
  beta2 := signExtend 8 (cut (d 5) 9 16)
  beta3 := signExtend 8 (cut (d 5) 17 24)
  A1 := signExtend 24 (cut (d 6) 1 24)
  A0 := signExtend 32 (cutSplit (d 7) 1 24 (d 8) 1 8)
  tot := cut (d 8) 9 16
  wnt := cut (d 8) 17 24
  dtls := signExtend 8 (cut (d 9) 1 8)
  wnlsf := cut (d 9) 9 16
  dn := cut (d 9) 17 24
  dtlsf := signExtend 8 (cut (d 10) 1 8)

/-- Subframe 4, which the SV id of its page makes page 18 or page 25; the anti-spoofing flags
and health bits of page 25 are words 4 to 10. -/
inductive Page4
  | page18 (id : PageId) (ionoutc : ScaledIono)
  | page25 (id : PageId) (health : List Nat)
  deriving DecidableEq, Repr

def decodePage4 (d : Nat → BitVec 24) : Option Page4 :=
  let id := decodePageId d
  if id.svId = 56 then some (.page18 id (decodePage18 d))
  else if id.svId = 63 then
    some (.page25 id [cut (d 4) 1 24, cut (d 5) 1 24, cut (d 6) 1 24, cut (d 7) 1 24,
      cut (d 8) 1 24, cut (d 9) 1 24, cut (d 10) 1 22])
  else none

/-- Subframe 5, page 25; words 4 to 9 are health bits. -/
structure Page5 where
  id : PageId
  toa : Int
  wna : Int
  health : List Nat
  deriving DecidableEq, Repr

def decodePage5 (d : Nat → BitVec 24) : Page5 where
  id := decodePageId d
  toa := cut (d 3) 9 16
  wna := cut (d 3) 17 24
  health := [cut (d 4) 1 24, cut (d 5) 1 24, cut (d 6) 1 24, cut (d 7) 1 24, cut (d 8) 1 24,
    cut (d 9) 1 24]

/-- A frame as a receiver reads it. -/
structure Frame where
  headers : List Header
  clock : Clock
  orbit : Orbit
  plane : Plane
  page4 : Page4
  page5 : Page5
  deriving DecidableEq, Repr

/-- The reception of the five subframes in `dwrd[10..59]`. -/
def receiveFrame (dwrd : Int → Word) : Option Frame := do
  let d1 ← receiveSubframe dwrd 10
  let d2 ← receiveSubframe dwrd 20
  let d3 ← receiveSubframe dwrd 30
  let d4 ← receiveSubframe dwrd 40
  let d5 ← receiveSubframe dwrd 50
  let page4 ← decodePage4 d4
  some {
    headers := [d1, d2, d3, d4, d5].map decodeHeader
    clock := decodeClock d1
    orbit := decodeOrbit d2
    plane := decodePlane d3
    page4 := page4
    page5 := decodePage5 d5 }

end Navisim.Nav

import Navisim.Gps.Ephemeris
import Navisim.Lib.BitField

/-!
# Subframes from an ephemeris

`eph2sbf` in its two halves: `scaleEphem` and `scaleIono` compute the integers of the fields,
`subframe1` to `subframe5` mask them and put them in their places.
-/

namespace Navisim.Nav

/-- An `unsigned` word; none of the values that the code keeps in an `unsigned long` is
larger. -/
abbrev Word := BitVec 32

/-- The conversion of an integer to an unsigned word. -/
abbrev word (x : Int) : Word := BitVec.ofInt 32 x

def nSbf : Nat := 5
def nDwrdSbf : Nat := 10
def nDwrd : Nat := (nSbf + 1) * nDwrdSbf

/-! ## Scaled fields -/

/-- The integers `eph2sbf` computes from the ephemeris before it masks them. -/
structure Scaled where
  toe : Int
  toc : Int
  iode : Int
  iodc : Int
  deltan : Int
  cuc : Int
  cus : Int
  cic : Int
  cis : Int
  crc : Int
  crs : Int
  ecc : Int
  sqrta : Int
  m0 : Int
  omg0 : Int
  inc0 : Int
  aop : Int
  omgdot : Int
  idot : Int
  af0 : Int
  af1 : Int
  af2 : Int
  tgd : Int
  svhlth : Int
  codeL2 : Int
  wna : Int
  toa : Int
  deriving DecidableEq, Repr

/-- The integers `eph2sbf` computes from the ionosphere and UTC record. -/
structure ScaledIono where
  alpha0 : Int
  alpha1 : Int
  alpha2 : Int
  alpha3 : Int
  beta0 : Int
  beta1 : Int
  beta2 : Int
  beta3 : Int
  A0 : Int
  A1 : Int
  dtls : Int
  tot : Int
  wnt : Int
  wnlsf : Int
  dn : Int
  dtlsf : Int
  deriving DecidableEq, Repr

section Scale

variable {F : Type*} [Div F] [OfScientific F] [Rounding F]

def scaleEphem (eph : Ephem F) : Scaled where
  toe := trunc (eph.toe.sec / (16.0 : F))
  toc := trunc (eph.toc.sec / (16.0 : F))
  iode := eph.iode
  iodc := eph.iodc
  deltan := trunc (eph.deltan / pow2M43 / pi)
  cuc := trunc (eph.cuc / pow2M29)
  cus := trunc (eph.cus / pow2M29)
  cic := trunc (eph.cic / pow2M29)
  cis := trunc (eph.cis / pow2M29)
  crc := trunc (eph.crc / pow2M5)
  crs := trunc (eph.crs / pow2M5)
  ecc := trunc (eph.ecc / pow2M33)
  sqrta := trunc (eph.sqrta / pow2M19)
  m0 := trunc (eph.m0 / pow2M31 / pi)
  omg0 := trunc (eph.omg0 / pow2M31 / pi)
  inc0 := trunc (eph.inc0 / pow2M31 / pi)
  aop := trunc (eph.aop / pow2M31 / pi)
  omgdot := trunc (eph.omgdot / pow2M43 / pi)
  idot := trunc (eph.idot / pow2M43 / pi)
  af0 := trunc (eph.af0 / pow2M31)
  af1 := trunc (eph.af1 / pow2M43)
  af2 := trunc (eph.af2 / pow2M55)
  tgd := trunc (eph.tgd / pow2M31)
  svhlth := eph.svhlth
  codeL2 := eph.codeL2
  wna := eph.toe.week.tmod 256
  toa := trunc (eph.toe.sec / (4096.0 : F))

def scaleIono (ionoutc : IonoUtc F) : ScaledIono where
  alpha0 := trunc (round (ionoutc.alpha0 / pow2M30))
  alpha1 := trunc (round (ionoutc.alpha1 / pow2M27))
  alpha2 := trunc (round (ionoutc.alpha2 / pow2M24))
  alpha3 := trunc (round (ionoutc.alpha3 / pow2M24))
  beta0 := trunc (round (ionoutc.beta0 / (2048.0 : F)))
  beta1 := trunc (round (ionoutc.beta1 / (16384.0 : F)))
  beta2 := trunc (round (ionoutc.beta2 / (65536.0 : F)))
  beta3 := trunc (round (ionoutc.beta3 / (65536.0 : F)))
  A0 := trunc (round (ionoutc.A0 / pow2M30))
  A1 := trunc (round (ionoutc.A1 / pow2M50))
  dtls := ionoutc.dtls
  tot := ionoutc.tot.tdiv 4096
  wnt := ionoutc.wnt.tmod 256
  -- 2016/12/31 (Sat) -> WNlsf = 1929, DN = 7
  wnlsf := 1929 % 256
  dn := 7
  dtlsf := 18

end Scale

/-! ## Subframe words -/

/-- The ten words of a subframe; there is no word from index `N_DWRD_SBF` on. -/
abbrev Subframe := Nat → Word

def ura : Word := 0
def dataId : Word := 1
def sbf4Page25SvId : Word := 63
def sbf5Page25SvId : Word := 51
def sbf4Page18SvId : Word := 56

/-- `wn` is filled in with the transmission week number by `generateNavMsg`. -/
def subframe1 (s : Scaled) : Subframe
  | 0 => (0x8B0000 : Word) <<< 6
  | 1 => (0x1 : Word) <<< 8
  | 2 => ((0 : Word) &&& 0x3FF) <<< 20 ||| (word s.codeL2 &&& 0x3) <<< 18 |||
      (ura &&& 0xF) <<< 14 ||| (word s.svhlth &&& 0x3F) <<< 8 |||
      (word (s.iodc >>> (8 : Nat)) &&& 0x3) <<< 6
  | 3 => 0
  | 4 => 0
  | 5 => 0
  | 6 => (word s.tgd &&& 0xFF) <<< 6
  | 7 => (word s.iodc &&& 0xFF) <<< 22 ||| (word s.toc &&& 0xFFFF) <<< 6
  | 8 => (word s.af2 &&& 0xFF) <<< 22 ||| (word s.af1 &&& 0xFFFF) <<< 6
  | 9 => (word s.af0 &&& 0x3FFFFF) <<< 8
  | _ => 0

def subframe2 (s : Scaled) : Subframe
  | 0 => (0x8B0000 : Word) <<< 6
  | 1 => (0x2 : Word) <<< 8
  | 2 => (word s.iode &&& 0xFF) <<< 22 ||| (word s.crs &&& 0xFFFF) <<< 6
  | 3 => (word s.deltan &&& 0xFFFF) <<< 14 ||| (word (s.m0 >>> (24 : Nat)) &&& 0xFF) <<< 6
  | 4 => (word s.m0 &&& 0xFFFFFF) <<< 6
  | 5 => (word s.cuc &&& 0xFFFF) <<< 14 ||| (word (s.ecc >>> (24 : Nat)) &&& 0xFF) <<< 6
  | 6 => (word s.ecc &&& 0xFFFFFF) <<< 6
  | 7 => (word s.cus &&& 0xFFFF) <<< 14 ||| (word (s.sqrta >>> (24 : Nat)) &&& 0xFF) <<< 6
  | 8 => (word s.sqrta &&& 0xFFFFFF) <<< 6
  | 9 => (word s.toe &&& 0xFFFF) <<< 14
  | _ => 0

def subframe3 (s : Scaled) : Subframe
  | 0 => (0x8B0000 : Word) <<< 6
  | 1 => (0x3 : Word) <<< 8
  | 2 => (word s.cic &&& 0xFFFF) <<< 14 ||| (word (s.omg0 >>> (24 : Nat)) &&& 0xFF) <<< 6
  | 3 => (word s.omg0 &&& 0xFFFFFF) <<< 6
  | 4 => (word s.cis &&& 0xFFFF) <<< 14 ||| (word (s.inc0 >>> (24 : Nat)) &&& 0xFF) <<< 6
  | 5 => (word s.inc0 &&& 0xFFFFFF) <<< 6
  | 6 => (word s.crc &&& 0xFFFF) <<< 14 ||| (word (s.aop >>> (24 : Nat)) &&& 0xFF) <<< 6
  | 7 => (word s.aop &&& 0xFFFFFF) <<< 6
  | 8 => (word s.omgdot &&& 0xFFFFFF) <<< 6
  | 9 => (word s.iode &&& 0xFF) <<< 22 ||| (word s.idot &&& 0x3FFF) <<< 8
  | _ => 0

/-- Subframe 4, page 18. -/
def subframe4Page18 (u : ScaledIono) : Subframe
  | 0 => (0x8B0000 : Word) <<< 6
  | 1 => (0x4 : Word) <<< 8
  | 2 => dataId <<< 28 ||| sbf4Page18SvId <<< 22 ||| (word u.alpha0 &&& 0xFF) <<< 14 |||
      (word u.alpha1 &&& 0xFF) <<< 6
  | 3 => (word u.alpha2 &&& 0xFF) <<< 22 ||| (word u.alpha3 &&& 0xFF) <<< 14 |||
      (word u.beta0 &&& 0xFF) <<< 6
  | 4 => (word u.beta1 &&& 0xFF) <<< 22 ||| (word u.beta2 &&& 0xFF) <<< 14 |||
      (word u.beta3 &&& 0xFF) <<< 6
  | 5 => (word u.A1 &&& 0xFFFFFF) <<< 6
  | 6 => (word (u.A0 >>> (8 : Nat)) &&& 0xFFFFFF) <<< 6
  | 7 => (word u.A0 &&& 0xFF) <<< 22 ||| (word u.tot &&& 0xFF) <<< 14 |||
      (word u.wnt &&& 0xFF) <<< 6
  | 8 => (word u.dtls &&& 0xFF) <<< 22 ||| (word u.wnlsf &&& 0xFF) <<< 14 |||
      (word u.dn &&& 0xFF) <<< 6
  | 9 => (word u.dtlsf &&& 0xFF) <<< 22
  | _ => 0

/-- Subframe 4, page 25. -/
def subframe4Page25 : Subframe
  | 0 => (0x8B0000 : Word) <<< 6
  | 1 => (0x4 : Word) <<< 8
  | 2 => dataId <<< 28 ||| sbf4Page25SvId <<< 22
  | _ => 0

/-- Subframe 5, page 25. -/
def subframe5 (s : Scaled) : Subframe
  | 0 => (0x8B0000 : Word) <<< 6
  | 1 => (0x5 : Word) <<< 8
  | 2 => dataId <<< 28 ||| sbf5Page25SvId <<< 22 ||| (word s.toa &&& 0xFF) <<< 14 |||
      (word s.wna &&& 0xFF) <<< 6
  | _ => 0

/-- `sbf[5][N_DWRD_SBF]` -/
abbrev Subframes := Nat → Subframe

def eph2sbf {F : Type*} [Div F] [OfScientific F] [Rounding F] (eph : Ephem F)
    (ionoutc : IonoUtc F) : Subframes
  | 0 => subframe1 (scaleEphem eph)
  | 1 => subframe2 (scaleEphem eph)
  | 2 => subframe3 (scaleEphem eph)
  | 3 => if ionoutc.vflg = 1 then subframe4Page18 (scaleIono ionoutc) else subframe4Page25
  | 4 => subframe5 (scaleEphem eph)
  | _ => fun _ => 0

end Navisim.Nav

import Navisim.Gps.Calendar

/-!
# Ephemeris and ionosphere records

`ephem_t` and `ionoutc_t`, over the number type of the `double`s.
-/

namespace Navisim

def maxSat : Nat := 32

/-- `ephem_t` -/
structure Ephem (F : Type*) where
  vflg : Int
  t : DateTime
  toc : GpsTime F
  toe : GpsTime F
  iodc : Int
  iode : Int
  deltan : F
  cuc : F
  cus : F
  cic : F
  cis : F
  crc : F
  crs : F
  ecc : F
  sqrta : F
  m0 : F
  omg0 : F
  inc0 : F
  aop : F
  omgdot : F
  idot : F
  af0 : F
  af1 : F
  af2 : F
  tgd : F
  svhlth : Int
  codeL2 : Int
  -- Working variables follow
  n : F
  sq1e2 : F
  A : F
  omgkdot : F
  deriving DecidableEq, Repr

/-- `ionoutc_t` -/
structure IonoUtc (F : Type*) where
  enable : Int
  vflg : Int
  alpha0 : F
  alpha1 : F
  alpha2 : F
  alpha3 : F
  beta0 : F
  beta1 : F
  beta2 : F
  beta3 : F
  A0 : F
  A1 : F
  dtls : Int
  tot : Int
  wnt : Int
  dtlsf : Int
  dn : Int
  wnlsf : Int
  deriving DecidableEq, Repr

/-! ## The constants of `gpssim.h`

A literal is read in the number type: where numbers are exact it is the decimal number, and where
they are doubles it is the nearest double, which is a power of two for `POW2_M29` and `POW2_M31`
but not for `POW2_M33`, `POW2_M43` and `POW2_M55`. -/

section Constants

variable {F : Type*} [OfScientific F]

def pow2M5 : F := 0.03125
def pow2M19 : F := 1.907348632812500e-6
def pow2M29 : F := 1.862645149230957e-9
def pow2M31 : F := 4.656612873077393e-10
def pow2M33 : F := 1.164153218269348e-10
def pow2M43 : F := 1.136868377216160e-13
def pow2M55 : F := 2.775557561562891e-17

def pow2M50 : F := 8.881784197001252e-016
def pow2M30 : F := 9.313225746154785e-010
def pow2M27 : F := 7.450580596923828e-009
def pow2M24 : F := 5.960464477539063e-008

/-- `PI`, the conventional value of the ephemeris model. -/
def pi : F := 3.1415926535898

def gmEarth : F := 3.986005e14
def omegaEarth : F := 7.2921151467e-5

end Constants

end Navisim

import Navisim.Gps.Ephemeris
import Navisim.Rtcm.Bits

/-!
# Ephemerides from RTCM messages

`decode_rtcm3` of `getRTCM3Eph.c`: message 1019 is decoded into an ephemeris and stored in the
first set of the table.
-/

namespace Navisim.Rtcm

/-! ## The constants of `getRTCM3Eph.c` -/

def p2_5 : ℚ := 0.03125
def p2_19 : ℚ := 1.907348632812500E-06
def p2_29 : ℚ := 1.862645149230957E-09
def p2_31 : ℚ := 4.656612873077393E-10
def p2_33 : ℚ := 1.164153218269348E-10
def p2_43 : ℚ := 1.136868377216160E-13
def p2_55 : ℚ := 2.775557561562891E-17

/-- `SC2RAD`, semi-circle to radian. -/
def sc2rad : ℚ := 3.1415926535898

/-- What `decode_rtcm3` changes: the ephemerides `eph[0][..]`, with whatever lies in front of
them, and the global count `nSV`. -/
structure Table where
  eph : Int → Ephem ℚ
  nSV : Int

/-- The ephemeris in a message 1019 whose satellite id has been read; `sqrt` is that of the
mathematical library. -/
def decodeEphem (sqrt : ℚ → ℚ) (buffer : Buffer) : Ephem ℚ :=
  let i : Nat := 24 + 12
  let i := i + 6
  let week : Int := (getbitu buffer i 10).toNat + 1024 -- VALID UNTIL gps week-->2048
  let i := i + 10
  let i := i + 4 -- sva
  let i := i + 2 -- code
  let idot := getbits buffer i 14 * p2_43 * sc2rad
  let i := i + 14
  let iode := (getbitu buffer i 8).toNat
  let i := i + 8
  let tocSec := (getbitu buffer i 16).toNat * (16.0 : ℚ)
  let i := i + 16
  let af2 := getbits buffer i 8 * p2_55
  let i := i + 8
  let af1 := getbits buffer i 16 * p2_43
  let i := i + 16
  let af0 := getbits buffer i 22 * p2_31
  let i := i + 22
  let iodc := (getbitu buffer i 10).toNat
  let i := i + 10
  let crs := getbits buffer i 16 * p2_5
  let i := i + 16
  let deltan := getbits buffer i 16 * p2_43 * sc2rad
  let i := i + 16
  let m0 := getbits buffer i 32 * p2_31 * sc2rad
  let i := i + 32
  let cuc := getbits buffer i 16 * p2_29
  let i := i + 16
  let ecc := (getbitu buffer i 32).toNat * p2_33
  let i := i + 32
  let cus := getbits buffer i 16 * p2_29
  let i := i + 16
  let sqrta := (getbitu buffer i 32).toNat * p2_19
  let i := i + 32
  let toeSec := (getbitu buffer i 16).toNat * (16.0 : ℚ)
  let i := i + 16
  let cic := getbits buffer i 16 * p2_29
  let i := i + 16
  let omg0 := getbits buffer i 32 * p2_31 * sc2rad
  let i := i + 32
  let cis := getbits buffer i 16 * p2_29
  let i := i + 16
  let inc0 := getbits buffer i 32 * p2_31 * sc2rad
  let i := i + 32
  let crc := getbits buffer i 16 * p2_5
  let i := i + 16
  let aop := getbits buffer i 32 * p2_31 * sc2rad
  let i := i + 32
  let omgdot := getbits buffer i 24 * p2_43 * sc2rad
  let i := i + 24
  let tgd := getbits buffer i 8 * p2_31
  let A := sqrta * sqrta
  { vflg := 1
    toc := { week := week, sec := tocSec }
    toe := { week := week, sec := toeSec }
    iodc := iodc
    iode := iode
    deltan := deltan
    cuc := cuc
    cus := cus
    cic := cic
    cis := cis
    crc := crc
    crs := crs
    ecc := ecc
    sqrta := sqrta
    m0 := m0
    omg0 := omg0
    inc0 := inc0
    aop := aop
    omgdot := omgdot
    idot := idot
    af0 := af0
    af1 := af1
    af2 := af2
    tgd := tgd
    -- `_eph = { 0 }`: the message's health and code on L2 are not stored, and no calendar date
    t := ⟨0, 0, 0, 0, 0, 0⟩
    svhlth := 0
    codeL2 := 0
    n := sqrt (gmEarth / (A * A * A)) + deltan
    sq1e2 := sqrt (1.0 - ecc * ecc)
    A := A
    omgkdot := omgdot - omegaEarth }

/-- The return value of `decode_rtcm3` and the table it leaves. -/
def decodeRtcm3 (sqrt : ℚ → ℚ) (eph : Table) (buffer : Buffer) (len : Int) : Int × Table :=
  let type := (getbitu buffer 24 12).toNat
  if type = 1019 then
    let i : Nat := 24 + 12
    if (i : Int) + 476 ≤ len * 8 then
      let prn : Int := (getbitu buffer i 6).toNat
      if prn ≥ 0 ∧ prn ≤ 32 then
        let eph := {
          eph := Function.update eph.eph (prn - 1) (decodeEphem sqrt buffer)
          nSV := eph.nSV + 1 }
        (eph.nSV, eph)
      else (eph.nSV, eph)
    else (-1, eph)
  else (eph.nSV, eph)

end Navisim.Rtcm

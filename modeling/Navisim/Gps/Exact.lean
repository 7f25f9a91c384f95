import Navisim.Gps.Nominal

/-!
# Stored records in exact arithmetic

What a stored ephemeris stands for in real numbers: the broadcast values, and the working variables
as the readers compute them from these values, without rounding.  Broadcast values of a plausible
size make a nominal ephemeris (`Ephem.Plausible.nominal`).
-/

namespace Navisim

/-- A time of exactly that week and second. -/
noncomputable def GpsTime.exact (g : GpsTime ℚ) : GpsTime ℝ where
  week := g.week
  sec := g.sec

/-- The working variables are `A=sqrta*sqrta`, `n=sqrt(GM_EARTH/(A*A*A))+deltan`,
`sq1e2=sqrt(1.0-ecc*ecc)` and `omgkdot=omgdot-OMEGA_EARTH`. -/
noncomputable def Ephem.exact (eph : Ephem ℚ) : Ephem ℝ :=
  let A : ℝ := eph.sqrta * eph.sqrta
  { vflg := eph.vflg
    t := eph.t
    toc := eph.toc.exact
    toe := eph.toe.exact
    iodc := eph.iodc
    iode := eph.iode
    deltan := eph.deltan
    cuc := eph.cuc
    cus := eph.cus
    cic := eph.cic
    cis := eph.cis
    crc := eph.crc
    crs := eph.crs
    ecc := eph.ecc
    sqrta := eph.sqrta
    m0 := eph.m0
    omg0 := eph.omg0
    inc0 := eph.inc0
    aop := eph.aop
    omgdot := eph.omgdot
    idot := eph.idot
    af0 := eph.af0
    af1 := eph.af1
    af2 := eph.af2
    tgd := eph.tgd
    svhlth := eph.svhlth
    codeL2 := eph.codeL2
    n := √(gmEarth / (A * A * A)) + eph.deltan
    sq1e2 := √(1.0 - eph.ecc * eph.ecc)
    A := A
    omgkdot := eph.omgdot - omegaEarth }

noncomputable def IonoUtc.exact (ionoutc : IonoUtc ℚ) : IonoUtc ℝ where
  enable := ionoutc.enable
  vflg := ionoutc.vflg
  alpha0 := ionoutc.alpha0
  alpha1 := ionoutc.alpha1
  alpha2 := ionoutc.alpha2
  alpha3 := ionoutc.alpha3
  beta0 := ionoutc.beta0
  beta1 := ionoutc.beta1
  beta2 := ionoutc.beta2
  beta3 := ionoutc.beta3
  A0 := ionoutc.A0
  A1 := ionoutc.A1
  dtls := ionoutc.dtls
  tot := ionoutc.tot
  wnt := ionoutc.wnt
  dtlsf := ionoutc.dtlsf
  dn := ionoutc.dn
  wnlsf := ionoutc.wnlsf

/-- The ranges of the broadcast values: an orbit of the size of the system's, corrections as their
fields can hold them, and a time of clock within its week. -/
structure Ephem.Plausible (eph : Ephem ℚ) : Prop where
  ecc : 0 ≤ eph.ecc ∧ eph.ecc ≤ 0.1
  sqrta : 5000 ≤ eph.sqrta ∧ eph.sqrta ≤ 5290
  deltan : |eph.deltan| ≤ 2e-8
  omgdot : |eph.omgdot| ≤ 4e-6
  idot : |eph.idot| ≤ 1e-8
  crc : |eph.crc| ≤ 1024
  crs : |eph.crs| ≤ 1024
  cuc : |eph.cuc| ≤ 1e-4
  cus : |eph.cus| ≤ 1e-4
  cic : |eph.cic| ≤ 1e-4
  cis : |eph.cis| ≤ 1e-4
  af0 : |eph.af0| ≤ 1e-3
  af1 : |eph.af1| ≤ 4e-9
  af2 : |eph.af2| ≤ 4e-15
  tgd : |eph.tgd| ≤ 1e-7
  toc : 0 ≤ eph.toc.sec ∧ eph.toc.sec ≤ 604800

/-- The mean motion of an orbit of this size. -/
theorem meanMotion_le {a : ℝ} (size : 25000000 ≤ a) : √(gmEarth / (a * a * a)) ≤ 1.6e-4 := by
  have cube : (25000000 : ℝ) * 25000000 * 25000000 ≤ a * a * a := by gcongr
  have positive : 0 < a * a * a := lt_of_lt_of_le (by norm_num) cube
  rw [Real.sqrt_le_left (by norm_num), div_le_iff₀ positive]
  norm_num [gmEarth] at cube ⊢
  linarith

theorem Ephem.Plausible.nominal {eph : Ephem ℚ} (likely : eph.Plausible) :
    eph.exact.Nominal := by
  have bound : ∀ {x y : ℚ} {b : ℝ}, |x| ≤ y → ((y : ℚ) : ℝ) = b → |(x : ℝ)| ≤ b := by
    intro x y b small same
    rw [← same]
    exact_mod_cast small
  obtain ⟨ecc, ecc'⟩ := likely.ecc
  obtain ⟨lower, upper⟩ := likely.sqrta
  have root : (5000 : ℝ) ≤ eph.sqrta ∧ (eph.sqrta : ℝ) ≤ 5290 := by
    constructor
    · exact_mod_cast lower
    · exact_mod_cast upper
  have size : (25000000 : ℝ) ≤ eph.sqrta * eph.sqrta := by nlinarith
  have motion := meanMotion_le size
  have drift := abs_le.mp (bound likely.deltan rfl)
  have node := abs_le.mp (bound likely.omgdot rfl)
  refine ⟨?_, ?_, size, ?_, ?_, ?_, ?_, bound likely.idot (by norm_num),
    bound likely.crc (by norm_num), bound likely.crs (by norm_num),
    bound likely.cuc (by norm_num), bound likely.cus (by norm_num),
    bound likely.cic (by norm_num), bound likely.cis (by norm_num),
    bound likely.af0 (by norm_num), bound likely.af1 (by norm_num),
    bound likely.af2 (by norm_num), bound likely.tgd (by norm_num), ?_⟩
  · change (0 : ℝ) ≤ eph.ecc
    exact_mod_cast ecc
  · change (eph.ecc : ℝ) ≤ 0.1
    have small : ((eph.ecc : ℚ) : ℝ) ≤ ((0.1 : ℚ) : ℝ) := by exact_mod_cast ecc'
    norm_num at small ⊢
    exact small
  · change (eph.sqrta : ℝ) * eph.sqrta ≤ 28000000
    nlinarith
  · change √(1.0 - (eph.ecc : ℝ) * eph.ecc) = √(1 - (eph.ecc : ℝ) * eph.ecc)
    norm_num
  · change |√(gmEarth / _) + (eph.deltan : ℝ)| ≤ 2e-4
    have nonneg := Real.sqrt_nonneg (gmEarth / ((eph.sqrta : ℝ) * eph.sqrta *
      ((eph.sqrta : ℝ) * eph.sqrta) * ((eph.sqrta : ℝ) * eph.sqrta)))
    rw [abs_le]
    norm_num at motion drift ⊢
    constructor <;> linarith
  · change |(eph.omgdot : ℝ) - omegaEarth| ≤ 1e-4
    rw [abs_le]
    norm_num [omegaEarth] at node ⊢
    constructor <;> linarith
  · change |(eph.sqrta : ℝ)| ≤ 5300
    rw [abs_le]
    constructor <;> linarith

/-- Times of a week are at most a week away from the time of clock. -/
theorem Ephem.Plausible.abs_sub_toc_le {eph : Ephem ℚ} (likely : eph.Plausible)
    {g : GpsTime ℚ} (inWeek : g.InWeek) : |g.exact.sec - eph.exact.toc.sec| ≤ 604800 := by
  have lower : (0 : ℝ) ≤ g.sec := by exact_mod_cast inWeek.1
  have upper : (g.sec : ℝ) ≤ 604800 := by exact_mod_cast inWeek.2.le
  have lower' : (0 : ℝ) ≤ eph.toc.sec := by exact_mod_cast likely.toc.1
  have upper' : (eph.toc.sec : ℝ) ≤ 604800 := by exact_mod_cast likely.toc.2
  change |(g.sec : ℝ) - eph.toc.sec| ≤ 604800
  rw [abs_le]
  constructor <;> linarith

end Navisim

import Navisim.Gps.Calendar
import Navisim.Gps.Kepler
import Navisim.Lib.Perturbed
import Navisim.Signal.CodePhase

/-!
# The ionospheric delay

`ionosphericDelay`, in real numbers.  It returns for every direction but the one in which its
first quotient is undefined, and the delay lies between that of the night and that of the full
amplitude (`ionosphericDelay_bounds`).
-/

namespace Navisim.Sight

open RealMath Signal Perturbed

/-! ## The local time -/

/-- `while(t>=SECONDS_IN_DAY)`, if it is done after at most `turns` turns. -/
noncomputable def dayDown : (turns : Nat) → ℝ → Option ℝ
  | 0, t => open Classical in if t ≥ secondsInDay then none else some t
  | turns + 1, t => open Classical in
      if t ≥ secondsInDay then dayDown turns (t - secondsInDay) else some t

/-- `while(t<0)`, if it is done after at most `turns` turns. -/
noncomputable def dayUp : (turns : Nat) → ℝ → Option ℝ
  | 0, t => open Classical in if t < 0 then none else some t
  | turns + 1, t => open Classical in if t < 0 then dayUp turns (t + secondsInDay) else some t

/-- The two loops. -/
noncomputable def localTime (turns : Nat) (t : ℝ) : Option ℝ := do
  let t ← dayDown turns t
  dayUp turns t

/-! ## The delay -/

/-- Obliquity factor -/
noncomputable def obliquity (E : ℝ) : ℝ :=
  1.0 + 16.0 * (0.53 - E) ^ 3

/-- `phi_i`, brought into its limits. -/
noncomputable def pierceLatitude (phiI : ℝ) : ℝ :=
  open Classical in
  if phiI > 0.416 then 0.416
  else if phiI < -0.416 then -0.416
  else phiI

/-- `AMP` -/
noncomputable def amplitude (ionoutc : IonoUtc ℝ) (phiM : ℝ) : ℝ :=
  open Classical in
  let phiM2 := phiM * phiM
  let phiM3 := phiM2 * phiM
  let AMP := ionoutc.alpha0 + ionoutc.alpha1 * phiM + ionoutc.alpha2 * phiM2 +
    ionoutc.alpha3 * phiM3
  if AMP < 0.0 then 0.0 else AMP

/-- `PER` -/
noncomputable def period (ionoutc : IonoUtc ℝ) (phiM : ℝ) : ℝ :=
  open Classical in
  let phiM2 := phiM * phiM
  let phiM3 := phiM2 * phiM
  let PER := ionoutc.beta0 + ionoutc.beta1 * phiM + ionoutc.beta2 * phiM2 + ionoutc.beta3 * phiM3
  if PER < 72000.0 then 72000.0 else PER

/-- The delay for a phase. -/
noncomputable def delayAt (F AMP X : ℝ) : ℝ :=
  open Classical in
  if |X| < 1.57 then
    let X2 := X * X
    let X4 := X2 * X2
    F * (5.0e-9 + AMP * (1.0 - X2 / 2.0 + X4 / 24.0)) * speedOfLight
  else F * 5.0e-9 * speedOfLight

/-- `ionosphericDelay`, if its quotients are defined and its loops are done after at most `turns`
turns. -/
noncomputable def ionosphericDelay (turns : Nat) (ionoutc : IonoUtc ℝ) (g : GpsTime ℝ)
    (llh : ℝ × ℝ × ℝ) (azel : ℝ × ℝ) : Option ℝ :=
  if ionoutc.enable = 0 then some 0.0 -- No ionospheric delay
  else
    let E := azel.2 / pi
    let phiU := llh.1 / pi
    let lamU := llh.2.1 / pi
    let F := obliquity E
    if ionoutc.vflg = 0 then some (F * 5.0e-9 * speedOfLight)
    else do
      -- Earth's central angle between the user position and the earth projection of the
      -- ionospheric intersection point (semi-circles)
      let angle ← quotient 0.0137 (E + 0.11)
      let psi := angle - 0.022
      -- Geodetic latitude and longitude of this projection (semi-circles)
      let phiI := pierceLatitude (phiU + psi * Real.cos azel.1)
      let shift ← quotient (psi * Real.sin azel.1) (Real.cos (phiI * pi))
      let lamI := lamU + shift
      -- Geomagnetic latitude
      let phiM := phiI + 0.064 * Real.cos ((lamI - 1.617) * pi)
      let AMP := amplitude ionoutc phiM
      let PER := period ionoutc phiM
      -- Local time (sec)
      let t ← localTime turns (secondsInDay / 2.0 * lamI + g.sec)
      -- Phase (radians)
      let X ← quotient (2.0 * pi * (t - 50400.0)) PER
      return delayAt F AMP X

/-! ## The loops end -/

section Loops

variable {t : ℝ}

theorem day_eq : ((secondsInDay : ℚ) : ℝ) = 86400 := by
  norm_num [secondsInDay]

theorem dayDown_of_lt (turns : Nat) (below : t < 86400) : dayDown turns t = some t := by
  have done : ¬ t ≥ secondsInDay := by
    rw [day_eq]
    exact not_le.mpr below
  cases turns with
  | zero => rw [dayDown, if_neg done]
  | succ turns => rw [dayDown, if_neg done]

theorem dayUp_of_nonneg (turns : Nat) (nonneg : 0 ≤ t) : dayUp turns t = some t := by
  cases turns with
  | zero => rw [dayUp, if_neg (not_lt.mpr nonneg)]
  | succ turns => rw [dayUp, if_neg (not_lt.mpr nonneg)]

/-- The first loop ends below a day, and leaves a time before the day alone. -/
theorem dayDown_returns (n : Nat) (bound : t < 86400 * (n + 1)) :
    ∃ turns r, (∀ more ≥ turns, dayDown more t = some r) ∧ r < 86400 ∧ (0 ≤ r ∨ r = t) := by
  induction n generalizing t with
  | zero =>
      have below : t < 86400 := by
        push_cast at bound
        linarith
      exact ⟨0, t, fun more _ => dayDown_of_lt more below, below, .inr rfl⟩
  | succ n ih =>
      by_cases more : t ≥ 86400
      · have rest : t - 86400 < 86400 * (n + 1) := by
          push_cast at bound
          linarith
        obtain ⟨turns, r, returned, below, kept⟩ := ih rest
        refine ⟨turns + 1, r, fun turns' enough => ?_, below, .inl ?_⟩
        · obtain ⟨turns', rfl⟩ := Nat.exists_eq_succ_of_ne_zero (show turns' ≠ 0 by omega)
          rw [dayDown, if_pos (by rwa [day_eq]), day_eq]
          exact returned turns' (by omega)
        · rcases kept with nonneg | rfl
          · exact nonneg
          · linarith
      · exact ⟨0, t, fun turns _ => dayDown_of_lt turns (not_le.mp more), not_le.mp more, .inr rfl⟩

theorem dayUp_returns (n : Nat) (bound : -(86400 * (n : ℝ)) ≤ t) (below : t < 86400) :
    ∃ turns r, (∀ more ≥ turns, dayUp more t = some r) ∧ 0 ≤ r ∧ r < 86400 := by
  induction n generalizing t with
  | zero =>
      have nonneg : 0 ≤ t := by
        push_cast at bound
        linarith
      exact ⟨0, t, fun more _ => dayUp_of_nonneg more nonneg, nonneg, below⟩
  | succ n ih =>
      by_cases before : t < 0
      · obtain ⟨turns, r, returned, range⟩ := ih (t := t + 86400)
          (by push_cast at bound; linarith) (by linarith)
        refine ⟨turns + 1, r, fun turns' enough => ?_, range⟩
        obtain ⟨turns', rfl⟩ := Nat.exists_eq_succ_of_ne_zero (show turns' ≠ 0 by omega)
        rw [dayUp, if_pos before, day_eq]
        exact returned turns' (by omega)
      · exact ⟨0, t, fun turns _ => dayUp_of_nonneg turns (not_lt.mp before), not_lt.mp before,
          below⟩

/-- **The local time** comes into the day, from whatever time. -/
theorem localTime_returns (t : ℝ) :
    ∃ turns r, (∀ more ≥ turns, localTime more t = some r) ∧ 0 ≤ r ∧ r < 86400 := by
  obtain ⟨n, above⟩ := exists_nat_gt (t / 86400)
  have bound : t < 86400 * (n + 1) := by
    rw [div_lt_iff₀ (by norm_num)] at above
    linarith
  obtain ⟨turns, r, returned, below, -⟩ := dayDown_returns n bound
  obtain ⟨n', above'⟩ := exists_nat_gt (-r / 86400)
  have bound' : -(86400 * (n' : ℝ)) ≤ r := by
    rw [div_lt_iff₀ (by norm_num)] at above'
    linarith
  obtain ⟨turns', r', returned', range⟩ := dayUp_returns n' bound' below
  refine ⟨max turns turns', r', fun more enough => ?_, range⟩
  rw [localTime, returned more (le_of_max_le_left enough)]
  exact returned' more (le_of_max_le_right enough)

end Loops

/-! ## The delay lies between its bounds -/

section Bounds

variable {E phiI phiM F AMP X : ℝ} {ionoutc : IonoUtc ℝ}

/-- An elevation in semi-circles; `PI` is not less than the number. -/
theorem semicircles_le {elevation : ℝ} (range : |elevation| ≤ Real.pi / 2) :
    elevation / pi ≤ 0.5 := by
  have upper := (abs_le.mp range).2
  have bound := Real.pi_lt_d20
  have value : (pi : ℝ) = 3.1415926535898 := rfl
  rw [value, div_le_iff₀ (by norm_num)]
  norm_num at bound ⊢
  linarith

theorem one_le_obliquity (high : E ≤ 0.5) : 1 ≤ obliquity E := by
  have positive : 0 ≤ (0.53 - E) ^ 3 := by
    apply pow_nonneg
    norm_num at high ⊢
    linarith
  unfold obliquity
  norm_num at positive ⊢
  exact positive

theorem abs_pierceLatitude_le (phiI : ℝ) : |pierceLatitude phiI| ≤ 0.416 := by
  rw [abs_le]
  unfold pierceLatitude
  split
  · norm_num
  · rename_i low
    split
    · norm_num
    · rename_i high
      exact ⟨not_lt.mp high, not_lt.mp low⟩

/-- The quotient of the longitude is defined. -/
theorem cos_pierceLatitude_pos (phiI : ℝ) : 0 < Real.cos (pierceLatitude phiI * pi) := by
  have bound := abs_le.mp (abs_pierceLatitude_le phiI)
  have value : (pi : ℝ) = 3.1415926535898 := rfl
  have lower := Real.pi_gt_d20
  rw [value]
  norm_num at bound lower
  apply Real.cos_pos_of_mem_Ioo
  constructor <;> norm_num <;> linarith

theorem amplitude_nonneg (ionoutc : IonoUtc ℝ) (phiM : ℝ) : 0 ≤ amplitude ionoutc phiM := by
  unfold amplitude
  dsimp only
  split
  · norm_num
  · rename_i above
    norm_num at above ⊢
    exact above

theorem period_pos (ionoutc : IonoUtc ℝ) (phiM : ℝ) : 0 < period ionoutc phiM := by
  unfold period
  dsimp only
  split
  · norm_num
  · rename_i above
    norm_num at above ⊢
    linarith

/-- What stands for the cosine of the phase is a number between zero and one. -/
theorem cosine_range (small : |X| < 1.57) :
    0 ≤ 1.0 - X * X / 2.0 + X * X * (X * X) / 24.0 ∧
      1.0 - X * X / 2.0 + X * X * (X * X) / 24.0 ≤ 1 := by
  have square : X * X ≤ 1.57 * 1.57 := by
    rw [← abs_mul_abs_self X]
    exact mul_self_le_mul_self (abs_nonneg X) small.le
  have nonneg := mul_self_nonneg X
  generalize X * X = s at square nonneg ⊢
  norm_num at square ⊢
  constructor <;> nlinarith

/-- The delay of the night and the delay of the full amplitude. -/
theorem delayAt_range (factor : 1 ≤ F) (nonneg : 0 ≤ AMP) (X : ℝ) :
    F * 5.0e-9 * speedOfLight ≤ delayAt F AMP X ∧
      delayAt F AMP X ≤ F * (5.0e-9 + AMP) * speedOfLight := by
  have light : (0 : ℝ) ≤ speedOfLight := by norm_num [speedOfLight]
  have scaled : ∀ {a b : ℝ}, a ≤ b → F * a * speedOfLight ≤ F * b * speedOfLight := fun le =>
    mul_le_mul_of_nonneg_right (mul_le_mul_of_nonneg_left le (by linarith)) light
  unfold delayAt
  dsimp only
  split
  · rename_i day
    obtain ⟨lower, upper⟩ := cosine_range day
    have part := mul_nonneg nonneg lower
    have whole := mul_le_mul_of_nonneg_left upper nonneg
    rw [mul_one] at whole
    exact ⟨scaled (by linarith), scaled (by linarith)⟩
  · exact ⟨le_rfl, scaled (by linarith)⟩

end Bounds

section Returns

variable {ionoutc : IonoUtc ℝ} {g : GpsTime ℝ} {llh : ℝ × ℝ × ℝ} {azel : ℝ × ℝ}

theorem ionosphericDelay_night (turns : Nat) (enabled : ionoutc.enable ≠ 0)
    (night : ionoutc.vflg = 0) :
    ionosphericDelay turns ionoutc g llh azel =
      some (obliquity (azel.2 / pi) * 5.0e-9 * speedOfLight) := by
  rw [ionosphericDelay, if_neg enabled]
  exact if_pos night

theorem ionosphericDelay_undefined (turns : Nat) (enabled : ionoutc.enable ≠ 0)
    (model : ionoutc.vflg ≠ 0) (pole : azel.2 / pi + 0.11 = 0) :
    ionosphericDelay turns ionoutc g llh azel = none := by
  rw [ionosphericDelay, if_neg enabled]
  dsimp only
  rw [if_neg model, pole, quotient, if_pos rfl]
  rfl

/-- The result of the model, where its first quotient is defined. -/
theorem exists_ionosphericDelay (enabled : ionoutc.enable ≠ 0) (model : ionoutc.vflg ≠ 0)
    (apart : azel.2 / pi + 0.11 ≠ 0) :
    ∃ turns phiM X, |phiM| ≤ 0.48 ∧ ∀ more ≥ turns, ionosphericDelay more ionoutc g llh azel =
      some (delayAt (obliquity (azel.2 / pi)) (amplitude ionoutc phiM) X) := by
  let psi := 0.0137 / (azel.2 / pi + 0.11) - 0.022
  let phiI := pierceLatitude (llh.1 / pi + psi * Real.cos azel.1)
  let lamI := llh.2.1 / pi + psi * Real.sin azel.1 / Real.cos (phiI * pi)
  let phiM := phiI + 0.064 * Real.cos ((lamI - 1.617) * pi)
  obtain ⟨turns, t, returned, -⟩ := localTime_returns (secondsInDay / 2.0 * lamI + g.sec)
  have magnetic : |phiM| ≤ 0.48 := by
    have place := abs_pierceLatitude_le (llh.1 / pi + psi * Real.cos azel.1)
    have pole := Real.abs_cos_le_one ((lamI - 1.617) * pi)
    refine (abs_add_le _ _).trans ?_
    rw [abs_mul]
    norm_num at place pole ⊢
    linarith
  refine ⟨turns, phiM, 2.0 * pi * (t - 50400.0) / period ionoutc phiM, magnetic,
    fun more enough => ?_⟩
  rw [ionosphericDelay, if_neg enabled]
  dsimp only
  rw [if_neg model, quotient_eq apart]
  dsimp only [Option.bind_eq_bind, Option.bind_some]
  rw [quotient_eq (cos_pierceLatitude_pos _).ne']
  dsimp only [Option.bind_some]
  rw [returned more enough]
  dsimp only [Option.bind_some]
  rw [quotient_eq (period_pos ionoutc phiM).ne']
  rfl

end Returns

/-- **The ionospheric delay.**  Where the model is enabled the function returns for every place,
time and direction, except the one elevation at which its first quotient is undefined; its loops
end, and the delay lies between that of the night and that of the full amplitude at some
geomagnetic latitude, both at the obliquity of the elevation. -/
theorem ionosphericDelay_bounds (ionoutc : IonoUtc ℝ) (g : GpsTime ℝ) (llh : ℝ × ℝ × ℝ)
    (azel : ℝ × ℝ) (enabled : ionoutc.enable ≠ 0) (elevation : |azel.2| ≤ Real.pi / 2)
    (defined : ionoutc.vflg = 0 ∨ azel.2 / pi + 0.11 ≠ 0) :
    ∃ turns delay phiM, (∀ more ≥ turns, ionosphericDelay more ionoutc g llh azel = some delay) ∧
      |phiM| ≤ 0.48 ∧
      1 ≤ obliquity (azel.2 / pi) ∧
      obliquity (azel.2 / pi) * 5.0e-9 * speedOfLight ≤ delay ∧
      delay ≤ obliquity (azel.2 / pi) * (5.0e-9 + amplitude ionoutc phiM) * speedOfLight := by
  have factor := one_le_obliquity (semicircles_le elevation)
  rcases Decidable.em (ionoutc.vflg = 0) with night | model
  · have full := delayAt_range factor (amplitude_nonneg ionoutc 0) 0
    exact ⟨0, _, 0, fun more _ => ionosphericDelay_night more enabled night, by norm_num, factor,
      le_rfl, full.1.trans full.2⟩
  · obtain ⟨turns, phiM, X, magnetic, returned⟩ :=
      exists_ionosphericDelay enabled model (defined.resolve_left model)
    exact ⟨turns, _, phiM, returned, magnetic, factor,
      delayAt_range factor (amplitude_nonneg ionoutc phiM) X⟩

/-! ## Nominal parameters -/

/-- The ranges of the parameters that scale the amplitude: what their fields can hold. -/
structure NominalIono (ionoutc : IonoUtc ℝ) : Prop where
  alpha0 : |ionoutc.alpha0| ≤ 2e-7
  alpha1 : |ionoutc.alpha1| ≤ 1e-6
  alpha2 : |ionoutc.alpha2| ≤ 8e-6
  alpha3 : |ionoutc.alpha3| ≤ 8e-6

section Nominal

variable {ionoutc : IonoUtc ℝ} {phiM elevation : ℝ}

theorem NominalIono.amplitude_le (nominal : NominalIono ionoutc) (magnetic : |phiM| ≤ 0.48) :
    amplitude ionoutc phiM ≤ 4e-6 := by
  have square := abs_mul_le_mul magnetic magnetic
  have cube := abs_mul_le_mul square magnetic
  have first := abs_mul_le_mul nominal.alpha1 magnetic
  have second := abs_mul_le_mul nominal.alpha2 square
  have third := abs_mul_le_mul nominal.alpha3 cube
  have constant := nominal.alpha0
  unfold amplitude
  dsimp only
  split
  · norm_num
  · rw [abs_le] at first second third constant
    norm_num at first second third constant ⊢
    linarith

/-- The obliquity of any direction. -/
theorem obliquity_le (range : |elevation| ≤ Real.pi / 2) : obliquity (elevation / pi) ≤ 20 := by
  have lower := (abs_le.mp range).1
  have bound := Real.pi_lt_d20
  have value : (pi : ℝ) = 3.1415926535898 := rfl
  have upper := semicircles_le range
  have least : -0.5 ≤ elevation / pi := by
    rw [value, le_div_iff₀ (by norm_num)]
    norm_num at bound ⊢
    linarith
  have cube : (0.53 - elevation / pi) ^ 3 ≤ 1.03 ^ 3 := by
    apply pow_le_pow_left₀
    · norm_num at upper ⊢
      linarith
    · norm_num at least ⊢
      linarith
  unfold obliquity
  norm_num at cube ⊢
  linarith

/-- A delay of less than 25 kilometres, in whatever direction. -/
theorem NominalIono.exists_delay (nominal : NominalIono ionoutc) (g : GpsTime ℝ)
    (llh : ℝ × ℝ × ℝ) {azel : ℝ × ℝ} (range : |azel.2| ≤ Real.pi / 2)
    (defined : ionoutc.enable = 0 ∨ ionoutc.vflg = 0 ∨ azel.2 / pi + 0.11 ≠ 0) :
    ∃ turns delay, (∀ more ≥ turns, ionosphericDelay more ionoutc g llh azel = some delay) ∧
      0 ≤ delay ∧ delay ≤ 25000 := by
  have factor := one_le_obliquity (semicircles_le range)
  have oblique := obliquity_le range
  have light : (speedOfLight : ℝ) = 299792458 := by norm_num [speedOfLight]
  by_cases enabled : ionoutc.enable = 0
  · refine ⟨0, 0.0, fun more _ => ?_, by norm_num, by norm_num⟩
    rw [ionosphericDelay, if_pos enabled]
  · by_cases night : ionoutc.vflg = 0
    · refine ⟨0, _, fun more _ => ionosphericDelay_night more enabled night, ?_, ?_⟩
      · rw [light]
        positivity
      · rw [light]
        norm_num
        linarith
    · obtain ⟨turns, phiM, X, magnetic, returned⟩ :=
        exists_ionosphericDelay enabled night ((defined.resolve_left enabled).resolve_left night)
      have positive := amplitude_nonneg ionoutc phiM
      obtain ⟨lower, upper⟩ := delayAt_range factor positive X
      have swing := nominal.amplitude_le magnetic
      refine ⟨turns, _, returned, le_trans ?_ lower, upper.trans ?_⟩
      · rw [light]
        positivity
      · have product := mul_le_mul oblique swing positive (by norm_num)
        rw [light]
        norm_num at product ⊢
        linarith

end Nominal

/-- Parameters of a quiet day. -/
noncomputable def quietIono : IonoUtc ℝ where
  enable := 1
  vflg := 1
  alpha0 := 1.0e-8
  alpha1 := -1.5e-8
  alpha2 := -6.0e-8
  alpha3 := 1.2e-7
  beta0 := 90112
  beta1 := -65536
  beta2 := -131072
  beta3 := 196608
  A0 := -1.0e-8
  A1 := -5.0e-14
  dtls := 18
  tot := 405504
  wnt := 2000
  dtlsf := 18
  dn := 7
  wnlsf := 1929

/-- A satellite near the horizon, in the east. -/
theorem ionosphericDelay_bounds_east :
    ∃ turns delay phiM, (∀ more ≥ turns,
        ionosphericDelay more quietIono { week := 2000, sec := 50400 } (0.3, 1.8, 20) (1.5, 0.1) =
          some delay) ∧
      |phiM| ≤ 0.48 ∧
      1 ≤ obliquity (0.1 / pi) ∧
      obliquity (0.1 / pi) * 5.0e-9 * speedOfLight ≤ delay ∧
      delay ≤ obliquity (0.1 / pi) * (5.0e-9 + amplitude quietIono phiM) * speedOfLight := by
  have small : |(0.1 : ℝ)| ≤ Real.pi / 2 := by
    have lower := Real.pi_gt_three
    rw [abs_of_pos (by norm_num)]
    norm_num
    linarith
  refine ionosphericDelay_bounds quietIono _ _ (1.5, 0.1) (by decide) small (.inr ?_)
  norm_num [pi]

end Navisim.Sight

import Navisim.Loop.Sets

/-!
# The age of the current set

A refresh moves on by one set at most, by a look at the next set only.  If the clock times of the
sets are neither too close nor too far apart, the clock time of the current set still is never
more than an hour from the receiver time (`current_set_fresh`).
-/

namespace Navisim.Loop

open Signal Rinex Advance

/-- The reference clock time of a set: that of its first valid satellite. -/
def clockTime (eph : Int → Nat → Ephem ℚ) (k : Nat) : GpsTime ℚ :=
  match firstValid (eph k) with
  | some sv => (eph k sv).toc
  | none => { week := 0, sec := 0 }

/-- A table of at most `EPHEM_ARRAY_SIZE - 1` sets, 30 s to two hours apart; the unused ones are
invalid. -/
structure SpacedSets (eph : Int → Nat → Ephem ℚ) (sets : Nat) : Prop where
  some_set : 1 ≤ sets
  fits : (sets : Int) ≤ ephemArraySize - 1
  valid : ∀ k < sets, HasValid (eph k)
  unused : ∀ k : Nat, sets ≤ k → (k : Int) < ephemArraySize → ¬ HasValid (eph k)
  gaps : ∀ k, k + 1 < sets → 30 ≤ subGpsTime (clockTime eph (k + 1)) (clockTime eph k) ∧
    subGpsTime (clockTime eph (k + 1)) (clockTime eph k) ≤ 7200

section Time

variable {sc : Scenario}

/-- The receiver time, rounded to tenths of a second, renews on the half minutes. -/
theorem isRenewal_iff_floor {g : GpsTime ℚ} (inWeek : g.InWeek) :
    Scenario.isRenewal g = true ↔ ⌊g.total * 10 + 1 / 2⌋ % 300 = 0 := by
  have sec : g.sec * 10.0 + 0.5 = g.total * 10 + 1 / 2 - ((g.week * 6048000 : Int) : ℚ) := by
    unfold GpsTime.total
    push_cast
    linarith
  have nonneg : 0 ≤ g.sec * 10.0 + 0.5 := by
    have := inWeek.1
    positivity
  have igrx : trunc (g.sec * 10.0 + 0.5) = ⌊g.total * 10 + 1 / 2⌋ - g.week * 6048000 := by
    rw [trunc_of_nonneg nonneg, sec, Int.floor_sub_intCast]
  have floor : 0 ≤ ⌊g.total * 10 + 1 / 2⌋ - g.week * 6048000 := by
    rw [← igrx, trunc_of_nonneg nonneg]
    exact Int.floor_nonneg.mpr nonneg
  unfold Scenario.isRenewal
  dsimp only
  rw [igrx, decide_eq_true_iff, Int.tmod_eq_emod_of_nonneg floor]
  omega

/-- The receiver time starts within half a millisecond of the start, and every block adds a
tenth of a second. -/
theorem gen_total_ms (sc : Scenario) :
    ∃ ms : Int, |(ms : ℚ) / 1000 - sc.g0.total| ≤ 1 / 2000 ∧
      ∀ n, (sc.gen n).grx.total = (ms : ℚ) / 1000 + (n + 1) / 10 := by
  obtain ⟨ms, start⟩ := incGpsTime_onMillisecond sc.g0 0.0
  have near := abs_incGpsTime_sub_le sc.g0 0.0
  rw [start, show (0.0 : ℚ) = 0 by norm_num, add_zero] at near
  refine ⟨ms, near, fun n => ?_⟩
  induction n with
  | zero =>
      calc (sc.gen 0).grx.total = (incGpsTime (incGpsTime sc.g0 0.0) 0.1).total := rfl
        _ = (ms : ℚ) / 1000 + ((0 : Nat) + 1) / 10 := by
            rw [incGpsTime_total 100 (by norm_num) ⟨ms, start⟩, start]
            norm_num
  | succ n ih =>
      rw [gen_succ_grx, incGpsTime_total 100 (by norm_num)
        ⟨ms + (n + 1) * 100, by rw [ih]; push_cast; ring⟩, ih]
      push_cast
      ring

end Time

/-- The tenths of a second up to the next refresh, in block `n` of a run that starts at `ms`
milliseconds. -/
def toRefresh (ms : Int) (n : Nat) : Int :=
  (-(⌊(ms : ℚ) / 100 + 1 / 2⌋ + n + 1)) % 300

theorem toRefresh_succ (ms : Int) (n : Nat) :
    toRefresh ms (n + 1) = if toRefresh ms n = 0 then 299 else toRefresh ms n - 1 := by
  unfold toRefresh
  push_cast
  split <;> omega

section Fresh

variable {sc : Scenario} {sets : Nat} {ms : Int}

theorem renews_iff_toRefresh
    (total : ∀ n, (sc.gen n).grx.total = (ms : ℚ) / 1000 + (n + 1) / 10) (n : Nat) :
    sc.renews n = true ↔ toRefresh ms n = 0 := by
  have floor : ⌊(sc.gen n).grx.total * 10 + 1 / 2⌋ = ⌊(ms : ℚ) / 100 + 1 / 2⌋ + n + 1 := by
    have shifted : (sc.gen n).grx.total * 10 + 1 / 2 =
        (ms : ℚ) / 100 + 1 / 2 + ((n + 1 : Int) : ℚ) := by
      rw [total]
      push_cast
      ring
    rw [shifted, Int.floor_add_intCast]
    omega
  rw [Scenario.renews, isRenewal_iff_floor (gen_inWeek n), floor, toRefresh]
  omega

theorem clockTime_of_hasValid {eph : Int → Nat → Ephem ℚ} {k : Nat} (valid : HasValid (eph k)) :
    ∃ sv, firstValid (eph k) = some sv ∧ clockTime eph k = (eph k sv).toc := by
  obtain ⟨sv, found⟩ := hasValid_iff.mp valid
  exact ⟨sv, found, by rw [clockTime, found]⟩

/-- The refresh moves on to the next set as its clock time says. -/
theorem nextIsDue_iff (spaced : SpacedSets sc.eph sets) {k : Nat} (inside : k < sets)
    (grx : GpsTime ℚ) :
    sc.nextIsDue k grx = true ↔
      k + 1 < sets ∧ (clockTime sc.eph (k + 1)).total < grx.total + 3600 := by
  have fits := spaced.fits
  unfold Scenario.nextIsDue
  rw [show (k : Int) + 1 = (k + 1 : Nat) by push_cast; rfl]
  by_cases more : k + 1 < sets
  · obtain ⟨sv, found, clock⟩ := clockTime_of_hasValid (spaced.valid (k + 1) more)
    rw [found, clock]
    simp only [subGpsTime_eq, seconds_eq.2.1, decide_eq_true_iff, more, true_and,
      sub_lt_iff_lt_add']
  · have none_there : firstValid (sc.eph (k + 1 : Nat)) = none := by
      cases found : firstValid (sc.eph (k + 1 : Nat)) with
      | none => rfl
      | some sv =>
          exact absurd (hasValid_iff.mpr ⟨sv, found⟩)
            (spaced.unused (k + 1) (by omega) (by omega))
    rw [none_there]
    simp [more]

theorem SpacedSets.spaced {eph : Int → Nat → Ephem ℚ} (spaced : SpacedSets eph sets) :
    Spaced (fun k => (clockTime eph k).total) sets 30 7200 := by
  intro k more
  obtain ⟨near, far⟩ := spaced.gaps k more
  rw [subGpsTime_eq] at near far
  constructor <;> linarith

/-- What is known of the current set in front of every block. -/
structure Kept (sc : Scenario) (sets : Nat) (ms : Int) (n k : Nat) : Prop where
  index : (sc.gen n).ieph = k
  ahead : (clockTime sc.eph k).total < (sc.gen n).grx.total + 3600
  /-- The next set has not passed by at the next refresh. -/
  inStep : InStep (fun k => (clockTime sc.eph k).total) sets (1 / 2000) k
    ((sc.gen n).grx.total + toRefresh ms n / 10)

/-- The receiver time goes forward. -/
theorem grx_le_succ (total : ∀ n, (sc.gen n).grx.total = (ms : ℚ) / 1000 + (n + 1) / 10) (n : Nat) :
    (sc.gen n).grx.total ≤ (sc.gen (n + 1)).grx.total := by
  rw [total, total]
  push_cast
  linarith

/-- **One refresh.** -/
theorem Kept.refresh (spaced : SpacedSets sc.eph sets)
    (total : ∀ n, (sc.gen n).grx.total = (ms : ℚ) / 1000 + (n + 1) / 10) {n k : Nat}
    (kept : Kept sc sets ms n k) (renewal : sc.renews n = true) :
    ∃ k', Kept sc sets ms (n + 1) k' ∧
      (clockTime sc.eph k').total < (sc.gen n).grx.total + 3600 ∧
      (k' + 1 < sets → (sc.gen n).grx.total ≤ (clockTime sc.eph k').total + 3600) := by
  have zero := (renews_iff_toRefresh total n).mp renewal
  have inStep := kept.inStep
  rw [zero, Int.cast_zero, zero_div, add_zero] at inStep
  obtain ⟨next, ahead, behind⟩ := inStep.move spaced.spaced (by norm_num : (7200 : ℚ) ≤ 3600 + 3600)
    (by norm_num) (by norm_num) (by norm_num) kept.ahead
  have moved : (sc.gen (n + 1)).ieph =
      Advance.move (fun k => (clockTime sc.eph k).total) sets 3600 (sc.gen n).grx.total k := by
    rw [gen_succ_ieph renewal, kept.index, Advance.move]
    simp only [nextIsDue_iff spaced kept.inStep.inside]
    split <;> push_cast <;> rfl
  have later : (sc.gen (n + 1)).grx.total + toRefresh ms (n + 1) / 10 =
      (sc.gen n).grx.total + 30 := by
    rw [toRefresh_succ, if_pos zero, total, total]
    push_cast
    ring
  have passed := grx_le_succ total n
  exact ⟨_, ⟨moved, ahead.trans_le (by linarith), by rw [later]; exact next⟩, ahead, behind⟩

theorem Kept.quiet (total : ∀ n, (sc.gen n).grx.total = (ms : ℚ) / 1000 + (n + 1) / 10) {n k : Nat}
    (kept : Kept sc sets ms n k) (renewal : sc.renews n = false) : Kept sc sets ms (n + 1) k := by
  have some_blocks : toRefresh ms n ≠ 0 := by
    rw [ne_eq, ← renews_iff_toRefresh total, renewal]
    exact Bool.false_ne_true
  have later : (sc.gen (n + 1)).grx.total + toRefresh ms (n + 1) / 10 =
      (sc.gen n).grx.total + toRefresh ms n / 10 := by
    rw [toRefresh_succ, if_neg some_blocks, total, total]
    push_cast
    ring
  have passed := grx_le_succ total n
  have ahead := kept.ahead
  exact ⟨(gen_succ_of_not_renews renewal).2.2.trans kept.index, by linarith,
    by rw [later]; exact kept.inStep⟩

/-- The run starts with the first set, at its clock time. -/
theorem Kept.start (spaced : SpacedSets sc.eph sets) (g0 : sc.g0 = clockTime sc.eph 0)
    (first : sc.ieph = 0) (near : |(ms : ℚ) / 1000 - sc.g0.total| ≤ 1 / 2000)
    (total : ∀ n, (sc.gen n).grx.total = (ms : ℚ) / 1000 + (n + 1) / 10) :
    Kept sc sets ms 0 0 := by
  have grx := total 0
  obtain ⟨lower, upper⟩ := abs_le.mp near
  rw [g0] at lower upper
  have few : (toRefresh ms 0 : ℚ) ≤ 299 := by
    have bound : toRefresh ms 0 ≤ 299 := by
      unfold toRefresh
      omega
    exact_mod_cast bound
  push_cast at grx
  refine ⟨first, by linarith, spaced.some_set, fun more => ?_⟩
  have gap := (spaced.spaced 0 more).1
  dsimp only at gap ⊢
  linarith

/-- The current set is kept up to date by every block. -/
theorem exists_kept (spaced : SpacedSets sc.eph sets) (g0 : sc.g0 = clockTime sc.eph 0)
    (first : sc.ieph = 0) (near : |(ms : ℚ) / 1000 - sc.g0.total| ≤ 1 / 2000)
    (total : ∀ n, (sc.gen n).grx.total = (ms : ℚ) / 1000 + (n + 1) / 10) (n : Nat) :
    ∃ k, Kept sc sets ms n k := by
  induction n with
  | zero => exact ⟨0, Kept.start spaced g0 first near total⟩
  | succ n ih =>
      rcases ih with ⟨k, kept⟩
      cases renewal : sc.renews n with
      | true =>
          obtain ⟨k', kept', -⟩ := kept.refresh spaced total renewal
          exact ⟨k', kept'⟩
      | false => exact ⟨k, kept.quiet total renewal⟩

end Fresh

/-- **The current set is never old**: behind every refresh its clock time is less than an hour
ahead of the receiver time, and at most an hour behind it unless it is the last set. -/
theorem current_set_fresh (setup : Setup) {eph : Int → Nat → Ephem ℚ} {sets : Nat}
    (spaced : SpacedSets eph sets) (n : Nat)
    (renewal : (setup.scenario eph sets).renews n = true) :
    ∃ k : Nat, ((setup.scenario eph sets).gen (n + 1)).ieph = k ∧ k < sets ∧
      subGpsTime (clockTime eph k) ((setup.scenario eph sets).gen n).grx < 3600 ∧
      (k + 1 ≠ sets →
        subGpsTime ((setup.scenario eph sets).gen n).grx (clockTime eph k) ≤ 3600) := by
  have some_set := spaced.some_set
  have valid := spaced.valid 0 (by omega)
  obtain ⟨sv, found, clock⟩ := clockTime_of_hasValid (k := 0) valid
  have g0 : (setup.scenario eph sets).g0 = clockTime eph 0 := by
    rw [clock]
    exact startTime_of_firstValid found
  have first : (setup.scenario eph sets).ieph = 0 := selectSet_first (by omega) valid
  obtain ⟨ms, near, total⟩ := gen_total_ms (setup.scenario eph sets)
  obtain ⟨k, kept⟩ := exists_kept spaced g0 first near total n
  obtain ⟨k', kept', ahead, behind⟩ := kept.refresh spaced total renewal
  refine ⟨k', kept'.index, kept'.inStep.inside, ?_, fun other => ?_⟩
  · rw [subGpsTime_eq]
    exact sub_lt_iff_lt_add'.mpr ahead
  · rw [subGpsTime_eq]
    have inside := kept'.inStep.inside
    exact sub_le_iff_le_add'.mpr (behind (by omega))

/-- One satellite in two sets, two hours apart. -/
def twoHours : Int → Nat → Ephem ℚ :=
  fun ieph sv => { Nav.sampleEphem with
    vflg := if sv = 0 ∧ (ieph = 0 ∨ ieph = 1) then 1 else 0
    toc := { week := 2200, sec := 7200 * ieph } }

theorem twoHours_firstValid :
    firstValid (twoHours (0 : Nat)) = some 0 ∧ firstValid (twoHours (1 : Nat)) = some 0 := by
  decide +kernel

theorem twoHours_spaced : SpacedSets twoHours 2 where
  some_set := by decide
  fits := by decide
  valid k inside := by
    rcases Nat.le_one_iff_eq_zero_or_eq_one.mp (Nat.le_of_lt_succ inside) with rfl | rfl
    · exact hasValid_iff.mpr ⟨0, twoHours_firstValid.1⟩
    · exact hasValid_iff.mpr ⟨0, twoHours_firstValid.2⟩
  unused k behind below valid := by
    rcases valid with ⟨sv, -, flag⟩
    have invalid : (twoHours k sv).vflg = 0 := if_neg (by omega)
    rw [invalid] at flag
    exact absurd flag (by decide)
  gaps k more := by
    obtain rfl : k = 0 := by omega
    rw [clockTime, clockTime, twoHours_firstValid.1, twoHours_firstValid.2]
    norm_num [twoHours, subGpsTime_eq, GpsTime.total]

/-- The first refresh of a run over the two sets. -/
theorem current_set_fresh_twoHours :
    ∃ k : Nat, ((dailySetup.scenario twoHours (2 : Nat)).gen 300).ieph = k ∧ k < 2 := by
  have tenths : (dailySetup.scenario twoHours (2 : Nat)).g0.total =
      ((13305600000 : Int) : ℚ) / 10 := by
    have start : dailySetup.startTime twoHours = (twoHours ((0 : Nat) : Int) 0).toc :=
      startTime_of_firstValid twoHours_firstValid.1
    calc (dailySetup.scenario twoHours (2 : Nat)).g0.total
        = (dailySetup.startTime twoHours).total := rfl
      _ = ((13305600000 : Int) : ℚ) / 10 := by
          rw [start]
          norm_num [twoHours, GpsTime.total]
  obtain ⟨k, index, inside, -⟩ := current_set_fresh dailySetup twoHours_spaced 299
    ((renews_iff tenths 299).mpr (by decide))
  exact ⟨k, index, inside⟩

end Navisim.Loop

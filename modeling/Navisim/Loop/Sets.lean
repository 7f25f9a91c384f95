import Navisim.Lib.Advance
import Navisim.Loop.Window
import Navisim.Rinex.Read

/-!
# Sets of ephemerides

`runCore3` starts with the set around the first clock time and moves to the next set at most
once per renewal.  When it reaches which set is known from the clock times alone (`ieph_gen`), and
with it whether the refresh ever looks behind the array (`accesses_inside_iff`).
-/

namespace Navisim.Loop

open Signal Rinex Advance

def userMotionSize : Int := 3000
def staticMaxDuration : Int := 86400

/-- What a run of `runCore3` is given besides the ephemeris file, and the memory it starts in. -/
structure Setup where
  orbits : Orbits
  ionoutc : IonoUtc ℚ
  staticLocationMode : Bool
  xyz : Nat → Position
  antPat : Int → ℚ
  /-- The duration asked for, in seconds. -/
  time : Int
  /-- The number of positions in the motion file. -/
  points : Int
  gmin : GpsTime ℚ
  chan : Nat → Channel
  gain : Nat → Int

namespace Setup

variable (setup : Setup)

/-- The number of blocks that are generated, unless the duration is rejected. -/
def blocks : Option Nat :=
  let duration : ℚ := setup.time
  if duration < 0.0 ∨ (duration > userMotionSize / 10.0 ∧ ¬ setup.staticLocationMode) ∨
      (duration > staticMaxDuration ∧ setup.staticLocationMode) then none
  else
    let iduration := trunc (duration * 10.0 + 0.5)
    let numd :=
      if setup.staticLocationMode then iduration
      else if setup.points > iduration then iduration else setup.points
    -- for (iumd=1; iumd<numd; iumd++)
    some (numd - 1).toNat

/-- `g0 = gmin`: the clock time of the first valid entry of the first set. -/
def startTime (eph : Int → Nat → Ephem ℚ) : GpsTime ℚ :=
  match firstValid (eph 0) with
  | some sv => (eph 0 sv).toc
  | none => setup.gmin

/-- A valid entry of a set lies within an hour of the start. -/
def isCurrent (eph : Nat → Ephem ℚ) (g0 : GpsTime ℚ) : Bool :=
  (List.range maxSat).any fun sv =>
    let dt := subGpsTime g0 (eph sv).toc
    (eph sv).vflg = 1 ∧ dt ≥ -secondsInHour ∧ dt < secondsInHour

/-- Select the current set of ephemerides. -/
def selectSet (eph : Int → Nat → Ephem ℚ) (neph : Int) (g0 : GpsTime ℚ) : Int :=
  match (List.range neph.toNat).find? fun i : Nat => isCurrent (eph i) g0 with
  | some i => i
  | none => -1

/-- The run over a table. -/
def scenario (eph : Int → Nat → Ephem ℚ) (neph : Int) : Scenario where
  orbits := setup.orbits
  lambda := lambdaL1
  eph := eph
  ionoutc := setup.ionoutc
  staticLocationMode := setup.staticLocationMode
  xyz := setup.xyz
  antPat := setup.antPat
  g0 := setup.startTime eph
  ieph := selectSet eph neph (setup.startTime eph)
  chan := setup.chan
  gain := setup.gain

end Setup

/-! ## Valid entries -/

section Valid

variable {eph : Nat → Ephem ℚ}

theorem firstValid_some {sv : Nat} (found : firstValid eph = some sv) :
    sv < maxSat ∧ (eph sv).vflg = 1 := by
  have member := List.mem_of_find?_eq_some found
  have valid := List.find?_some found
  exact ⟨List.mem_range.mp member, by simpa using valid⟩

theorem hasValid_iff : HasValid eph ↔ ∃ sv, firstValid eph = some sv := by
  constructor
  · intro entry
    rcases entry with ⟨sv, inside, valid⟩
    rw [← Option.isSome_iff_exists, firstValid, List.find?_isSome]
    exact ⟨sv, List.mem_range.mpr inside, by simpa using valid⟩
  · intro entry
    rcases entry with ⟨sv, found⟩
    exact ⟨sv, firstValid_some found⟩

end Valid

/-! ## The index of the current set -/

/-- Set `k` is due at renewal `j`, counted from 1, of a run that starts at `t` tenths of a
second. -/
def due (eph : Int → Nat → Ephem ℚ) (t : Int) (k j : Nat) : Bool :=
  match firstValid (eph k) with
  | some sv => (eph k sv).toc.total < 30 * (t / 300 + j : Int) + 3600
  | none => false

theorem due_iff {eph : Int → Nat → Ephem ℚ} {t : Int} {k j : Nat} :
    due eph t k j = true ↔ ∃ sv, firstValid (eph k) = some sv ∧
      (eph k sv).toc.total < 30 * ((t / 300 + j : Int) : ℚ) + 3600 := by
  unfold due
  split
  · rename_i sv found
    simp only [found, Option.some.injEq, decide_eq_true_eq, exists_eq_left']
  · rename_i missing
    simp only [missing, Bool.false_eq_true, reduceCtorEq, false_and, exists_false]

theorem due_stays (eph : Int → Nat → Ephem ℚ) (t : Int) (k j : Nat)
    (item : due eph t k j = true) : due eph t k (j + 1) = true := by
  obtain ⟨sv, found, early⟩ := due_iff.mp item
  refine due_iff.mpr ⟨sv, found, early.trans ?_⟩
  push_cast
  linarith

/-- The number of renewals in the first `n` blocks. -/
def renewals (t : Int) (n : Nat) : Nat :=
  ((t + n) / 300 - t / 300).toNat

theorem renewals_succ (t : Int) (n : Nat) :
    renewals t (n + 1) = if (t + n + 1) % 300 = 0 then renewals t n + 1 else renewals t n := by
  unfold renewals
  push_cast
  split <;> omega

section Runs

variable {sc : Scenario} {t : Int}

/-- **The current set**, after any number of blocks. -/
theorem ieph_gen (tenths : sc.g0.total = t / 10) (first : sc.ieph = 0) (n : Nat) :
    (sc.gen n).ieph = advance (due sc.eph t) (renewals t n) := by
  induction n with
  | zero =>
      have none : renewals t 0 = 0 := by simp [renewals]
      rw [none]
      exact first
  | succ n ih =>
      rcases renewal : sc.renews n with _ | _
      · have quiet := (not_renews_iff tenths n).mp renewal
        rw [(gen_succ_of_not_renews renewal).2.2, renewals_succ, if_neg quiet, ih]
      · have zero := (renews_iff tenths n).mp renewal
        have grx : (sc.gen n).grx.total =
            30 * ((t / 300 + (renewals t n + 1 : Nat) : Int) : ℚ) := by
          have frame : t + n + 1 = 300 * (t / 300 + (renewals t n + 1 : Nat)) := by
            unfold renewals
            omega
          rw [gen_total tenths n, frame]
          push_cast
          ring
        have here : sc.nextIsDue (sc.gen n).ieph (sc.gen n).grx =
            due sc.eph t (advance (due sc.eph t) (renewals t n) + 1) (renewals t n + 1) := by
          rw [ih, Scenario.nextIsDue, due]
          simp only [subGpsTime_eq, grx, seconds_eq.2.1, sub_lt_iff_lt_add']
          push_cast
          rfl
        rw [gen_succ_ieph renewal, here, renewals_succ, if_pos zero, advance, ih]
        split <;> push_cast <;> rfl

end Runs

/-! ## Accesses to the array -/

/-- In a run of `blocks` blocks every use of `eph[ieph]` is one of a set that was read, and every
refresh finds `eph[ieph+1]` inside the array. -/
def AccessesInside (sc : Scenario) (neph : Int) (blocks : Nat) : Prop :=
  ∀ n ≤ blocks, (0 ≤ (sc.gen n).ieph ∧ (sc.gen n).ieph < neph) ∧
    (n < blocks → sc.renews n = true → (sc.gen n).ieph + 1 < ephemArraySize)

/-- The last set of a full array is reached before the last renewal: every set is due early
enough for it. -/
def Overrun (eph : Int → Nat → Ephem ℚ) (t : Int) (blocks : Nat) : Prop :=
  13 ≤ renewals t blocks ∧ ∀ k : Nat, 1 ≤ k → k ≤ 12 → ∃ sv, firstValid (eph k) = some sv ∧
    (eph k sv).toc.total <
      30 * ((t / 300 + (renewals t blocks - 13 + k : Nat) : Int) : ℚ) + 3600

theorem overrun_iff {eph : Int → Nat → Ephem ℚ} {t : Int} {blocks : Nat} :
    Overrun eph t blocks ↔
      1 ≤ renewals t blocks ∧ InTime (due eph t) 12 (renewals t blocks - 1) := by
  constructor
  · intro both
    rcases both with ⟨enough, sets⟩
    refine ⟨by omega, by omega, fun l below => due_iff.mpr ?_⟩
    rw [show renewals t blocks - 1 - (12 - (l + 1)) = renewals t blocks - 13 + (l + 1) by omega]
    exact sets (l + 1) (by omega) (by omega)
  · intro all
    rcases all with ⟨positive, enough, sets⟩
    refine ⟨by omega, fun k lower upper => ?_⟩
    have set := due_iff.mp (sets (k - 1) (by omega))
    rwa [Nat.sub_add_cancel lower,
      show renewals t blocks - 1 - (12 - k) = renewals t blocks - 13 + k by omega] at set

section Accesses

variable {sc : Scenario} {t : Int} {blocks : Nat} {neph : Int}

/-- The last renewal looks behind the array if the last set has been reached. -/
theorem not_accessesInside_of_overrun (tenths : sc.g0.total = t / 10) (first : sc.ieph = 0)
    (overrun : Overrun sc.eph t blocks) : ¬ AccessesInside sc neph blocks := by
  obtain ⟨positive, inTime⟩ := overrun_iff.mp overrun
  intro inside
  obtain ⟨n, last⟩ : ∃ n : Nat, (n : Int) = 300 * ((t + blocks) / 300) - t - 1 := by
    refine ⟨(300 * ((t + blocks) / 300) - t - 1).toNat, ?_⟩
    unfold renewals at positive
    omega
  have renewal : sc.renews n = true := (renews_iff tenths n).mpr (by omega)
  have before : renewals t n = renewals t blocks - 1 := by
    unfold renewals
    omega
  have below := (inside n (by omega)).2 (by omega) renewal
  have reached := (le_advance_iff (due_stays sc.eph t)).mpr inTime
  rw [ieph_gen tenths first, before] at below
  simp only [ephemArraySize] at below
  omega

theorem renewals_mono {n : Nat} (bound : n ≤ blocks) : renewals t n ≤ renewals t blocks := by
  unfold renewals
  omega

theorem accessesInside_of_not_overrun (loaded : Loaded sc.eph neph) (some_sets : 1 ≤ neph)
    (fits : neph ≤ ephemArraySize) (tenths : sc.g0.total = t / 10) (first : sc.ieph = 0)
    (short : ¬ Overrun sc.eph t blocks) : AccessesInside sc neph blocks := by
  rw [overrun_iff] at short
  intro n bound
  rw [ieph_gen tenths first]
  have monotone := renewals_mono (t := t) bound
  have behind : ∀ k : Nat, k ≤ advance (due sc.eph t) (renewals t n) → (k : Int) < neph := by
    intro k reached
    have inTime := (le_advance_iff (due_stays sc.eph t)).mp reached
    by_contra beyond
    obtain ⟨sets, count⟩ := Int.eq_ofNat_of_zero_le (a := neph) (by omega)
    have last := InTime.of_le (due_stays sc.eph t) inTime (show sets ≤ _ by omega)
    rcases lt_or_eq_of_le fits with room | full
    · -- The set behind the last one is empty.
      obtain ⟨sv, found, -⟩ := due_iff.mp (last.2 (sets - 1) (by omega))
      rw [Nat.sub_add_cancel (by omega)] at found
      exact loaded.unused sets (by omega) (by omega) (by omega) (hasValid_iff.mpr ⟨sv, found⟩)
    · simp only [ephemArraySize] at full
      obtain rfl : sets = 13 := by omega
      obtain ⟨j, steps⟩ : ∃ j, renewals t n = j + 1 := ⟨renewals t n - 1, by have := last.1; omega⟩
      rw [steps] at last
      exact short ⟨by omega, (inTime_succ.mp last).1.mono (due_stays sc.eph t) (by omega)⟩
  refine ⟨⟨Int.natCast_nonneg _, behind _ le_rfl⟩, fun before renewal => ?_⟩
  by_contra beyond
  simp only [ephemArraySize] at beyond
  have inTime := (le_advance_iff (due_stays sc.eph t)).mp
    (show 12 ≤ advance (due sc.eph t) (renewals t n) by omega)
  have next := renewals_mono (t := t) (show n + 1 ≤ blocks by omega)
  rw [renewals_succ, if_pos ((renews_iff tenths n).mp renewal)] at next
  exact short ⟨by omega, inTime.mono (due_stays sc.eph t) (by omega)⟩

end Accesses

/-! ## The start -/

section Start

variable {setup : Setup} {eph : Int → Nat → Ephem ℚ} {neph : Int}

/-- The run starts at the clock time of the first valid entry. -/
theorem startTime_of_firstValid {sv : Nat} (found : firstValid (eph 0) = some sv) :
    setup.startTime eph = (eph 0 sv).toc := by
  rw [Setup.startTime, found]

/-- The clock time of a valid entry is in the hour around itself. -/
theorem isCurrent_of_firstValid {set : Nat → Ephem ℚ} {sv : Nat}
    (found : firstValid set = some sv) : Setup.isCurrent set (set sv).toc = true := by
  obtain ⟨inside, flag⟩ := firstValid_some found
  rw [Setup.isCurrent, List.any_eq_true]
  refine ⟨sv, List.mem_range.mpr inside, ?_⟩
  simp only [subGpsTime_eq, sub_self, flag, seconds_eq.2.1]
  norm_num

theorem selectSet_of_current {g0 : GpsTime ℚ} (some_sets : 1 ≤ neph)
    (current : Setup.isCurrent (eph 0) g0 = true) : Setup.selectSet eph neph g0 = 0 := by
  obtain ⟨sets, count⟩ := Int.eq_ofNat_of_zero_le (a := neph - 1) (by omega)
  have range : neph.toNat = sets + 1 := by omega
  have head : (List.range neph.toNat).find? (fun i : Nat => Setup.isCurrent (eph i) g0) =
      some 0 := by
    rw [range, List.range_succ_eq_map]
    exact List.find?_cons_of_pos (p := fun i : Nat => Setup.isCurrent (eph i) g0) current
  rw [Setup.selectSet, head]
  rfl

/-- A first set with a valid entry is the current one. -/
theorem selectSet_first (some_sets : 1 ≤ neph) (valid : HasValid (eph 0)) :
    Setup.selectSet eph neph (setup.startTime eph) = 0 := by
  obtain ⟨sv, found⟩ := hasValid_iff.mp valid
  rw [startTime_of_firstValid found]
  exact selectSet_of_current some_sets (isCurrent_of_firstValid found)

/-- Without a valid entry there is no current set. -/
theorem selectSet_of_empty (empty : ∀ k, 0 ≤ k → k < neph → ¬ HasValid (eph k))
    (g0 : GpsTime ℚ) : Setup.selectSet eph neph g0 = -1 := by
  have missing :
      (List.range neph.toNat).find? (fun i : Nat => Setup.isCurrent (eph i) g0) = none := by
    rw [List.find?_eq_none]
    intro i member current
    have bound := List.mem_range.mp member
    obtain ⟨sv, inside, entry⟩ := List.any_eq_true.mp current
    refine empty i (by omega) (by omega) ⟨sv, List.mem_range.mp inside, ?_⟩
    simp only [decide_eq_true_eq] at entry
    exact entry.1
  rw [Setup.selectSet, missing]

theorem selectSet_none (fits : neph ≤ ephemArraySize)
    (empty : ∀ k, 0 ≤ k → k < ephemArraySize → ¬ HasValid (eph k)) (g0 : GpsTime ℚ) :
    Setup.selectSet eph neph g0 = -1 :=
  selectSet_of_empty (fun k positive below => empty k positive (by omega)) g0

end Start

/-- The start time, in tenths of a second. -/
def Setup.startTenths (setup : Setup) (eph : Int → Nat → Ephem ℚ) : Int :=
  ⌊(setup.startTime eph).total * 10⌋

section Accesses

variable {setup : Setup} {sqrt : ℚ → ℚ} {memory eph : Int → Nat → Ephem ℚ} {neph : Int}
  {file : Option (List Record)}

/-- The first clock time is a whole number of tenths of a second. -/
theorem startTenths_eq (setup : Setup) (loaded : Loaded eph neph) (valid : HasValid (eph 0)) :
    (setup.scenario eph neph).g0.total = (setup.startTenths eph : ℚ) / 10 := by
  obtain ⟨sv, found⟩ := hasValid_iff.mp valid
  obtain ⟨inside, flag⟩ := firstValid_some found
  obtain ⟨n, tenths⟩ := loaded.tenths 0 le_rfl (by decide) sv inside flag
  have scaled : (setup.startTime eph).total * 10 = (n : ℚ) := by
    rw [startTime_of_firstValid found, tenths]
    ring
  calc (setup.scenario eph neph).g0.total = (setup.startTime eph).total := rfl
    _ = (setup.startTenths eph : ℚ) / 10 := by
        rw [Setup.startTenths, scaled, Int.floor_intCast, ← scaled]
        ring

/-- **When the array is left**: a run over a table of 1 to 13 sets stays inside the array exactly
if the first set has a valid entry and the run is not long enough to reach the last set of a full
array before its last renewal. -/
theorem accesses_inside_iff (read : readRinexNavAll sqrt memory file = some (eph, neph))
    (some_sets : 1 ≤ neph) (fits : neph ≤ ephemArraySize) (allowed : setup.blocks.isSome) :
    AccessesInside (setup.scenario eph neph) neph (setup.blocks.get allowed) ↔
      HasValid (eph 0) ∧ ¬ Overrun eph (setup.startTenths eph) (setup.blocks.get allowed) := by
  have loaded := readRinexNavAll_loaded read some_sets fits
  by_cases valid : HasValid (eph 0)
  · have tenths := startTenths_eq setup loaded valid
    have first : (setup.scenario eph neph).ieph = 0 := selectSet_first some_sets valid
    constructor
    · exact fun inside => ⟨valid, fun overrun =>
        not_accessesInside_of_overrun tenths first overrun inside⟩
    · intro both
      rcases both with ⟨-, short⟩
      exact accessesInside_of_not_overrun loaded some_sets fits tenths first short
  · -- The loop would start with the index -1.
    have empty := loaded.first.resolve_left valid
    have start : ((setup.scenario eph neph).gen 0).ieph = -1 :=
      selectSet_none fits empty (setup.startTime eph)
    constructor
    · intro inside
      have nonneg := (inside 0 (Nat.zero_le _)).1.1
      rw [start] at nonneg
      omega
    · exact fun both => absurd both.1 valid

end Accesses

/-! ## A daily file -/

def twoDigits (n : Nat) : TwoDigits :=
  ⟨(n % 100 : Nat), by omega⟩

/-- A complete record of the first satellite, a number of hours after the start of week 2200. -/
def hourRecord (hour : Nat) : Record where
  prn := twoDigits 1
  y := twoDigits 22
  m := twoDigits 3
  d := twoDigits (6 + hour / 24)
  hh := twoDigits (hour % 24)
  mm := twoDigits 0
  sec := ⟨0, 0, by norm_num⟩
  values := Nav.sampleEphem
  orbits := 7

/-- The file of a day, with a set every two hours. -/
def dailyFile : List Record :=
  (List.range 13).map fun k => hourRecord (2 * k)

/-- A static run of a day. -/
def dailySetup : Setup where
  orbits := overhead
  ionoutc := Nav.sampleIono
  staticLocationMode := true
  xyz _ := (0, 0, 6378137)
  antPat _ := 1
  time := 86400
  points := 0
  gmin := { week := 0, sec := 0 }
  chan _ := idleChannel (fun _ _ => 0)
  gain _ := 0

def dailyRead : Option ((Int → Nat → Ephem ℚ) × Int) :=
  readRinexNavAll id (fun _ _ => Nav.sampleEphem) (some dailyFile)

theorem dailyRead_isSome : dailyRead.isSome := by
  decide +kernel

def dailyTable : Int → Nat → Ephem ℚ :=
  (dailyRead.get dailyRead_isSome).1

theorem dailyRead_eq : readRinexNavAll id (fun _ _ => Nav.sampleEphem) (some dailyFile) =
    some (dailyTable, 13) := by
  have count : (dailyRead.get dailyRead_isSome).2 = 13 := by decide +kernel
  calc dailyRead = some (dailyRead.get dailyRead_isSome) := (Option.some_get _).symm
    _ = some (dailyTable, 13) := by rw [← count]; rfl

theorem dailyTable_clock : ∀ k ∈ List.range 13, firstValid (dailyTable (k : Nat)) = some 0 ∧
    (dailyTable (k : Nat) 0).toc.total = 1330560000 + 7200 * k := by
  decide +kernel

theorem dailySetup_blocks : dailySetup.blocks = some 863999 := by
  decide +kernel

theorem accesses_inside_iff_daily :
    AccessesInside (dailySetup.scenario dailyTable 13) 13
        (dailySetup.blocks.get (by rw [dailySetup_blocks]; rfl)) ↔
      HasValid (dailyTable 0) ∧ ¬ Overrun dailyTable (dailySetup.startTenths dailyTable)
        (dailySetup.blocks.get (by rw [dailySetup_blocks]; rfl)) :=
  accesses_inside_iff dailyRead_eq (by decide) (by decide) (by rw [dailySetup_blocks]; rfl)

/-- **The refresh looks behind the array**: a full day from a full file reaches the last set at
23:00:30, and the next refresh reads the set behind it. -/
theorem refresh_leaves_array :
    readRinexNavAll id (fun _ _ => Nav.sampleEphem) (some dailyFile) = some (dailyTable, 13) ∧
      dailySetup.blocks = some 863999 ∧
      ¬ AccessesInside (dailySetup.scenario dailyTable 13) 13 863999 := by
  refine ⟨dailyRead_eq, dailySetup_blocks, ?_⟩
  obtain ⟨found, clock⟩ := dailyTable_clock 0 (by decide)
  have first : (dailySetup.scenario dailyTable 13).ieph = 0 :=
    selectSet_first (by decide) (hasValid_iff.mpr ⟨0, found⟩)
  have tenths : (dailySetup.scenario dailyTable 13).g0.total = ((13305600000 : Int) : ℚ) / 10 := by
    have start : dailySetup.startTime dailyTable = (dailyTable ((0 : Nat) : Int) 0).toc :=
      startTime_of_firstValid found
    calc (dailySetup.scenario dailyTable 13).g0.total
        = (dailySetup.startTime dailyTable).total := rfl
      _ = ((13305600000 : Int) : ℚ) / 10 := by
          rw [start, clock]
          norm_num
  have count : renewals 13305600000 863999 = 2879 := by decide
  refine not_accessesInside_of_overrun tenths first ⟨by rw [count]; decide, fun k lower upper => ?_⟩
  obtain ⟨valid, time⟩ := dailyTable_clock k (List.mem_range.mpr (by omega))
  refine ⟨0, valid, ?_⟩
  have last : (k : ℚ) ≤ 12 := by exact_mod_cast upper
  change (dailyTable (k : Nat) 0).toc.total < _
  rw [time, count]
  push_cast
  linarith

end Navisim.Loop

import Navisim.Loop.Sets

/-!
# The start-up of a run

Between its arguments and the first allocation, `runCore3` reads the positions of the receiver and
the ephemerides, takes the start time, selects the current set and opens its output file.  Most
failures are reported and passed over: the exits behind the reports are commented out.  `startUp`
says with which state the allocation is entered, or what is returned instead, and which sets are
indexed on the way; `startUp_checked_iff` says when this is as safe as the reports suggest.
-/

namespace Navisim.Loop

open Signal Rinex

/-- The arguments of `runCore3`, what its input stages come back with, and the memory it starts
in. -/
structure Inputs where
  orbits : Orbits
  ionoutc : IonoUtc ℚ
  path : List Char
  traj : List Char
  flag : Int
  time : Int
  /-- The number of coordinates that `sscanf` finds in `path`. -/
  converted : Int
  /-- What `readUserMotion` or `readNmeaGGA` returns. -/
  points : Int
  xyz : Nat → Position
  /-- The array behind `readRinexNavAll`, with whatever lies around it, and what it returns. -/
  eph : Int → Nat → Ephem ℚ
  neph : Int
  gmin : GpsTime ℚ
  /-- The output file can be opened. -/
  opened : Bool
  antPat : Int → ℚ
  chan : Nat → Channel
  gain : Nat → Int

/-- The state in which the allocation and the loop are entered. -/
structure Entry where
  scenario : Scenario
  blocks : Nat
  /-- The satellite whose entry in the first set has given the start time. -/
  startFrom : Option Nat
  /-- `xyz[0]` has been read. -/
  positionRead : Bool

/-- How the start-up ends; only behind `enters` are samples produced. -/
inductive Ending
  | exit
  | returns (code : Int)
  | enters (entry : Entry)

/-- The sets of the array that are indexed with `neph-1` or `ieph`, and the end. -/
structure StartUp where
  indexed : List Int
  ending : Ending

namespace Inputs

variable (inputs : Inputs)

/-- The coordinates are given, or there is no motion file. -/
def staticLocationMode : Bool :=
  inputs.flag = 2 ∨ inputs.path = []

def setup : Setup where
  orbits := inputs.orbits
  ionoutc := inputs.ionoutc
  staticLocationMode := inputs.staticLocationMode
  xyz := inputs.xyz
  antPat := inputs.antPat
  time := inputs.time
  points := inputs.points
  gmin := inputs.gmin
  chan := inputs.chan
  gain := inputs.gain

/-- A position has been read: three coordinates, or a line of the motion file. -/
def positionRead : Bool :=
  if inputs.flag = 2 then inputs.converted = 3
  else if inputs.path = [] then false
  else inputs.points ≥ 1

def startUp : StartUp :=
  if ¬ (inputs.flag = 0 ∨ inputs.flag = 1 ∨ inputs.flag = 2) then
    { indexed := [], ending := .returns 0 }
  else if inputs.traj = [] then { indexed := [], ending := .exit }
  else
    match inputs.setup.blocks with
    | none => { indexed := [], ending := .exit }
    | some blocks =>
        let scenario := inputs.setup.scenario inputs.eph inputs.neph
        -- gmax
        let indexed := [inputs.neph - 1]
        if ¬ inputs.opened then { indexed := indexed, ending := .returns 1 }
        else
          { indexed := indexed ++ [scenario.ieph]
            ending := .enters {
              scenario := scenario
              blocks := blocks
              startFrom := firstValid (inputs.eph 0)
              positionRead := inputs.positionRead } }

end Inputs

/-! ## Checked starts -/

/-- The caller is told of a failure. -/
def Ending.IsError : Ending → Prop
  | .exit => True
  | .returns code => code ≠ 0
  | .enters _ => False

/-- The current set is one that was read, the start time is that of a valid entry, and there is a
position. -/
structure Entry.Sound (entry : Entry) (inputs : Inputs) : Prop where
  ieph : 0 ≤ entry.scenario.ieph ∧ entry.scenario.ieph < inputs.neph
  start : ∃ sv < maxSat, entry.startFrom = some sv ∧ (inputs.eph 0 sv).vflg = 1 ∧
    entry.scenario.g0 = (inputs.eph 0 sv).toc
  position : entry.positionRead = true

/-- The allocation is entered in a sound state, or an error is returned; and `neph-1` and `ieph`
index only sets that were read. -/
structure Inputs.Checked (inputs : Inputs) : Prop where
  enters : ∀ entry, inputs.startUp.ending = .enters entry → entry.Sound inputs
  fails : (∀ entry, inputs.startUp.ending ≠ .enters entry) → inputs.startUp.ending.IsError
  indexed : ∀ k ∈ inputs.startUp.indexed, 0 ≤ k ∧ k < inputs.neph

namespace Inputs

variable {inputs : Inputs}

/-- The start-up gives up before it reads anything. -/
def Rejected (inputs : Inputs) : Prop :=
  inputs.traj = [] ∨ inputs.setup.blocks = none

theorem startUp_of_rejected (known : inputs.flag = 0 ∨ inputs.flag = 1 ∨ inputs.flag = 2)
    (rejected : inputs.Rejected) :
    inputs.startUp = { indexed := [], ending := .exit } := by
  rw [startUp, if_neg (not_not.mpr known)]
  rcases rejected with missing | duration
  · rw [if_pos missing]
  · split
    · rfl
    · rw [duration]

theorem startUp_of_not_rejected (known : inputs.flag = 0 ∨ inputs.flag = 1 ∨ inputs.flag = 2)
    (accepted : ¬ inputs.Rejected) :
    ∃ blocks, inputs.setup.blocks = some blocks ∧ inputs.startUp =
      if inputs.opened = true then
        { indexed := [inputs.neph - 1, (inputs.setup.scenario inputs.eph inputs.neph).ieph]
          ending := .enters {
            scenario := inputs.setup.scenario inputs.eph inputs.neph
            blocks := blocks
            startFrom := firstValid (inputs.eph 0)
            positionRead := inputs.positionRead } }
      else { indexed := [inputs.neph - 1], ending := .returns 1 } := by
  obtain ⟨given, duration⟩ := not_or.mp accepted
  obtain ⟨blocks, allowed⟩ := Option.ne_none_iff_exists'.mp duration
  refine ⟨blocks, allowed, ?_⟩
  rw [startUp, if_neg (not_not.mpr known), if_neg given, allowed]
  cases inputs.opened <;> rfl

/-- A valid entry in the first set gives the start time and makes the first set the current one. -/
theorem sound_of_valid {entry : Entry} (valid : HasValid (inputs.eph 0)) (sets : 1 ≤ inputs.neph)
    (scenario : entry.scenario = inputs.setup.scenario inputs.eph inputs.neph)
    (startFrom : entry.startFrom = firstValid (inputs.eph 0))
    (position : entry.positionRead = true) : entry.Sound inputs := by
  obtain ⟨sv, found⟩ := hasValid_iff.mp valid
  obtain ⟨inside, flag⟩ := firstValid_some found
  have first : entry.scenario.ieph = 0 := by
    rw [scenario]
    exact selectSet_first sets valid
  have start : entry.scenario.g0 = (inputs.eph 0 sv).toc := by
    rw [scenario]
    exact startTime_of_firstValid found
  exact ⟨by omega, ⟨sv, inside, startFrom.trans found, flag, start⟩, position⟩

/-- An unknown flag is no error. -/
theorem not_checked_of_unknown
    (unknown : ¬ (inputs.flag = 0 ∨ inputs.flag = 1 ∨ inputs.flag = 2)) : ¬ inputs.Checked := by
  intro checked
  have returned : inputs.startUp = { indexed := [], ending := .returns 0 } := by
    rw [startUp, if_pos unknown]
  have error := checked.fails fun entry => by
    rw [returned]
    exact Ending.noConfusion
  rw [returned] at error
  exact error rfl

/-- Giving up at once is checked. -/
theorem checked_of_rejected (known : inputs.flag = 0 ∨ inputs.flag = 1 ∨ inputs.flag = 2)
    (rejected : inputs.Rejected) : inputs.Checked := by
  have gaveUp := startUp_of_rejected known rejected
  refine ⟨fun entry entered => ?_, fun _ => ?_, fun k member => ?_⟩
  · rw [gaveUp] at entered
    cases entered
  · rw [gaveUp]
    exact trivial
  · rw [gaveUp] at member
    cases member

/-- Without an output file all depends on the look at the last set. -/
theorem checked_iff_of_closed (known : inputs.flag = 0 ∨ inputs.flag = 1 ∨ inputs.flag = 2)
    (accepted : ¬ inputs.Rejected) (closed : inputs.opened = false) :
    inputs.Checked ↔ 1 ≤ inputs.neph := by
  obtain ⟨blocks, -, went⟩ := startUp_of_not_rejected known accepted
  rw [closed, if_neg Bool.false_ne_true] at went
  constructor
  · intro checked
    have inside := checked.indexed (inputs.neph - 1) (by
      rw [went]
      exact List.mem_singleton_self _)
    omega
  · intro sets
    refine ⟨fun entry entered => ?_, fun _ => ?_, fun k member => ?_⟩
    · rw [went] at entered
      cases entered
    · rw [went]
      exact one_ne_zero
    · rw [went, List.mem_singleton] at member
      omega

/-- With an output file the allocation is entered. -/
theorem checked_iff_of_opened (known : inputs.flag = 0 ∨ inputs.flag = 1 ∨ inputs.flag = 2)
    (accepted : ¬ inputs.Rejected) (opened : inputs.opened = true) :
    inputs.Checked ↔
      1 ≤ inputs.neph ∧ HasValid (inputs.eph 0) ∧ inputs.positionRead = true := by
  obtain ⟨blocks, -, went⟩ := startUp_of_not_rejected known accepted
  rw [if_pos opened] at went
  constructor
  · intro checked
    obtain ⟨ieph, ⟨sv, inside, -, flag, -⟩, position⟩ := checked.enters _ (by rw [went])
    exact ⟨by omega, ⟨sv, inside, flag⟩, position⟩
  · intro all
    rcases all with ⟨sets, valid, position⟩
    refine ⟨fun entry entered => ?_, fun never => ?_, fun k member => ?_⟩
    · rw [went] at entered
      cases entered
      exact sound_of_valid valid sets rfl rfl position
    · rw [went] at never
      exact absurd rfl (never _)
    · have first : (inputs.setup.scenario inputs.eph inputs.neph).ieph = 0 :=
        selectSet_first sets valid
      rw [went] at member
      rcases List.mem_cons.mp member with rfl | current
      · omega
      · rw [List.mem_singleton.mp current, first]
        omega

end Inputs

/-- **When the start-up is checked.**  For every outcome of the input stages, the allocation is
entered soundly or an error is returned, and only sets that were read are indexed, exactly if the
flag is known and either the start-up gives up at once, or there are sets of ephemerides and the
output file cannot be opened or the first set has a valid entry and a position was read. -/
theorem startUp_checked_iff (inputs : Inputs) :
    inputs.Checked ↔ (inputs.flag = 0 ∨ inputs.flag = 1 ∨ inputs.flag = 2) ∧
      (inputs.Rejected ∨ (1 ≤ inputs.neph ∧
        (inputs.opened = false ∨ HasValid (inputs.eph 0) ∧ inputs.positionRead = true))) := by
  by_cases known : inputs.flag = 0 ∨ inputs.flag = 1 ∨ inputs.flag = 2
  swap
  · exact iff_of_false (Inputs.not_checked_of_unknown known) fun both => known both.1
  by_cases rejected : inputs.Rejected
  · exact iff_of_true (Inputs.checked_of_rejected known rejected) ⟨known, Or.inl rejected⟩
  rw [and_iff_right known, or_iff_right rejected]
  cases opened : inputs.opened with
  | false =>
      rw [Inputs.checked_iff_of_closed known rejected opened]
      exact (and_iff_left (Or.inl rfl)).symm
  | true =>
      rw [Inputs.checked_iff_of_opened known rejected opened]
      exact and_congr_right fun _ => (or_iff_right Bool.true_eq_false.mp).symm

/-- A static run of a minute whose ephemeris file cannot be opened; the array is as it was found,
and no entry is valid. -/
def missingFile : Inputs where
  orbits := overhead
  ionoutc := Nav.sampleIono
  path := "21.03,105.85,15".toList
  traj := "brdc3540.14n".toList
  flag := 2
  time := 60
  converted := 3
  points := 0
  xyz _ := (0, 0, 6378137)
  eph _ _ := { Nav.sampleEphem with vflg := 0 }
  neph := -1
  gmin := { week := 0, sec := 0 }
  opened := true
  antPat _ := 1
  chan _ := idleChannel fun _ _ => 0
  gain _ := 0

/-- **A missing file is passed over**: the allocation is entered with set -1, and sets -2 and -1 are
indexed. -/
theorem missing_file_entered : ¬ missingFile.Checked ∧ missingFile.startUp.indexed = [-2, -1] ∧
    ∃ entry, missingFile.startUp.ending = .enters entry ∧ entry.blocks = 599 := by
  have accepted : ¬ missingFile.Rejected := by
    intro cause
    rcases cause with missing | duration
    · cases missing
    · revert duration
      decide +kernel
  obtain ⟨blocks, count, went⟩ := Inputs.startUp_of_not_rejected (by decide) accepted
  rw [show missingFile.setup.blocks = some 599 by decide +kernel] at count
  cases count
  have indexed : missingFile.startUp.indexed = [-2, -1] := by
    rw [went]
    decide +kernel
  refine ⟨fun checked => ?_, indexed, ?_⟩
  · have inside := checked.indexed (-2) (by rw [indexed]; exact List.mem_cons_self)
    exact absurd inside.1 (by decide)
  · rw [went]
    exact ⟨_, rfl, rfl⟩

end Navisim.Loop

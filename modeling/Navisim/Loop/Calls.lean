import Navisim.Loop.Allocate
import Navisim.Nav.RoundTrip

/-!
# Calls of `allocateChannel`

What one call, and any sequence of calls, does to the two tables.  `Visit` says once what a turn of
the loop over the satellites can do; that the tables stay inverse to each other, that a satellite
in view keeps its channel, and how many channels are free follow from it.
-/

namespace Navisim.Loop

open Nav Signal

/-- What a call is given besides the tables.  Between two calls the channels change, but not their
satellites. -/
structure Call where
  orbits : Orbits
  lambda : ℚ
  eph : Nat → Ephem ℚ
  ionoutc : IonoUtc ℚ
  grx : GpsTime ℚ
  xyz : Position
  between : Nat → Channel → Channel
  between_prn : ∀ i chan, (between i chan).prn = chan.prn

/-- Nothing happens to a channel between two calls. -/
def untouched (_ : Nat) (chan : Channel) : Channel := chan

theorem untouched_prn (i : Nat) (chan : Channel) : (untouched i chan).prn = chan.prn := rfl

namespace Call

variable (call : Call)

/-- `checkSatVisibility` reports the satellite as visible. -/
def Visible (sv : Nat) : Prop :=
  checkSatVisibility call.orbits (call.eph sv) call.grx call.xyz 0.0 = 1

instance (sv : Nat) : Decidable (call.Visible sv) :=
  inferInstanceAs (Decidable (_ = _))

/-- The tables that the call finds. -/
def found (s : Allocation) : Allocation :=
  { nsat := 0, chan := fun i => call.between i (s.chan i), allocatedSat := s.allocatedSat }

/-- The tables after the call. -/
def run (s : Allocation) : Allocation :=
  allocateChannel call.orbits call.lambda call.eph call.ionoutc call.grx call.xyz
    (call.found s).chan (call.found s).allocatedSat

/-- The first `count` turns. -/
def visits (count : Nat) (s : Allocation) : Allocation :=
  visitSats call.orbits call.lambda call.eph call.ionoutc call.grx call.xyz count s

/-- The channel of a satellite that is taken up. -/
def init (sv : Nat) (chan : Channel) : Channel :=
  initChannel call.orbits call.lambda call.eph call.ionoutc call.grx call.xyz sv chan

end Call

/-- The tables after the first `n` calls. -/
def afterCalls (calls : Nat → Call) (start : Allocation) : Nat → Allocation
  | 0 => start
  | n + 1 => (calls n).run (afterCalls calls start n)

/-- All channels are free. -/
structure Allocation.Free (s : Allocation) : Prop where
  chan : ∀ i < maxChan, (s.chan i).prn = 0
  allocatedSat : ∀ sv < maxSat, s.allocatedSat sv = -1

theorem Allocation.Free.consistent {s : Allocation} (free : s.Free) : s.Consistent := by
  refine ⟨fun sv inside => ?_, fun sv inside i allocated => ?_, fun i inside => ?_⟩
  · exact (free.allocatedSat sv inside).ge
  · have flag := free.allocatedSat sv inside
    omega
  · exact Or.inl (free.chan i inside)

/-! ## A turn of the loop -/

/-- **What a turn can do.** -/
inductive Visit (call : Call) (sv : Nat) (s : Allocation) : Allocation → Prop
  | kept (visible : call.Visible sv) (allocated : s.allocatedSat sv ≠ -1) :
      Visit call sv s { s with nsat := s.nsat + 1 }
  | taken (i : Nat) (visible : call.Visible sv) (rising : s.allocatedSat sv = -1)
      (inside : i < maxChan) (free : (s.chan i).prn = 0) :
      Visit call sv s {
        nsat := s.nsat + 1
        chan := Function.update s.chan i (call.init sv (s.chan i))
        allocatedSat := Function.update s.allocatedSat sv i }
  | refused (visible : call.Visible sv) (rising : s.allocatedSat sv = -1)
      (full : ∀ i < maxChan, (s.chan i).prn ≠ 0) :
      Visit call sv s { s with nsat := s.nsat + 1 }
  | cleared (i : Nat) (hidden : ¬ call.Visible sv) (allocated : s.allocatedSat sv = i) :
      Visit call sv s { s with
        chan := Function.update s.chan i { s.chan i with prn := 0 }
        allocatedSat := Function.update s.allocatedSat sv (-1) }
  | absent (hidden : ¬ call.Visible sv) (unallocated : s.allocatedSat sv < 0) : Visit call sv s s

theorem freeChannel_none {chan : Nat → Channel} (missing : freeChannel chan = none) :
    ∀ i < maxChan, (chan i).prn ≠ 0 := by
  intro i inside free
  have occupied := List.find?_eq_none.mp missing i (List.mem_range.mpr inside)
  exact occupied (by simpa using free)

section Turns

variable {call : Call} {s t : Allocation} {sv count : Nat}

theorem visit_visits (count : Nat) :
    Visit call count (call.visits count s) (call.visits (count + 1) s) := by
  generalize before : call.visits count s = a
  have step : call.visits (count + 1) s = visitSat call.orbits call.lambda call.eph call.ionoutc
      call.grx call.xyz count a := by rw [← before]; rfl
  rw [step]
  unfold visitSat
  split
  · rename_i visible
    dsimp only
    split
    · rename_i rising
      unfold allocateSat
      split
      · rename_i i found
        obtain ⟨inside, free⟩ := freeChannel_some found
        exact .taken i visible rising inside free
      · rename_i missing
        exact .refused visible rising (freeChannel_none missing)
    · rename_i allocated
      exact .kept visible allocated
  · rename_i hidden
    split
    · rename_i allocated
      exact .cleared (a.allocatedSat count).toNat hidden (Int.toNat_of_nonneg allocated).symm
    · rename_i unallocated
      exact .absent hidden (not_le.mp unallocated)

/-- A turn leaves the flags of the other satellites. -/
theorem Visit.flag_of_ne (visit : Visit call sv s t) {other : Nat} (ne : other ≠ sv) :
    t.allocatedSat other = s.allocatedSat other := by
  cases visit with
  | kept => rfl
  | taken i => exact Function.update_of_ne ne ..
  | refused => rfl
  | cleared i => exact Function.update_of_ne ne ..
  | absent => rfl

/-- A turn leaves the channels of the other satellites. -/
theorem Visit.chan_of_ne (visit : Visit call sv s t) (consistent : s.Consistent)
    (inside : sv < maxSat) {other i : Nat} (ne : other ≠ sv) (inside' : other < maxSat)
    (allocated : s.allocatedSat other = i) : t.chan i = s.chan i := by
  obtain ⟨-, prn⟩ := consistent.ofSat other inside' i allocated
  cases visit with
  | kept => rfl
  | taken j visible rising bound free =>
      have apart : i ≠ j := by
        intro same
        subst same
        omega
      exact Function.update_of_ne apart ..
  | refused => rfl
  | cleared j hidden mine =>
      have apart : i ≠ j := by
        intro same
        subst same
        exact ne (consistent.sat_unique inside' inside allocated mine)
      exact Function.update_of_ne apart ..
  | absent => rfl

theorem visits_consistent (consistent : s.Consistent) (inside : count ≤ maxSat) :
    (call.visits count s).Consistent :=
  (visitSats_outcome consistent inside).1

/-- The flags of the satellites to come are those the call finds. -/
theorem visits_ahead (ahead : count ≤ sv) :
    (call.visits count s).allocatedSat sv = s.allocatedSat sv := by
  induction count with
  | zero => rfl
  | succ count ih =>
      rw [(visit_visits count).flag_of_ne (by omega)]
      exact ih (by omega)

/-- The flags of the satellites behind are those after their turn. -/
theorem visits_behind (behind : sv < count) :
    (call.visits count s).allocatedSat sv = (call.visits (sv + 1) s).allocatedSat sv := by
  induction count, behind using Nat.le_induction with
  | base => rfl
  | succ count below ih =>
      rw [(visit_visits count).flag_of_ne (by omega)]
      exact ih

/-- Only a satellite that is visible has a channel after its turn. -/
theorem visible_of_allocated (behind : sv < count)
    (allocated : 0 ≤ (call.visits count s).allocatedSat sv) : call.Visible sv := by
  rw [visits_behind behind] at allocated
  have visit := @visit_visits call s sv
  revert allocated
  generalize call.visits (sv + 1) s = t at visit
  cases visit with
  | kept visible => exact fun _ => visible
  | taken i visible => exact fun _ => visible
  | refused visible => exact fun _ => visible
  | cleared i hidden =>
      intro allocated
      dsimp only at allocated
      rw [Function.update_self] at allocated
      omega
  | absent hidden unallocated => exact fun allocated => absurd allocated (not_le.mpr unallocated)

/-- **A satellite that stays in view** keeps its channel as it is. -/
theorem visits_kept (consistent : s.Consistent) (inside : count ≤ maxSat) (inside' : sv < maxSat)
    (visible : call.Visible sv) {i : Nat} (allocated : s.allocatedSat sv = i) :
    (call.visits count s).allocatedSat sv = i ∧ (call.visits count s).chan i = s.chan i := by
  induction count with
  | zero => exact ⟨allocated, rfl⟩
  | succ count ih =>
      obtain ⟨flag, chan⟩ := ih (by omega)
      have visit := @visit_visits call s count
      have before : (call.visits count s).Consistent := visits_consistent consistent (by omega)
      by_cases mine : sv = count
      · subst mine
        generalize call.visits sv s = a at *
        generalize call.visits (sv + 1) s = b at *
        cases visit with
        | kept => exact ⟨flag, chan⟩
        | taken j _ rising => omega
        | refused _ rising => omega
        | cleared j hidden => exact absurd visible hidden
        | absent hidden => exact absurd visible hidden
      · rw [visit.flag_of_ne mine, visit.chan_of_ne before (by omega) mine inside' flag]
        exact ⟨flag, chan⟩

/-- The count goes up with every visible satellite. -/
theorem visits_nsat (count : Nat) : (call.visits count s).nsat =
    s.nsat + ((Finset.range count).filter fun sv => call.Visible sv).card := by
  induction count with
  | zero => rfl
  | succ count ih =>
      have visit := @visit_visits call s count
      rw [Finset.range_add_one, Finset.filter_insert]
      generalize call.visits count s = a at *
      generalize call.visits (count + 1) s = b at *
      cases visit with
      | kept visible => simp [visible, ih, Nat.add_assoc]
      | taken i visible => simp [visible, ih, Nat.add_assoc]
      | refused visible => simp [visible, ih, Nat.add_assoc]
      | cleared i hidden => simp [hidden, ih]
      | absent hidden => simp [hidden, ih]

end Turns

/-! ## The tables after a call -/

section Calls

variable {call : Call} {s : Allocation} {calls : Nat → Call} {start : Allocation}

theorem Call.found_consistent (consistent : s.Consistent) : (call.found s).Consistent :=
  consistent.congr (fun i _ => call.between_prn i (s.chan i)) rfl

theorem afterCalls_consistent (free : start.Free) (n : Nat) :
    (afterCalls calls start n).Consistent := by
  induction n with
  | zero => exact free.consistent
  | succ n ih => exact visits_consistent (Call.found_consistent ih) le_rfl

/-- What a call makes of the tables. -/
structure Call.Correct (call : Call) (s s' : Allocation) : Prop where
  inverse : ∀ sv < maxSat, ∀ i : Int, s'.allocatedSat sv = i ∧ 0 ≤ i ↔
    (0 ≤ i ∧ i < maxChan) ∧ (s'.chan i.toNat).prn = sv + 1
  apart : ∀ i < maxChan, ∀ j < maxChan, (s'.chan i).prn ≠ 0 →
    (s'.chan i).prn = (s'.chan j).prn → i = j
  visible : ∀ sv < maxSat, 0 ≤ s'.allocatedSat sv → call.Visible sv
  kept : ∀ sv < maxSat, call.Visible sv → 0 ≤ s.allocatedSat sv →
    s'.allocatedSat sv = s.allocatedSat sv ∧
      s'.chan (s.allocatedSat sv).toNat =
        call.between (s.allocatedSat sv).toNat (s.chan (s.allocatedSat sv).toNat)
  count : s'.nsat = ((Finset.range maxSat).filter fun sv => call.Visible sv).card

/-- Consistent tables are inverse to each other. -/
theorem Allocation.Consistent.inverse (consistent : s.Consistent) {sv : Nat} (inside : sv < maxSat)
    (i : Int) : s.allocatedSat sv = i ∧ 0 ≤ i ↔
      (0 ≤ i ∧ i < maxChan) ∧ (s.chan i.toNat).prn = sv + 1 := by
  constructor
  · intro both
    rcases both with ⟨allocated, nonneg⟩
    obtain ⟨bound, prn⟩ := consistent.ofSat sv inside i.toNat (by omega)
    exact ⟨⟨nonneg, by omega⟩, prn⟩
  · intro both
    rcases both with ⟨⟨nonneg, below⟩, prn⟩
    rcases consistent.ofChan i.toNat (by omega) with idle | ⟨sv', -, prn', allocated⟩
    · omega
    · obtain rfl : sv' = sv := by omega
      exact ⟨by omega, nonneg⟩

theorem Allocation.Consistent.chan_unique (consistent : s.Consistent) {i j : Nat}
    (inside : i < maxChan) (inside' : j < maxChan) (active : (s.chan i).prn ≠ 0)
    (same : (s.chan i).prn = (s.chan j).prn) : i = j := by
  rcases consistent.ofChan i inside with idle | ⟨sv, bound, prn, allocated⟩
  · exact absurd idle active
  · have prn' : (s.chan ((j : Int).toNat)).prn = sv + 1 := by rw [Int.toNat_natCast, ← same, prn]
    have allocated' := ((consistent.inverse bound j).mpr ⟨by omega, prn'⟩).1
    omega

/-- **The tables after every call of every run**: they are inverse to each other, no two channels
carry one satellite, only satellites in view have a channel, those that stay in view keep it
untouched, and the count is that of the satellites in view. -/
theorem allocation_correct (calls : Nat → Call) (free : start.Free) (n : Nat) :
    (calls n).Correct (afterCalls calls start n) (afterCalls calls start (n + 1)) := by
  have consistent : (afterCalls calls start n).Consistent := afterCalls_consistent free n
  have after : (afterCalls calls start (n + 1)).Consistent := afterCalls_consistent free (n + 1)
  have found : ((calls n).found (afterCalls calls start n)).Consistent :=
    Call.found_consistent consistent
  refine ⟨fun sv inside => after.inverse inside, ?_, fun sv inside => visible_of_allocated inside,
    fun sv inside visible allocated => ?_, ?_⟩
  · exact fun i inside j inside' => after.chan_unique inside inside'
  · obtain ⟨flag, chan⟩ := visits_kept found le_rfl inside visible
      (i := ((afterCalls calls start n).allocatedSat sv).toNat) (Int.toNat_of_nonneg allocated).symm
    exact ⟨flag.trans (Int.toNat_of_nonneg allocated), chan⟩
  · exact (visits_nsat maxSat).trans (Nat.zero_add _)

end Calls

/-! ## Clear skies -/

/-- Every satellite with a valid entry is high in the sky. -/
def clearSky : Orbits where
  azel _ _ _ := (0, 1)
  rho _ _ g _ := {
    g := g
    range := 21000000
    rate := 0
    d := 21000000
    azel := (0, 1)
    ionoDelay := 0 }

/-- A call with some satellites in view. -/
def callWith (visible : Nat → Bool) : Call where
  orbits := clearSky
  lambda := lambdaL1
  eph sv := { Nav.sampleEphem with vflg := if visible sv then 1 else 0 }
  ionoutc := Nav.sampleIono
  grx := { week := 2200, sec := 0 }
  xyz := (6378137, 0, 0)
  between _ chan := chan
  between_prn _ _ := rfl

def freeTables : Allocation where
  nsat := 0
  chan _ := idleChannel (fun _ _ => 0)
  allocatedSat _ := -1

theorem freeTables_free : freeTables.Free :=
  ⟨fun _ _ => rfl, fun _ _ => rfl⟩

/-- Satellites 2 to 13 are in view, and then 1 to 12. -/
def risingAndSetting (n : Nat) : Call :=
  callWith fun sv => if n = 0 then 1 ≤ sv ∧ sv ≤ 12 else sv < 12

theorem allocation_correct_risingAndSetting :
    (risingAndSetting 1).Correct (afterCalls risingAndSetting freeTables 1)
      (afterCalls risingAndSetting freeTables 2) :=
  allocation_correct risingAndSetting freeTables_free 1

end Navisim.Loop

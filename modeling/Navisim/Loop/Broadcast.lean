import Navisim.Loop.Calls
import Navisim.Loop.Window
import Navisim.Nav.Parameters

/-!
# The ephemeris on the air

A channel has its ephemeris three times: as the entry of the current set from which its
pseudorange is computed, as the subframes, and as the words of its message.  A renewal generates
the message first and takes up the next set, with new subframes, behind it.  So the subframes
always follow the entry (`subframes_current`), and the message follows one renewal later: between
the two it has the parameters of the old set (`agrees_succ_of_renews`).
-/

namespace Navisim.Loop

open Nav Signal

namespace Scenario

variable (sc : Scenario)

/-- The entry of a set from which the pseudorange of a channel is computed. -/
def entry (ieph : Int) (chan : Channel) : Ephem ℚ :=
  sc.eph ieph (chan.prn - 1).toNat

/-- In the block behind `n` blocks, every active channel sends the parameters of the entry that
its pseudorange is computed from. -/
def Agrees (n : Nat) : Prop :=
  ∀ i < maxChan, 0 < ((sc.gen n).chan i).prn → ∀ isamp ≤ iqBuffSize,
    receiveParameters (sc.sampled n isamp i).dwrd =
      some (parameters (sc.entry (sc.gen n).ieph ((sc.gen n).chan i)))

/-- A renewal behind `n` blocks takes up the next set, in which the satellite of some active
channel is visible and has other parameters. -/
def Outdates (n : Nat) : Prop :=
  sc.nextIsDue (sc.gen n).ieph (sc.gen n).grx = true ∧
    ∃ i < maxChan, 0 < ((sc.gen n).chan i).prn ∧
      checkSatVisibility sc.orbits (sc.entry ((sc.gen n).ieph + 1) ((sc.gen n).chan i))
        (sc.gen n).grx (sc.position (n + 1)) 0.0 = 1 ∧
      parameters (sc.entry ((sc.gen n).ieph + 1) ((sc.gen n).chan i)) ≠
        parameters (sc.entry (sc.gen n).ieph ((sc.gen n).chan i))

end Scenario

section Renewal

variable {sc : Scenario} {n i : Nat}

/-! ## The allocation of a renewal -/

/-- The call of `allocateChannel` at the renewal behind `n` blocks. -/
def renewalCall (sc : Scenario) (n : Nat) : Call where
  orbits := sc.orbits
  lambda := sc.lambda
  eph := sc.eph (beforeAllocation sc n).ieph
  ionoutc := sc.ionoutc
  grx := (beforeAllocation sc n).grx
  xyz := sc.position (n + 1)
  between := untouched
  between_prn := untouched_prn

/-- The tables that the call finds. -/
def renewalTables (sc : Scenario) (n : Nat) : Allocation where
  nsat := 0
  chan := (beforeAllocation sc n).chan
  allocatedSat := (beforeAllocation sc n).allocatedSat

theorem gen_succ_chan (renewal : sc.renews n = true) :
    (sc.gen (n + 1)).chan = ((renewalCall sc n).visits maxSat (renewalTables sc n)).chan :=
  (gen_succ_of_renews renewal).1

theorem renewalTables_consistent : (renewalTables sc n).Consistent :=
  beforeAllocation_consistent (gen_consistent n)

theorem renewalTables_prn (inside : i < maxChan) :
    ((renewalTables sc n).chan i).prn = ((sc.gen n).chan i).prn := by
  have chan : (renewalTables sc n).chan i = _ := beforeAllocation_chan inside
  rw [chan, renewed_prn, sampled_prn inside]

/-- An active channel is one of a satellite. -/
theorem renewalTables_sat (inside : i < maxChan) (active : 0 < ((sc.gen n).chan i).prn) :
    ∃ sv < maxSat, ((sc.gen n).chan i).prn = sv + 1 ∧
      (renewalTables sc n).allocatedSat sv = i := by
  have consistent : (renewalTables sc n).Consistent := renewalTables_consistent
  rcases consistent.ofChan i inside with idle | ⟨sv, bound, prn, allocated⟩
  · rw [renewalTables_prn inside] at idle
    omega
  · rw [renewalTables_prn inside] at prn
    exact ⟨sv, bound, prn, allocated⟩

/-- The satellite of a channel in the set after the renewal. -/
theorem renewalCall_visible {sv : Nat} (prn : ((sc.gen n).chan i).prn = sv + 1) :
    (renewalCall sc n).Visible sv ↔
      checkSatVisibility sc.orbits
        (sc.entry (beforeAllocation sc n).ieph ((sc.gen n).chan i)) (sc.gen n).grx
        (sc.position (n + 1)) 0.0 = 1 := by
  have satellite : (((sc.gen n).chan i).prn - 1).toNat = sv := by omega
  rw [Scenario.entry, satellite, Call.Visible]
  unfold renewalCall
  dsimp only
  rw [beforeAllocation_grx]

/-- A channel whose satellite is visible keeps it through the renewal. -/
theorem gen_succ_visible (renewal : sc.renews n = true) (inside : i < maxChan)
    (active : 0 < ((sc.gen n).chan i).prn)
    (visible : checkSatVisibility sc.orbits
      (sc.entry (beforeAllocation sc n).ieph ((sc.gen n).chan i)) (sc.gen n).grx
      (sc.position (n + 1)) 0.0 = 1) :
    (sc.gen (n + 1)).chan i =
      renewed sc (sc.gen n).ieph (sc.gen n).grx (sc.sampled n iqBuffSize i) := by
  obtain ⟨sv, bound, prn, allocated⟩ := renewalTables_sat inside active
  have kept := visits_kept renewalTables_consistent le_rfl bound
    ((renewalCall_visible prn).mpr visible) allocated
  rw [gen_succ_chan renewal, kept.2]
  exact beforeAllocation_chan inside

/-- A channel that has its satellite after the renewal has one that is visible. -/
theorem visible_of_gen_succ (renewal : sc.renews n = true) (inside : i < maxChan)
    (active : 0 < ((sc.gen n).chan i).prn)
    (kept : ((sc.gen (n + 1)).chan i).prn = ((sc.gen n).chan i).prn) :
    checkSatVisibility sc.orbits
      (sc.entry (beforeAllocation sc n).ieph ((sc.gen n).chan i)) (sc.gen n).grx
      (sc.position (n + 1)) 0.0 = 1 := by
  obtain ⟨sv, bound, prn, -⟩ := renewalTables_sat inside active
  have consistent : ((renewalCall sc n).visits maxSat (renewalTables sc n)).Consistent :=
    visits_consistent renewalTables_consistent le_rfl
  rw [gen_succ_chan renewal] at kept
  rcases consistent.ofChan i inside with idle | ⟨sv', -, prn', allocated⟩
  · omega
  · obtain rfl : sv' = sv := by omega
    have flag : 0 ≤ ((renewalCall sc n).visits maxSat (renewalTables sc n)).allocatedSat sv' := by
      omega
    exact (renewalCall_visible prn).mp (visible_of_allocated bound flag)

/-! ## The three copies -/

/-- What a channel has just been initialised with. -/
theorem initChannel_copies (orbits : Orbits) (lambda : ℚ) (eph : Nat → Ephem ℚ)
    (ionoutc : IonoUtc ℚ) (grx : GpsTime ℚ) (xyz : Position) (sv : Nat) (chan : Channel) :
    (initChannel orbits lambda eph ionoutc grx xyz sv chan).sbf = eph2sbf (eph sv) ionoutc ∧
      receiveParameters (initChannel orbits lambda eph ionoutc grx xyz sv chan).dwrd =
        some (parameters (eph sv)) :=
  ⟨rfl, receiveParameters_generateNavMsg (eph2sbf_free (eph sv) ionoutc)⟩

/-- A renewal sends the subframes it finds, and leaves those of the set it takes up. -/
theorem renewed_copies {ieph : Int} {grx : GpsTime ℚ} {chan : Channel} (active : 0 < chan.prn)
    (current : chan.sbf = eph2sbf (sc.entry ieph chan) sc.ionoutc) :
    (renewed sc ieph grx chan).sbf =
        eph2sbf (sc.entry (if sc.nextIsDue ieph grx then ieph + 1 else ieph) chan) sc.ionoutc ∧
      receiveParameters (renewed sc ieph grx chan).dwrd =
        some (parameters (sc.entry ieph chan)) := by
  have message : Scenario.renewMessage grx chan = generateNavMsg grx chan 0 := if_pos active
  have sent : receiveParameters (generateNavMsg grx chan 0).dwrd =
      some (parameters (sc.entry ieph chan)) := by
    rw [receiveParameters_generateNavMsg (by rw [current]; exact eph2sbf_free _ _), current,
      encoded_eph2sbf]
  have prn : (generateNavMsg grx chan 0).prn = chan.prn := rfl
  unfold renewed Scenario.newSubframes
  rw [message, prn, if_pos active.ne']
  split
  · exact ⟨rfl, sent⟩
  · exact ⟨current, sent⟩

/-- The words of a message do not change during a block. -/
theorem agrees_iff : sc.Agrees n ↔ ∀ i < maxChan, 0 < ((sc.gen n).chan i).prn →
    receiveParameters ((sc.gen n).chan i).dwrd =
      some (parameters (sc.entry (sc.gen n).ieph ((sc.gen n).chan i))) := by
  constructor
  · intro agrees i inside active
    rw [← (refreshed_sampled inside 0).dwrd]
    exact agrees i inside active 0 (Nat.zero_le _)
  · intro agrees i inside active isamp _
    rw [(refreshed_sampled inside isamp).dwrd]
    exact agrees i inside active

/-- The entry of a channel that has just been initialised. -/
theorem entry_initChannel {ieph : Int} {grx : GpsTime ℚ} {xyz : Position} {sv : Nat}
    {chan : Channel} :
    sc.entry ieph (initChannel sc.orbits sc.lambda (sc.eph ieph) sc.ionoutc grx xyz sv chan) =
      sc.eph ieph sv := by
  have satellite : ((sv : Int) + 1 - 1).toNat = sv := by omega
  rw [Scenario.entry, initChannel_prn, satellite]

theorem entry_congr {ieph : Int} {chan chan' : Channel} (prn : chan'.prn = chan.prn) :
    sc.entry ieph chan' = sc.entry ieph chan := by
  rw [Scenario.entry, Scenario.entry, prn]

/-- **The subframes of an active channel** are always those of its current entry. -/
theorem subframes_current (n : Nat) (inside : i < maxChan)
    (active : 0 < ((sc.gen n).chan i).prn) :
    ((sc.gen n).chan i).sbf =
      eph2sbf (sc.entry (sc.gen n).ieph ((sc.gen n).chan i)) sc.ionoutc := by
  refine active_invariant (P := fun n chan => chan.sbf =
    eph2sbf (sc.entry (sc.gen n).ieph chan) sc.ionoutc) ?_ ?_ ?_ ?_ n inside active
  · intro sv chan
    rw [entry_initChannel]
    exact (initChannel_copies ..).1
  · intro n i inside active renewal before
    rw [(gen_succ_of_not_renews renewal).2.2, (refreshed_sampled inside _).sbf,
      entry_congr (sampled_prn inside)]
    exact before
  · intro n i inside active renewal before
    rw [← (refreshed_sampled inside iqBuffSize).sbf, ← entry_congr (sampled_prn inside)] at before
    rw [entry_congr (renewed_prn ..), gen_succ_ieph renewal]
    exact (renewed_copies (sampled_active inside active _) before).1
  · intro n renewal sv chan
    rw [entry_initChannel]
    exact (initChannel_copies ..).1

/-- The first messages are those of the current entries. -/
theorem agrees_zero (sc : Scenario) : sc.Agrees 0 := by
  rw [agrees_iff]
  intro i inside active
  obtain ⟨sv, chan, initial⟩ := gen_zero_active inside active
  rw [initial, entry_initChannel]
  exact (initChannel_copies ..).2

theorem agrees_succ_of_not_renews (quiet : sc.renews n = false) :
    sc.Agrees (n + 1) ↔ sc.Agrees n := by
  obtain ⟨chans, -, ieph⟩ := gen_succ_of_not_renews quiet
  rw [agrees_iff, agrees_iff]
  apply forall₂_congr
  intro i inside
  have prn : (sc.sampled n iqBuffSize i).prn = ((sc.gen n).chan i).prn := sampled_prn inside
  rw [chans, ieph, (refreshed_sampled inside _).dwrd, entry_congr prn, prn]

/-- What a kept channel sends behind a renewal: the parameters of the old set. -/
theorem sent_renewed (inside : i < maxChan) (active : 0 < ((sc.gen n).chan i).prn) :
    receiveParameters
        (renewed sc (sc.gen n).ieph (sc.gen n).grx (sc.sampled n iqBuffSize i)).dwrd =
      some (parameters (sc.entry (sc.gen n).ieph ((sc.gen n).chan i))) := by
  have prn : (sc.sampled n iqBuffSize i).prn = ((sc.gen n).chan i).prn := sampled_prn inside
  have current := subframes_current n inside active
  rw [← (refreshed_sampled inside iqBuffSize).sbf, ← entry_congr prn] at current
  rw [← entry_congr prn]
  exact (renewed_copies (by rwa [prn]) current).2

/-- **A renewal** leaves the messages with the parameters of the current entries exactly if it does
not outdate one of them. -/
theorem agrees_succ_of_renews (renewal : sc.renews n = true) :
    sc.Agrees (n + 1) ↔ ¬ sc.Outdates n := by
  rw [agrees_iff]
  constructor
  · intro agrees outdates
    rcases outdates with ⟨due, i, inside, active, visible, differ⟩
    have ieph : (sc.gen (n + 1)).ieph = (sc.gen n).ieph + 1 := by
      rw [gen_succ_ieph renewal, if_pos due]
    have next : (beforeAllocation sc n).ieph = (sc.gen n).ieph + 1 := by
      rw [beforeAllocation_ieph, if_pos due]
    have kept := gen_succ_visible renewal inside active (by rw [next]; exact visible)
    have prn : ((sc.gen (n + 1)).chan i).prn = ((sc.gen n).chan i).prn := by
      rw [kept, renewed_prn]
      exact sampled_prn inside
    have agree := agrees i inside (by rwa [prn])
    rw [entry_congr prn, kept, sent_renewed inside active, ieph] at agree
    exact differ (Option.some.inj agree).symm
  · intro current i inside active
    cases gen_succ_outcome renewal inside with
    | kept same =>
        have prn : ((sc.gen (n + 1)).chan i).prn = ((sc.gen n).chan i).prn := by
          rw [same, renewed_prn]
          exact sampled_prn inside
        have active' : 0 < ((sc.gen n).chan i).prn := by rwa [← prn]
        have visible := visible_of_gen_succ renewal inside active' prn
        rw [entry_congr prn, same, sent_renewed inside active']
        by_cases due : sc.nextIsDue (sc.gen n).ieph (sc.gen n).grx = true
        · rw [beforeAllocation_ieph, if_pos due] at visible
          rw [gen_succ_ieph renewal, if_pos due]
          by_contra differ
          exact current ⟨due, i, inside, active', visible, fun equal => differ (by rw [equal])⟩
        · rw [gen_succ_ieph renewal, if_neg due]
    | cleared idle => omega
    | initialised sv chan bound new initial =>
        rw [initial, entry_initChannel]
        exact (initChannel_copies ..).2

end Renewal

/-- **When the message and the pseudorange agree.**  In every run, the active channels send in
every block the parameters of the entry that their pseudorange is computed from exactly if no
renewal before the last block outdates a message. -/
theorem parameters_agree_iff (sc : Scenario) (numd : Int) :
    (∀ n : Nat, (n : Int) + 1 < numd → sc.Agrees n) ↔
      ∀ n : Nat, (n : Int) + 2 < numd → sc.renews n = true → ¬ sc.Outdates n := by
  constructor
  · intro agrees n inRun renewal
    exact (agrees_succ_of_renews renewal).mp (agrees (n + 1) (by push_cast; omega))
  · intro current n
    induction n with
    | zero => exact fun _ => agrees_zero sc
    | succ n ih =>
        intro inRun
        push_cast at inRun
        rcases renewal : sc.renews n with _ | _
        · exact (agrees_succ_of_not_renews renewal).mpr (ih (by omega))
        · exact (agrees_succ_of_renews renewal).mpr (current n (by omega) renewal)

/-! ### A run that takes up a second set -/

/-- One satellite in two sets, an hour apart and with different issues of data. -/
def twoSets : Scenario :=
  { sampleScenario lambdaL1 with
    eph := fun ieph sv => { sampleEphem with
      vflg := if sv = 0 ∧ (ieph = 0 ∨ ieph = 1) then 1 else 0
      toc := { week := 2200, sec := 7200 + 3600 * ieph }
      iode := 44 + ieph }
    g0 := { week := 2200, sec := 7200 } }

/-- The run of `twoSets` has its first renewal after 299 blocks. -/
theorem twoSets_tenths : twoSets.g0.total = ((13305672000 : Int) : ℚ) / 10 := by
  norm_num [twoSets, GpsTime.total]

theorem twoSets_first (n : Nat) (before : n ≤ 299) :
    (twoSets.gen n).ieph = 0 ∧ ((twoSets.gen n).chan 0).prn = 1 := by
  induction n with
  | zero => exact ⟨rfl, by decide +kernel⟩
  | succ n ih =>
      have quiet : twoSets.renews n = false := by
        rw [not_renews_iff twoSets_tenths]
        omega
      obtain ⟨chans, -, ieph⟩ := gen_succ_of_not_renews quiet
      obtain ⟨set, prn⟩ := ih (by omega)
      rw [ieph, chans]
      exact ⟨set, (sampled_prn (by decide)).trans prn⟩

/-- **The old parameters for half a minute**: at its first renewal the run takes up the second set,
and the message of block 301 has the parameters of the first. -/
theorem message_outdated : ¬ ∀ n : Nat, (n : Int) + 1 < 302 → twoSets.Agrees n := by
  intro agrees
  obtain ⟨set, prn⟩ := twoSets_first 299 le_rfl
  have renewal : twoSets.renews 299 = true := by
    rw [renews_iff twoSets_tenths]
    decide
  have grx : (twoSets.gen 299).grx.total = 1330567230 := by
    rw [gen_total twoSets_tenths]
    norm_num
  have due : twoSets.nextIsDue (twoSets.gen 299).ieph (twoSets.gen 299).grx = true := by
    have first : firstValid (twoSets.eph 1) = some 0 := by decide +kernel
    have clock : (twoSets.eph 1 0).toc.total = 1330570800 := by
      norm_num [twoSets, GpsTime.total]
    rw [set, Scenario.nextIsDue, zero_add, first]
    dsimp only
    rw [subGpsTime_eq, grx, clock]
    norm_num [secondsInHour]
  have last : twoSets.Agrees 300 := agrees 300 (by norm_num)
  refine (agrees_succ_of_renews renewal).mp last ⟨due, 0, by decide, ?_, ?_, ?_⟩
  · rw [prn]
    decide
  · rw [Scenario.entry, set, prn]
    exact visible_overhead (by decide) _ _
  · rw [Scenario.entry, Scenario.entry, set, prn]
    decide +kernel

end Navisim.Loop

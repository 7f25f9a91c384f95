import Navisim.Loop.Broadcast
import Navisim.Nav.TowCount

/-!
# TOW counts in a run

Where the loop calls `generateNavMsg`, and which TOW counts the calls send.  The last count of
an active channel always belongs to its reference time (`gen_announced`), so the leading count of
a renewed message is known; it is the right one when the last message of the channel was that of
the frame before.
-/

namespace Navisim.Loop

open Nav Signal

/-! ## The calls -/

/-- What `allocateChannel` has put into a channel when it generates the message. -/
def Call.taken (call : Call) (sv : Nat) (chan : Channel) : Channel :=
  { chan with
    prn := sv + 1
    azel := call.orbits.azel (call.eph sv) call.grx call.xyz
    ca := codegen chan.ca (sv + 1)
    sbf := eph2sbf (call.eph sv) call.ionoutc }

/-- The call generates a message for a channel: the first free one, for a visible satellite
without a channel. -/
def Call.Initialises (call : Call) (s : Allocation) (chan : Channel) : Prop :=
  ∃ sv < maxSat, call.Visible sv ∧ (call.visits sv s).allocatedSat sv = -1 ∧
    ∃ i, freeChannel (call.visits sv s).chan = some i ∧
      chan = call.taken sv ((call.visits sv s).chan i)

/-- The call of `allocateChannel` before the first block. -/
def startCall (sc : Scenario) : Call where
  orbits := sc.orbits
  lambda := sc.lambda
  eph := sc.eph sc.ieph
  ionoutc := sc.ionoutc
  grx := incGpsTime sc.g0 0.0
  xyz := sc.xyz 0
  between := untouched
  between_prn := untouched_prn

/-- The tables that the call finds. -/
def startTables (sc : Scenario) : Allocation where
  nsat := 0
  chan := eachChannel (fun chan => { chan with prn := 0 }) sc.chan
  allocatedSat _ := -1

/-- The calls of `generateNavMsg` in a run: for the channels that are initialised, at the start
and at the renewals, and for the active channels at the renewals. -/
inductive Scenario.Sends (sc : Scenario) : GpsTime ℚ → Channel → Int → Prop
  | first {chan : Channel} :
    (startCall sc).Initialises (startTables sc) chan → sc.Sends (startCall sc).grx chan 1
  | allocated {n : Nat} {chan : Channel} : sc.renews n = true →
    (renewalCall sc n).Initialises (renewalTables sc n) chan →
    sc.Sends (renewalCall sc n).grx chan 1
  | renewed {n i : Nat} : sc.renews n = true → i < maxChan →
    0 < (sc.sampled n iqBuffSize i).prn → sc.Sends (sc.gen n).grx (sc.sampled n iqBuffSize i) 0

/-! ## The last count of a channel -/

/-- The subframes of a channel are those of an ephemeris, and the last subframe of its window has
the count that its reference time gives. -/
structure Announced (chan : Channel) : Prop where
  free : ∀ isbf iwrd, Free (chan.sbf isbf iwrd)
  plain : ∀ isbf < nSbf, Plain (chan.sbf isbf)
  last : (howTow chan.dwrd nSbf : Int) = frameNumber chan.g0 * 5 + nSbf

section Announced

variable {sc : Scenario} {g : GpsTime ℚ} {chan : Channel} {init : Int} {n i : Nat}

theorem Announced.congr {chan' : Channel} (announced : Announced chan)
    (same : Refreshed chan chan') : Announced chan' := by
  obtain ⟨-, g0, sbf, dwrd⟩ := same
  obtain ⟨free, plain, last⟩ := announced
  rw [← sbf] at free plain
  rw [← g0, ← dwrd] at last
  exact ⟨free, plain, last⟩

/-- A message leaves the count of the reference time that it sets. -/
theorem announced_generateNavMsg (inWeek : g.InWeek)
    (free : ∀ isbf iwrd, Free (chan.sbf isbf iwrd)) (plain : ∀ isbf < nSbf, Plain (chan.sbf isbf)) :
    Announced (generateNavMsg g chan init) := by
  refine ⟨free, plain, ?_⟩
  have start := frameTow_eq inWeek
  have number := frameNumber_frameStart inWeek
  have last : howTow (generateNavMsg g chan init).dwrd nSbf = frameTow g + nSbf :=
    howTow_frame inWeek free plain (show 4 < nSbf by decide)
  have reference : (generateNavMsg g chan init).g0 = frameStart g := rfl
  rw [last, reference, number]
  push_cast
  omega

theorem announced_initChannel (orbits : Orbits) (lambda : ℚ) (eph : Nat → Ephem ℚ)
    (ionoutc : IonoUtc ℚ) (inWeek : g.InWeek) (xyz : Position) (sv : Nat) (chan : Channel) :
    Announced (initChannel orbits lambda eph ionoutc g xyz sv chan) := by
  let taken : Channel := { chan with
    prn := sv + 1
    azel := orbits.azel (eph sv) g xyz
    ca := codegen chan.ca (sv + 1)
    sbf := eph2sbf (eph sv) ionoutc }
  have free : ∀ isbf iwrd, Free (taken.sbf isbf iwrd) := eph2sbf_free (eph sv) ionoutc
  have plain : ∀ isbf < nSbf, Plain (taken.sbf isbf) :=
    fun isbf inFrame => eph2sbf_plain (eph sv) ionoutc inFrame
  have sent : Announced (generateNavMsg g taken 1) := announced_generateNavMsg inWeek free plain
  exact ⟨sent.free, sent.plain, sent.last⟩

theorem Announced.renewed (announced : Announced chan) (inWeek : g.InWeek)
    (active : 0 < chan.prn) (ieph : Int) : Announced (renewed sc ieph g chan) := by
  obtain ⟨sbf, renewal, source⟩ := renewed_active sc ieph g active
  have sent : Announced (generateNavMsg g chan 0) :=
    announced_generateNavMsg inWeek announced.free announced.plain
  rw [renewal]
  rcases source with same | ⟨eph, fresh⟩
  · rw [same]
    exact ⟨sent.free, sent.plain, sent.last⟩
  · rw [fresh]
    exact ⟨eph2sbf_free eph sc.ionoutc, fun isbf inFrame => eph2sbf_plain eph sc.ionoutc inFrame,
      sent.last⟩

/-- **The last count of an active channel** is that of its reference time, in every run. -/
theorem gen_announced (n : Nat) (inside : i < maxChan) (active : 0 < ((sc.gen n).chan i).prn) :
    Announced ((sc.gen n).chan i) := by
  refine active_invariant (P := fun _ chan => Announced chan) ?_ ?_ ?_ ?_ n inside active
  · exact fun sv chan => announced_initChannel _ _ _ _ (incGpsTime_inWeek _ _) _ _ _
  · intro n i inside active _ before
    exact before.congr (refreshed_sampled inside iqBuffSize)
  · intro n i inside active _ before
    have sent := before.congr (refreshed_sampled inside iqBuffSize)
    exact sent.renewed (gen_inWeek n) (sampled_active inside active _) _
  · exact fun n _ sv chan => announced_initChannel _ _ _ _ (gen_inWeek n) _ _ _

end Announced

/-! ## The counts of a call -/

section Counts

variable {sc : Scenario} {g : GpsTime ℚ} {chan : Channel} {init : Int} {n i : Nat}

/-- The counts of a new message. -/
theorem towCounts_first_iff (inWeek : g.InWeek) (free : ∀ isbf iwrd, Free (chan.sbf isbf iwrd))
    (plain : ∀ isbf < nSbf, Plain (chan.sbf isbf)) :
    TowCounts g (generateNavMsg g chan 1).dwrd ↔ g.sec < 604769.5 := by
  have start := frameTow_eq inWeek
  have leading : (howTow (generateNavMsg g chan 1).dwrd 0 : Int) = frameNumber g * 5 := by
    rw [howTow_first inWeek free plain]
    omega
  rw [towCounts_iff_of_words inWeek fun isbf inFrame => howTow_frame inWeek free plain inFrame,
    and_iff_left leading]

/-- The counts of a renewed message: the last one has to be that of the frame before. -/
theorem towCounts_renewed_iff (inWeek : g.InWeek) (announced : Announced chan) :
    TowCounts g (generateNavMsg g chan 0).dwrd ↔
      g.sec < 604769.5 ∧ frameNumber chan.g0 + 1 = frameNumber g := by
  have last := announced.last
  have leading : (howTow (generateNavMsg g chan 0).dwrd 0 : Int) = frameNumber g * 5 ↔
      frameNumber chan.g0 + 1 = frameNumber g := by
    rw [howTow_saved (by decide), last]
    simp only [nSbf]
    omega
  rw [towCounts_iff_of_words inWeek fun isbf inFrame =>
    howTow_frame inWeek announced.free announced.plain inFrame, leading]

/-- Over a run from a whole second, the frames are counted from the start of the week. -/
theorem frameNumber_of_whole {T : Int} (inWeek : g.InWeek) (whole : T % 10 = 0)
    (tenths : g.total = T / 10) : frameNumber g = T / 300 % 20160 := by
  obtain ⟨S, rfl, sec⟩ := sec_of_whole whole tenths
  have floor : ⌊((S - g.week * 604800 : Int) : ℚ) + 1 / 2⌋ = S - g.week * 604800 := by
    rw [Int.floor_intCast_add]
    norm_num
  obtain ⟨nonneg, upper⟩ := inWeek
  rw [sec] at nonneg upper
  have nonneg' : 0 ≤ S - g.week * 604800 := by exact_mod_cast nonneg
  have upper' : S - g.week * 604800 < 604800 := by exact_mod_cast upper
  rw [frameNumber, sec, floor]
  omega

/-- The reference time of an active channel is that of the current frame. -/
theorem gen_frameNumber {t : Int} (tenths : sc.g0.total = t / 10) (whole : t % 10 = 0) (n : Nat)
    (inside : i < maxChan) (active : 0 < ((sc.gen n).chan i).prn) :
    frameNumber ((sc.gen n).chan i).g0 = (t + n) / 300 % 20160 := by
  refine gen_invariant (P := fun T chan => frameNumber chan.g0 = T / 300 % 20160) tenths whole
    ?_ ?_ ?_ n inside active
  · intro eph grx xyz sv chan T whole inWeek total
    have reference : (initChannel sc.orbits sc.lambda eph sc.ionoutc grx xyz sv chan).g0 =
        frameStart grx := rfl
    rw [reference, frameNumber_frameStart inWeek, frameNumber_of_whole inWeek whole total]
  · intro n i inside active quiet before
    have frame : (t + n + 1) / 300 = (t + n) / 300 := by omega
    rw [(refreshed_sampled inside iqBuffSize).g0, before, frame]
  · intro n i inside active zero before
    obtain ⟨sbf, renewal, -⟩ := renewed_active sc (sc.gen n).ieph (sc.gen n).grx
      (sampled_active inside active iqBuffSize)
    have reference : (renewed sc (sc.gen n).ieph (sc.gen n).grx
        (sc.sampled n iqBuffSize i)).g0 = frameStart (sc.gen n).grx := by
      rw [renewal]
      rfl
    rw [reference, frameNumber_frameStart (gen_inWeek n),
      frameNumber_of_whole (gen_inWeek n) (by omega) (gen_total tenths n)]

/-- A channel is initialised with the subframes of an ephemeris. -/
theorem Call.Initialises.subframes {call : Call} {s : Allocation}
    (initialises : call.Initialises s chan) : ∃ eph, chan.sbf = eph2sbf eph call.ionoutc := by
  obtain ⟨sv, -, -, -, i, -, rfl⟩ := initialises
  exact ⟨call.eph sv, rfl⟩

theorem Call.Initialises.towCounts_iff {call : Call} {s : Allocation}
    (initialises : call.Initialises s chan) (inWeek : g.InWeek) :
    TowCounts g (generateNavMsg g chan 1).dwrd ↔ g.sec < 604769.5 := by
  obtain ⟨eph, subframes⟩ := initialises.subframes
  refine towCounts_first_iff inWeek (fun isbf iwrd => ?_) (fun isbf inFrame => ?_)
  · rw [subframes]
    exact eph2sbf_free eph _ isbf iwrd
  · rw [subframes]
    exact eph2sbf_plain eph _ inFrame

end Counts

/-- **Which calls send the right TOW counts**, in every run: those for a frame that is not the last
of a week, where a message that is continued must be that of the frame before. -/
theorem sends_towCounts_iff {sc : Scenario} {g : GpsTime ℚ} {chan : Channel} {init : Int}
    (sends : sc.Sends g chan init) :
    TowCounts g (generateNavMsg g chan init).dwrd ↔
      g.sec < 604769.5 ∧ (init = 0 → frameNumber chan.g0 + 1 = frameNumber g) := by
  have new : (1 : Int) = 0 → frameNumber chan.g0 + 1 = frameNumber g :=
    fun zero => absurd zero one_ne_zero
  cases sends with
  | first initialises =>
      have inWeek : (startCall sc).grx.InWeek := incGpsTime_inWeek sc.g0 0.0
      rw [initialises.towCounts_iff inWeek, and_iff_left new]
  | @allocated n chan renewal initialises =>
      have inWeek : (renewalCall sc n).grx.InWeek := by
        have same : (renewalCall sc n).grx = (sc.gen n).grx := beforeAllocation_grx
        rw [same]
        exact gen_inWeek n
      rw [initialises.towCounts_iff inWeek, and_iff_left new]
  | @renewed n i renewal inside active =>
      have active' : 0 < ((sc.gen n).chan i).prn := by
        rwa [sampled_prn inside] at active
      have announced := (gen_announced n inside active').congr (refreshed_sampled inside iqBuffSize)
      rw [towCounts_renewed_iff (gen_inWeek n) announced]
      simp only [true_implies]

/-- The first satellite gets the first channel. -/
theorem sends_first {sc : Scenario} (visible : (startCall sc).Visible 0) :
    sc.Sends (startCall sc).grx ((startCall sc).taken 0 ((startTables sc).chan 0)) 1 :=
  .first ⟨0, by decide, visible, rfl, 0, rfl, rfl⟩

theorem sends_towCounts_iff_sample :
    let call := startCall (sampleScenario lambdaL1)
    TowCounts call.grx (generateNavMsg call.grx
      (call.taken 0 ((startTables (sampleScenario lambdaL1)).chan 0)) 1).dwrd := by
  have visible : (startCall (sampleScenario lambdaL1)).Visible 0 := by decide +kernel
  have second : (startCall (sampleScenario lambdaL1)).grx.sec = 0 := by decide +kernel
  refine (sends_towCounts_iff (sends_first visible)).mpr ⟨?_, fun zero => ?_⟩
  · rw [second]
    norm_num
  · exact absurd zero one_ne_zero

/-- A run that starts with the last frame of a week. -/
def lastFrame : Scenario :=
  { sampleScenario lambdaL1 with g0 := { week := 2200, sec := 604770 } }

/-- Subframe 5 of the last frame of a week has the TOW count 100800 in the place of 0. -/
theorem lastFrame_towCount :
    ∃ g chan, lastFrame.Sends g chan 1 ∧ 0 ≤ g.sec ∧ g.sec < 604800 ∧
      howTow (generateNavMsg g chan 1).dwrd 5 = 100800 ∧
      ¬ TowCounts g (generateNavMsg g chan 1).dwrd := by
  have visible : (startCall lastFrame).Visible 0 := by decide +kernel
  have second : (startCall lastFrame).grx.sec = 604770 := by decide +kernel
  have inWeek : (startCall lastFrame).grx.InWeek := incGpsTime_inWeek lastFrame.g0 0.0
  have number : frameNumber (startCall lastFrame).grx = 20159 := by
    have floor : ⌊(604770 : ℚ) + 1 / 2⌋ = 604770 := by
      norm_num [Int.floor_eq_iff]
    rw [frameNumber, second, floor]
    rfl
  have start := frameTow_eq inWeek
  set chan := (startCall lastFrame).taken 0 ((startTables lastFrame).chan 0) with taken
  have sent : howTow (generateNavMsg (startCall lastFrame).grx chan 1).dwrd 5 =
      frameTow (startCall lastFrame).grx + 5 :=
    howTow_frame inWeek (eph2sbf_free _ _) (fun _ inFrame => eph2sbf_plain _ _ inFrame) (by decide)
  have last : howTow (generateNavMsg (startCall lastFrame).grx chan 1).dwrd 5 = 100800 := by
    omega
  refine ⟨_, chan, sends_first visible, inWeek.1, inWeek.2, last, fun right => ?_⟩
  have count := right.counts 5 (by decide)
  rw [last, number] at count
  exact absurd count (by decide)

end Navisim.Loop

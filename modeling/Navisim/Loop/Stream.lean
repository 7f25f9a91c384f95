import Navisim.Lib.Slide
import Navisim.Loop.Broadcast

/-!
# The stream of navigation words

The window of a channel moves by one frame at every renewal.  The words it shows in the course
of a run are one stream, numbered by transmit time, in which every word passes the parity
equations behind the word before it (`message_stream`).
-/

namespace Navisim.Loop

open Nav Signal Slide

/-! ## The words of a window -/

/-- A channel that can be renewed: its subframes leave room for the parity, and every word of its
window follows the word before it. -/
structure Sendable (chan : Channel) : Prop where
  free : ∀ isbf iwrd, Free (chan.sbf isbf iwrd)
  chained : ∀ w : Nat, w + 1 < nDwrd →
    ParityOk (chan.dwrd w) (chan.dwrd ((w + 1 : Nat) : Int))

section Message

variable {g : GpsTime ℚ} {chan : Channel} {init : Int}

/-- Every word of a frame follows the word before it, if the first ten words do. -/
theorem chained_generateNavMsg (free : ∀ isbf iwrd, Free (chan.sbf isbf iwrd))
    (first : ∀ w : Nat, w + 1 < nDwrdSbf → ParityOk ((generateNavMsg g chan init).dwrd w)
      ((generateNavMsg g chan init).dwrd ((w + 1 : Nat) : Int)))
    {w : Nat} (inside : w + 1 < nDwrd) :
    ParityOk ((generateNavMsg g chan init).dwrd w)
      ((generateNavMsg g chan init).dwrd ((w + 1 : Nat) : Int)) := by
  rcases Nat.lt_or_ge (w + 1) nDwrdSbf with saved | inFrame
  · exact first w saved
  · simp only [nDwrd, nSbf, nDwrdSbf] at inside inFrame
    have place : w + 1 = ((w - 9) / 10 + 1) * nDwrdSbf + (w - 9) % 10 := by
      simp only [nDwrdSbf]
      omega
    have inFrame' : (w - 9) / 10 < nSbf := by
      simp only [nSbf]
      omega
    have inSubframe : (w - 9) % 10 < nDwrdSbf := by
      simp only [nDwrdSbf]
      omega
    have word := generateNavMsg_frame g chan init inFrame' inSubframe
    have before : (((w + 1 : Nat) : Int)) - 1 = w := by
      push_cast
      ring
    rw [← place, before] at word
    rw [word]
    exact parityOk_sendWord ((free _ _).addWeek ..)

/-- A new message can be sent. -/
theorem sendable_generateNavMsg (g : GpsTime ℚ) {chan : Channel}
    (free : ∀ isbf iwrd, Free (chan.sbf isbf iwrd)) :
    Sendable (generateNavMsg g chan 1) := by
  refine ⟨free, fun w inside => chained_generateNavMsg free (fun w saved => ?_) inside⟩
  have word := generateNavMsg_first g chan saved
  have before : (((w + 1 : Nat) : Int)) - 1 = w := by
    push_cast
    ring
  rw [if_neg (Nat.succ_ne_zero w), before] at word
  rw [word]
  exact parityOk_sendWord (free _ _)

/-- A renewed message continues the old one. -/
theorem Sendable.renew (sendable : Sendable chan) (g : GpsTime ℚ) (init : Int)
    (renewed : init ≠ 1) :
    Sendable (generateNavMsg g chan init) := by
  refine ⟨sendable.free, fun w inside => chained_generateNavMsg sendable.free (fun w saved => ?_)
    inside⟩
  have inSubframe : w < nDwrdSbf := by omega
  rw [generateNavMsg_saved g chan renewed saved, generateNavMsg_saved g chan renewed inSubframe]
  exact sendable.chained (nDwrdSbf * nSbf + w) (by simp only [nDwrd, nSbf, nDwrdSbf] at *; omega)

end Message

section Runs

variable {sc : Scenario} {t : Int} {n i : Nat}

/-- The messages of the active channels can be sent, in every run: whatever refreshes have made of
the subframes in the meantime. -/
theorem gen_sendable (n : Nat) (inside : i < maxChan) (active : 0 < ((sc.gen n).chan i).prn) :
    Sendable ((sc.gen n).chan i) := by
  have sampled : ∀ n, ∀ i < maxChan, Sendable ((sc.gen n).chan i) →
      Sendable (sc.sampled n iqBuffSize i) := by
    intro n i inside sendable
    have same : Refreshed ((sc.gen n).chan i) _ := refreshed_sampled inside iqBuffSize
    exact ⟨by rw [same.sbf]; exact sendable.free, by rw [same.dwrd]; exact sendable.chained⟩
  have initialised : ∀ eph grx xyz sv chan, Sendable
      (initChannel sc.orbits sc.lambda eph sc.ionoutc grx xyz sv chan) := by
    intro eph grx xyz sv chan
    let initial : Channel := { chan with
      prn := sv + 1
      azel := sc.orbits.azel (eph sv) grx xyz
      ca := codegen chan.ca (sv + 1)
      sbf := eph2sbf (eph sv) sc.ionoutc }
    have free : ∀ isbf iwrd, Free (initial.sbf isbf iwrd) := eph2sbf_free (eph sv) sc.ionoutc
    have sendable := sendable_generateNavMsg grx free
    exact ⟨sendable.free, sendable.chained⟩
  refine active_invariant (P := fun _ chan => Sendable chan) ?_ ?_ ?_ ?_ n inside active
  · exact fun sv chan => initialised _ _ _ sv chan
  · intro n i inside active quiet before
    exact sampled n i inside before
  · intro n i inside active zero before
    obtain ⟨sbf, renewal, source⟩ := renewed_active sc (sc.gen n).ieph (sc.gen n).grx
      (sampled_active inside active iqBuffSize)
    have sendable := (sampled n i inside before).renew (sc.gen n).grx 0 (by decide)
    rw [renewal]
    refine ⟨?_, sendable.chained⟩
    rcases source with same | ⟨eph, fresh⟩
    · rw [same]
      exact sendable.free
    · rw [fresh]
      exact eph2sbf_free eph sc.ionoutc
  · exact fun n _ sv chan => initialised _ _ _ sv chan

end Runs

/-! ## The window moves with the frames -/

/-- The number in the stream of the first word of a window. -/
def Channel.firstWord (chan : Channel) : Int :=
  50 * ⌊chan.g0.total / 30⌋ - 10

/-- The time at which the signal left the satellite. -/
def Channel.transmitTime (chan : Channel) : ℚ :=
  chan.rho0.g.total - Channel.travelTime chan

section Windows

variable {sc : Scenario} {t : Int} {n i : Nat}

theorem firstWord_eq (tenths : sc.g0.total = t / 10) (multiple : t % 10 = 0)
    (inside : i < maxChan) (active : 0 < ((sc.gen n).chan i).prn) :
    Channel.firstWord ((sc.gen n).chan i) = 50 * ((t + n) / 300) - 10 := by
  rw [Channel.firstWord, (gen_onTime tenths multiple n inside active).window,
    mul_div_cancel_left₀ _ (by norm_num : (30 : ℚ) ≠ 0), Int.floor_intCast]

/-- **A renewal** starts the window at the next frame, and saves the ten words of subframe 5. -/
theorem renewal_window (whole : sc.WholeSecond) (inside : i < maxChan)
    (active : 0 < ((sc.gen n).chan i).prn)
    (kept : ((sc.gen (n + 1)).chan i).prn = ((sc.gen n).chan i).prn)
    (renewal : sc.renews n = true) :
    subGpsTime ((sc.gen (n + 1)).chan i).g0 ((sc.gen n).chan i).g0 = 30 ∧
      ∀ w : Nat, w < nDwrdSbf →
        ((sc.gen (n + 1)).chan i).dwrd w = ((sc.gen n).chan i).dwrd ((w + 50 : Nat) : Int) := by
  obtain ⟨t, tenths, multiple⟩ := whole.tenths
  have active' : 0 < ((sc.gen (n + 1)).chan i).prn := by rwa [kept]
  constructor
  · have zero := (renews_iff tenths n).mp renewal
    rw [subGpsTime_eq, (gen_onTime tenths multiple (n + 1) inside active').window,
      (gen_onTime tenths multiple n inside active).window]
    have next : (t + (n + 1 : Nat)) / 300 = (t + n) / 300 + 1 := by
      push_cast
      omega
    rw [next]
    push_cast
    ring
  · intro w saved
    obtain ⟨sbf, message, -⟩ := renewed_active sc (sc.gen n).ieph (sc.gen n).grx
      (sampled_active inside active iqBuffSize)
    have same : Refreshed ((sc.gen n).chan i) _ := refreshed_sampled inside iqBuffSize
    rw [gen_succ_kept inside active kept, if_pos renewal, message]
    dsimp only
    rw [generateNavMsg_saved _ _ (by decide) saved, same.dwrd, Nat.add_comm]
    rfl

/-- A block without a renewal keeps the window. -/
theorem quiet_window (quiet : sc.renews n = false) (inside : i < maxChan) :
    ((sc.gen (n + 1)).chan i).g0 = ((sc.gen n).chan i).g0 ∧
      ((sc.gen (n + 1)).chan i).dwrd = ((sc.gen n).chan i).dwrd := by
  have same : Refreshed ((sc.gen n).chan i) _ := refreshed_sampled inside iqBuffSize
  rw [(gen_succ_of_not_renews quiet).1]
  exact ⟨same.g0, same.dwrd⟩

/-- The windows of a channel that keeps its satellite slide along the words. -/
theorem window_moves (whole : sc.WholeSecond) (inside : i < maxChan)
    (active : 0 < ((sc.gen n).chan i).prn)
    (kept : ((sc.gen (n + 1)).chan i).prn = ((sc.gen n).chan i).prn) :
    Moves nDwrd (fun k => Channel.firstWord ((sc.gen k).chan i))
      (fun k w => ((sc.gen k).chan i).dwrd w) n := by
  obtain ⟨t, tenths, multiple⟩ := whole.tenths
  have active' : 0 < ((sc.gen (n + 1)).chan i).prn := by rwa [kept]
  have here := firstWord_eq tenths multiple inside active
  have next := firstWord_eq tenths multiple inside active'
  push_cast at next
  rcases renewal : sc.renews n with _ | _
  · obtain ⟨g0, dwrd⟩ := quiet_window renewal inside
    have same : Channel.firstWord ((sc.gen (n + 1)).chan i) =
        Channel.firstWord ((sc.gen n).chan i) := by
      rw [Channel.firstWord, Channel.firstWord, g0]
    refine ⟨same.ge, ?_, fun w v inside inside' place => ?_⟩
    · simp only [same, nDwrd, nSbf, nDwrdSbf]
      omega
    · obtain rfl : w = v := by omega
      rw [dwrd]
  · have zero := (renews_iff tenths n).mp renewal
    refine ⟨?_, ?_, fun w v bound bound' place => ?_⟩
    · omega
    · simp only [nDwrd, nSbf, nDwrdSbf]
      omega
    · obtain rfl : v = w + 50 := by omega
      refine (renewal_window whole inside active kept renewal).2 w ?_
      simp only [nDwrd, nSbf, nDwrdSbf] at bound' ⊢
      omega

end Windows

/-! ## Word indices -/

/-- What a renewal means for the words of a channel. -/
structure Renewal (before after : Channel) : Prop where
  reference : subGpsTime after.g0 before.g0 = 30
  saved : ∀ w : Nat, w < nDwrdSbf → after.dwrd w = before.dwrd ((w + 50 : Nat) : Int)
  /-- For one transmit instant the word index drops by 50. -/
  index : ∀ lambda rho0 rho1 dt, 0 ≤ transmitMs { after with rho0 := rho0 } →
    let old := computeCodePhase lambda { before with rho0 := rho0 } rho1 dt
    let new := computeCodePhase lambda { after with rho0 := rho0 } rho1 dt
    old.iword = new.iword + 50 ∧ old.ibit = new.ibit ∧ old.icode = new.icode ∧
      old.codePhase = new.codePhase
  /-- While both windows hold the word, the data bit is the same. -/
  dataBit : ∀ lambda rho0 rho1 dt, 0 ≤ transmitMs { after with rho0 := rho0 } →
    transmitMs { after with rho0 := rho0 } < 6000 →
    (computeCodePhase lambda { after with rho0 := rho0 } rho1 dt).dataBit =
      (computeCodePhase lambda { before with rho0 := rho0 } rho1 dt).dataBit

theorem iword_computeCodePhase (lambda : ℚ) (chan : Channel) (rho1 : Range) (dt : ℚ)
    (positive : 0 ≤ transmitMs chan) :
    (computeCodePhase lambda chan rho1 dt).iword = ⌊transmitMs chan / 600⌋ := by
  obtain ⟨position, counting⟩ := position_computeCodePhase lambda chan rho1 dt positive
  rw [iword_eq_floor counting, position, mul_div_mul_right _ _ (by norm_num : (1023 : ℚ) ≠ 0)]

theorem renewal_of_window {before after : Channel}
    (reference : subGpsTime after.g0 before.g0 = 30)
    (saved : ∀ w : Nat, w < nDwrdSbf → after.dwrd w = before.dwrd ((w + 50 : Nat) : Int)) :
    Renewal before after := by
  have index : ∀ lambda rho0 rho1 dt, 0 ≤ transmitMs { after with rho0 := rho0 } →
      let old := computeCodePhase lambda { before with rho0 := rho0 } rho1 dt
      let new := computeCodePhase lambda { after with rho0 := rho0 } rho1 dt
      old.iword = new.iword + 50 ∧ old.ibit = new.ibit ∧ old.icode = new.icode ∧
        old.codePhase = new.codePhase := by
    intro lambda rho0 rho1 dt positive
    rw [subGpsTime_eq] at reference
    have shift : transmitMs { before with rho0 := rho0 } =
        transmitMs { after with rho0 := rho0 } + 30000 := by
      simp only [transmitMs]
      linarith
    obtain ⟨position, counting⟩ := position_computeCodePhase lambda
      { after with rho0 := rho0 } rho1 dt positive
    obtain ⟨position', counting'⟩ := position_computeCodePhase lambda
      { before with rho0 := rho0 } rho1 dt (by rw [shift]; linarith)
    apply digits_of_position counting' counting
    rw [position', position, shift]
    push_cast
    ring
  refine ⟨reference, saved, index, fun lambda rho0 rho1 dt positive first => ?_⟩
  obtain ⟨iword, ibit, -, -⟩ := index lambda rho0 rho1 dt positive
  have word := iword_computeCodePhase lambda { after with rho0 := rho0 } rho1 dt positive
  have lower : 0 ≤ (computeCodePhase lambda { after with rho0 := rho0 } rho1 dt).iword := by
    rw [word]
    exact Int.floor_nonneg.mpr (by linarith)
  have upper : (computeCodePhase lambda { after with rho0 := rho0 } rho1 dt).iword < 10 := by
    rw [word, Int.floor_lt]
    push_cast
    linarith
  obtain ⟨w, place⟩ := Int.eq_ofNat_of_zero_le lower
  have here := saved w (by simp only [nDwrdSbf]; omega)
  calc (computeCodePhase lambda { after with rho0 := rho0 } rho1 dt).dataBit
      = navBit after.dwrd (computeCodePhase lambda { after with rho0 := rho0 } rho1 dt).iword
          (computeCodePhase lambda { after with rho0 := rho0 } rho1 dt).ibit := rfl
    _ = navBit before.dwrd (computeCodePhase lambda { before with rho0 := rho0 } rho1 dt).iword
          (computeCodePhase lambda { before with rho0 := rho0 } rho1 dt).ibit := by
        rw [iword, ibit, place, navBit, navBit, here]
        rfl
    _ = (computeCodePhase lambda { before with rho0 := rho0 } rho1 dt).dataBit := rfl

section Runs

variable {sc : Scenario} {n i isamp first last : Nat}

/-- A block starts with the word of its transmit time. -/
theorem firstWord_add_iword (whole : sc.WholeSecond) (inside : i < maxChan)
    (active : 0 < ((sc.gen n).chan i).prn) (reach : Channel.InReach ((sc.gen n).chan i)) :
    Channel.firstWord ((sc.gen n).chan i) + (sc.sampled n 0 i).iword =
      ⌊Channel.transmitTime ((sc.gen n).chan i) / (6 / 10)⌋ := by
  obtain ⟨t, tenths, multiple⟩ := whole.tenths
  obtain ⟨position, counting⟩ := sampled_zero inside active
    (transmitMs_nonneg tenths multiple inside active reach)
  obtain ⟨-, window⟩ := gen_onTime tenths multiple n inside active
  have words : transmitMs ((sc.gen n).chan i) / 600 =
      Channel.transmitTime ((sc.gen n).chan i) / (6 / 10) +
        ((10 - 50 * ((t + n) / 300) : Int) : ℚ) := by
    rw [transmitMs, Channel.transmitTime, window, Channel.travelTime]
    push_cast
    ring
  rw [iword_eq_floor counting, position, mul_div_mul_right _ _ (by norm_num : (1023 : ℚ) ≠ 0),
    words, Int.floor_add_intCast, firstWord_eq tenths multiple inside active]
  ring

/-- The word index stays in the window whatever the code phase step is. -/
theorem iword_sampled (whole : sc.WholeSecond)
    (share : 0 ≤ dopplerShare sc.lambda ∧ dopplerShare sc.lambda ≤ 1) (inside : i < maxChan)
    (active : 0 < ((sc.gen n).chan i).prn) (reach : Channel.InReach ((sc.gen n).chan i))
    (reach' : Channel.InReach (sc.sampled n 0 i)) (inBlock : isamp ≤ iqBuffSize) :
    0 ≤ (sc.sampled n isamp i).iword ∧ (sc.sampled n isamp i).iword < nDwrd := by
  obtain ⟨t, tenths, multiple⟩ := whole.tenths
  obtain ⟨-, counting⟩ := sampled_zero inside active
    (transmitMs_nonneg tenths multiple inside active reach)
  obtain ⟨lower, upper⟩ := position_sampled_bounds whole share inside active reach reach'
    (Nat.zero_le iqBuffSize)
  have start := (inWindow_of_position counting lower upper).iword
  obtain ⟨counters, -⟩ := position_sampled tenths multiple inside active reach isamp
  have bounds := position_sampled_bounds whole share inside active reach reach' inBlock
  obtain ⟨grows, phase⟩ := samples_iword (codeStep delt (sc.sampled n 0 i)) counting isamp
  rw [← sampled_eq_samples inside active] at grows phase
  refine ⟨start.1.trans grows, ?_⟩
  rcases phase with nonneg | same
  · have below := iword_le_position counters nonneg
    have word : ((sc.sampled n isamp i).iword : ℚ) < 60 := by linarith [bounds.2]
    have word' : (sc.sampled n isamp i).iword < 60 := by exact_mod_cast word
    simpa [nDwrd, nSbf, nDwrdSbf] using word'
  · rw [same]
    exact start.2

/-- A channel keeps its satellite from the state after `first` blocks to that after `last`. -/
structure Scenario.Keeps (sc : Scenario) (i first last : Nat) : Prop where
  ordered : first ≤ last
  active : 0 < ((sc.gen first).chan i).prn
  same : ∀ k, first ≤ k → k ≤ last → ((sc.gen k).chan i).prn = ((sc.gen first).chan i).prn

theorem Scenario.Keeps.activeAt (keeps : sc.Keeps i first last) {k : Nat} (lower : first ≤ k)
    (upper : k ≤ last) : 0 < ((sc.gen k).chan i).prn := by
  rw [keeps.same k lower upper]
  exact keeps.active

theorem Scenario.Keeps.kept (keeps : sc.Keeps i first last) {k : Nat} (lower : first ≤ k)
    (upper : k < last) : ((sc.gen (k + 1)).chan i).prn = ((sc.gen k).chan i).prn := by
  rw [keeps.same (k + 1) (by omega) upper, keeps.same k lower upper.le]

/-- **The navigation words are one uninterrupted stream**, for as long as a satellite stays
allocated.  Every window is a piece of it, every word passes the parity equations behind the word
before it, a block starts with the word of its transmit time, every sample modulates a word of
the stream, and renewals move the window by exactly one frame. -/
theorem message_stream (wavelength : sc.lambda = lambdaL1) (whole : sc.WholeSecond)
    (inside : i < maxChan) (keeps : sc.Keeps i first last)
    (reach : ∀ k, first ≤ k → k ≤ last → Channel.InReach ((sc.gen k).chan i)) :
    ∃ stream : Int → Word,
      (∀ k, first ≤ k → k ≤ last → ∀ w < nDwrd, ((sc.gen k).chan i).dwrd w =
        stream (Channel.firstWord ((sc.gen k).chan i) + w)) ∧
      (∀ a, Channel.firstWord ((sc.gen first).chan i) < a →
        a < Channel.firstWord ((sc.gen last).chan i) + nDwrd →
          ParityOk (stream (a - 1)) (stream a)) ∧
      (∀ k, first ≤ k → k ≤ last →
        Channel.firstWord ((sc.gen k).chan i) + (sc.sampled k 0 i).iword =
          ⌊Channel.transmitTime ((sc.gen k).chan i) / (6 / 10)⌋) ∧
      (∀ k, first ≤ k → k < last → ∀ isamp ≤ iqBuffSize,
        (0 ≤ (sc.sampled k isamp i).iword ∧ (sc.sampled k isamp i).iword < nDwrd) ∧
          (sc.sampled k isamp i).dwrd (sc.sampled k isamp i).iword =
            stream (Channel.firstWord ((sc.gen k).chan i) + (sc.sampled k isamp i).iword)) ∧
      (∀ k, first ≤ k → k < last → sc.renews k = true →
        Renewal ((sc.gen k).chan i) ((sc.gen (k + 1)).chan i)) := by
  have moves : ∀ k, first ≤ k → k < last →
      Moves nDwrd (fun k => Channel.firstWord ((sc.gen k).chan i))
        (fun k w => ((sc.gen k).chan i).dwrd w) k :=
    fun k lower upper => window_moves whole inside (keeps.activeAt lower upper.le)
      (keeps.kept lower upper)
  obtain ⟨stream, pieces⟩ := exists_stream keeps.ordered moves
  refine ⟨stream, pieces, fun a lower upper => ?_, fun k lower upper => ?_,
    fun k lower upper isamp inBlock => ?_, fun k lower upper renewal => ?_⟩
  · exact stream_chain keeps.ordered moves pieces
      (fun k lower' upper' => (gen_sendable k inside (keeps.activeAt lower' upper')).chained)
      lower upper
  · exact firstWord_add_iword whole inside (keeps.activeAt lower upper) (reach k lower upper)
  · have active := keeps.activeAt lower upper.le
    have reach' : Channel.InReach (sc.sampled k 0 i) := by
      have next := reach (k + 1) (by omega) upper
      rwa [Channel.InReach, Channel.travelTime,
        gen_succ_rho0 inside active (keeps.kept lower upper)] at next
    have word := iword_sampled whole (by rw [wavelength]; exact dopplerShare_lambdaL1) inside
      active (reach k lower upper.le) reach' inBlock
    have same : Refreshed ((sc.gen k).chan i) _ := refreshed_sampled inside isamp
    refine ⟨word, ?_⟩
    obtain ⟨w, place⟩ := Int.eq_ofNat_of_zero_le word.1
    rw [same.dwrd, place]
    exact pieces k lower upper.le w (by omega)
  · obtain ⟨reference, saved⟩ := renewal_window whole inside (keeps.activeAt lower upper.le)
      (keeps.kept lower upper) renewal
    exact renewal_of_window reference saved

end Runs

/-! ### A run with renewals -/

section Sample

variable {lambda : ℚ}

/-- The satellite of the sample run stays overhead. -/
theorem sampleScenario_gen (member : lambda ∈ [lambdaL1, speedOfLight / carrFreq]) (n : Nat) :
    (((sampleScenario lambda).gen n).chan 0).prn = 1 ∧
      (((sampleScenario lambda).gen n).chan 0).rho0.range = 20200000 := by
  induction n with
  | zero => exact sampleScenario_start lambda member
  | succ n ih =>
      obtain ⟨prn, -⟩ := ih
      have active : 0 < (((sampleScenario lambda).gen n).chan 0).prn := by
        rw [prn]
        decide
      have valid (ieph : Int) : ((sampleScenario lambda).entry ieph
          (((sampleScenario lambda).gen n).chan 0)).vflg = 1 := by
        rw [Scenario.entry, prn]
        rfl
      have kept : (((sampleScenario lambda).gen (n + 1)).chan 0).prn =
          (((sampleScenario lambda).gen n).chan 0).prn := by
        rcases renewal : (sampleScenario lambda).renews n with _ | _
        · rw [(gen_succ_of_not_renews renewal).1]
          exact sampled_prn (by decide)
        · rw [gen_succ_visible renewal (by decide) active (visible_overhead (valid _) _ _),
            renewed_prn]
          exact sampled_prn (by decide)
      refine ⟨kept.trans prn, ?_⟩
      rw [gen_succ_rho0 (by decide) active kept]
      exact sampleScenario_range active

theorem sampleScenario_keeps (member : lambda ∈ [lambdaL1, speedOfLight / carrFreq]) (last : Nat) :
    (sampleScenario lambda).Keeps 0 0 last where
  ordered := Nat.zero_le last
  active := sampleScenario_active member
  same k _ _ := (sampleScenario_gen member k).1.trans (sampleScenario_gen member 0).1.symm

/-- Every block of the run meets the conditions. -/
theorem sampleScenario_run (member : lambda ∈ [lambdaL1, speedOfLight / carrFreq]) (n : Nat) :
    Channel.InReach (((sampleScenario lambda).gen n).chan 0) ∧
      Channel.InReach ((sampleScenario lambda).sampled n 0 0) ∧
      Channel.StepInRange ((sampleScenario lambda).sampled n 0 0) :=
  sampleScenario_block ((sampleScenario_keeps member n).activeAt (Nat.zero_le n) le_rfl)
    (sampleScenario_gen member n).2

/-- The run is renewed behind its 300th block. -/
theorem sampleScenario_renews : (sampleScenario lambda).renews 299 = true := by
  have tenths : (sampleScenario lambda).g0.total = ((13305600000 : Int) : ℚ) / 10 := by
    norm_num [sampleScenario, GpsTime.total]
  rw [renews_iff tenths]
  decide

end Sample

/-- The words of a minute, with a renewal in the middle. -/
theorem message_stream_sample : ∃ stream : Int → Word,
    (∀ k ≤ 600, ∀ w < nDwrd, (((sampleScenario lambdaL1).gen k).chan 0).dwrd w =
      stream (Channel.firstWord (((sampleScenario lambdaL1).gen k).chan 0) + w)) ∧
    Renewal (((sampleScenario lambdaL1).gen 299).chan 0)
      (((sampleScenario lambdaL1).gen 300).chan 0) := by
  have member : lambdaL1 ∈ [lambdaL1, speedOfLight / carrFreq] := by simp
  obtain ⟨stream, pieces, -, -, -, renewals⟩ := message_stream rfl (sampleScenario_whole _)
    (by decide) (sampleScenario_keeps member 600) fun k _ _ => (sampleScenario_run member k).1
  exact ⟨stream, fun k upper => pieces k (Nat.zero_le k) upper,
    renewals 299 (Nat.zero_le _) (by decide) sampleScenario_renews⟩

end Navisim.Loop

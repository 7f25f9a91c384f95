import Navisim.Loop.Generate

/-!
# Blocks

What a block does to a channel: the pseudorange and the samples (`during_active`), the renewal
of its message, and the allocation behind it (`gen_succ_outcome`).  An invariant of the active
channels is carried through a run by `active_invariant`, or by `gen_invariant` if it is one of the
time as well.
-/

namespace Navisim.Loop

open Nav Signal

/-! ## Channels -/

section Channels

variable {sc : Scenario} {iumd n i : Nat} {s : Gen}

theorem eachChannel_of_lt {α : Type*} {f : α → α} {chan : Nat → α} (inside : i < maxChan) :
    eachChannel f chan i = f (chan i) :=
  if_pos inside

theorem refresh_chan (inside : i < maxChan) :
    (sc.refresh iumd s).chan i = sc.refreshChannel s.ieph s.grx iumd (s.chan i) :=
  eachChannel_of_lt inside

/-- The fields of a refreshed channel that do not come from the pseudorange. -/
structure Refreshed (chan chan' : Channel) : Prop where
  prn : chan'.prn = chan.prn
  g0 : chan'.g0 = chan.g0
  sbf : chan'.sbf = chan.sbf
  dwrd : chan'.dwrd = chan.dwrd

theorem refreshed_refreshChannel (sc : Scenario) (iumd : Nat) (ieph : Int) (grx : GpsTime ℚ)
    (chan : Channel) : Refreshed chan (sc.refreshChannel ieph grx iumd chan) := by
  unfold Scenario.refreshChannel
  split <;> exact ⟨rfl, rfl, rfl, rfl⟩

/-- An active channel in a block is the refreshed channel after some samples. -/
theorem during_active (inside : i < maxChan) (active : 0 < (s.chan i).prn) (isamp : Nat) :
    sc.during iumd s isamp i =
      samples (codeStep delt (sc.during iumd s 0 i)) (sc.during iumd s 0 i) isamp := by
  have first : sc.during iumd s 0 i = sc.refreshChannel s.ieph s.grx iumd (s.chan i) :=
    refresh_chan inside
  have active' : 0 < ((sc.refresh iumd s).chan i).prn := by
    rw [refresh_chan inside, (refreshed_refreshChannel ..).prn]
    exact active
  rw [first, ← refresh_chan inside]
  exact afterSamples_active (codeStep_constant delt) inside active' isamp

theorem during_idle (inside : i < maxChan) (idle : ¬ 0 < (s.chan i).prn) (isamp : Nat) :
    sc.during iumd s isamp i = s.chan i := by
  have same : (sc.refresh iumd s).chan i = s.chan i := by
    rw [refresh_chan inside, Scenario.refreshChannel, if_neg idle]
  have idle' : ¬ 0 < ((sc.refresh iumd s).chan i).prn := by
    rwa [same]
  exact (afterSamples_idle idle' isamp).trans same

/-- A channel keeps its satellite and its window through a block. -/
theorem refreshed_during (inside : i < maxChan) (isamp : Nat) :
    Refreshed (s.chan i) (sc.during iumd s isamp i) := by
  by_cases active : 0 < (s.chan i).prn
  · rw [during_active inside active]
    have first : sc.during iumd s 0 i = sc.refreshChannel s.ieph s.grx iumd (s.chan i) :=
      refresh_chan inside
    have same := sameSignal_samples (codeStep delt (sc.during iumd s 0 i)) (sc.during iumd s 0 i)
      isamp
    have refreshed := refreshed_refreshChannel sc iumd s.ieph s.grx (s.chan i)
    rw [← first] at refreshed
    exact ⟨same.prn.trans refreshed.prn, same.g0.trans refreshed.g0,
      same.sbf.trans refreshed.sbf, same.dwrd.trans refreshed.dwrd⟩
  · rw [during_idle inside active]
    exact ⟨rfl, rfl, rfl, rfl⟩

theorem refreshed_sampled (inside : i < maxChan) (isamp : Nat) :
    Refreshed ((sc.gen n).chan i) (sc.sampled n isamp i) :=
  refreshed_during inside isamp

theorem sampled_prn (inside : i < maxChan) {isamp : Nat} :
    (sc.sampled n isamp i).prn = ((sc.gen n).chan i).prn :=
  (refreshed_sampled inside isamp).prn

theorem sampled_active (inside : i < maxChan) (active : 0 < ((sc.gen n).chan i).prn)
    (isamp : Nat) : 0 < (sc.sampled n isamp i).prn := by
  rw [sampled_prn inside]
  exact active

theorem sampled_eq_samples (inside : i < maxChan) (active : 0 < ((sc.gen n).chan i).prn)
    (isamp : Nat) : sc.sampled n isamp i =
      samples (codeStep delt (sc.sampled n 0 i)) (sc.sampled n 0 i) isamp :=
  during_active inside active isamp

/-- A block leaves the time it computed the pseudorange for. -/
theorem during_rho0 (inside : i < maxChan) (active : 0 < (s.chan i).prn) (isamp : Nat) :
    (sc.during iumd s isamp i).rho0 = sc.currentRange s.ieph s.grx iumd (s.chan i) := by
  have first : sc.during iumd s 0 i = sc.refreshChannel s.ieph s.grx iumd (s.chan i) :=
    refresh_chan inside
  rw [during_active inside active, (sameSignal_samples _ _ isamp).rho0, first,
    Scenario.refreshChannel, if_pos active]
  rfl

/-- What a renewal makes of a channel before the channels are allocated: the message is renewed,
and then perhaps the subframes. -/
def renewed (sc : Scenario) (ieph : Int) (grx : GpsTime ℚ) (chan : Channel) : Channel :=
  if sc.nextIsDue ieph grx then sc.newSubframes (ieph + 1) (Scenario.renewMessage grx chan)
  else Scenario.renewMessage grx chan

theorem refreshEphemeris_chan (inside : i < maxChan) :
    (sc.refreshEphemeris { s with
        chan := eachChannel (Scenario.renewMessage s.grx) s.chan }).chan i =
      renewed sc s.ieph s.grx (s.chan i) := by
  unfold Scenario.refreshEphemeris renewed
  dsimp only
  split
  · exact (eachChannel_of_lt inside).trans (congrArg _ (eachChannel_of_lt inside))
  · exact eachChannel_of_lt inside

theorem refreshEphemeris_allocatedSat : (sc.refreshEphemeris s).allocatedSat = s.allocatedSat := by
  unfold Scenario.refreshEphemeris
  split <;> rfl

theorem renewMessage_prn (grx : GpsTime ℚ) (chan : Channel) :
    (Scenario.renewMessage grx chan).prn = chan.prn := by
  unfold Scenario.renewMessage
  split <;> rfl

theorem renewed_prn (ieph : Int) (grx : GpsTime ℚ) (chan : Channel) :
    (renewed sc ieph grx chan).prn = chan.prn := by
  unfold renewed Scenario.newSubframes
  split
  · split <;> exact renewMessage_prn grx chan
  · exact renewMessage_prn grx chan

/-- A renewal changes the message of an active channel, and maybe its subframes. -/
theorem renewed_active (sc : Scenario) (ieph : Int) (grx : GpsTime ℚ) {chan : Channel}
    (active : 0 < chan.prn) :
    ∃ sbf, renewed sc ieph grx chan = { generateNavMsg grx chan 0 with sbf := sbf } ∧
      (sbf = chan.sbf ∨ ∃ eph, sbf = eph2sbf eph sc.ionoutc) := by
  have message : Scenario.renewMessage grx chan = generateNavMsg grx chan 0 := if_pos active
  unfold renewed Scenario.newSubframes
  rw [message]
  split
  · split
    · exact ⟨_, rfl, Or.inr ⟨_, rfl⟩⟩
    · exact ⟨chan.sbf, rfl, Or.inl rfl⟩
  · exact ⟨chan.sbf, rfl, Or.inl rfl⟩

/-! ## Blocks -/

/-- The allocation flags and the channels of a state name each other. -/
def Gen.Consistent (s : Gen) : Prop :=
  Allocation.Consistent { nsat := 0, chan := s.chan, allocatedSat := s.allocatedSat }

/-- Only the satellite numbers of the channels matter. -/
theorem Gen.Consistent.congr {s s' : Gen} (consistent : s.Consistent)
    (prn : ∀ i < maxChan, (s'.chan i).prn = (s.chan i).prn)
    (flags : s'.allocatedSat = s.allocatedSat) : s'.Consistent :=
  Allocation.Consistent.congr consistent prn flags

/-- An active channel of a consistent state is one of a satellite. -/
theorem Gen.Consistent.idle (consistent : s.Consistent) (inside : i < maxChan)
    (idle : ¬ 0 < (s.chan i).prn) : (s.chan i).prn = 0 := by
  rcases consistent.ofChan i inside with zero | ⟨sv, -, prn, -⟩
  · exact zero
  · dsimp only at prn
    omega

/-- The state of a block that renews, before the channels are allocated. -/
def beforeAllocation (sc : Scenario) (n : Nat) : Gen :=
  let s := { sc.refresh (n + 1) (sc.gen n) with chan := sc.sampled n iqBuffSize }
  sc.refreshEphemeris { s with chan := eachChannel (Scenario.renewMessage s.grx) s.chan }

theorem beforeAllocation_chan (inside : i < maxChan) :
    (beforeAllocation sc n).chan i =
      renewed sc (sc.gen n).ieph (sc.gen n).grx (sc.sampled n iqBuffSize i) :=
  refreshEphemeris_chan (s := { sc.refresh (n + 1) (sc.gen n) with
    chan := sc.sampled n iqBuffSize }) inside

theorem beforeAllocation_grx : (beforeAllocation sc n).grx = (sc.gen n).grx :=
  refreshEphemeris_grx _

theorem beforeAllocation_ieph : (beforeAllocation sc n).ieph =
    if sc.nextIsDue (sc.gen n).ieph (sc.gen n).grx then (sc.gen n).ieph + 1
    else (sc.gen n).ieph := by
  have due : sc.nextIsDue (sc.refresh (n + 1) (sc.gen n)).ieph
      (sc.refresh (n + 1) (sc.gen n)).grx = sc.nextIsDue (sc.gen n).ieph (sc.gen n).grx := rfl
  unfold beforeAllocation Scenario.refreshEphemeris
  dsimp only
  rw [due]
  split <;> rfl

theorem beforeAllocation_consistent (consistent : (sc.gen n).Consistent) :
    (beforeAllocation sc n).Consistent := by
  refine consistent.congr (fun i inside => ?_) refreshEphemeris_allocatedSat
  rw [beforeAllocation_chan inside, renewed_prn]
  exact sampled_prn inside

/-- A block without a renewal leaves the channels as the samples do. -/
theorem gen_succ_of_not_renews (quiet : sc.renews n = false) :
    (sc.gen (n + 1)).chan = sc.sampled n iqBuffSize ∧
      (sc.gen (n + 1)).allocatedSat = (sc.gen n).allocatedSat ∧
      (sc.gen (n + 1)).ieph = (sc.gen n).ieph := by
  have grx : Scenario.isRenewal (sc.refresh (n + 1) (sc.gen n)).grx = false := quiet
  simp only [Scenario.gen, Scenario.block, grx, Bool.false_eq_true, if_false]
  exact ⟨rfl, rfl, rfl⟩

theorem gen_succ_of_renews (renewal : sc.renews n = true) :
    (sc.gen (n + 1)).chan = (sc.reallocate (n + 1) (beforeAllocation sc n)).chan ∧
      (sc.gen (n + 1)).allocatedSat =
        (sc.reallocate (n + 1) (beforeAllocation sc n)).allocatedSat ∧
      (sc.gen (n + 1)).ieph = (beforeAllocation sc n).ieph := by
  have grx : Scenario.isRenewal (sc.refresh (n + 1) (sc.gen n)).grx = true := renewal
  simp only [Scenario.gen, Scenario.block, grx, if_true]
  exact ⟨rfl, rfl, rfl⟩

/-- A renewal goes on to the next set if it is due. -/
theorem gen_succ_ieph (renewal : sc.renews n = true) :
    (sc.gen (n + 1)).ieph =
      if sc.nextIsDue (sc.gen n).ieph (sc.gen n).grx then (sc.gen n).ieph + 1
      else (sc.gen n).ieph := by
  rw [(gen_succ_of_renews renewal).2.2, beforeAllocation_ieph]

theorem start_consistent (sc : Scenario) :
    Allocation.Consistent {
      nsat := 0
      chan := eachChannel (fun chan => { chan with prn := 0 }) sc.chan
      allocatedSat := fun _ => -1 } := by
  refine ⟨fun _ _ => le_rfl, fun sv _ i allocated => ?_, fun i inside => Or.inl ?_⟩
  · dsimp only at allocated
    omega
  · dsimp only
    rw [eachChannel_of_lt inside]

/-- The flags and the channels agree throughout a run. -/
theorem gen_consistent (n : Nat) : (sc.gen n).Consistent := by
  induction n with
  | zero =>
      have allocated := allocateChannel_consistent sc.orbits sc.lambda (sc.eph sc.ieph) sc.ionoutc
        (incGpsTime sc.g0 0.0) (sc.xyz 0) (start_consistent sc)
      exact allocated.congr (fun _ _ => rfl) rfl
  | succ n ih =>
      rcases renewal : sc.renews n with _ | _
      · obtain ⟨chans, flags, -⟩ := gen_succ_of_not_renews renewal
        refine ih.congr (fun i inside => ?_) flags
        rw [chans]
        exact sampled_prn inside
      · obtain ⟨chans, flags, -⟩ := gen_succ_of_renews renewal
        have allocated := allocateChannel_consistent sc.orbits sc.lambda
          (sc.eph (beforeAllocation sc n).ieph) sc.ionoutc (beforeAllocation sc n).grx
          (sc.position (n + 1)) (beforeAllocation_consistent ih)
        exact allocated.congr (fun i _ => congrArg (fun chan => (chan i).prn) chans) flags

/-- What the first allocation does to a channel. -/
theorem gen_zero_outcome (sc : Scenario) (i : Nat) :
    Outcome sc.orbits sc.lambda (sc.eph (sc.gen 0).ieph) sc.ionoutc (incGpsTime sc.g0 0.0)
      (sc.xyz 0) (eachChannel (fun chan => { chan with prn := 0 }) sc.chan i)
      ((sc.gen 0).chan i) :=
  allocateChannel_outcome _ _ _ _ _ _ (start_consistent sc) i

/-- **What a renewal does to a channel**, in every run. -/
theorem gen_succ_outcome (renewal : sc.renews n = true) (inside : i < maxChan) :
    Outcome sc.orbits sc.lambda (sc.eph (sc.gen (n + 1)).ieph) sc.ionoutc (sc.gen n).grx
      (sc.position (n + 1))
      (renewed sc (sc.gen n).ieph (sc.gen n).grx (sc.sampled n iqBuffSize i))
      ((sc.gen (n + 1)).chan i) := by
  obtain ⟨chans, -, ieph⟩ := gen_succ_of_renews renewal
  rw [ieph, chans, ← beforeAllocation_chan inside, ← beforeAllocation_grx]
  exact allocateChannel_outcome _ _ _ _ _ _ (beforeAllocation_consistent (gen_consistent n)) i

/-- A channel that keeps its satellite leaves a block as the samples and the renewal do. -/
theorem gen_succ_kept (inside : i < maxChan) (active : 0 < ((sc.gen n).chan i).prn)
    (kept : ((sc.gen (n + 1)).chan i).prn = ((sc.gen n).chan i).prn) :
    (sc.gen (n + 1)).chan i =
      if sc.renews n then
        renewed sc (sc.gen n).ieph (sc.gen n).grx (sc.sampled n iqBuffSize i)
      else sc.sampled n iqBuffSize i := by
  rcases renewal : sc.renews n with _ | _
  · rw [(gen_succ_of_not_renews renewal).1]
    rfl
  · cases gen_succ_outcome renewal inside with
    | kept same => exact same
    | cleared idle => omega
    | initialised sv chan bound new init =>
        rw [renewed_prn] at new
        have prn : (sc.sampled n iqBuffSize i).prn = ((sc.gen n).chan i).prn := sampled_prn inside
        rw [init, initChannel_prn] at kept
        omega

/-! ## Invariants of the active channels -/

/-- A channel that is active at the start has been initialised. -/
theorem gen_zero_active (inside : i < maxChan) (active : 0 < ((sc.gen 0).chan i).prn) :
    ∃ sv chan, (sc.gen 0).chan i = initChannel sc.orbits sc.lambda (sc.eph (sc.gen 0).ieph)
      sc.ionoutc (incGpsTime sc.g0 0.0) (sc.xyz 0) sv chan := by
  cases gen_zero_outcome sc i with
  | kept same =>
      rw [same, eachChannel_of_lt inside] at active
      exact absurd active (lt_irrefl 0)
  | cleared idle => omega
  | initialised sv chan bound new initial => exact ⟨sv, chan, initial⟩

/-- **The invariant rule.**  A property holds for the active channels of every state if it holds
for a channel that is initialised, at the start or behind a renewal, and blocks and renewals keep
it. -/
theorem active_invariant {P : Nat → Channel → Prop}
    (first : ∀ sv chan, P 0 (initChannel sc.orbits sc.lambda (sc.eph (sc.gen 0).ieph) sc.ionoutc
      (incGpsTime sc.g0 0.0) (sc.xyz 0) sv chan))
    (advance : ∀ n, ∀ i < maxChan, 0 < ((sc.gen n).chan i).prn → sc.renews n = false →
      P n ((sc.gen n).chan i) → P (n + 1) (sc.sampled n iqBuffSize i))
    (renew : ∀ n, ∀ i < maxChan, 0 < ((sc.gen n).chan i).prn → sc.renews n = true →
      P n ((sc.gen n).chan i) →
      P (n + 1) (renewed sc (sc.gen n).ieph (sc.gen n).grx (sc.sampled n iqBuffSize i)))
    (init : ∀ n, sc.renews n = true → ∀ sv chan, P (n + 1) (initChannel sc.orbits sc.lambda
      (sc.eph (sc.gen (n + 1)).ieph) sc.ionoutc (sc.gen n).grx (sc.position (n + 1)) sv chan))
    (n : Nat) (inside : i < maxChan) (active : 0 < ((sc.gen n).chan i).prn) :
    P n ((sc.gen n).chan i) := by
  induction n with
  | zero =>
      obtain ⟨sv, chan, initial⟩ := gen_zero_active inside active
      rw [initial]
      exact first sv chan
  | succ n ih =>
      have prn : (sc.sampled n iqBuffSize i).prn = ((sc.gen n).chan i).prn := sampled_prn inside
      rcases renewal : sc.renews n with _ | _
      · rw [(gen_succ_of_not_renews renewal).1] at active ⊢
        rw [prn] at active
        exact advance n i inside active renewal (ih active)
      · cases gen_succ_outcome renewal inside with
        | kept same =>
            rw [same, renewed_prn, prn] at active
            rw [same]
            exact renew n i inside active renewal (ih active)
        | cleared idle => omega
        | initialised sv chan bound new initial =>
            rw [initial]
            exact init n renewal sv chan

/-- **The invariant rule with the time**, counted in tenths of a second. -/
theorem gen_invariant {t : Int} {P : Int → Channel → Prop} (tenths : sc.g0.total = t / 10)
    (whole : t % 10 = 0)
    (init : ∀ eph grx xyz sv chan (T : Int), T % 10 = 0 → grx.InWeek → grx.total = (T : ℚ) / 10 →
      P T (initChannel sc.orbits sc.lambda eph sc.ionoutc grx xyz sv chan))
    (advance : ∀ n, ∀ i < maxChan, 0 < ((sc.gen n).chan i).prn → (t + n + 1) % 300 ≠ 0 →
      P (t + n) ((sc.gen n).chan i) → P (t + n + 1) (sc.sampled n iqBuffSize i))
    (renew : ∀ n, ∀ i < maxChan, 0 < ((sc.gen n).chan i).prn → (t + n + 1) % 300 = 0 →
      P (t + n) ((sc.gen n).chan i) →
      P (t + n + 1) (renewed sc (sc.gen n).ieph (sc.gen n).grx (sc.sampled n iqBuffSize i)))
    (n : Nat) (inside : i < maxChan) (active : 0 < ((sc.gen n).chan i).prn) :
    P (t + n) ((sc.gen n).chan i) := by
  have shift : ∀ n : Nat, t + ((n + 1 : Nat) : Int) = t + n + 1 := by
    intro n
    push_cast
    ring
  refine active_invariant (P := fun n chan => P (t + n) chan) ?_ ?_ ?_ ?_ n inside active
  · intro sv chan
    simpa using init _ _ _ sv chan t whole (incGpsTime_inWeek _ _) (start_total tenths)
  · intro n i inside active renewal before
    rw [shift]
    exact advance n i inside active ((not_renews_iff tenths n).mp renewal) before
  · intro n i inside active renewal before
    rw [shift]
    exact renew n i inside active ((renews_iff tenths n).mp renewal) before
  · intro n renewal sv chan
    have zero := (renews_iff tenths n).mp renewal
    rw [shift]
    exact init _ _ _ sv chan _ (by omega) (gen_inWeek n) (gen_total tenths n)

end Channels

end Navisim.Loop

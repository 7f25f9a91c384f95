import Navisim.Loop.Window
import Navisim.Signal.GoldCode

/-!
# Telling the satellites apart

Every active channel of a run sends the code of its satellite, and no two of them the same code.
A receiver that correlates the sum of all channels with one of the codes therefore finds the
weight of that channel, up to the crosstalk of the others (`sampled_separable`).
-/

namespace Navisim.Loop

open Nav Signal Gold

/-! ## The codes of the channels -/

/-- The channel holds the code of its satellite. -/
def Coded (chan : Channel) : Prop :=
  ∃ ca, chan.ca = codegen ca chan.prn

section Codes

variable {sc : Scenario} {n i j : Nat}

theorem Coded.congr {chan chan' : Channel} (coded : Coded chan) (prn : chan'.prn = chan.prn)
    (ca : chan'.ca = chan.ca) : Coded chan' := by
  obtain ⟨before, same⟩ := coded
  exact ⟨before, by rw [ca, prn, same]⟩

/-- A block keeps the code. -/
theorem sampled_ca (inside : i < maxChan) (isamp : Nat) :
    (sc.sampled n isamp i).ca = ((sc.gen n).chan i).ca := by
  by_cases active : 0 < ((sc.gen n).chan i).prn
  · have first : sc.sampled n 0 i =
        sc.refreshChannel (sc.gen n).ieph (sc.gen n).grx (n + 1) ((sc.gen n).chan i) :=
      refresh_chan inside
    rw [sampled_eq_samples inside active, (sameSignal_samples _ _ isamp).ca, first]
    unfold Scenario.refreshChannel
    split <;> rfl
  · exact congrArg Channel.ca (during_idle inside active isamp)

/-- **The codes throughout a run.** -/
theorem gen_coded (n : Nat) (inside : i < maxChan) (active : 0 < ((sc.gen n).chan i).prn) :
    Coded ((sc.gen n).chan i) := by
  have sampled : ∀ n, ∀ i < maxChan, Coded ((sc.gen n).chan i) →
      Coded (sc.sampled n iqBuffSize i) := fun n i inside coded =>
    coded.congr (sampled_prn inside) (sampled_ca inside iqBuffSize)
  have initialised : ∀ eph grx xyz sv chan, Coded
      (initChannel sc.orbits sc.lambda eph sc.ionoutc grx xyz sv chan) :=
    fun eph grx xyz sv chan => ⟨chan.ca, rfl⟩
  refine active_invariant (P := fun _ chan => Coded chan) ?_ ?_ ?_ ?_ n inside active
  · exact fun sv chan => initialised _ _ _ sv chan
  · intro n i inside active quiet before
    exact sampled n i inside before
  · intro n i inside active zero before
    obtain ⟨sbf, renewal, -⟩ := renewed_active sc (sc.gen n).ieph (sc.gen n).grx
      (sampled_active inside active iqBuffSize)
    rw [renewal]
    exact (sampled n i inside before).congr rfl rfl
  · exact fun n _ sv chan => initialised _ _ _ sv chan

/-- The channel of a satellite. -/
theorem gen_satellite (n : Nat) (inside : i < maxChan) (active : 0 < ((sc.gen n).chan i).prn) :
    1 ≤ ((sc.gen n).chan i).prn ∧ ((sc.gen n).chan i).prn ≤ 32 := by
  have consistent : (sc.gen n).Consistent := gen_consistent n
  rcases consistent.ofChan i inside with idle | ⟨sv, bound, prn, -⟩
  · dsimp only at idle
    omega
  · dsimp only at prn
    unfold maxSat at bound
    omega

theorem gen_prn_injective (n : Nat) (inside : i < maxChan) (inside' : j < maxChan)
    (active : 0 < ((sc.gen n).chan i).prn)
    (same : ((sc.gen n).chan i).prn = ((sc.gen n).chan j).prn) : i = j := by
  have consistent : (sc.gen n).Consistent := gen_consistent n
  rcases consistent.ofChan i inside with idle | ⟨sv, bound, prn, flag⟩
  · dsimp only at idle
    omega
  · rcases consistent.ofChan j inside' with idle | ⟨sv', bound', prn', flag'⟩
    · dsimp only at idle
      omega
    · dsimp only at prn prn' flag flag'
      obtain rfl : sv = sv' := by omega
      omega

end Codes

/-! ## A receiver -/

/-- The chip that a channel sends `k` chips into its code. -/
def chipAt (chan : Channel) (k : Nat) : Int :=
  chan.ca (k % caSeqLen : Nat) * 2 - 1

/-- The sum of the active channels, `c` chips after the channels had the code phases `phase`; the
weight of a channel is its gain with the sign of its navigation bit. -/
def received (chan : Nat → Channel) (weight : Nat → Int) (phase : Nat → Nat) (c : Nat) : Int :=
  ∑ i ∈ (Finset.range maxChan).filter fun i => 0 < (chan i).prn,
    weight i * chipAt (chan i) (c + phase i)

/-- What a receiver finds that looks for channel `j` over a code period. -/
def despread (chan : Nat → Channel) (weight : Nat → Int) (phase : Nat → Nat) (j : Nat) : Int :=
  ∑ c ∈ Finset.range caSeqLen, received chan weight phase c * chipAt (chan j) (c + phase j)

/-- The other active channels. -/
def others (chan : Nat → Channel) (j : Nat) : Finset Nat :=
  ((Finset.range maxChan).filter fun i => 0 < (chan i).prn).erase j

section Receiver

variable {chan chan' : Channel} {sc : Scenario} {n isamp j : Nat}

theorem Coded.chip_eq (coded : Coded chan) (satellite : 1 ≤ chan.prn ∧ chan.prn ≤ 32) (k : Nat) :
    chipAt chan k = -(codeSigns chan.prn k : ℤˣ) := by
  obtain ⟨ca, same⟩ := coded
  have inside : k % caSeqLen < 1023 := Nat.mod_lt _ (by decide)
  rw [chipAt, same, codegen_chip ca satellite inside]
  exact congrArg (fun sign : ℤˣ => -(sign : ℤ)) (codeSigns_mod chan.prn k)

theorem codeSigns_periodic (prn : Int) : Function.Periodic (codeSigns prn) 1023 := by
  intro i
  rw [← codeSigns_mod, Nat.add_mod_right, codeSigns_mod]

/-- The correlation of two channels at given code phases. -/
theorem sum_chipAt (coded : Coded chan) (satellite : 1 ≤ chan.prn ∧ chan.prn ≤ 32)
    (coded' : Coded chan') (satellite' : 1 ≤ chan'.prn ∧ chan'.prn ≤ 32) (u v : Nat) :
    ∑ c ∈ Finset.range caSeqLen, chipAt chan (c + u) * chipAt chan' (c + v) =
      correlation 1023 (codeSigns chan.prn) (codeSigns chan'.prn)
        ((v + (1023 - 1) * u) % 1023) := by
  rw [← correlation_shift (codeSigns_periodic _) (codeSigns_periodic _) (by decide)]
  refine Finset.sum_congr rfl fun c _ => ?_
  rw [coded.chip_eq satellite, coded'.chip_eq satellite', neg_mul_neg, ← Units.val_mul]

/-- What is left of another satellite. -/
theorem abs_sum_chipAt_le (coded : Coded chan) (satellite : 1 ≤ chan.prn ∧ chan.prn ≤ 32)
    (coded' : Coded chan') (satellite' : 1 ≤ chan'.prn ∧ chan'.prn ≤ 32)
    (different : chan.prn ≠ chan'.prn) (u v : Nat) :
    |∑ c ∈ Finset.range caSeqLen, chipAt chan (c + u) * chipAt chan' (c + v)| ≤ 65 := by
  rw [sum_chipAt coded satellite coded' satellite']
  rcases correlation_codeSigns ((v + (1023 - 1) * u) % 1023) satellite satellite' with
    ⟨same, -⟩ | ⟨-, low | middle | high⟩
  · exact absurd same different
  · rw [low]
    decide
  · rw [middle]
    decide
  · rw [high]
    decide

/-- What is found of the satellite itself. -/
theorem sum_chipAt_self (coded : Coded chan) (satellite : 1 ≤ chan.prn ∧ chan.prn ≤ 32)
    (u : Nat) : ∑ c ∈ Finset.range caSeqLen, chipAt chan (c + u) * chipAt chan (c + u) = 1023 := by
  have term : ∀ c, chipAt chan (c + u) * chipAt chan (c + u) = 1 := by
    intro c
    rw [coded.chip_eq satellite, neg_mul_neg, ← Units.val_mul, Int.units_mul_self, Units.val_one]
  simp only [term, Finset.sum_const, Finset.card_range, caSeqLen]
  rfl

/-- The codes of two satellites are not the same. -/
theorem exists_ca_ne (coded : Coded chan) (satellite : 1 ≤ chan.prn ∧ chan.prn ≤ 32)
    (coded' : Coded chan') (satellite' : 1 ≤ chan'.prn ∧ chan'.prn ≤ 32)
    (different : chan.prn ≠ chan'.prn) : ∃ k : Nat, k < caSeqLen ∧ chan.ca k ≠ chan'.ca k := by
  by_contra! same
  have chips : ∀ c, chipAt chan' (c + 0) = chipAt chan (c + 0) := by
    intro c
    rw [chipAt, chipAt, same _ (Nat.mod_lt _ (by decide))]
  have small := abs_sum_chipAt_le coded satellite coded' satellite' different 0 0
  simp only [chips, sum_chipAt_self coded satellite 0] at small
  exact absurd small (by decide)

/-- Every active channel holds the code of its own satellite, and no two of them are channels of
the same satellite or hold the same code. -/
structure CodesApart (chan : Nat → Channel) : Prop where
  own : ∀ i < maxChan, 0 < (chan i).prn →
    Coded (chan i) ∧ 1 ≤ (chan i).prn ∧ (chan i).prn ≤ 32
  distinct : ∀ i < maxChan, ∀ j < maxChan, 0 < (chan i).prn → 0 < (chan j).prn → i ≠ j →
    (chan i).prn ≠ (chan j).prn ∧ ∃ k : Nat, k < caSeqLen ∧ (chan i).ca k ≠ (chan j).ca k

/-- The codes are apart at every sample of a run. -/
theorem codesApart_sampled (sc : Scenario) (n isamp : Nat) : CodesApart (sc.sampled n isamp) := by
  have own : ∀ i < maxChan, 0 < (sc.sampled n isamp i).prn → Coded (sc.sampled n isamp i) ∧
      1 ≤ (sc.sampled n isamp i).prn ∧ (sc.sampled n isamp i).prn ≤ 32 := by
    intro i inside active
    have prn : (sc.sampled n isamp i).prn = ((sc.gen n).chan i).prn := sampled_prn inside
    rw [prn] at active ⊢
    exact ⟨(gen_coded n inside active).congr prn (sampled_ca inside isamp),
      gen_satellite n inside active⟩
  refine ⟨own, fun i inside j inside' active active' other => ?_⟩
  have prn : (sc.sampled n isamp i).prn = ((sc.gen n).chan i).prn := sampled_prn inside
  have prn' : (sc.sampled n isamp j).prn = ((sc.gen n).chan j).prn := sampled_prn inside'
  have different : (sc.sampled n isamp i).prn ≠ (sc.sampled n isamp j).prn := by
    intro same
    rw [prn] at active
    rw [prn, prn'] at same
    exact other (gen_prn_injective n inside inside' active same)
  obtain ⟨coded, satellite⟩ := own i inside active
  obtain ⟨coded', satellite'⟩ := own j inside' active'
  exact ⟨different, exists_ca_ne coded satellite coded' satellite' different⟩

/-- What a receiver finds is the weight of the channel in every chip, up to the crosstalk. -/
theorem CodesApart.abs_despread_sub_le {chan : Nat → Channel} (apart : CodesApart chan)
    (weight : Nat → Int) (phase : Nat → Nat) (inside : j < maxChan) (active : 0 < (chan j).prn) :
    |despread chan weight phase j - 1023 * weight j| ≤ 65 * ∑ i ∈ others chan j, |weight i| := by
  obtain ⟨coded, satellite⟩ := apart.own j inside active
  -- The sums over the chips and over the channels change places.
  have sums : despread chan weight phase j =
      ∑ i ∈ (Finset.range maxChan).filter fun i => 0 < (chan i).prn, weight i *
        ∑ c ∈ Finset.range caSeqLen,
          chipAt (chan i) (c + phase i) * chipAt (chan j) (c + phase j) := by
    simp only [despread, received, Finset.sum_mul, Finset.mul_sum]
    rw [Finset.sum_comm]
    simp only [mul_assoc]
  have member : j ∈ (Finset.range maxChan).filter fun i => 0 < (chan i).prn :=
    Finset.mem_filter.mpr ⟨Finset.mem_range.mpr inside, active⟩
  rw [sums, ← Finset.add_sum_erase _ _ member, sum_chipAt_self coded satellite,
    mul_comm (weight j), add_sub_cancel_left]
  refine (Finset.abs_sum_le_sum_abs _ _).trans ?_
  rw [Finset.mul_sum]
  refine Finset.sum_le_sum fun i member' => ?_
  obtain ⟨other, member'⟩ := Finset.mem_erase.mp member'
  obtain ⟨inside', active'⟩ := Finset.mem_filter.mp member'
  have bound := Finset.mem_range.mp inside'
  obtain ⟨coded', satellite'⟩ := apart.own i bound active'
  have different := (apart.distinct i bound j inside active' active other).1
  rw [abs_mul, mul_comm]
  exact mul_le_mul_of_nonneg_right
    (abs_sum_chipAt_le coded' satellite' coded satellite different _ _) (abs_nonneg _)

/-- A weight that is stronger than what covers it keeps its sign. -/
theorem sign_eq_of_near {found weight crosstalk : Int}
    (near : |found - 1023 * weight| ≤ crosstalk) (weak : crosstalk < 1023 * |weight|) :
    found.sign = weight.sign := by
  have bounds := abs_le.mp near
  rcases lt_trichotomy weight 0 with negative | zero | positive
  · rw [abs_of_neg negative] at weak
    rw [Int.sign_eq_neg_one_of_neg negative, Int.sign_eq_neg_one_of_neg (by linarith)]
  · have nonneg := (abs_nonneg _).trans near
    rw [zero, abs_zero] at weak
    omega
  · rw [abs_of_pos positive] at weak
    rw [Int.sign_eq_one_of_pos positive, Int.sign_eq_one_of_pos (by linarith)]

/-- **The satellites can be told apart.**  In every run, at every sample, every active channel
holds the code of its own satellite and no two the same.  For all weights and code phases of the
channels, a receiver that looks for an active channel therefore finds its weight in every one of
the 1023 chips, and of each other channel at most its weight in 65 of them; so it finds the right
sign wherever the others are not too strong. -/
theorem sampled_separable (sc : Scenario) (n isamp : Nat) :
    let chan := sc.sampled n isamp
    CodesApart chan ∧
      ∀ (weight : Nat → Int) (phase : Nat → Nat), ∀ j < maxChan, 0 < (chan j).prn →
        let crosstalk := 65 * ∑ i ∈ others chan j, |weight i|
        |despread chan weight phase j - 1023 * weight j| ≤ crosstalk ∧
          (crosstalk < 1023 * |weight j| →
            (despread chan weight phase j).sign = (weight j).sign) := by
  intro chan
  have apart : CodesApart chan := codesApart_sampled sc n isamp
  refine ⟨apart, fun weight phase j inside active => ?_⟩
  have near := apart.abs_despread_sub_le weight phase inside active
  exact ⟨near, sign_eq_of_near near⟩

end Receiver

/-! ### A run with two satellites -/

/-- The first two satellites have a valid entry in every set. -/
def twoSatellites : Scenario :=
  { sampleScenario lambdaL1 with
    eph := fun _ sv => if sv < 2 then sampleEphem else { sampleEphem with vflg := 0 } }

theorem twoSatellites_prn :
    ∀ i < maxChan, ((twoSatellites.gen 0).chan i).prn = if i < 2 then (i : Int) + 1 else 0 := by
  decide +kernel

theorem twoSatellites_others (isamp : Nat) : others (twoSatellites.sampled 0 isamp) 0 = {1} := by
  ext i
  simp only [others, Finset.mem_erase, Finset.mem_filter, Finset.mem_range, Finset.mem_singleton]
  constructor
  · rintro ⟨other, inside, active⟩
    rw [sampled_prn inside, twoSatellites_prn i inside] at active
    split at active
    · omega
    · exact absurd active (lt_irrefl 0)
  · rintro rfl
    refine ⟨by decide, by decide, ?_⟩
    rw [sampled_prn (by decide), twoSatellites_prn 1 (by decide)]
    decide

/-- The first satellite is found behind the second, which is fifteen times as strong. -/
theorem sampled_separable_sample :
    let chan := twoSatellites.sampled 0 5
    let weight : Nat → Int := fun i => if i = 0 then -1 else 15
    (∃ k : Nat, k < caSeqLen ∧ (chan 0).ca k ≠ (chan 1).ca k) ∧
      (despread chan weight (fun i => 100 * i) 0).sign = -1 := by
  have active : ∀ i < 2, 0 < (twoSatellites.sampled 0 5 i).prn := by
    intro i first
    have inside : i < maxChan := first.trans (by decide)
    rw [sampled_prn inside, twoSatellites_prn i inside, if_pos first]
    omega
  have others_eq := twoSatellites_others 5
  obtain ⟨apart, found⟩ := sampled_separable twoSatellites 0 5
  generalize twoSatellites.sampled 0 5 = chan at *
  intro chan weight
  refine ⟨(apart.distinct 0 (by decide) 1 (by decide) (active 0 (by decide)) (active 1 (by decide))
    (by decide)).2, ?_⟩
  refine (found weight (fun i => 100 * i) 0 (by decide) (active 0 (by decide))).2 ?_
  rw [others_eq, Finset.sum_singleton]
  decide

end Navisim.Loop

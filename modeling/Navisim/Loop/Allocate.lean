import Navisim.Nav.Message
import Navisim.Signal.CodePhase

/-!
# Channel allocation

`checkSatVisibility` and `allocateChannel`: a visible satellite without a channel gets the first
free one, and a satellite that has set gives its channel back.  The orbits are a parameter: where
a satellite stands in the sky, and how far away it is.
-/

namespace Navisim.Loop

open Nav Signal

abbrev Position := ℚ × ℚ × ℚ

/-- What `satpos` and the geometry behind it tell about a satellite seen from a position. -/
structure Orbits where
  azel : Ephem ℚ → GpsTime ℚ → Position → ℚ × ℚ
  rho : Ephem ℚ → IonoUtc ℚ → GpsTime ℚ → Position → Range

/-- `computeRange`: the time of application is the time of reception. -/
def computeRange (orbits : Orbits) (eph : Ephem ℚ) (ionoutc : IonoUtc ℚ) (g : GpsTime ℚ)
    (xyz : Position) : Range :=
  { orbits.rho eph ionoutc g xyz with g := g }

def r2d : ℚ := 57.2957795131

def checkSatVisibility (orbits : Orbits) (eph : Ephem ℚ) (g : GpsTime ℚ) (xyz : Position)
    (elvMask : ℚ) : Int :=
  if eph.vflg ≠ 1 then -1 -- Invalid
  else if (orbits.azel eph g xyz).2 * r2d > elvMask then 1 -- Visible
  else 0 -- Invisible

/-- The channels and the satellite allocation flags. -/
structure Allocation where
  /-- Number of visible satellites. -/
  nsat : Nat
  chan : Nat → Channel
  allocatedSat : Nat → Int

/-- The first free channel. -/
def freeChannel (chan : Nat → Channel) : Option Nat :=
  (List.range maxChan).find? fun i => (chan i).prn = 0

section Allocate

variable (orbits : Orbits) (lambda : ℚ) (eph : Nat → Ephem ℚ) (ionoutc : IonoUtc ℚ)
  (grx : GpsTime ℚ) (xyz : Position)

/-- The initialisation of a channel for the satellite `sv`. -/
def initChannel (sv : Nat) (chan : Channel) : Channel :=
  let prn : Int := sv + 1
  let chan := { chan with
    prn := prn
    azel := orbits.azel (eph sv) grx xyz
    -- C/A code generation
    ca := codegen chan.ca prn
    -- Generate subframe
    sbf := eph2sbf (eph sv) ionoutc }
  -- Generate navigation message
  let chan := generateNavMsg grx chan 1
  -- Initialize pseudorange
  let rho := computeRange orbits (eph sv) ionoutc grx xyz
  -- Initialize carrier phase
  let rXyz := rho.range
  let rRef := (computeRange orbits (eph sv) ionoutc grx (0, 0, 0)).range
  let phaseIni := (2.0 * rRef - rXyz) / lambda
  { chan with
    rho0 := rho
    carrPhase := BitVec.ofInt 32 (trunc (512.0 * 65536.0 * (phaseIni - ⌊phaseIni⌋))) }

/-- A new satellite takes the first free channel, if there is one. -/
def allocateSat (sv : Nat) (s : Allocation) : Allocation :=
  match freeChannel s.chan with
  | some i => { s with
      chan := Function.update s.chan i
        (initChannel orbits lambda eph ionoutc grx xyz sv (s.chan i))
      allocatedSat := Function.update s.allocatedSat sv i }
  | none => s

/-- The channel of a satellite is cleared, and its allocation flag. -/
def clearSat (sv : Nat) (s : Allocation) : Allocation :=
  let i := (s.allocatedSat sv).toNat
  { s with
    chan := Function.update s.chan i { s.chan i with prn := 0 }
    allocatedSat := Function.update s.allocatedSat sv (-1) }

/-- One turn of the loop over the satellites. -/
def visitSat (sv : Nat) (s : Allocation) : Allocation :=
  if checkSatVisibility orbits (eph sv) grx xyz 0.0 = 1 then
    let s := { s with nsat := s.nsat + 1 }
    -- Visible but not allocated
    if s.allocatedSat sv = -1 then allocateSat orbits lambda eph ionoutc grx xyz sv s else s
  else
    -- Not visible but allocated
    if s.allocatedSat sv ≥ 0 then clearSat sv s else s

/-- The loop over the first `count` satellites. -/
def visitSats : Nat → Allocation → Allocation
  | 0, s => s
  | count + 1, s => visitSat orbits lambda eph ionoutc grx xyz count (visitSats count s)

def allocateChannel (chan : Nat → Channel) (allocatedSat : Nat → Int) : Allocation :=
  visitSats orbits lambda eph ionoutc grx xyz maxSat
    { nsat := 0, chan := chan, allocatedSat := allocatedSat }

end Allocate

/-! ## Free channels -/

theorem freeChannel_some {chan : Nat → Channel} {i : Nat} (found : freeChannel chan = some i) :
    i < maxChan ∧ (chan i).prn = 0 := by
  have member := List.mem_of_find?_eq_some found
  have free := List.find?_some found
  exact ⟨List.mem_range.mp member, by simpa using free⟩

/-! ## Consistent allocations -/

/-- The allocation flags and the channels name each other. -/
structure Allocation.Consistent (s : Allocation) : Prop where
  flag : ∀ sv < maxSat, -1 ≤ s.allocatedSat sv
  ofSat : ∀ sv < maxSat, ∀ i : Nat, s.allocatedSat sv = i →
    i < maxChan ∧ (s.chan i).prn = sv + 1
  ofChan : ∀ i < maxChan, (s.chan i).prn = 0 ∨
    ∃ sv < maxSat, (s.chan i).prn = sv + 1 ∧ s.allocatedSat sv = i

/-- No two satellites share a channel. -/
theorem Allocation.Consistent.sat_unique {s : Allocation} (consistent : s.Consistent)
    {sv sv' i : Nat} (inside : sv < maxSat) (inside' : sv' < maxSat)
    (allocated : s.allocatedSat sv = i) (allocated' : s.allocatedSat sv' = i) : sv = sv' := by
  have prn := (consistent.ofSat sv inside i allocated).2
  have prn' := (consistent.ofSat sv' inside' i allocated').2
  omega

section Step

variable {orbits : Orbits} {lambda : ℚ} {eph : Nat → Ephem ℚ} {ionoutc : IonoUtc ℚ}
  {grx : GpsTime ℚ} {xyz : Position} {s : Allocation} {sv : Nat}

@[simp] theorem initChannel_prn (chan : Channel) :
    (initChannel orbits lambda eph ionoutc grx xyz sv chan).prn = sv + 1 := rfl

/-- **What a turn can do**: leave everything, give a free channel to a satellite without one, or
clear the channel of a satellite. -/
theorem visitSat_cases (orbits : Orbits) (lambda : ℚ) (eph : Nat → Ephem ℚ) (ionoutc : IonoUtc ℚ)
    (grx : GpsTime ℚ) (xyz : Position) (sv : Nat) (s : Allocation) :
    ((visitSat orbits lambda eph ionoutc grx xyz sv s).chan = s.chan ∧
      (visitSat orbits lambda eph ionoutc grx xyz sv s).allocatedSat = s.allocatedSat) ∨
    (∃ i < maxChan, (s.chan i).prn = 0 ∧ s.allocatedSat sv = -1 ∧
      (visitSat orbits lambda eph ionoutc grx xyz sv s).chan = Function.update s.chan i
        (initChannel orbits lambda eph ionoutc grx xyz sv (s.chan i)) ∧
      (visitSat orbits lambda eph ionoutc grx xyz sv s).allocatedSat =
        Function.update s.allocatedSat sv i) ∨
    (∃ i : Nat, s.allocatedSat sv = i ∧
      (visitSat orbits lambda eph ionoutc grx xyz sv s).chan =
        Function.update s.chan i { s.chan i with prn := 0 } ∧
      (visitSat orbits lambda eph ionoutc grx xyz sv s).allocatedSat =
        Function.update s.allocatedSat sv (-1)) := by
  unfold visitSat
  split
  · dsimp only
    split
    · rename_i unallocated
      unfold allocateSat
      split
      · rename_i i found
        obtain ⟨inside, free⟩ := freeChannel_some found
        exact Or.inr (Or.inl ⟨i, inside, free, unallocated, rfl, rfl⟩)
      · exact Or.inl ⟨rfl, rfl⟩
    · exact Or.inl ⟨rfl, rfl⟩
  · split
    · rename_i allocated
      exact Or.inr (Or.inr ⟨(s.allocatedSat sv).toNat, (Int.toNat_of_nonneg allocated).symm,
        rfl, rfl⟩)
    · exact Or.inl ⟨rfl, rfl⟩

/-- Only the satellite numbers of the channels matter. -/
theorem Allocation.Consistent.congr {t : Allocation} (consistent : s.Consistent)
    (prn : ∀ i < maxChan, (t.chan i).prn = (s.chan i).prn)
    (flags : t.allocatedSat = s.allocatedSat) : t.Consistent := by
  refine ⟨?_, fun sv inside i allocated => ?_, fun i inside => ?_⟩
  · rw [flags]
    exact consistent.flag
  · rw [flags] at allocated
    obtain ⟨bound, same⟩ := consistent.ofSat sv inside i allocated
    exact ⟨bound, (prn i bound).trans same⟩
  · rw [prn i inside, flags]
    exact consistent.ofChan i inside

/-- A satellite without a channel takes a free one. -/
theorem Allocation.Consistent.take {t : Allocation} (consistent : s.Consistent)
    (inside : sv < maxSat) {i : Nat} (bound : i < maxChan) (free : (s.chan i).prn = 0)
    (unallocated : s.allocatedSat sv = -1) {c : Channel} (prn : c.prn = sv + 1)
    (chans : t.chan = Function.update s.chan i c)
    (flags : t.allocatedSat = Function.update s.allocatedSat sv i) : t.Consistent := by
  refine ⟨fun sv' inside' => ?_, fun sv' inside' j allocated => ?_, fun j bound' => ?_⟩
  · rw [flags]
    by_cases this : sv' = sv
    · rw [this, Function.update_self]
      omega
    · rw [Function.update_of_ne this]
      exact consistent.flag sv' inside'
  · rw [flags] at allocated
    rw [chans]
    by_cases this : sv' = sv
    · subst this
      rw [Function.update_self] at allocated
      obtain rfl : i = j := by omega
      rw [Function.update_self]
      exact ⟨bound, prn⟩
    · rw [Function.update_of_ne this] at allocated
      obtain ⟨bound', prn'⟩ := consistent.ofSat sv' inside' j allocated
      have other : j ≠ i := by
        intro same
        subst same
        omega
      rw [Function.update_of_ne other]
      exact ⟨bound', prn'⟩
  · rw [chans, flags]
    by_cases this : j = i
    · subst this
      rw [Function.update_self]
      exact Or.inr ⟨sv, inside, prn, Function.update_self ..⟩
    · rw [Function.update_of_ne this]
      rcases consistent.ofChan j bound' with idle | ⟨sv', inside', prn', allocated⟩
      · exact Or.inl idle
      · have other : sv' ≠ sv := by
          intro same
          subst same
          omega
        exact Or.inr ⟨sv', inside', prn', by rw [Function.update_of_ne other, allocated]⟩

/-- A satellite gives its channel back. -/
theorem Allocation.Consistent.clear {t : Allocation} (consistent : s.Consistent)
    (inside : sv < maxSat) {i : Nat} (allocated : s.allocatedSat sv = i) {c : Channel}
    (idle : c.prn = 0) (chans : t.chan = Function.update s.chan i c)
    (flags : t.allocatedSat = Function.update s.allocatedSat sv (-1)) : t.Consistent := by
  refine ⟨fun sv' inside' => ?_, fun sv' inside' j allocated' => ?_, fun j bound' => ?_⟩
  · rw [flags]
    by_cases this : sv' = sv
    · rw [this, Function.update_self]
    · rw [Function.update_of_ne this]
      exact consistent.flag sv' inside'
  · rw [flags] at allocated'
    rw [chans]
    by_cases this : sv' = sv
    · rw [this, Function.update_self] at allocated'
      omega
    · rw [Function.update_of_ne this] at allocated'
      have other : j ≠ i := by
        intro same
        subst same
        exact this (consistent.sat_unique inside' inside allocated' allocated)
      rw [Function.update_of_ne other]
      exact consistent.ofSat sv' inside' j allocated'
  · rw [chans, flags]
    by_cases this : j = i
    · subst this
      rw [Function.update_self]
      exact Or.inl idle
    · rw [Function.update_of_ne this]
      rcases consistent.ofChan j bound' with idle' | ⟨sv', inside', prn, allocated'⟩
      · exact Or.inl idle'
      · have other : sv' ≠ sv := by
          intro same
          subst same
          omega
        exact Or.inr ⟨sv', inside', prn, by rw [Function.update_of_ne other, allocated']⟩

theorem Allocation.Consistent.visitSat (consistent : s.Consistent) (inside : sv < maxSat) :
    (visitSat orbits lambda eph ionoutc grx xyz sv s).Consistent := by
  rcases visitSat_cases orbits lambda eph ionoutc grx xyz sv s with
    ⟨chans, flags⟩ | ⟨i, bound, free, unallocated, chans, flags⟩ | ⟨i, allocated, chans, flags⟩
  · exact consistent.congr (fun _ _ => by rw [chans]) flags
  · exact consistent.take inside bound free unallocated (initChannel_prn _) chans flags
  · exact consistent.clear inside allocated rfl chans flags

/-- What `allocateChannel` can do with a channel. -/
inductive Outcome (orbits : Orbits) (lambda : ℚ) (eph : Nat → Ephem ℚ) (ionoutc : IonoUtc ℚ)
    (grx : GpsTime ℚ) (xyz : Position) (before after : Channel) : Prop
  | kept (same : after = before)
  | cleared (idle : after.prn = 0)
  | initialised (sv : Nat) (chan : Channel) (inside : sv < maxSat) (new : before.prn ≠ sv + 1)
      (init : after = initChannel orbits lambda eph ionoutc grx xyz sv chan)

/-- The loop invariant: the flags of the satellites to come are untouched, and every channel has
one of the outcomes. -/
theorem visitSats_outcome (consistent : s.Consistent) {count : Nat} (inside : count ≤ maxSat) :
    (visitSats orbits lambda eph ionoutc grx xyz count s).Consistent ∧
      (∀ sv ≥ count, (visitSats orbits lambda eph ionoutc grx xyz count s).allocatedSat sv =
        s.allocatedSat sv) ∧
      ∀ i, Outcome orbits lambda eph ionoutc grx xyz (s.chan i)
        ((visitSats orbits lambda eph ionoutc grx xyz count s).chan i) := by
  induction count with
  | zero => exact ⟨consistent, fun _ _ => rfl, fun i => .kept rfl⟩
  | succ count ih =>
      obtain ⟨consistent', flags', outcome⟩ := ih (by omega)
      refine ⟨consistent'.visitSat (by omega), fun sv above => ?_, fun i => ?_⟩
      · rcases visitSat_cases orbits lambda eph ionoutc grx xyz count
          (visitSats orbits lambda eph ionoutc grx xyz count s) with
          ⟨-, flags⟩ | ⟨i, -, -, -, -, flags⟩ | ⟨i, -, -, flags⟩
        · rw [visitSats, flags, flags' sv (by omega)]
        · rw [visitSats, flags, Function.update_of_ne (by omega), flags' sv (by omega)]
        · rw [visitSats, flags, Function.update_of_ne (by omega), flags' sv (by omega)]
      · rcases visitSat_cases orbits lambda eph ionoutc grx xyz count
          (visitSats orbits lambda eph ionoutc grx xyz count s) with
          ⟨chans, -⟩ | ⟨j, bound, free, unallocated, chans, -⟩ | ⟨j, allocated, chans, -⟩
        · rw [visitSats, chans]
          exact outcome i
        · rw [visitSats, chans]
          by_cases this : i = j
          · subst this
            rw [Function.update_self]
            refine .initialised count _ (by omega) (fun before => ?_) rfl
            rcases consistent.ofChan i bound with idle | ⟨sv, inside', prn, allocated⟩
            · omega
            · -- The channel belonged to this satellite, whose flag is still the old one.
              obtain rfl : sv = count := by omega
              rw [flags' sv le_rfl] at unallocated
              omega
          · rw [Function.update_of_ne this]
            exact outcome i
        · rw [visitSats, chans]
          by_cases this : i = j
          · subst this
            rw [Function.update_self]
            exact .cleared rfl
          · rw [Function.update_of_ne this]
            exact outcome i

end Step

section Result

variable (orbits : Orbits) (lambda : ℚ) (eph : Nat → Ephem ℚ) (ionoutc : IonoUtc ℚ)
  (grx : GpsTime ℚ) (xyz : Position) {chan : Nat → Channel} {allocatedSat : Nat → Int}

theorem allocateChannel_consistent
    (consistent : Allocation.Consistent { nsat := 0, chan := chan, allocatedSat := allocatedSat }) :
    (allocateChannel orbits lambda eph ionoutc grx xyz chan allocatedSat).Consistent :=
  (visitSats_outcome consistent le_rfl).1

theorem allocateChannel_outcome
    (consistent : Allocation.Consistent { nsat := 0, chan := chan, allocatedSat := allocatedSat })
    (i : Nat) : Outcome orbits lambda eph ionoutc grx xyz (chan i)
      ((allocateChannel orbits lambda eph ionoutc grx xyz chan allocatedSat).chan i) :=
  (visitSats_outcome consistent le_rfl).2.2 i

end Result

end Navisim.Loop

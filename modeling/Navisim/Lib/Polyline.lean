import Mathlib.Algebra.Order.Field.Basic
import Mathlib.Algebra.Order.Module.Defs
import Mathlib.Tactic

/-!
# Paths through timed points

Points with times, and the search for the first leg that contains a given time.  The times need
no order: if the time lies between the first and the last of them, some leg contains it
(`exists_findLeg`), because the times step over it somewhere.  On a leg that contains a time the
duration is positive, so the point on it is a convex combination of its ends (`onLeg_convex`).

If the times increase, there is exactly one path that passes the points at their times and is
straight in between (`polyline_isPath`, `IsPath.eq`).
-/

namespace Navisim.Polyline

variable {K V : Type*}

/-- The time lies in leg `i`, from its start up to its end. -/
def InLeg [LinearOrder K] (time : Nat → K) (t : K) (i : Nat) : Prop :=
  time i ≤ t ∧ t < time (i + 1)

instance [LinearOrder K] (time : Nat → K) (t : K) (i : Nat) : Decidable (InLeg time t i) :=
  inferInstanceAs (Decidable (_ ∧ _))

/-- The first of the `left` legs from leg `i` on that contains the time. -/
def findLeg [LinearOrder K] (time : Nat → K) (t : K) : Nat → Nat → Option Nat
  | 0, _ => none
  | left + 1, i => if InLeg time t i then some i else findLeg time t left (i + 1)

section Search

variable [LinearOrder K] {time : Nat → K} {t : K} {left i k : Nat}

theorem findLeg_sound (found : findLeg time t left i = some k) :
    i ≤ k ∧ k < i + left ∧ InLeg time t k := by
  induction left generalizing i with
  | zero => cases found
  | succ left ih =>
      unfold findLeg at found
      split at found
      · rename_i here
        cases found
        exact ⟨le_rfl, by omega, here⟩
      · obtain ⟨low, high, inLeg⟩ := ih found
        exact ⟨by omega, by omega, inLeg⟩

/-- **Some leg contains the time.** -/
theorem exists_findLeg (start : time i ≤ t) (stop : t < time (i + left)) :
    ∃ k, findLeg time t left i = some k := by
  induction left generalizing i with
  | zero => exact absurd stop (not_lt.mpr start)
  | succ left ih =>
      unfold findLeg
      split
      · exact ⟨i, rfl⟩
      · rename_i outside
        -- The leg has begun, so it is over.
        have past : time (i + 1) ≤ t := not_lt.mp fun inside => outside ⟨start, inside⟩
        exact ih past (by rwa [show i + 1 + left = i + (left + 1) by omega])

/-- Each of the `n` legs takes some time. -/
def Increasing (n : Nat) (time : Nat → K) : Prop :=
  ∀ i < n, time i < time (i + 1)

theorem Increasing.le {n a b : Nat} (increasing : Increasing n time) (order : a ≤ b)
    (last : b ≤ n) : time a ≤ time b := by
  induction b, order using Nat.le_induction with
  | base => exact le_rfl
  | succ b _ ih => exact (ih (by omega)).trans (increasing b (by omega)).le

/-- Between increasing times there is one leg. -/
theorem InLeg.unique {n k' : Nat} (increasing : Increasing n time) (low : k < n)
    (low' : k' < n) (here : InLeg time t k) (here' : InLeg time t k') : k = k' := by
  rcases Nat.lt_trichotomy k k' with before | same | after
  · exact absurd (here.2.trans_le (increasing.le before low'.le)) (not_lt.mpr here'.1)
  · exact same
  · exact absurd (here'.2.trans_le (increasing.le after low.le)) (not_lt.mpr here.1)

theorem findLeg_eq {n : Nat} (increasing : Increasing n time) (leg : k < n)
    (here : InLeg time t k) : findLeg time t n 0 = some k := by
  have stop : t < time (0 + n) := by
    rw [zero_add]
    exact here.2.trans_le (increasing.le leg le_rfl)
  obtain ⟨k', found⟩ := exists_findLeg ((increasing.le (Nat.zero_le k) leg.le).trans here.1) stop
  obtain ⟨-, leg', here'⟩ := findLeg_sound found
  rw [found, InLeg.unique increasing leg (by omega) here here']

theorem findLeg_end {n : Nat} (increasing : Increasing n time) :
    findLeg time (time n) n 0 = none := by
  cases found : findLeg time (time n) n 0 with
  | none => rfl
  | some k =>
      obtain ⟨-, leg, here⟩ := findLeg_sound found
      exact absurd here.2 (not_lt.mpr (increasing.le (by omega) le_rfl))

end Search

/-! ## The points of a leg -/

section Legs

variable [Field K] [AddCommGroup V] [Module K V] {time : Nat → K} {point : Nat → V} {t : K}
  {i n : Nat}

/-- The part of leg `i` that is past. -/
def weight (time : Nat → K) (t : K) (i : Nat) : K :=
  (t - time i) / (time (i + 1) - time i)

def onLeg (time : Nat → K) (point : Nat → V) (t : K) (i : Nat) : V :=
  point i + weight time t i • (point (i + 1) - point i)

/-- The point of a leg lies between its ends. -/
theorem onLeg_convex (time : Nat → K) (point : Nat → V) (t : K) (i : Nat) :
    onLeg time point t i =
      (1 - weight time t i) • point i + weight time t i • point (i + 1) := by
  rw [onLeg]
  module

theorem onLeg_start (time : Nat → K) (point : Nat → V) (i : Nat) :
    onLeg time point (time i) i = point i := by
  rw [onLeg, weight, sub_self, zero_div, zero_smul, add_zero]

/-- The points of a leg, as a start and a velocity. -/
theorem onLeg_straight (time : Nat → K) (point : Nat → V) (t : K) (i : Nat) :
    onLeg time point t i =
      (point i - (time i / (time (i + 1) - time i)) • (point (i + 1) - point i)) +
        t • (1 / (time (i + 1) - time i)) • (point (i + 1) - point i) := by
  rw [onLeg, weight, sub_div, smul_smul, mul_one_div]
  module

variable [LinearOrder K]

/-- The points of the legs, and the last point outside them. -/
def polyline (n : Nat) (time : Nat → K) (point : Nat → V) (t : K) : V :=
  match findLeg time t n 0 with
  | some i => onLeg time point t i
  | none => point n

theorem polyline_eq (increasing : Increasing n time) (leg : i < n) (here : InLeg time t i) :
    polyline n time point t = onLeg time point t i := by
  rw [polyline, findLeg_eq increasing leg here]

theorem polyline_through (increasing : Increasing n time) (inside : i ≤ n) :
    polyline n time point (time i) = point i := by
  rcases Nat.lt_or_eq_of_le inside with leg | rfl
  · rw [polyline_eq increasing leg ⟨le_rfl, increasing i leg⟩, onLeg_start]
  · rw [polyline, findLeg_end increasing]

variable [IsStrictOrderedRing K]

theorem InLeg.duration_pos (here : InLeg time t i) : 0 < time (i + 1) - time i :=
  sub_pos.mpr (here.1.trans_lt here.2)

theorem InLeg.weight_bounds (here : InLeg time t i) :
    0 ≤ weight time t i ∧ weight time t i < 1 := by
  have duration := here.duration_pos
  constructor
  · exact div_nonneg (sub_nonneg.mpr here.1) duration.le
  · rw [weight, div_lt_one duration]
    exact sub_lt_sub_right here.2 _

theorem onLeg_end (positive : time i < time (i + 1)) :
    onLeg time point (time (i + 1)) i = point (i + 1) := by
  rw [onLeg, weight, div_self (sub_pos.mpr positive).ne', one_smul, add_sub_cancel]

/-! ## Paths -/

/-- The path passes the `n + 1` points at their times and is straight on each of the `n` legs. -/
structure IsPath (n : Nat) (time : Nat → K) (point : Nat → V) (path : K → V) : Prop where
  through : ∀ i ≤ n, path (time i) = point i
  straight : ∀ i < n, ∃ start velocity : V, ∀ t, time i ≤ t → t ≤ time (i + 1) →
    path t = start + t • velocity

/-- A path is on each leg where the leg is. -/
theorem IsPath.eq_onLeg {path : K → V} (isPath : IsPath n time point path) (leg : i < n)
    (here : InLeg time t i) : path t = onLeg time point t i := by
  obtain ⟨start, velocity, straight⟩ := isPath.straight i leg
  have duration := here.duration_pos
  have first := isPath.through i leg.le
  have last := isPath.through (i + 1) leg
  rw [straight _ le_rfl (sub_pos.mp duration).le] at first
  rw [straight _ (sub_pos.mp duration).le le_rfl] at last
  have whole : weight time t i * (time (i + 1) - time i) = t - time i :=
    div_mul_cancel₀ _ duration.ne'
  rw [straight t here.1 here.2.le, onLeg, ← first, ← last]
  calc start + t • velocity
      = start + time i • velocity + (t - time i) • velocity := by module
    _ = start + time i • velocity + (weight time t i * (time (i + 1) - time i)) • velocity := by
        rw [whole]
    _ = start + time i • velocity +
          weight time t i • (start + time (i + 1) • velocity - (start + time i • velocity)) := by
        module

/-- **There is a path** if the times increase. -/
theorem polyline_isPath (increasing : Increasing n time) :
    IsPath n time point (polyline n time point) := by
  refine ⟨fun i inside => polyline_through increasing inside, ?_⟩
  intro i leg
  refine ⟨point i - (time i / (time (i + 1) - time i)) • (point (i + 1) - point i),
    (1 / (time (i + 1) - time i)) • (point (i + 1) - point i), fun t low high => ?_⟩
  rw [← onLeg_straight]
  rcases lt_or_eq_of_le high with within | rfl
  · exact polyline_eq increasing leg ⟨low, within⟩
  · rw [polyline_through increasing leg, onLeg_end (increasing i leg)]

/-- **There is no other path**, from the first time to the last. -/
theorem IsPath.eq_polyline {path : K → V} (isPath : IsPath n time point path)
    (start : time 0 ≤ t) (stop : t ≤ time n) : path t = polyline n time point t := by
  unfold polyline
  cases found : findLeg time t n 0 with
  | some i =>
      obtain ⟨-, leg, here⟩ := findLeg_sound found
      exact isPath.eq_onLeg (by omega) here
  | none =>
      rcases lt_or_eq_of_le stop with before | rfl
      · obtain ⟨i, leg⟩ := exists_findLeg start (by rwa [zero_add])
        rw [found] at leg
        cases leg
      · exact isPath.through n le_rfl

end Legs

end Navisim.Polyline

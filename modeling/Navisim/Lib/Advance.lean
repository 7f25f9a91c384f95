import Mathlib.Tactic

/-!
# An index that advances by one

At every step the index moves to the next item if that item is due.  Items that are due once
stay due.  Then the step at which the index has reached an item is known without running it
(`le_advance_iff`): the items before it must each have been due early enough.

If the items have times, and one is due when its time is near enough, the index keeps up with
them: no item comes before the step that moves on to it, and the item of the index is never far
from the time of the step (`InStep.move`).
-/

namespace Navisim.Advance

/-- The index after `j` steps; `due k j` says that item `k` is due in step `j`. -/
def advance (due : Nat → Nat → Bool) : Nat → Nat
  | 0 => 0
  | j + 1 => if due (advance due j + 1) (j + 1) then advance due j + 1 else advance due j

/-- Every item up to `k` is due in time for item `k` to be reached after `j` steps. -/
def InTime (due : Nat → Nat → Bool) (k j : Nat) : Prop :=
  k ≤ j ∧ ∀ l, l < k → due (l + 1) (j - (k - (l + 1))) = true

variable {due : Nat → Nat → Bool} {j k : Nat}

theorem inTime_succ :
    InTime due (k + 1) (j + 1) ↔ InTime due k j ∧ due (k + 1) (j + 1) = true := by
  constructor
  · intro both
    rcases both with ⟨enough, items⟩
    refine ⟨⟨by omega, fun l below => ?_⟩, ?_⟩
    · have item := items l (by omega)
      rwa [show j + 1 - (k + 1 - (l + 1)) = j - (k - (l + 1)) by omega] at item
    · simpa using items k (by omega)
  · intro all
    rcases all with ⟨⟨enough, items⟩, last⟩
    refine ⟨by omega, fun l below => ?_⟩
    rcases Nat.lt_succ_iff_lt_or_eq.mp below with earlier | rfl
    · rw [show j + 1 - (k + 1 - (l + 1)) = j - (k - (l + 1)) by omega]
      exact items l earlier
    · simpa using last

theorem due_mono (stays : ∀ k j, due k j = true → due k (j + 1) = true) {j' : Nat}
    (later : j ≤ j') (item : due k j = true) : due k j' = true := by
  induction j', later using Nat.le_induction with
  | base => exact item
  | succ j' _ ih => exact stays k j' ih

/-- An earlier item is reached earlier. -/
theorem InTime.of_le (stays : ∀ k j, due k j = true → due k (j + 1) = true) {k' : Nat}
    (inTime : InTime due k j) (earlier : k' ≤ k) : InTime due k' j := by
  obtain ⟨enough, items⟩ := inTime
  exact ⟨by omega, fun l below => due_mono stays (by omega) (items l (by omega))⟩

/-- An item that is reached in time is reached in more time. -/
theorem InTime.mono (stays : ∀ k j, due k j = true → due k (j + 1) = true) {j' : Nat}
    (inTime : InTime due k j) (later : j ≤ j') : InTime due k j' := by
  obtain ⟨enough, items⟩ := inTime
  exact ⟨by omega, fun l below => due_mono stays (by omega) (items l below)⟩

/-- **When the index has reached an item.** -/
theorem le_advance_iff (stays : ∀ k j, due k j = true → due k (j + 1) = true) :
    k ≤ advance due j ↔ InTime due k j := by
  induction j generalizing k with
  | zero =>
      constructor
      · intro reached
        obtain rfl : k = 0 := Nat.le_zero.mp reached
        exact ⟨le_rfl, fun l below => absurd below (Nat.not_lt_zero l)⟩
      · exact fun inTime => inTime.1
  | succ j ih =>
      have here : InTime due (advance due j) j := ih.mp le_rfl
      rw [advance]
      split
      · rename_i next
        constructor
        · intro reached
          exact (inTime_succ.mpr ⟨here, next⟩).of_le stays reached
        · intro inTime
          -- One step moves the index by one at most.
          cases k with
          | zero => omega
          | succ k =>
              have before := ih.mpr (inTime_succ.mp inTime).1
              omega
      · rename_i next
        constructor
        · exact fun reached => (ih.mp reached).mono stays (Nat.le_succ j)
        · intro inTime
          by_contra beyond
          have stuck : InTime due (advance due j + 1) (j + 1) := inTime.of_le stays (by omega)
          exact next (inTime_succ.mp stuck).2

/-! ## Items with times -/

section Times

variable {α : Type*} [AddCommGroup α] [LinearOrder α] [IsOrderedAddMonoid α]

/-- The times of `count` items, at least `period` and at most `gap` apart. -/
def Spaced (time : Nat → α) (count : Nat) (period gap : α) : Prop :=
  ∀ k, k + 1 < count → time k + period ≤ time (k + 1) ∧ time (k + 1) ≤ time k + gap

/-- Before the step at `now` the next item has not passed by, but for an error. -/
structure InStep (time : Nat → α) (count : Nat) (error : α) (k : Nat) (now : α) : Prop where
  inside : k < count
  next : k + 1 < count → now ≤ time (k + 1) + error

/-- The index behind a step at `now`, where an item is due less than `window` before its time. -/
def move (time : Nat → α) (count : Nat) (window now : α) (k : Nat) : Nat :=
  if k + 1 < count ∧ time (k + 1) < now + window then k + 1 else k

/-- **The item of the index stays near**, and no item is missed. -/
theorem InStep.move {time : Nat → α} {count : Nat} {period gap error window now : α}
    (spaced : Spaced time count period gap) (wide : gap ≤ window + window)
    (steps : period ≤ window) (small : error ≤ window) (nonneg : 0 ≤ error)
    (inStep : InStep time count error k now) (near : time k < now + window) :
    InStep time count error (move time count window now k) (now + period) ∧
      time (Advance.move time count window now k) < now + window ∧
      (Advance.move time count window now k + 1 < count →
        now ≤ time (Advance.move time count window now k) + window) := by
  unfold Advance.move
  by_cases due : k + 1 < count ∧ time (k + 1) < now + window
  · rw [if_pos due]
    have first := inStep.next due.1
    refine ⟨⟨due.1, fun more => ?_⟩, due.2, fun _ => first.trans (by gcongr)⟩
    calc now + period ≤ time (k + 1) + error + period := by gcongr
      _ = time (k + 1) + period + error := by abel
      _ ≤ time (k + 1 + 1) + error := by
          gcongr
          exact (spaced (k + 1) more).1
  · rw [if_neg due]
    have late : k + 1 < count → now + window ≤ time (k + 1) := fun more =>
      not_lt.mp fun early => due ⟨more, early⟩
    refine ⟨⟨inStep.inside, fun more => ?_⟩, near, fun more => ?_⟩
    · calc now + period ≤ now + window := by gcongr
        _ ≤ time (k + 1) := late more
        _ ≤ time (k + 1) + error := le_add_of_nonneg_right nonneg
    · have far : now + window ≤ time k + (window + window) := calc
        now + window ≤ time (k + 1) := late more
        _ ≤ time k + gap := (spaced k more).2
        _ ≤ time k + (window + window) := by gcongr
      rwa [← add_assoc, add_le_add_iff_right] at far

end Times

end Navisim.Advance

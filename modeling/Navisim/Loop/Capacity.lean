import Navisim.Lib.Store
import Navisim.Loop.Calls

/-!
# Free channels

The number of free channels, through the turns of a call, is the level of a store that setting
satellites fill and rising ones draw from.  So a call leaves a visible satellite without a channel
while a channel is free exactly if its satellites come in the wrong order (`no_waste_iff`).
-/

namespace Navisim.Loop

open Finset

def freeChannels (chan : Nat → Channel) : Finset Nat :=
  (range maxChan).filter fun i => (chan i).prn = 0

/-- A satellite that is visible and has no channel when the call comes. -/
def Call.Rises (call : Call) (s : Allocation) (sv : Nat) : Prop :=
  call.Visible sv ∧ s.allocatedSat sv = -1

/-- A satellite that has a channel when the call comes and is not visible any more. -/
def Call.Sets (call : Call) (s : Allocation) (sv : Nat) : Prop :=
  ¬ call.Visible sv ∧ 0 ≤ s.allocatedSat sv

instance (call : Call) (s : Allocation) : DecidablePred (call.Rises s) :=
  fun _ => inferInstanceAs (Decidable (_ ∧ _))

instance (call : Call) (s : Allocation) : DecidablePred (call.Sets s) :=
  fun _ => inferInstanceAs (Decidable (_ ∧ _))

/-- What the turn of a satellite adds to the free channels. -/
def Call.move (call : Call) (s : Allocation) (sv : Nat) : Int :=
  (if call.Sets s sv then 1 else 0) - (if call.Rises s sv then 1 else 0)

/-- No satellite is without a channel while a channel is free. -/
def Call.NoWaste (call : Call) (s : Allocation) : Prop :=
  (∃ sv < maxSat, call.Visible sv ∧ ∀ i < maxChan, (s.chan i).prn ≠ sv + 1) →
    ∀ i < maxChan, (s.chan i).prn ≠ 0

/-- More of the first satellites rise than there are channels, those of the first satellites that
set included; and more of the last satellites set than rise. -/
def Call.Misordered (call : Call) (s : Allocation) : Prop :=
  (∃ k ≤ maxSat, (freeChannels s.chan).card + ((range k).filter (call.Sets s)).card <
      ((range k).filter (call.Rises s)).card) ∧
    ∃ k ≤ maxSat, ((Ico k maxSat).filter (call.Rises s)).card <
      ((Ico k maxSat).filter (call.Sets s)).card

/-! ## The free channels of an update -/

section Update

variable {chan : Nat → Channel} {i : Nat} {c : Channel}

theorem mem_freeChannels : i ∈ freeChannels chan ↔ i < maxChan ∧ (chan i).prn = 0 := by
  rw [freeChannels, mem_filter, mem_range]

theorem freeChannels_take (inside : i < maxChan) (free : (chan i).prn = 0) (busy : c.prn ≠ 0) :
    (freeChannels (Function.update chan i c)).card + 1 = (freeChannels chan).card := by
  have erased : freeChannels (Function.update chan i c) = (freeChannels chan).erase i := by
    ext j
    rw [mem_erase, mem_freeChannels, mem_freeChannels]
    by_cases here : j = i
    · subst here
      rw [Function.update_self]
      exact iff_of_false (fun both => busy both.2) (fun both => both.1 rfl)
    · rw [Function.update_of_ne here]
      exact (and_iff_right here).symm
  rw [erased]
  exact card_erase_add_one (mem_freeChannels.mpr ⟨inside, free⟩)

theorem freeChannels_clear (inside : i < maxChan) (busy : (chan i).prn ≠ 0) (free : c.prn = 0) :
    (freeChannels (Function.update chan i c)).card = (freeChannels chan).card + 1 := by
  have inserted : freeChannels (Function.update chan i c) = insert i (freeChannels chan) := by
    ext j
    rw [mem_insert, mem_freeChannels, mem_freeChannels]
    by_cases here : j = i
    · subst here
      rw [Function.update_self]
      exact iff_of_true ⟨inside, free⟩ (Or.inl rfl)
    · rw [Function.update_of_ne here]
      exact (or_iff_right here).symm
  rw [inserted]
  exact card_insert_of_notMem fun member => busy (mem_freeChannels.mp member).2

theorem freeChannels_eq_zero : (freeChannels chan).card = 0 ↔ ∀ i < maxChan, (chan i).prn ≠ 0 := by
  rw [card_eq_zero, eq_empty_iff_forall_notMem]
  simp only [mem_freeChannels, not_and, ne_eq]

end Update

/-! ## The level of free channels -/

section Level

variable {call : Call} {s : Allocation} {sv count : Nat}

theorem move_of_rising (visible : call.Visible sv) (rising : s.allocatedSat sv = -1) :
    call.move s sv = -1 := by
  have rises : call.Rises s sv := ⟨visible, rising⟩
  have stays : ¬ call.Sets s sv := fun sets => sets.1 visible
  rw [Call.move, if_neg stays, if_pos rises]
  rfl

theorem move_of_visible (visible : call.Visible sv) (allocated : s.allocatedSat sv ≠ -1) :
    call.move s sv = 0 := by
  have stays : ¬ call.Sets s sv := fun sets => sets.1 visible
  rw [Call.move, if_neg stays, if_neg fun rises => allocated rises.2]
  rfl

theorem move_of_setting (hidden : ¬ call.Visible sv) (allocated : 0 ≤ s.allocatedSat sv) :
    call.move s sv = 1 := by
  have sets : call.Sets s sv := ⟨hidden, allocated⟩
  rw [Call.move, if_pos sets, if_neg fun rises => hidden rises.1]
  rfl

theorem move_of_absent (hidden : ¬ call.Visible sv) (unallocated : s.allocatedSat sv < 0) :
    call.move s sv = 0 := by
  rw [Call.move, if_neg fun sets => absurd sets.2 (by omega), if_neg fun rises => hidden rises.1]
  rfl

/-- The number of free channels after some turns. -/
abbrev Call.level (call : Call) (s : Allocation) (count : Nat) : Int :=
  Store.level (call.move s) (freeChannels s.chan).card count

theorem freeChannels_visits (consistent : s.Consistent) (inside : count ≤ maxSat) :
    ((freeChannels (call.visits count s).chan).card : Int) = call.level s count := by
  induction count with
  | zero => rfl
  | succ count ih =>
      have before := ih (by omega)
      have ahead : (call.visits count s).allocatedSat count = s.allocatedSat count :=
        visits_ahead le_rfl
      have consistent' : (call.visits count s).Consistent :=
        visits_consistent consistent (by omega)
      have visit := @visit_visits call s count
      rw [Call.level, Store.level, ← Call.level, ← before]
      generalize call.visits count s = a at *
      generalize call.visits (count + 1) s = b at *
      cases visit with
      | kept visible allocated =>
          rw [move_of_visible visible (by omega)]
          dsimp only
          omega
      | taken i visible rising bound free =>
          have fewer := freeChannels_take (c := call.init count (a.chan i)) bound free (by
            rw [Call.init, initChannel_prn]
            omega)
          rw [move_of_rising visible (by omega)]
          dsimp only
          omega
      | refused visible rising full =>
          have none := freeChannels_eq_zero.mpr full
          rw [move_of_rising visible (by omega)]
          dsimp only
          omega
      | cleared i hidden allocated =>
          obtain ⟨bound, prn⟩ := consistent'.ofSat count (by omega) i allocated
          have busy : (a.chan i).prn ≠ 0 := by
            rw [prn]
            omega
          have more := freeChannels_clear (c := { a.chan i with prn := 0 }) bound busy rfl
          rw [move_of_setting hidden (by omega), more]
          omega
      | absent hidden unallocated =>
          rw [move_of_absent hidden (by omega)]
          omega

/-- A satellite in view is left without a channel exactly if none is free at its turn. -/
theorem unallocated_iff_refused (consistent : s.Consistent) (inside : sv < maxSat) :
    call.Visible sv ∧ (call.visits maxSat s).allocatedSat sv = -1 ↔
      Store.Refused (call.move s) (freeChannels s.chan).card sv := by
  have ahead : (call.visits sv s).allocatedSat sv = s.allocatedSat sv := visits_ahead le_rfl
  have free : ((freeChannels (call.visits sv s).chan).card : Int) = call.level s sv :=
    freeChannels_visits consistent (by omega)
  have visit := @visit_visits call s sv
  rw [visits_behind inside, Store.Refused, ← Call.level, ← free]
  generalize call.visits sv s = a at *
  generalize call.visits (sv + 1) s = b at *
  cases visit with
  | kept visible allocated =>
      rw [move_of_visible visible (by omega)]
      exact iff_of_false (fun left => allocated left.2) (by omega)
  | taken i visible rising bound free' =>
      have some_free : 0 < (freeChannels a.chan).card :=
        card_pos.mpr ⟨i, mem_freeChannels.mpr ⟨bound, free'⟩⟩
      dsimp only
      rw [move_of_rising visible (by omega), Function.update_self]
      exact iff_of_false (fun left => absurd left.2 (by omega)) (by omega)
  | refused visible rising full =>
      have none := freeChannels_eq_zero.mpr full
      rw [move_of_rising visible (by omega)]
      exact iff_of_true ⟨visible, rising⟩ (by omega)
  | cleared i hidden allocated =>
      rw [move_of_setting hidden (by omega)]
      exact iff_of_false (fun left => hidden left.1) (by omega)
  | absent hidden unallocated =>
      rw [move_of_absent hidden (by omega)]
      exact iff_of_false (fun left => hidden left.1) (by omega)

/-! ## Rising and setting satellites -/

theorem sum_move (call : Call) (s : Allocation) (turns : Finset Nat) :
    ∑ sv ∈ turns, call.move s sv =
      ((turns.filter (call.Sets s)).card : Int) - (turns.filter (call.Rises s)).card := by
  simp only [Call.move, sum_sub_distrib, card_filter]
  push_cast
  rfl

theorem misordered_iff (call : Call) (s : Allocation) : call.Misordered s ↔
    (∃ k ≤ maxSat, ((freeChannels s.chan).card : Int) + Store.total (call.move s) k < 0) ∧
      ∃ k ≤ maxSat, Store.total (call.move s) k < Store.total (call.move s) maxSat := by
  refine and_congr (exists_congr fun k => and_congr_right fun _ => ?_)
    (exists_congr fun k => and_congr_right fun before => ?_)
  · rw [Store.total, sum_move]
    omega
  · have rest := sum_range_add_sum_Ico (call.move s) before
    rw [sum_move call s (Ico k maxSat)] at rest
    unfold Store.total
    omega

theorem Allocation.Consistent.unallocated_iff (consistent : s.Consistent) (inside : sv < maxSat) :
    s.allocatedSat sv = -1 ↔ ∀ i < maxChan, (s.chan i).prn ≠ sv + 1 := by
  constructor
  · intro unallocated i bound prn
    have allocated := (consistent.inverse inside i).mpr ⟨⟨by omega, by omega⟩, prn⟩
    omega
  · intro missing
    by_contra allocated
    have flag := consistent.flag sv inside
    obtain ⟨bound, prn⟩ := consistent.ofSat sv inside (s.allocatedSat sv).toNat (by omega)
    exact missing _ bound prn

end Level

/-- **When a call wastes no channel**: after every call of every run, a satellite in view is
without a channel only while all channels are busy, exactly if the call does not find its
satellites in the wrong order. -/
theorem no_waste_iff (calls : Nat → Call) {start : Allocation} (free : start.Free) (n : Nat) :
    (calls n).NoWaste (afterCalls calls start (n + 1)) ↔
      ¬ (calls n).Misordered (afterCalls calls start n) := by
  have consistent : (afterCalls calls start n).Consistent := afterCalls_consistent free n
  have after : (afterCalls calls start (n + 1)).Consistent := afterCalls_consistent free (n + 1)
  generalize start_of : afterCalls calls start n = s at *
  have found : ((calls n).found s).Consistent := Call.found_consistent consistent
  have result : afterCalls calls start (n + 1) =
      (calls n).visits maxSat ((calls n).found s) := by rw [← start_of]; rfl
  have same : freeChannels ((calls n).found s).chan = freeChannels s.chan := by
    ext i
    rw [mem_freeChannels, mem_freeChannels, Call.found, (calls n).between_prn]
  have moves : (calls n).move ((calls n).found s) = (calls n).move s := rfl
  have level := @Store.refused_and_left_iff ((calls n).move s) _ maxSat
    (Int.natCast_nonneg (freeChannels s.chan).card)
  rw [misordered_iff, ← level]
  rw [result] at after ⊢
  have busy : ((freeChannels ((calls n).visits maxSat ((calls n).found s)).chan).card : Int) =
      (calls n).level ((calls n).found s) maxSat := freeChannels_visits found le_rfl
  rw [Call.level, same, moves] at busy
  constructor
  · intro noWaste both
    rcases both with ⟨⟨sv, inside, refused⟩, left⟩
    obtain ⟨visible, unallocated⟩ := (@unallocated_iff_refused (calls n) _ sv found inside).mpr
      (by rwa [same, moves])
    have full := noWaste ⟨sv, inside, visible, (after.unallocated_iff inside).mp unallocated⟩
    have none := freeChannels_eq_zero.mpr full
    omega
  · intro ordered wasted
    rcases wasted with ⟨sv, inside, visible, missing⟩
    apply freeChannels_eq_zero.mp
    by_contra left
    have refused := (@unallocated_iff_refused (calls n) _ sv found inside).mp
      ⟨visible, (after.unallocated_iff inside).mpr missing⟩
    rw [same, moves] at refused
    exact ordered ⟨⟨sv, inside, refused⟩, by omega⟩

theorem no_waste_iff_risingAndSetting :
    (risingAndSetting 0).NoWaste (afterCalls risingAndSetting freeTables 1) ↔
      ¬ (risingAndSetting 0).Misordered freeTables :=
  no_waste_iff risingAndSetting freeTables_free 0

/-- **A channel is wasted**: satellite 1 rises when all channels are busy, satellite 13 sets in the
same call, and its channel stays free. -/
theorem channel_wasted :
    freeTables.Free ∧ (risingAndSetting 1).Visible 0 ∧
      (∀ i < maxChan, ((afterCalls risingAndSetting freeTables 2).chan i).prn ≠ 1) ∧
      ((afterCalls risingAndSetting freeTables 2).chan 11).prn = 0 ∧
      ¬ (risingAndSetting 1).NoWaste (afterCalls risingAndSetting freeTables 2) := by
  have visible : (risingAndSetting 1).Visible 0 := by decide +kernel
  have missing : ∀ i < maxChan,
      ((afterCalls risingAndSetting freeTables 2).chan i).prn ≠ 1 := by decide +kernel
  have free : ((afterCalls risingAndSetting freeTables 2).chan 11).prn = 0 := by decide +kernel
  refine ⟨freeTables_free, visible, missing, free, fun noWaste => ?_⟩
  exact noWaste ⟨0, by decide, visible, missing⟩ 11 (by decide) free

end Navisim.Loop

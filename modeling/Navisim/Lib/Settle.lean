import Mathlib.Analysis.SpecificLimits.Basic
import Mathlib.Order.Iterate
import Mathlib.Tactic

/-!
# Loops that settle

A loop replaces a value by the next one until the two are close.  It ends if the values that it
would go through come close at some place (`exists_settle`), as they do when they only rise or only
fall inside bounds (`exists_close_of_ordered`), and when they tend to a limit
(`exists_close_of_tendsto`), for example because each turn brings them nearer to it
(`tendsto_of_contracts`).
-/

namespace Navisim.Settle

open Filter Topology

/-! ## The loop -/

section Loop

variable {α β : Type*} {turn : α → Option β} {next : β → α} {close : α → α → Prop}
  [DecidableRel close] {x : Nat → α} {result : Nat → β} {k n : Nat}

/-- The loop, in at most `n` turns; a turn may fail. -/
def settle (turn : α → Option β) (next : β → α) (close : α → α → Prop) [DecidableRel close] :
    Nat → α → Option β
  | 0, _ => none
  | n + 1, x => (turn x).bind fun result =>
      if close x (next result) then some result else settle turn next close n (next result)

/-- What the loop would go through if it did not end: no turn fails. -/
structure Values (turn : α → Option β) (next : β → α) (x : Nat → α) (result : Nat → β) : Prop where
  turn_eq : ∀ k, turn (x k) = some (result k)
  next_eq : ∀ k, next (result k) = x (k + 1)

/-- The values from the next turn on. -/
theorem Values.tail (values : Values turn next x result) :
    Values turn next (fun k => x (k + 1)) fun k => result (k + 1) :=
  ⟨fun k => values.turn_eq (k + 1), fun k => values.next_eq (k + 1)⟩

/-- The loop ends where the values are close for the first time. -/
theorem settle_of_first (values : Values turn next x result) (here : close (x k) (x (k + 1)))
    (before : ∀ j < k, ¬ close (x j) (x (j + 1))) (enough : k < n) :
    settle turn next close n (x 0) = some (result k) := by
  induction k generalizing x result n with
  | zero =>
      obtain ⟨n, rfl⟩ := Nat.exists_eq_succ_of_ne_zero enough.ne'
      rw [settle, values.turn_eq, Option.bind_some, values.next_eq, if_pos here]
  | succ k ih =>
      obtain ⟨n, rfl⟩ := Nat.exists_eq_succ_of_ne_zero (Nat.ne_of_gt (Nat.zero_lt_of_lt enough))
      rw [settle, values.turn_eq, Option.bind_some, values.next_eq,
        if_neg (before 0 (Nat.succ_pos k))]
      exact ih values.tail here (fun j below => before (j + 1) (Nat.succ_lt_succ below))
        (Nat.lt_of_succ_lt_succ enough)

/-- **The loop ends** if the values come close at some place, and its result is then the same
however many more turns are allowed. -/
theorem exists_settle (values : Values turn next x result)
    (ends : ∃ k, close (x k) (x (k + 1))) :
    ∃ k, close (x k) (x (k + 1)) ∧
      ∀ n > k, settle turn next close n (x 0) = some (result k) := by
  classical
  refine ⟨Nat.find ends, Nat.find_spec ends, fun n enough => ?_⟩
  exact settle_of_first values (Nat.find_spec ends) (fun j below => Nat.find_min ends below) enough

end Loop

/-! ## Values inside bounds -/

section Ordered

variable {K : Type*} [Field K] [LinearOrder K] [IsStrictOrderedRing K] [Archimedean K]
  {x : Nat → K} {lo hi ε : K}

/-- Rising values cannot move by `ε` in every turn. -/
theorem exists_close_of_monotone (monotone : Monotone x)
    (bounded : ∀ k, 1 ≤ k → lo ≤ x k ∧ x k ≤ hi) (positive : 0 < ε) :
    ∃ k, |x k - x (k + 1)| < ε := by
  by_contra far
  push Not at far
  have rises (k : Nat) : x k + ε ≤ x (k + 1) := by
    have move := far k
    rw [abs_sub_comm, abs_of_nonneg (sub_nonneg.mpr (monotone k.le_succ))] at move
    linarith
  have climbs (n : Nat) : x 1 + n * ε ≤ x (n + 1) := by
    induction n with
    | zero => rw [Nat.cast_zero, zero_mul, add_zero]
    | succ n ih =>
        have step := rises (n + 1)
        push_cast
        linarith
  obtain ⟨n, beyond⟩ := exists_lt_nsmul positive (hi - lo)
  rw [nsmul_eq_mul] at beyond
  have top := climbs n
  have low := (bounded 1 le_rfl).1
  have high := (bounded (n + 1) (Nat.le_add_left 1 n)).2
  linarith

/-- **Values that only rise or only fall** inside bounds come close. -/
theorem exists_close_of_ordered (ordered : Monotone x ∨ Antitone x)
    (bounded : ∀ k, 1 ≤ k → lo ≤ x k ∧ x k ≤ hi) (positive : 0 < ε) :
    ∃ k, |x k - x (k + 1)| < ε := by
  rcases ordered with rising | falling
  · exact exists_close_of_monotone rising bounded positive
  · have mirrored : ∀ k, 1 ≤ k → -hi ≤ -x k ∧ -x k ≤ -lo := by
      intro k behind
      rcases bounded k behind with ⟨low, high⟩
      exact ⟨neg_le_neg high, neg_le_neg low⟩
    obtain ⟨k, near⟩ := exists_close_of_monotone (x := fun k => -x k) falling.neg mirrored positive
    refine ⟨k, ?_⟩
    rwa [← neg_add', abs_neg, ← sub_eq_add_neg] at near

end Ordered

/-- The values of a rising map only rise or only fall. -/
theorem monotone_or_antitone_iterate {α : Type*} [LinearOrder α] {f : α → α} (rising : Monotone f)
    (start : α) : Monotone (fun k => f^[k] start) ∨ Antitone fun k => f^[k] start := by
  rcases le_total start (f start) with up | down
  · exact Or.inl (rising.monotone_iterate_of_le_map up)
  · exact Or.inr (rising.antitone_iterate_of_map_le down)

/-! ## Values with a limit -/

section Limits

variable {x : Nat → ℝ} {limit c radius ε : ℝ}

/-- Near the limit, every turn brings the values nearer to it by the factor `c`. -/
theorem abs_sub_le_of_contracts (nonneg : 0 ≤ c) (le_one : c ≤ 1) (start : |x 0 - limit| ≤ radius)
    (contracts : ∀ k, |x k - limit| ≤ radius → |x (k + 1) - limit| ≤ c * |x k - limit|) (k : Nat) :
    |x k - limit| ≤ c ^ k * radius := by
  have positive : 0 ≤ radius := (abs_nonneg _).trans start
  induction k with
  | zero => rwa [pow_zero, one_mul]
  | succ k ih =>
      have inside : |x k - limit| ≤ radius :=
        ih.trans (mul_le_of_le_one_left positive (pow_le_one₀ nonneg le_one))
      calc
        |x (k + 1) - limit| ≤ c * |x k - limit| := contracts k inside
        _ ≤ c * (c ^ k * radius) := mul_le_mul_of_nonneg_left ih nonneg
        _ = c ^ (k + 1) * radius := by ring

/-- **Values that come nearer** by a factor less than one tend to the limit. -/
theorem tendsto_of_contracts (nonneg : 0 ≤ c) (lt_one : c < 1) (start : |x 0 - limit| ≤ radius)
    (contracts : ∀ k, |x k - limit| ≤ radius → |x (k + 1) - limit| ≤ c * |x k - limit|) :
    Tendsto x atTop (𝓝 limit) := by
  have vanishes : Tendsto (fun k => c ^ k * radius) atTop (𝓝 0) := by
    have powers := (tendsto_pow_atTop_nhds_zero_of_lt_one nonneg lt_one).mul_const radius
    rwa [zero_mul] at powers
  have near : Tendsto (fun k => x k - limit) atTop (𝓝 0) :=
    squeeze_zero_norm (abs_sub_le_of_contracts nonneg lt_one.le start contracts) vanishes
  have shifted := near.add_const limit
  simpa using shifted

/-- **Values with a limit** come close. -/
theorem exists_close_of_tendsto (tends : Tendsto x atTop (𝓝 limit)) (positive : 0 < ε) :
    ∃ k, |x (k + 1) - x k| ≤ ε := by
  have moves : Tendsto (fun k => x (k + 1) - x k) atTop (𝓝 0) := by
    have difference := (tends.comp (tendsto_add_atTop_nat 1)).sub tends
    rwa [sub_self] at difference
  have small := moves.eventually (Metric.closedBall_mem_nhds 0 positive)
  obtain ⟨k, near⟩ := small.exists
  exact ⟨k, by rwa [Real.dist_0_eq_abs] at near⟩

end Limits

end Navisim.Settle

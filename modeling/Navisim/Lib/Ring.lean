import Mathlib.Data.List.Range
import Mathlib.Data.Nat.ModEq
import Mathlib.Tactic

/-!
# Copies and ring windows

A memory is a function from positions to cells.  `copy` is `memcpy`; `window` is the list of
`count` cells that follow a position of a ring of `n` cells, wrapping at its end.
-/

namespace Navisim.RingBuffer

variable {α : Type*}

/-- `memcpy`: `count` cells from position `from_` of `src` to position `to_` of `dst`. -/
def copy (dst : Nat → α) (to_ : Nat) (src : Nat → α) (from_ count : Nat) : Nat → α :=
  fun i => if to_ ≤ i ∧ i < to_ + count then src (from_ + (i - to_)) else dst i

/-- The `count` cells from position `start` on, in a memory that does not wrap. -/
def block (mem : Nat → α) (start count : Nat) : List α :=
  (List.range count).map fun i => mem (start + i)

/-- The `count` cells of a ring of `n` cells from position `start` on. -/
def window (n : Nat) (mem : Nat → α) (start count : Nat) : List α :=
  (List.range count).map fun i => mem ((start + i) % n)

variable {n : Nat} {mem mem' dst src : Nat → α} {start start' to_ from_ count a b : Nat}

@[simp] theorem window_length : (window n mem start count).length = count := by
  simp [window]

@[simp] theorem block_zero : block mem start 0 = [] := rfl

@[simp] theorem window_zero : window n mem start 0 = [] := rfl

theorem block_append : block mem start (a + b) = block mem start a ++ block mem (start + a) b := by
  simp [block, List.range_add, Nat.add_assoc]

theorem window_append :
    window n mem start (a + b) = window n mem start a ++ window n mem (start + a) b := by
  simp [window, List.range_add, Nat.add_assoc]

theorem block_congr (same : ∀ i < count, mem (start + i) = mem' (start' + i)) :
    block mem start count = block mem' start' count := by
  simpa [block, List.map_inj_left] using same

theorem window_congr
    (same : ∀ i < count, mem ((start + i) % n) = mem' ((start' + i) % n)) :
    window n mem start count = window n mem' start' count := by
  simpa [window, List.map_inj_left] using same

/-- A window may start at any position with the same remainder. -/
theorem window_start (same : start % n = start' % n) :
    window n mem start count = window n mem start' count :=
  window_congr fun _ _ => by rw [Nat.add_mod, same, ← Nat.add_mod]

/-- The last cell of a window. -/
theorem window_snoc :
    window n mem start (count + 1) = window n mem start count ++ [mem ((start + count) % n)] := by
  rw [window_append]
  rfl

/-- A change of a cell leaves the windows that do not hold it. -/
theorem window_update {place : Nat} {cell : α}
    (outside : ∀ i < count, (start + i) % n ≠ place) :
    window n (Function.update mem place cell) start count = window n mem start count :=
  window_congr fun i inside => by rw [Function.update_of_ne (outside i inside)]

/-- A window that does not reach the end of the ring is a block. -/
theorem window_eq_block (fits : start + count ≤ n) :
    window n mem start count = block mem start count := by
  simp only [window, block, List.map_inj_left, List.mem_range]
  intro i bound
  rw [Nat.mod_eq_of_lt (by omega)]

/-- The first cell of a window. -/
theorem window_cons (inside : start < n) (some : 0 < count) :
    window n mem start count = mem start :: window n mem (start + 1) (count - 1) := by
  obtain ⟨rest, rfl⟩ := Nat.exists_eq_add_of_lt some
  have first : window n mem start 1 = [mem start] := by
    rw [window_eq_block (by omega)]
    rfl
  rw [Nat.zero_add, Nat.add_comm rest 1, window_append, first, Nat.add_sub_cancel_left]
  rfl

/-- A window that reaches the end of the ring goes on at its start. -/
theorem window_wrap (ends : start + a = n) (fits : b ≤ n) :
    window n mem start (a + b) = block mem start a ++ block mem 0 b := by
  have turn : window n mem (start + a) b = window n mem 0 b :=
    window_start (by rw [ends, Nat.mod_self, Nat.zero_mod])
  rw [window_append, window_eq_block ends.le, turn, window_eq_block (by omega)]

/-! ## Copies -/

theorem copy_of_lt {i : Nat} (h : i < count) :
    copy dst to_ src from_ count (to_ + i) = src (from_ + i) := by
  simp [copy, h]

theorem copy_of_outside {i : Nat} (h : i < to_ ∨ to_ + count ≤ i) :
    copy dst to_ src from_ count i = dst i := by
  unfold copy
  rw [if_neg (by omega)]

/-- The target of a copy holds the source. -/
theorem block_copy : block (copy dst to_ src from_ count) to_ count = block src from_ count :=
  block_congr fun _ bound => copy_of_lt bound

/-- A block in front of the target keeps its cells. -/
theorem block_copy_of_le (before : start + a ≤ to_) :
    block (copy dst to_ src from_ count) start a = block dst start a :=
  block_congr fun _ bound => copy_of_outside (Or.inl (by omega))

/-- Two copies, up to the end of a ring and on from its start, read a window of it. -/
theorem block_copy_wrap (ends : from_ + a = n) (fits : b ≤ n) :
    block (copy (copy dst to_ src from_ a) (to_ + a) src 0 b) to_ (a + b) =
      window n src from_ (a + b) := by
  rw [block_append, block_copy_of_le le_rfl, block_copy, block_copy, window_wrap ends fits]

/-- A window none of whose positions is a target of the copy keeps its cells. -/
theorem window_copy_of_outside
    (outside : ∀ i < a, (start + i) % n < to_ ∨ to_ + count ≤ (start + i) % n) :
    window n (copy dst to_ src from_ count) start a = window n dst start a :=
  window_congr fun i bound => copy_of_outside (outside i bound)

/-- Positions less than one turn apart are different. -/
theorem mod_ne_of_lt {i j : Nat} (lt : i < j) (turn : j < i + n) : i % n ≠ j % n := by
  intro same
  have dvd : n ∣ j - i := (Nat.modEq_iff_dvd' lt.le).mp same
  have le := Nat.le_of_dvd (by omega) dvd
  omega

end Navisim.RingBuffer

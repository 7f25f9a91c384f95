import Mathlib.Tactic

/-!
# Sliding windows

A window of `length` cells that moves over a sequence in steps.  If every move repeats the cells
that the old and the new window share, then the windows are pieces of one stream
(`exists_stream`), and what holds between neighbouring cells of the windows holds along the
stream (`stream_chain`).
-/

namespace Navisim.Slide

variable {α : Type*} {length : Nat} {base : Nat → Int} {cell : Nat → Nat → α}

/-- The window after move `k` overlaps the one before it, and they agree where they do. -/
structure Moves (length : Nat) (base : Nat → Int) (cell : Nat → Nat → α) (k : Nat) : Prop where
  forward : base k ≤ base (k + 1)
  overlap : base (k + 1) < base k + length
  agree : ∀ w v : Nat, w < length → v < length → base (k + 1) + w = base k + v →
    cell (k + 1) w = cell k v

theorem base_le {first last k : Nat}
    (moves : ∀ k, first ≤ k → k < last → Moves length base cell k) (lower : first ≤ k)
    (upper : k ≤ last) : base k ≤ base last := by
  induction last, upper using Nat.le_induction with
  | base => exact le_rfl
  | succ last above ih =>
      exact (ih fun j lower' upper' => moves j lower' (by omega)).trans
        (moves last (by omega) (by omega)).forward

/-- **The windows are pieces of one stream.** -/
theorem exists_stream [Inhabited α] {first last : Nat} (ordered : first ≤ last)
    (moves : ∀ k, first ≤ k → k < last → Moves length base cell k) :
    ∃ stream : Int → α, ∀ k, first ≤ k → k ≤ last → ∀ w < length,
      cell k w = stream (base k + w) := by
  induction last, ordered using Nat.le_induction with
  | base =>
      refine ⟨fun a => cell first (a - base first).toNat, fun k lower upper w _ => ?_⟩
      obtain rfl : k = first := by omega
      dsimp only
      congr 1
      omega
  | succ last above ih =>
      obtain ⟨stream, pieces⟩ := ih fun k lower upper => moves k lower (by omega)
      obtain ⟨forward, -, agree⟩ := moves last above (by omega)
      -- The new window continues the stream behind the old one.
      refine ⟨fun a => if a < base last + length then stream a
        else cell (last + 1) (a - base (last + 1)).toNat, fun k lower upper w inside => ?_⟩
      dsimp only
      rcases Nat.lt_or_ge last k with new | old
      · obtain rfl : k = last + 1 := by omega
        split
        · rename_i shared
          obtain ⟨v, place⟩ : ∃ v : Nat, base (last + 1) + w = base last + v :=
            ⟨(base (last + 1) + w - base last).toNat, by omega⟩
          rw [agree w v inside (by omega) place, place]
          exact pieces last above le_rfl v (by omega)
        · congr 1
          omega
      · have bound := base_le (fun j lower' upper' => moves j (by omega) (by omega)) lower old
        rw [if_pos (by omega)]
        exact pieces k lower old w inside

/-- What holds between neighbouring cells of every window holds along the stream. -/
theorem stream_chain {R : α → α → Prop} {stream : Int → α} {first last : Nat}
    (ordered : first ≤ last) (moves : ∀ k, first ≤ k → k < last → Moves length base cell k)
    (pieces : ∀ k, first ≤ k → k ≤ last → ∀ w < length, cell k w = stream (base k + w))
    (chained : ∀ k, first ≤ k → k ≤ last → ∀ w, w + 1 < length → R (cell k w) (cell k (w + 1)))
    {a : Int} (lower : base first < a) (upper : a < base last + length) :
    R (stream (a - 1)) (stream a) := by
  induction last, ordered using Nat.le_induction with
  | base =>
      obtain ⟨w, rfl⟩ : ∃ w : Nat, a = base first + (w + 1 : Nat) :=
        ⟨(a - base first - 1).toNat, by omega⟩
      have link := chained first le_rfl le_rfl w (by omega)
      rw [pieces first le_rfl le_rfl w (by omega), pieces first le_rfl le_rfl (w + 1) (by omega)]
        at link
      have before : base first + ((w + 1 : Nat) : Int) - 1 = base first + w := by
        push_cast
        ring
      rwa [before]
  | succ last above ih =>
      rcases lt_or_ge a (base last + length) with old | new
      · exact ih (fun k lower' upper' => moves k lower' (by omega))
          (fun k lower' upper' => pieces k lower' (by omega))
          (fun k lower' upper' => chained k lower' (by omega)) old
      · have overlap := (moves last above (by omega)).overlap
        obtain ⟨w, rfl⟩ : ∃ w : Nat, a = base (last + 1) + (w + 1 : Nat) :=
          ⟨(a - base (last + 1) - 1).toNat, by omega⟩
        have link := chained (last + 1) (by omega) le_rfl w (by omega)
        rw [pieces (last + 1) (by omega) le_rfl w (by omega),
          pieces (last + 1) (by omega) le_rfl (w + 1) (by omega)] at link
        have before : base (last + 1) + ((w + 1 : Nat) : Int) - 1 = base (last + 1) + w := by
          push_cast
          ring
        rwa [before]

end Navisim.Slide

import Navisim.Lib.Polyline
import Navisim.Motion.Readers

/-!
# The track between way points

The part of `runCore_realTime` that moves the receiver: for every block it searches the first leg
between two way points that contains the time of the block, and puts the receiver on it.
-/

namespace Navisim.Motion

open Loop Polyline

/-- A coordinate between those of two way points. -/
def between (a b elapsed duration : ℚ) : ℚ :=
  a + (b - a) * elapsed / duration

/-- `durationWayPoint`, from its first entry on. -/
def WayPoints.time (w : WayPoints Position ℚ) (iLine : Nat) : ℚ :=
  w.durationWayPoint iLine

/-- `xyzWayPoint` -/
def WayPoints.point (w : WayPoints Position ℚ) (iLine : Nat) : Position :=
  w.xyzWayPoint iLine

/-- `nWayPoint - 1`, the number of turns of the search. -/
def WayPoints.legs (w : WayPoints Position ℚ) : Nat :=
  (w.nWayPoint - 1).toNat

/-- `dTime` -/
def tickTime (iumd : Nat) : ℚ :=
  0.1 * iumd

/-- The turn of the loop over the blocks, as far as it writes `xyz`. -/
def moveReceiver (w : WayPoints Position ℚ) (iumd : Nat) (xyz : Nat → Position) :
    Nat → Position :=
  let dTime := tickTime iumd
  match findLeg w.time dTime w.legs 0 with
  | some iLine =>
      let a := w.point iLine
      let b := w.point (iLine + 1)
      let elapsed := dTime - w.time iLine
      let duration := w.time (iLine + 1) - w.time iLine
      Function.update xyz iumd
        (between a.1 b.1 elapsed duration, between a.2.1 b.2.1 elapsed duration,
          between a.2.2 b.2.2 elapsed duration)
  | none => xyz

/-- `xyz` after the blocks 1 to `n`. -/
def receiverTrack (w : WayPoints Position ℚ) (xyz : Nat → Position) : Nat → Nat → Position
  | 0 => xyz
  | n + 1 => moveReceiver w (n + 1) (receiverTrack w xyz n)

/-! ## Positions of the track -/

variable {w : WayPoints Position ℚ} {xyz : Nat → Position} {iumd n iLine : Nat}

theorem moveReceiver_eq (found : findLeg w.time (tickTime iumd) w.legs 0 = some iLine) :
    moveReceiver w iumd xyz =
      Function.update xyz iumd (onLeg w.time w.point (tickTime iumd) iLine) := by
  simp only [moveReceiver, found]
  congr 1
  simp only [onLeg, weight, between, Prod.ext_iff, Prod.fst_add, Prod.snd_add, Prod.smul_fst,
    Prod.smul_snd, Prod.fst_sub, Prod.snd_sub, smul_eq_mul]
  refine ⟨?_, ?_, ?_⟩ <;> ring

theorem moveReceiver_of_ne {i : Nat} (other : i ≠ iumd) : moveReceiver w iumd xyz i = xyz i := by
  cases found : findLeg w.time (tickTime iumd) w.legs 0 with
  | some iLine =>
      rw [moveReceiver_eq found]
      exact Function.update_of_ne other ..
  | none => simp only [moveReceiver, found]

/-- A block writes its own position, and no later block changes it. -/
theorem receiverTrack_eq (found : findLeg w.time (tickTime iumd) w.legs 0 = some iLine)
    (first : 1 ≤ iumd) (last : iumd ≤ n) :
    receiverTrack w xyz n iumd = onLeg w.time w.point (tickTime iumd) iLine := by
  induction n, last using Nat.le_induction with
  | base =>
      obtain ⟨before, rfl⟩ : ∃ before, iumd = before + 1 := ⟨iumd - 1, by omega⟩
      rw [receiverTrack, moveReceiver_eq found, Function.update_self]
  | succ n later ih =>
      rw [receiverTrack, moveReceiver_of_ne (by omega), ih]

/-- The search ends at a leg if the time lies between the first and the last way point. -/
theorem exists_leg (start : w.time 0 ≤ tickTime iumd) (stop : tickTime iumd < w.time w.legs) :
    ∃ iLine, findLeg w.time (tickTime iumd) w.legs 0 = some iLine ∧ iLine < w.legs ∧
      InLeg w.time (tickTime iumd) iLine := by
  obtain ⟨iLine, found⟩ := exists_findLeg start (by rwa [zero_add])
  obtain ⟨-, inside, here⟩ := findLeg_sound found
  exact ⟨iLine, found, by omega, here⟩

/-- **The track between the way points.**  For every block between the first and the last way
point the search finds a leg, the duration it divides by is not zero, and the receiver is put
between the ends of the leg.  If the times of the way points increase, the track is that of the
only path that passes the way points in straight legs. -/
theorem track_on_path (w : WayPoints Position ℚ) (two : 2 ≤ w.nWayPoint) (xyz : Nat → Position) :
    (∀ iumd n : Nat, 1 ≤ iumd → iumd ≤ n → w.durationWayPoint 0 ≤ tickTime iumd →
      tickTime iumd < w.durationWayPoint (w.nWayPoint - 1) →
      ∃ iLine : Nat, findLeg w.time (tickTime iumd) w.legs 0 = some iLine ∧
        (iLine : Int) < w.nWayPoint - 1 ∧
        w.durationWayPoint iLine ≤ tickTime iumd ∧
        tickTime iumd < w.durationWayPoint (iLine + 1) ∧
        w.durationWayPoint (iLine + 1) - w.durationWayPoint iLine ≠ 0 ∧
        ∃ part : ℚ, 0 ≤ part ∧ part < 1 ∧ receiverTrack w xyz n iumd =
          (1 - part) • w.xyzWayPoint iLine + part • w.xyzWayPoint (iLine + 1)) ∧
    ((∀ i : Int, 0 ≤ i → i < w.nWayPoint - 1 →
        w.durationWayPoint i < w.durationWayPoint (i + 1)) →
      ∃ path : ℚ → Position, IsPath w.legs w.time w.point path ∧
        (∀ path', IsPath w.legs w.time w.point path' → ∀ t, w.durationWayPoint 0 ≤ t →
          t ≤ w.durationWayPoint (w.nWayPoint - 1) → path' t = path t) ∧
        ∀ iumd n : Nat, 1 ≤ iumd → iumd ≤ n → w.durationWayPoint 0 ≤ tickTime iumd →
          tickTime iumd < w.durationWayPoint (w.nWayPoint - 1) →
          receiverTrack w xyz n iumd = path (tickTime iumd)) := by
  have legs : (w.legs : Int) = w.nWayPoint - 1 := Int.toNat_of_nonneg (by omega)
  have last : w.time w.legs = w.durationWayPoint (w.nWayPoint - 1) := by rw [WayPoints.time, legs]
  rw [← last]
  constructor
  · intro iumd n first tick start stop
    obtain ⟨iLine, found, inside, here⟩ := exists_leg start stop
    rcases here.weight_bounds with ⟨low, high⟩
    refine ⟨iLine, found, by omega, here.1, here.2, here.duration_pos.ne', _, low, high, ?_⟩
    rw [receiverTrack_eq found first tick, onLeg_convex]
    rfl
  · intro increasing
    have increasing' : Increasing w.legs w.time := fun i leg => increasing i (by omega) (by omega)
    refine ⟨polyline w.legs w.time w.point, polyline_isPath increasing', ?_, ?_⟩
    · intro path' isPath t start stop
      exact isPath.eq_polyline start stop
    · intro iumd n first tick start stop
      obtain ⟨iLine, found, inside, here⟩ := exists_leg start stop
      rw [receiverTrack_eq found first tick, polyline_eq increasing' inside here]

/-- A way back and forth, with a leg of no length in between. -/
def backAndForth : WayPoints Position ℚ where
  xyzWayPoint i := if i = 1 ∨ i = 2 then (10, 0, 0) else (0, 0, 0)
  durationWayPoint i := if i = 0 then 0 else if i ≤ 2 then 60 else 120
  nWayPoint := 4

theorem track_on_path_backAndForth :
    ∃ iLine : Nat, findLeg backAndForth.time (tickTime 900) backAndForth.legs 0 = some iLine ∧
      (iLine : Int) < backAndForth.nWayPoint - 1 ∧
      backAndForth.durationWayPoint iLine ≤ tickTime 900 ∧
      tickTime 900 < backAndForth.durationWayPoint (iLine + 1) ∧
      backAndForth.durationWayPoint (iLine + 1) - backAndForth.durationWayPoint iLine ≠ 0 ∧
      ∃ part : ℚ, 0 ≤ part ∧ part < 1 ∧ receiverTrack backAndForth (fun _ => 0) 1000 900 =
        (1 - part) • backAndForth.xyzWayPoint iLine +
          part • backAndForth.xyzWayPoint (iLine + 1) :=
  (track_on_path backAndForth (by decide) (fun _ => 0)).1 900 1000 (by decide) (by decide)
    (by decide +kernel) (by decide +kernel)

end Navisim.Motion

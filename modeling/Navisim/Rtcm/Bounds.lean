import Navisim.Rtcm.Cuts

/-!
# The bounds of the receive buffer

The receive loop checks nowhere that a frame fits into its buffer.  The bound is that of the
10-bit length, which has to be known at every byte behind the header: the accesses stay inside the
buffer exactly if no block is cut where the length would be lost (`blocksSafe_iff`).
-/

namespace Navisim.Rtcm

open Framing

/-- The longest frame: a header, a payload whose length has ten bits, and the parity. -/
def maxFrame : Nat := 3 + 1023 + 3

/-- What is asked of the loop at a byte. -/
structure ByteSafe (sqrt : ℚ → ℚ) (byte : BitVec 8) (s : Receiver) : Prop where
  /-- `buff[i++]` -/
  store : s.i < buffSize
  /-- `crc24q(buff, len)` and `getbitu(buff, len * 8, 24)`, behind the tests of `i` -/
  parity : s.i ≠ 0 → ¬ (storeByte byte s).i < 3 →
    ¬ ((storeByte byte s).i : Int) < (storeByte byte s).len + 3 →
    0 ≤ (storeByte byte s).len ∧ (storeByte byte s).len + 3 ≤ buffSize
  /-- A frame that is not finished has fewer bytes than the longest one. -/
  ends : ∃ s', receiveByte sqrt byte s = some s' ∧ s'.i < maxFrame

/-- The bytes of a block are safe up to the one at which the loop stops. -/
def BytesSafe (sqrt : ℚ → ℚ) : List (BitVec 8) → Receiver → Prop
  | [], _ => True
  | byte :: rest, s => ByteSafe sqrt byte s ∧
      ∀ s', receiveByte sqrt byte s = some s' → ¬ s'.delivery.nSV ≥ maxSat →
        BytesSafe sqrt rest s'

/-- The bytes of all blocks are safe; in block `k`, `len` starts with the value `lens k`. -/
def BlocksSafe (sqrt : ℚ → ℚ) (lens : Nat → BitVec 32) :
    Nat → List (List (BitVec 8)) → Receiver → Prop
  | _, [], _ => True
  | k, block :: rest, s => BytesSafe sqrt block { s with len := (lens k).toInt } ∧
      ∀ s', receiveBytes sqrt block { s with len := (lens k).toInt } = some s' →
        ¬ s'.delivery.nSV ≥ maxSat → BlocksSafe sqrt lens (k + 1) rest s'

/-- The state in which `getRTCM3Eph` enters the loop. -/
def Receiver.start (eph : Table) (buff : Buffer) : Receiver where
  i := 0
  len := 0
  buff := buff
  delivery := { nSV := 0, eph := eph, frames := [] }

section Safe

variable {sqrt : ℚ → ℚ} {eph : Table} {stream : List (BitVec 8)} {s : Receiver}
  {lens : Nat → BitVec 32}

/-- The unfinished frame is shorter than the longest one. -/
theorem pending_lt_maxFrame (stream : List (BitVec 8)) : (pending stream).length < maxFrame := by
  have longest : maxFrame = 1029 := rfl
  rcases Nat.lt_or_ge (pending stream).length 3 with header | header
  · omega
  · have below := pending_lt header
    have size := size_lt (pending stream)
    omega

/-- **One byte** is safe while the length is known. -/
theorem Follows.byteSafe (follows : Follows sqrt eph stream s) (running : ¬ Stopped sqrt eph stream)
    (byte : BitVec 8) : ByteSafe sqrt byte s := by
  obtain ⟨i, -, -, length⟩ := follows.stored byte
  obtain ⟨s', received, follows'⟩ := follows.receiveByte running byte
  refine ⟨not_le.mp follows.inside, fun _ header _ => ?_, s', received, ?_⟩
  · have known := length (by omega)
    have size := size_lt (pending stream ++ [byte])
    have parity : 6 ≤ rtcmFormat.size (pending stream ++ [byte]) := Nat.le_add_left ..
    simp only [buffSize]
    omega
  · rw [follows'.count]
    exact pending_lt_maxFrame _

/-- A block is safe if the length is known where it starts. -/
theorem Follows.bytesSafe (follows : Follows sqrt eph stream s)
    (running : ¬ Stopped sqrt eph stream) (block : List (BitVec 8)) : BytesSafe sqrt block s := by
  induction block generalizing s stream with
  | nil => trivial
  | cons byte rest ih =>
      refine ⟨follows.byteSafe running byte, fun s₁ received going => ?_⟩
      obtain ⟨s', received', follows'⟩ := follows.receiveByte running byte
      obtain rfl : s' = s₁ := Option.some.inj (received'.symm.trans received)
      apply ih follows'
      rwa [Stopped, ← follows'.delivered]

/-- Blocks are safe if the length fits wherever it is needed. -/
theorem Follows.blocksSafe (follows : Follows sqrt eph stream s)
    (running : ¬ Stopped sqrt eph stream) {k : Nat} (blocks : List (List (BitVec 8)))
    (fits : LengthsFit sqrt eph stream lens k blocks) :
    BlocksSafe sqrt lens k blocks s := by
  induction blocks generalizing s stream k with
  | nil => trivial
  | cons block rest ih =>
      have entered := follows.enter (fits.head running)
      refine ⟨entered.bytesSafe running block, fun s₁ received going => ?_⟩
      obtain ⟨s', received', delivered, follows'⟩ := entered.receiveBytes running block
      obtain rfl : s' = s₁ := Option.some.inj (received'.symm.trans received)
      have running' : ¬ Stopped sqrt eph (stream ++ block) := by
        rwa [Stopped, ← delivered]
      exact ih (follows' running') running' fits.tail

/-- A safe block is defined. -/
theorem BytesSafe.defined {block : List (BitVec 8)} (safe : BytesSafe sqrt block s) :
    ∃ s', receiveBytes sqrt block s = some s' := by
  induction block generalizing s with
  | nil => exact ⟨s, rfl⟩
  | cons byte rest ih =>
      obtain ⟨here, later⟩ := safe
      obtain ⟨s₁, received, -⟩ := here.ends
      rw [receiveBytes, received, Option.bind_eq_bind, Option.bind_some]
      by_cases stopped : s₁.delivery.nSV ≥ maxSat
      · rw [if_pos stopped]
        exact ⟨s₁, rfl⟩
      · rw [if_neg stopped]
        exact ih (later s₁ received stopped)

/-- Safe blocks are defined. -/
theorem BlocksSafe.defined {k : Nat} {blocks : List (List (BitVec 8))}
    (safe : BlocksSafe sqrt lens k blocks s) :
    ∃ s', receiveBlocks sqrt lens k blocks s = some s' := by
  induction blocks generalizing k s with
  | nil => exact ⟨s, rfl⟩
  | cons block rest ih =>
      obtain ⟨here, later⟩ := safe
      obtain ⟨s₁, received⟩ := here.defined
      rw [receiveBlocks, received, Option.bind_eq_bind, Option.bind_some]
      by_cases stopped : s₁.delivery.nSV ≥ maxSat
      · rw [if_pos stopped]
        exact ⟨s₁, rfl⟩
      · rw [if_neg stopped]
        exact ih (later s₁ received stopped)

end Safe

/-- **When the buffer is safe**: whatever the length and the buffer hold when a block is entered,
the bytes stay inside the buffer and every frame ends, exactly if the headers of the frames are
whole. -/
theorem blocksSafe_iff {sqrt : ℚ → ℚ} {eph : Table} {stream : List (BitVec 8)}
    {blocks : List (List (BitVec 8))} (cutting : Cutting stream blocks) :
    (∀ lens buff, BlocksSafe sqrt lens 0 blocks (Receiver.start eph buff)) ↔
      HeadersWhole sqrt eph blocks := by
  constructor
  · intro safe
    by_contra cutHeader
    obtain ⟨lens, undefined⟩ := exists_lens_undefined cutting.nonempty cutHeader (fun _ => 0)
    obtain ⟨s', received⟩ := (safe lens fun _ => 0).defined
    rw [Receiver.start] at received
    rw [getRtcm3Eph, received] at undefined
    exact Option.some_ne_none _ undefined
  · intro whole lens buff
    refine (follows_start sqrt eph buff).blocksSafe not_stopped_nil blocks
      fun before after cut more => ?_
    rw [List.nil_append, Nat.zero_add]
    exact (whole before after cut more).imp_right fun short header => by omega

theorem blocksSafe_iff_blankMessage :
    (∀ lens buff, BlocksSafe id lens 0 twoBlocks (Receiver.start sampleTable buff)) ↔
      HeadersWhole id sampleTable twoBlocks :=
  blocksSafe_iff cutting_blankMessage.2

/-- **A store outside the buffer**: a frame is cut behind its header, and the length happens to be
5000 when the rest of the stream arrives. -/
def runaway : List (List (BitVec 8)) :=
  [[0xD3, 0x03, 0xFF], List.replicate 1200 0]

/-- With a length that is too large, a frame grows out of the buffer. -/
theorem BytesSafe.length_le {sqrt : ℚ → ℚ} {block : List (BitVec 8)} {s : Receiver}
    (safe : BytesSafe sqrt block s) (running : ¬ s.delivery.nSV ≥ maxSat) (header : 3 ≤ s.i)
    (long : s.i + block.length < s.len + 3) (small : s.len + 3 < 2 ^ 31) (inside : s.i ≤ buffSize) :
    s.i + block.length ≤ buffSize := by
  induction block generalizing s with
  | nil => exact inside
  | cons byte rest ih =>
      obtain ⟨here, later⟩ := safe
      have store := here.store
      rw [List.length_cons] at long ⊢
      push_cast at long
      have kept : takeLength { s with buff := Function.update s.buff s.i byte, i := s.i + 1 } =
          { s with buff := Function.update s.buff s.i byte, i := s.i + 1 } :=
        if_neg (show s.i + 1 ≠ 3 by omega)
      have grown : receiveByte sqrt byte s =
          some { s with buff := Function.update s.buff s.i byte, i := s.i + 1 } := by
        rw [receiveByte, if_neg (by omega), if_neg (by omega), kept, checkFrame]
        dsimp only
        rw [if_neg (by omega), if_neg (by omega), if_pos (by push_cast; omega)]
      have next := ih (later _ grown running) running (by dsimp only; omega)
        (by dsimp only; push_cast; omega) small (by dsimp only; omega)
      dsimp only at next
      omega

theorem runaway_store :
    Cutting runaway.flatten runaway ∧
      ¬ BlocksSafe id (fun _ => 5000) 0 runaway (Receiver.start sampleTable fun _ => 0) := by
  have cutting : Cutting runaway.flatten runaway := by
    refine ⟨rfl, fun block member => ?_, fun block member => ?_⟩ <;>
      rcases List.mem_pair.mp member with rfl | rfl
    · exact List.cons_ne_nil _ _
    · exact fun empty => absurd (List.replicate_eq_nil_iff _ |>.mp empty) (by decide)
    · decide
    · rw [List.length_replicate]
      decide
  refine ⟨cutting, fun safe => ?_⟩
  rcases safe with ⟨-, later⟩
  have follows := follows_start id sampleTable fun _ => 0
  have fits : LengthFits [] (5000 : BitVec 32) := fun header => absurd header (by decide)
  obtain ⟨s, received, delivered, follows'⟩ :=
    (follows.enter fits).receiveBytes not_stopped_nil [0xD3, 0x03, 0xFF]
  rw [List.nil_append] at delivered follows'
  have none : deliver id sampleTable [0xD3, 0x03, 0xFF] =
      { nSV := 0, eph := sampleTable, frames := [] } := rfl
  have running : ¬ s.delivery.nSV ≥ maxSat := by
    rw [delivered, none]
    decide
  have count : s.i = 3 := by
    rw [(follows' (by rw [Stopped, none]; decide)).count]
    rfl
  obtain ⟨safe, -⟩ := later s received running
  have large : ((5000 : BitVec 32)).toInt = 5000 := by decide
  rw [large] at safe
  have inside := safe.length_le running (by dsimp only; omega)
    (by dsimp only; rw [List.length_replicate, count]; decide) (by dsimp only; decide)
    (by dsimp only; rw [count]; decide)
  dsimp only at inside
  rw [List.length_replicate, count] at inside
  exact absurd inside (by decide)

end Navisim.Rtcm

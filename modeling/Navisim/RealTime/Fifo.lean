import Navisim.Lib.Ring

/-!
# The sample ring

The ring of `sim_t` that carries the I/Q samples from the generator to the transmitter, with
`get_sample_length`, `is_fifo_write_ready` and `fifo_read` of `lime_main.c`.  A cell is one
I/Q sample, so a position counts pairs of `int16_t`.

`Fifo.queue` is the unread part.  `fifoRead_spec` says that `fifo_read` moves a prefix of it
into the destination.
-/

namespace Navisim.RealTime

open RingBuffer

/-! ## `playback.h` -/

def txSamplerate : Nat := 1000000

def samplesPerBuffer : Nat := txSamplerate / 10

def numIqSamples : Nat := txSamplerate / 10

def fifoLength : Nat := numIqSamples * 2

/-- `get_sample_length` on the two positions it reads. -/
def getSampleLength (head tail : Int) : Nat :=
  let length := head - tail
  let length := if length < 0 then length + fifoLength else length
  length.toNat

/-- `is_fifo_write_ready` on the two positions it reads. -/
def isFifoWriteReady (head tail : Int) : Bool :=
  getSampleLength head tail < numIqSamples

/-- The fields `fifo`, `head` and `tail` of `sim_t`. -/
structure Fifo (α : Type*) where
  fifo : Nat → α
  head : Int
  tail : Int

variable {α : Type*}

/-- `fifo_read` into `buffer` at position `pos`: the number of samples read, the destination
and the ring afterwards. -/
def fifoRead (buffer : Nat → α) (pos samples : Nat) (s : Fifo α) : Nat × (Nat → α) × Fifo α :=
  let length := getSampleLength s.head s.tail
  let samples := if length < samples then length else samples
  let samplesRemaining := (fifoLength - s.tail).toNat
  let (bufferCurrent, tail, pos, left) :=
    if samples > samplesRemaining then
      (copy buffer pos s.fifo s.tail.toNat samplesRemaining, (0 : Int),
        pos + samplesRemaining, samples - samplesRemaining)
    else (buffer, s.tail, pos, samples)
  let bufferCurrent := copy bufferCurrent pos s.fifo tail.toNat left
  let tail := tail + left
  let tail := if tail ≥ fifoLength then tail - fifoLength else tail
  (samples, bufferCurrent, { s with tail := tail })

/-- Both positions lie in the ring. -/
structure Fifo.InRange (s : Fifo α) : Prop where
  head_nonneg : 0 ≤ s.head
  head_lt : s.head < fifoLength
  tail_nonneg : 0 ≤ s.tail
  tail_lt : s.tail < fifoLength

/-- The unread samples, oldest first. -/
def Fifo.queue (s : Fifo α) : List α :=
  window fifoLength s.fifo s.tail.toNat (getSampleLength s.head s.tail)

@[simp] theorem Fifo.queue_length (s : Fifo α) :
    s.queue.length = getSampleLength s.head s.tail := by
  simp [Fifo.queue]

/-- Equal positions mean an empty ring. -/
theorem getSampleLength_eq_zero {head tail : Int} (head_nonneg : 0 ≤ head)
    (tail_lt : tail < fifoLength) : getSampleLength head tail = 0 ↔ head = tail := by
  unfold getSampleLength
  dsimp only
  split <;> omega

theorem Fifo.InRange.getSampleLength_lt {s : Fifo α} (range : s.InRange) :
    getSampleLength s.head s.tail < fifoLength := by
  obtain ⟨h1, h2, h3, h4⟩ := range
  unfold getSampleLength
  dsimp only
  split <;> omega

/-- The unread samples end in front of `head`. -/
theorem Fifo.InRange.tail_add_getSampleLength {s : Fifo α} (range : s.InRange) :
    (s.tail.toNat + getSampleLength s.head s.tail) % fifoLength = s.head.toNat := by
  obtain ⟨h1, h2, h3, h4⟩ := range
  unfold getSampleLength
  dsimp only
  split
  · rw [show s.tail.toNat + (s.head - s.tail + fifoLength).toNat = s.head.toNat + fifoLength by
      omega, Nat.add_mod_right, Nat.mod_eq_of_lt (by omega)]
  · rw [show s.tail.toNat + (s.head - s.tail).toNat = s.head.toNat by omega,
      Nat.mod_eq_of_lt (by omega)]

/-! ## `fifo_read` -/

/-- What `fifo_read` does, with both branches of the wrap in one form. -/
structure FifoReads (buffer : Nat → α) (pos samples : Nat) (s : Fifo α)
    (read : Nat) (buffer' : Nat → α) (s' : Fifo α) : Prop where
  read_eq : read = min samples (getSampleLength s.head s.tail)
  copied : block buffer' pos read = s.queue.take read
  before : ∀ i < pos, buffer' i = buffer i
  after : ∀ i ≥ pos + read, buffer' i = buffer i
  left : s'.queue = s.queue.drop read
  fifo : s'.fifo = s.fifo
  head : s'.head = s.head
  range : s'.InRange

/-- The window in front of a new tail position is dropped from the queue. -/
theorem Fifo.queue_drop {s : Fifo α} (range : s.InRange) {read : Nat} {tail : Int}
    (le : read ≤ getSampleLength s.head s.tail)
    (tail_eq : tail = s.tail + read ∨ tail = s.tail + read - fifoLength)
    (tail_nonneg : 0 ≤ tail) (tail_lt : tail < fifoLength) :
    Fifo.queue { s with tail := tail } = s.queue.drop read := by
  obtain ⟨h1, h2, h3, h4⟩ := range
  obtain ⟨rest, total⟩ := Nat.exists_eq_add_of_le le
  have length : getSampleLength s.head tail = rest := by
    unfold getSampleLength at le total ⊢
    dsimp only at le total ⊢
    split <;> split at total <;> omega
  have start : tail.toNat % fifoLength = (s.tail.toNat + read) % fifoLength := by
    rcases tail_eq with eq | eq
    · congr 1
      omega
    · rw [show s.tail.toNat + read = tail.toNat + fifoLength by omega, Nat.add_mod_right]
  unfold Fifo.queue
  rw [length, total, window_append, List.drop_left' (by simp)]
  exact window_start start

theorem Fifo.queue_take {s : Fifo α} {read : Nat}
    (le : read ≤ getSampleLength s.head s.tail) :
    s.queue.take read = window fifoLength s.fifo s.tail.toNat read := by
  obtain ⟨rest, total⟩ := Nat.exists_eq_add_of_le le
  unfold Fifo.queue
  rw [total, window_append, List.take_left' (by simp)]

/-- The new tail position is inside the ring again. -/
theorem wrapTail {tail : Int} (nonneg : 0 ≤ tail) (below : tail < 2 * fifoLength) :
    ((if tail ≥ fifoLength then tail - fifoLength else tail) = tail ∨
        (if tail ≥ fifoLength then tail - fifoLength else tail) = tail - fifoLength) ∧
      0 ≤ (if tail ≥ fifoLength then tail - fifoLength else tail) ∧
      (if tail ≥ fifoLength then tail - fifoLength else tail) < fifoLength := by
  by_cases beyond : tail ≥ fifoLength
  · rw [if_pos beyond]
    exact ⟨Or.inr rfl, by omega, by omega⟩
  · rw [if_neg beyond]
    exact ⟨Or.inl rfl, nonneg, by omega⟩

/-- `fifo_read` moves the oldest samples of the ring, as many as are asked for and queued,
into the destination, and leaves everything else as it was. -/
theorem fifoRead_spec (buffer : Nat → α) (pos samples : Nat) {s : Fifo α} (range : s.InRange) :
    FifoReads buffer pos samples s (fifoRead buffer pos samples s).1
      (fifoRead buffer pos samples s).2.1 (fifoRead buffer pos samples s).2.2 := by
  have length_lt := range.getSampleLength_lt
  obtain ⟨h1, h2, h3, h4⟩ := id range
  have samples_eq : (if getSampleLength s.head s.tail < samples then
      getSampleLength s.head s.tail else samples) =
        min samples (getSampleLength s.head s.tail) := by
    split <;> omega
  have le : min samples (getSampleLength s.head s.tail) ≤ getSampleLength s.head s.tail :=
    min_le_right _ _
  unfold fifoRead
  dsimp only
  rw [samples_eq]
  generalize read_eq : min samples (getSampleLength s.head s.tail) = read at le ⊢
  by_cases wraps : read > (fifoLength - s.tail).toNat
  · -- The queue is read in two pieces, up to the end of the ring and from its start.
    rw [if_pos wraps]
    obtain ⟨rest, total⟩ := Nat.exists_eq_add_of_le wraps.le
    have pieces : block (copy (copy buffer pos s.fifo s.tail.toNat (fifoLength - s.tail).toNat)
          (pos + (fifoLength - s.tail).toNat) s.fifo 0 rest) pos read =
        window fifoLength s.fifo s.tail.toNat read := by
      rw [total]
      exact block_copy_wrap (by omega) (by omega)
    have left : read - (fifoLength - s.tail).toNat = rest := by omega
    have tail : ¬ ((0 : Int) + rest ≥ fifoLength) := by omega
    simp only [left, Int.toNat_zero, if_neg tail]
    constructor
    · exact read_eq.symm
    · rw [pieces, Fifo.queue_take le]
    · intro i lt
      rw [copy_of_outside (by omega), copy_of_outside (by omega)]
    · intro i ge
      rw [copy_of_outside (by omega), copy_of_outside (by omega)]
    · exact Fifo.queue_drop range le (by omega) (by omega) (by omega)
    · rfl
    · rfl
    · exact ⟨h1, h2, by simp only; omega, by simp only; omega⟩
  · rw [if_neg wraps]
    dsimp only
    obtain ⟨tail_eq, tail_nonneg, tail_lt⟩ :=
      wrapTail (show 0 ≤ s.tail + read by omega) (by omega)
    constructor
    · exact read_eq.symm
    · rw [block_copy, Fifo.queue_take le, window_eq_block (by omega)]
    · intro i lt
      exact copy_of_outside (by omega)
    · intro i ge
      exact copy_of_outside (by omega)
    · exact Fifo.queue_drop range le tail_eq tail_nonneg tail_lt
    · rfl
    · rfl
    · exact ⟨h1, h2, tail_nonneg, tail_lt⟩

/-! ## The ring as a queue -/

/-- The contents of the ring from `tail` up to `head`, where need be over the end of the ring. -/
def Fifo.contents (s : Fifo α) : List α :=
  if s.tail ≤ s.head then block s.fifo s.tail.toNat (s.head - s.tail).toNat
  else block s.fifo s.tail.toNat (fifoLength - s.tail).toNat ++ block s.fifo 0 s.head.toNat

theorem Fifo.InRange.contents_eq {s : Fifo α} (range : s.InRange) : s.contents = s.queue := by
  rcases id range with ⟨head_nonneg, head_lt, tail_nonneg, tail_lt⟩
  unfold Fifo.contents Fifo.queue getSampleLength
  dsimp only
  split
  · rename_i ahead
    rw [if_neg (by omega), window_eq_block (by omega)]
  · rename_i wrapped
    have length : (s.head - s.tail + fifoLength).toNat =
        (fifoLength - s.tail).toNat + s.head.toNat := by omega
    rw [if_pos (by omega), length, window_wrap (by omega) (by omega)]

/-- A read of a queue: the front is in the destination, and the rest is left. -/
structure QueueRead (buffer : Nat → α) (pos samples : Nat) (s : Fifo α)
    (read : Nat) (buffer' : Nat → α) (s' : Fifo α) : Prop where
  read_eq : read = min samples s.contents.length
  filled : block buffer' pos read = s.contents.take read
  others : ∀ i, i < pos ∨ pos + read ≤ i → buffer' i = buffer i
  rest : s'.contents = s.contents.drop read
  fifo : s'.fifo = s.fifo
  head : s'.head = s.head
  tail_nonneg : 0 ≤ s'.tail
  tail_lt : s'.tail < fifoLength
  length_before : getSampleLength s.head s.tail = s.contents.length
  length_after : getSampleLength s'.head s'.tail = s'.contents.length

/-- **The ring is a queue**: `fifo_read` takes its front, and `get_sample_length` is its length. -/
theorem fifoRead_refines (buffer : Nat → α) (pos samples : Nat) {s : Fifo α} (range : s.InRange) :
    QueueRead buffer pos samples s (fifoRead buffer pos samples s).1
      (fifoRead buffer pos samples s).2.1 (fifoRead buffer pos samples s).2.2 := by
  have reads := fifoRead_spec buffer pos samples range
  have before := range.contents_eq
  have after := reads.range.contents_eq
  constructor
  · rw [before, Fifo.queue_length]
    exact reads.read_eq
  · rw [before]
    exact reads.copied
  · intro i outside
    rcases outside with front | behind
    · exact reads.before i front
    · exact reads.after i behind
  · rw [after, before]
    exact reads.left
  · exact reads.fifo
  · exact reads.head
  · exact reads.range.tail_nonneg
  · exact reads.range.tail_lt
  · rw [before, Fifo.queue_length]
  · rw [after, Fifo.queue_length]

/-- A ring whose contents go over its end. -/
def wrappedRing : Fifo Nat where
  fifo := id
  head := 3
  tail := 199998

theorem fifoRead_refines_wrappedRing :
    QueueRead (fun _ => 0) 0 4 wrappedRing (fifoRead (fun _ => 0) 0 4 wrappedRing).1
      (fifoRead (fun _ => 0) 0 4 wrappedRing).2.1 (fifoRead (fun _ => 0) 0 4 wrappedRing).2.2 :=
  fifoRead_refines (fun _ => 0) 0 4 ⟨by decide, by decide, by decide, by decide⟩

end Navisim.RealTime

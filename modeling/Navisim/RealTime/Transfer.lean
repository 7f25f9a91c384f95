import Navisim.Lib.Interleaving
import Navisim.RealTime.Fifo

/-!
# From generated to sent samples

The two ends of the sample ring, with the samples: the generator waits until fewer than
`NUM_IQ_SAMPLES` samples are queued, copies its block to `head` and advances `head`; the
transmitter waits until the ring is not empty, calls `fifo_read` until `SAMPLES_PER_BUFFER`
samples are gathered and passes them to `LMS_SendStream`.  Each of these is one atomic step; that
the advance of `head` is one is an assumption, since the source stores the sum and the wrapped
sum one after the other, outside `gps.lock`.

The invariant is that the samples sent, gathered and queued, in this order, are the samples
generated (`Inv.stream`).
-/

namespace Navisim.RealTime

open Interleaving RingBuffer

/-- The program points of the generator in front of the ring. -/
inductive GpsStage
  | wait
  | copy
  | advance
  deriving DecidableEq, Repr

/-- The program points of the transmitter; `took` carries `samples_populated`. -/
inductive TxStage
  | wait
  | read
  | took (samplesPopulated : Nat)
  | send
  deriving DecidableEq, Repr

/-- The samples `fifo_read` has put behind `tx_buffer_current`. -/
def TxStage.taken : TxStage → Nat
  | .took samplesPopulated => samplesPopulated
  | _ => 0

inductive Side
  | gps
  | tx
  deriving DecidableEq, Repr

/-- The ring and its two ends.  `filled` is `tx_buffer_current - s->tx.buffer` in samples, and
`sent` what has been passed to `LMS_SendStream`. -/
structure Transfer (α : Type*) where
  ring : Fifo α
  gps : GpsStage
  iumd : Nat
  tx : TxStage
  buffer : Nat → α
  filled : Nat
  bufferSamplesRemaining : Nat
  sent : List α

variable {α : Type*}

/-- The ring after `init_sim`, with whatever `malloc` left in the two buffers. -/
def Transfer.init (fifo buffer : Nat → α) : Transfer α where
  ring := { fifo := fifo, head := 0, tail := 0 }
  gps := .wait
  iumd := 1
  tx := .wait
  buffer := buffer
  filled := 0
  bufferSamplesRemaining := samplesPerBuffer
  sent := []

/-- Subtraction of `unsigned int`. -/
def subUnsigned (a b : Nat) : Nat :=
  (a + (2 ^ 32 - b % 2 ^ 32)) % 2 ^ 32

/-- `s->head += NUM_IQ_SAMPLES`, wrapped at the end of the ring. -/
def advanceHead (head : Int) : Int :=
  let head := head + numIqSamples
  if head ≥ fifoLength then head - fifoLength else head

/-- The write into the ring of iteration `iumd`, whose samples are `iqBuff iumd`. -/
def Transfer.stepGps (numd : Nat) (iqBuff : Nat → Nat → α) (s : Transfer α) :
    Option (Transfer α) :=
  match s.gps with
  | .wait =>
      if s.iumd < numd ∧ isFifoWriteReady s.ring.head s.ring.tail then
        some { s with gps := .copy }
      else none
  | .copy =>
      let fifo := copy s.ring.fifo s.ring.head.toNat (iqBuff s.iumd) 0 numIqSamples
      some { s with ring := { s.ring with fifo := fifo }, gps := .advance }
  | .advance =>
      -- Two stores in the source, of which a reader in between would see the first.
      let head := advanceHead s.ring.head
      some { s with ring := { s.ring with head := head }, iumd := s.iumd + 1, gps := .wait }

def Transfer.stepTx (s : Transfer α) : Option (Transfer α) :=
  match s.tx with
  | .wait =>
      if getSampleLength s.ring.head s.ring.tail = 0 then none else some { s with tx := .read }
  | .read =>
      let read := fifoRead s.buffer s.filled s.bufferSamplesRemaining s.ring
      some { s with tx := .took read.1, buffer := read.2.1, ring := read.2.2 }
  | .took samplesPopulated =>
      let remaining := subUnsigned s.bufferSamplesRemaining samplesPopulated
      some { s with
        bufferSamplesRemaining := remaining
        filled := s.filled + samplesPopulated
        tx := if remaining > 0 then .wait else .send }
  | .send =>
      some { s with
        sent := s.sent ++ block s.buffer 0 samplesPerBuffer
        bufferSamplesRemaining := samplesPerBuffer
        filled := 0
        tx := .wait }

/-- The two ends for a run that generates the blocks `iumd = 1 .. numd-1`. -/
def transfer (numd : Nat) (iqBuff : Nat → Nat → α) : Program Side (Transfer α)
  | .gps => Transfer.stepGps numd iqBuff
  | .tx => Transfer.stepTx

/-- The samples of the blocks `1 .. blocks`, in order. -/
def generated (iqBuff : Nat → Nat → α) (blocks : Nat) : List α :=
  (List.range blocks).flatMap fun i => block (iqBuff (i + 1)) 0 numIqSamples

theorem generated_succ (iqBuff : Nat → Nat → α) (blocks : Nat) :
    generated iqBuff (blocks + 1) =
      generated iqBuff blocks ++ block (iqBuff (blocks + 1)) 0 numIqSamples := by
  simp [generated, List.range_succ]

/-! ## The invariant -/

/-- What the transmitter's counters say at each program point. -/
def TxStage.Counts (remaining : Nat) : TxStage → Prop
  | .wait | .read => 0 < remaining
  | .took samplesPopulated => samplesPopulated ≤ remaining
  | .send => remaining = 0

structure Transfer.Inv (iqBuff : Nat → Nat → α) (s : Transfer α) : Prop where
  range : s.ring.InRange
  /-- The generator writes whole halves of the ring. -/
  aligned : s.ring.head = 0 ∨ s.ring.head = numIqSamples
  iumd_pos : 1 ≤ s.iumd
  room : s.gps ≠ .wait → getSampleLength s.ring.head s.ring.tail < numIqSamples
  copied : s.gps = .advance →
    block s.ring.fifo s.ring.head.toNat numIqSamples = block (iqBuff s.iumd) 0 numIqSamples
  gathered : s.filled + s.bufferSamplesRemaining = samplesPerBuffer
  counts : s.tx.Counts s.bufferSamplesRemaining
  stream : s.sent ++ block s.buffer 0 (s.filled + s.tx.taken) ++ s.ring.queue =
    generated iqBuff (s.iumd - 1)

theorem Transfer.Inv.init (iqBuff : Nat → Nat → α) (fifo buffer : Nat → α) :
    (Transfer.init fifo buffer).Inv iqBuff where
  range := ⟨le_rfl, (by decide : (0 : Int) < fifoLength), le_rfl,
    (by decide : (0 : Int) < fifoLength)⟩
  aligned := Or.inl rfl
  iumd_pos := le_rfl
  room waiting := (waiting rfl).elim
  copied advancing := by cases advancing
  gathered := by simp [Transfer.init]
  counts := (by decide : 0 < samplesPerBuffer)
  stream := by
    simp [Transfer.init, TxStage.taken, generated, Fifo.queue, getSampleLength]

/-- The half of the ring in front of `head` holds no unread sample. -/
theorem Fifo.InRange.disjoint {s : Fifo α} (range : s.InRange)
    (aligned : s.head = 0 ∨ s.head = numIqSamples)
    (room : getSampleLength s.head s.tail < numIqSamples) {i j : Nat}
    (unread : i < getSampleLength s.head s.tail) (written : j < numIqSamples) :
    (s.tail.toNat + i) % fifoLength ≠ s.head.toNat + j := by
  have ends := range.tail_add_getSampleLength
  have half : fifoLength = numIqSamples + numIqSamples := by decide
  have position : (s.tail.toNat + getSampleLength s.head s.tail + j) % fifoLength =
      s.head.toNat + j := by
    rw [Nat.add_mod, ends, Nat.mod_eq_of_lt (a := j) (by omega), Nat.mod_eq_of_lt (by omega)]
  rw [← position]
  exact mod_ne_of_lt (by omega) (by omega)

/-- Copying a block into that half leaves the queue as it is. -/
theorem Fifo.queue_copy {s : Fifo α} (range : s.InRange)
    (aligned : s.head = 0 ∨ s.head = numIqSamples)
    (room : getSampleLength s.head s.tail < numIqSamples) (src : Nat → α) :
    Fifo.queue { s with fifo := copy s.fifo s.head.toNat src 0 numIqSamples } = s.queue := by
  apply window_copy_of_outside
  intro i unread
  dsimp only at unread ⊢
  by_contra inside
  refine range.disjoint aligned room unread
    (j := (s.tail.toNat + i) % fifoLength - s.head.toNat) ?_ ?_ <;> omega

theorem advanceHead_aligned {head : Int} (aligned : head = 0 ∨ head = numIqSamples) :
    advanceHead head = 0 ∨ advanceHead head = numIqSamples := by
  rcases aligned with rfl | rfl
  · exact Or.inr (by decide)
  · exact Or.inl (by decide)

/-- Advancing `head` appends the half it passes over to the queue. -/
theorem Fifo.queue_advance {s : Fifo α} (range : s.InRange)
    (aligned : s.head = 0 ∨ s.head = numIqSamples)
    (room : getSampleLength s.head s.tail < numIqSamples) :
    Fifo.queue { s with head := advanceHead s.head } =
      s.queue ++ block s.fifo s.head.toNat numIqSamples := by
  have ends := range.tail_add_getSampleLength
  have half : fifoLength = numIqSamples + numIqSamples := by decide
  have length : getSampleLength (advanceHead s.head) s.tail =
      getSampleLength s.head s.tail + numIqSamples := by
    obtain ⟨h1, h2, h3, h4⟩ := range
    unfold getSampleLength at room ⊢
    unfold advanceHead
    dsimp only at room ⊢
    split at room <;> split <;> split <;> omega
  have written : window fifoLength s.fifo (s.tail.toNat + getSampleLength s.head s.tail)
      numIqSamples = block s.fifo s.head.toNat numIqSamples := by
    rw [← window_eq_block (n := fifoLength) (by omega)]
    apply window_start
    rw [ends, Nat.mod_eq_of_lt (by omega)]
  unfold Fifo.queue
  rw [length, window_append, written]

theorem subUnsigned_of_le {a b : Nat} (le : b ≤ a) (lt : a < 2 ^ 32) :
    subUnsigned a b = a - b := by
  unfold subUnsigned
  omega

/-! ## Steps -/

section Steps

variable {numd : Nat} {iqBuff : Nat → Nat → α} {s t : Transfer α}

theorem Transfer.Inv.step_gps (inv : s.Inv iqBuff) (step : s.stepGps numd iqBuff = some t) :
    t.Inv iqBuff := by
  obtain ⟨range, aligned, iumd_pos, room, copied, gathered, counts, stream⟩ := inv
  unfold Transfer.stepGps at step
  split at step
  · split at step
    · rename_i ready
      cases step
      have space : getSampleLength s.ring.head s.ring.tail < numIqSamples := by
        simpa [isFifoWriteReady] using ready.2
      exact ⟨range, aligned, iumd_pos, fun _ => space, nofun, gathered, counts, stream⟩
    · cases step
  · rename_i pc
    cases step
    have space := room (by simp [pc])
    refine ⟨⟨range.1, range.2, range.3, range.4⟩, aligned, iumd_pos, fun _ => space,
      fun _ => block_copy, gathered, counts, ?_⟩
    rw [Fifo.queue_copy range aligned space]
    exact stream
  · rename_i pc
    cases step
    have space := room (by simp [pc])
    have aligned' := advanceHead_aligned aligned
    have range' : Fifo.InRange { s.ring with head := advanceHead s.ring.head } := by
      have positive : (0 : Int) < numIqSamples ∧ (numIqSamples : Int) < fifoLength := by decide
      exact ⟨by dsimp only; omega, by dsimp only; omega, range.3, range.4⟩
    refine ⟨range', aligned', by dsimp only; omega, fun moved => (moved rfl).elim, nofun,
      gathered, counts, ?_⟩
    rw [Fifo.queue_advance range aligned space, copied pc, ← List.append_assoc, stream]
    dsimp only
    obtain ⟨blocks, total⟩ := Nat.exists_eq_add_of_le' iumd_pos
    rw [total, Nat.add_sub_cancel, Nat.add_sub_cancel, generated_succ]

theorem Transfer.Inv.step_tx (inv : s.Inv iqBuff) (step : s.stepTx = some t) :
    t.Inv iqBuff := by
  obtain ⟨range, aligned, iumd_pos, room, copied, gathered, counts, stream⟩ := inv
  have word : samplesPerBuffer < 2 ^ 32 := by decide
  unfold Transfer.stepTx at step
  split at step
  · rename_i pc
    rw [pc] at counts stream
    split at step
    · cases step
    · cases step
      exact ⟨range, aligned, iumd_pos, room, copied, gathered, counts, stream⟩
  · rename_i pc
    cases step
    rw [pc] at counts stream
    have reads := fifoRead_spec s.buffer s.filled s.bufferSamplesRemaining range
    generalize fifoRead s.buffer s.filled s.bufferSamplesRemaining s.ring = read at reads ⊢
    obtain ⟨read_eq, fresh, before, after, left, fifo, head, range'⟩ := reads
    have shorter : getSampleLength read.2.2.head read.2.2.tail ≤
        getSampleLength s.ring.head s.ring.tail := by
      rw [← Fifo.queue_length, ← Fifo.queue_length, left, List.length_drop]
      omega
    refine ⟨range', by simpa [head] using aligned, iumd_pos,
      fun moved => lt_of_le_of_lt shorter (room moved), ?_, gathered, ?_, ?_⟩
    · simpa [fifo, head] using copied
    · simp only [TxStage.Counts, read_eq]
      omega
    · have gatheredBefore : block read.2.1 0 s.filled = block s.buffer 0 s.filled :=
        block_congr fun i bound => by simpa using before i bound
      simp only [TxStage.taken, block_append, Nat.zero_add, gatheredBefore, fresh, left]
      rw [← stream]
      simp [TxStage.taken, List.append_assoc, List.take_append_drop]
  · rename_i samplesPopulated pc
    cases step
    rw [pc] at counts stream
    have le : samplesPopulated ≤ s.bufferSamplesRemaining := counts
    have remaining := subUnsigned_of_le le (by omega)
    simp only [remaining]
    refine ⟨range, aligned, iumd_pos, room, copied, by dsimp only; omega, ?_, ?_⟩
    · dsimp only
      split
      · assumption
      · exact Nat.eq_zero_of_not_pos ‹_›
    · dsimp only
      split <;> simpa [TxStage.taken] using stream
  · rename_i pc
    cases step
    rw [pc] at counts stream
    have empty : s.bufferSamplesRemaining = 0 := counts
    have full : s.filled = samplesPerBuffer := by omega
    refine ⟨range, aligned, iumd_pos, room, copied, by dsimp only; omega,
      (by decide : 0 < samplesPerBuffer), ?_⟩
    simpa [TxStage.taken, full] using stream

/-- Every step keeps the invariant. -/
theorem Transfer.Inv.step {i : Side} (inv : s.Inv iqBuff)
    (step : transfer numd iqBuff i s = some t) : t.Inv iqBuff := by
  cases i with
  | gps => exact inv.step_gps step
  | tx => exact inv.step_tx step

end Steps

/-! ## Runs -/

/-- The samples that `fifo_read` has put into the buffer of the block in progress. -/
def Transfer.gathered (s : Transfer α) : List α :=
  block s.buffer 0 (s.filled + s.tx.taken)

/-- What the transfer promises in a state. -/
structure Transfer.Safe (iqBuff : Nat → Nat → α) (s : Transfer α) : Prop where
  /-- In order: the samples sent are a prefix of the samples generated. -/
  sent_prefix : s.sent <+: generated iqBuff (s.iumd - 1)
  /-- No loss, no duplication: what is not sent yet is gathered or queued. -/
  rest : s.sent ++ s.gathered ++ s.ring.queue = generated iqBuff (s.iumd - 1)
  /-- The half being written lies in the ring and holds no unread sample. -/
  disjoint : s.gps ≠ .wait → s.ring.head + numIqSamples ≤ fifoLength ∧
    ∀ i < getSampleLength s.ring.head s.ring.tail, ∀ j < numIqSamples,
      (s.ring.tail.toNat + i) % fifoLength ≠ s.ring.head.toNat + j
  /-- Equal positions: every generated sample has been read. -/
  empty : s.ring.head = s.ring.tail ↔ s.sent ++ s.gathered = generated iqBuff (s.iumd - 1)
  /-- `buffer_samples_remaining -= samples_populated` does not wrap. -/
  remaining : ∀ samplesPopulated, s.tx = .took samplesPopulated →
    samplesPopulated ≤ s.bufferSamplesRemaining ∧
      subUnsigned s.bufferSamplesRemaining samplesPopulated =
        s.bufferSamplesRemaining - samplesPopulated

theorem Transfer.Inv.safe {iqBuff : Nat → Nat → α} {s : Transfer α} (inv : s.Inv iqBuff) :
    s.Safe iqBuff := by
  have queued := Fifo.queue_length s.ring
  constructor
  · exact ⟨s.gathered ++ s.ring.queue, by rw [← List.append_assoc]; exact inv.stream⟩
  · exact inv.stream
  · intro moved
    have half : fifoLength = numIqSamples + numIqSamples := by decide
    have aligned := inv.aligned
    exact ⟨by omega, fun i unread j written =>
      inv.range.disjoint inv.aligned (inv.room moved) unread written⟩
  · rw [← getSampleLength_eq_zero inv.range.head_nonneg inv.range.tail_lt, ← queued,
      List.length_eq_zero_iff, ← inv.stream]
    exact List.self_eq_append_right.symm
  · intro samplesPopulated pc
    have counts := inv.counts
    rw [pc] at counts
    have word : samplesPerBuffer < 2 ^ 32 := by decide
    exact ⟨counts, subUnsigned_of_le counts (by have := inv.gathered; omega)⟩

/-- **The ring carries the signal.**  For every number of blocks, whatever the samples are and
in whatever order the two ends move, the samples sent are a prefix of the samples generated,
the block being written overlaps no unread sample, equal positions mean an empty ring and the
count of missing samples does not wrap. -/
theorem transfer_safe (numd : Nat) (iqBuff : Nat → Nat → α) (fifo buffer : Nat → α)
    (s : Transfer α) (run : Reach (transfer numd iqBuff) (Transfer.init fifo buffer) s) :
    s.Safe iqBuff :=
  (run.invariant (I := fun s : Transfer α => s.Inv iqBuff) (Transfer.Inv.init iqBuff fifo buffer)
    fun _ _ _ _ inv step => inv.step step).safe

/-- A run with one block, up to the return of the first `fifo_read`. -/
theorem transfer_safe_oneBlock :
    ∃ s, Reach (transfer 2 fun iumd isamp => iumd + isamp)
        (Transfer.init (fun _ => 0) fun _ => 0) s ∧
      s.tx = .took numIqSamples ∧ s.Safe fun iumd isamp => iumd + isamp := by
  have run : Reach (transfer 2 fun iumd isamp => iumd + isamp)
      (Transfer.init (fun _ => 0) fun _ => 0) _ :=
    ReachIf.of_execIf [.gps, .gps, .gps, .tx, .tx] rfl
  exact ⟨_, run, rfl, transfer_safe 2 _ _ _ _ run⟩

end Navisim.RealTime

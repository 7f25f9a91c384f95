import Navisim.Lib.Ring
import Navisim.RealTime.Transfer

/-!
# The packet ring

`RingFIFO`, the ring of packets between `LMS_SendStream` and the thread that feeds the device, one
turn of its loops at a time: `push_samples` cuts what it is given into packets, `pop_samples` takes
packets apart again.  The positions are advanced with a mask, so the ring has to have a power of
two of packets, which `StreamChannel` sees to (`streamChannel_wellFormed`).  A turn of
`push_samples` appends samples to the queue (`contents_put`), and one of `pop_samples` takes them
from its front (`contents_take`).
-/

namespace Navisim.RealTime

open RingBuffer

/-! ## `IConnection.h`, `dataTypes.h` -/

def syncTimestamp : BitVec 32 := 1
def endBurst : BitVec 32 := 2
def overwriteOld : BitVec 32 := 4

def samples12InPkt : Nat := 1360

def maxSamplesInPacket : Nat := samples12InPkt

structure SamplesPacket (α : Type*) where
  /-- timestamp of the packet -/
  timestamp : BitVec 64
  /-- index of first unused sample in samples -/
  first : Nat
  /-- end index of samples -/
  last : Nat
  samples : Nat → α
  flags : BitVec 32

structure RingFifo (α : Type*) where
  mBufferSize : Nat
  mBuffer : Nat → SamplesPacket α
  mHead : Nat
  mTail : Nat
  mElementsFilled : Nat

/-- What `push_samples` is called with. -/
structure Push (α : Type*) where
  buffer : Nat → α
  samplesCount : Nat
  timestamp : BitVec 64
  flags : BitVec 32

/-- What `pop_samples` has written so far. -/
structure Popped (α : Type*) where
  buffer : Nat → α
  samplesFilled : Nat
  timestamp : BitVec 64
  flags : BitVec 32

variable {α : Type*}

namespace RingFifo

/-- The constructor, with whatever the packets hold; `bufLength` is a `uint32_t`. -/
def new (bufLength : Nat) (mBuffer : Nat → SamplesPacket α) : RingFifo α where
  mBufferSize := 1 + (bufLength - 1) / maxSamplesInPacket
  mBuffer := mBuffer
  mHead := 0
  mTail := 0
  mElementsFilled := 0

/-- advance to next one -/
def next (fifo : RingFifo α) (position : Nat) : Nat :=
  (position + 1) &&& (fifo.mBufferSize - 1)

/-- The branch of `push_samples` that fills a packet: the ring, and `samplesTaken`. -/
def put (fifo : RingFifo α) (call : Push α) (samplesTaken : Nat) : RingFifo α × Nat :=
  let rest := call.samplesCount - samplesTaken
  let cnt := if rest > maxSamplesInPacket then maxSamplesInPacket else rest
  let flags := if rest > maxSamplesInPacket then call.flags &&& syncTimestamp else call.flags
  let packet :=
    { timestamp := call.timestamp + BitVec.ofNat 64 samplesTaken
      first := 0
      last := cnt
      samples := copy (fifo.mBuffer fifo.mTail).samples 0 call.buffer samplesTaken cnt
      flags }
  ({ fifo with
      mBuffer := Function.update fifo.mBuffer fifo.mTail packet
      mTail := fifo.next fifo.mTail
      mElementsFilled := fifo.mElementsFilled + 1 },
    samplesTaken + cnt)

/-- The branch of `push_samples` that drops old packets. -/
def drop (fifo : RingFifo α) (call : Push α) (samplesTaken : Nat) : RingFifo α :=
  let dropElements := 1 + (call.samplesCount - samplesTaken) / maxSamplesInPacket
  { fifo with
    mHead := (fifo.mHead + dropElements) &&& (fifo.mBufferSize - 1)
    mElementsFilled := subUnsigned fifo.mElementsFilled dropElements }

/-- A turn of the loop of `push_samples`, or none if it has to wait. -/
def pushTurn (fifo : RingFifo α) (call : Push α) (samplesTaken : Nat) :
    Option (RingFifo α × Nat) :=
  if fifo.mElementsFilled ≥ fifo.mBufferSize then
    if call.flags &&& overwriteOld ≠ 0 then some (fifo.drop call samplesTaken, samplesTaken)
    else none
  else some (fifo.put call samplesTaken)

/-- A turn of the inner loop of `pop_samples`: the ring, what has been written, and `hasEOB`. -/
def take (fifo : RingFifo α) (samplesCount : Nat) (into : Popped α) :
    RingFifo α × Popped α × Bool :=
  let packet := fifo.mBuffer fifo.mHead
  let timestamp :=
    if into.samplesFilled = 0 then packet.timestamp + BitVec.ofNat 64 packet.first
    else into.timestamp
  let hasEOB := packet.flags &&& endBurst ≠ 0
  let cnt := samplesCount - into.samplesFilled
  let cntbuf := packet.last - packet.first
  let cnt := if cnt > cntbuf then cntbuf else cnt
  let into :=
    { buffer := copy into.buffer into.samplesFilled packet.samples packet.first cnt
      samplesFilled := into.samplesFilled + cnt
      timestamp
      flags := into.flags ||| packet.flags }
  let fifo :=
    if cntbuf = cnt then -- packet depleted
      { fifo with
        mHead := fifo.next fifo.mHead
        mElementsFilled := fifo.mElementsFilled - 1 }
    else
      { fifo with
        mBuffer := Function.update fifo.mBuffer fifo.mHead
          { packet with first := packet.first + cnt } }
  (fifo, into, hasEOB)

end RingFifo

/-- The loop that rounds the length of the ring up, for `size_t` operands. -/
def roundUp (wanted : Nat) : (turns fifoSize : Nat) → Nat
  | 0, fifoSize => fifoSize
  | turns + 1, fifoSize =>
    if fifoSize < wanted then roundUp wanted turns (2 * fifoSize) else fifoSize

/-- The ring of a `StreamChannel` for the `fifoSize` of the stream; its length in samples is passed
on as a `uint32_t`. -/
def streamChannelFifo (fifoSize : Nat) (mBuffer : Nat → SamplesPacket α) : RingFifo α :=
  let bufferLength :=
    if fifoSize = 0 then 1024 * 8 * maxSamplesInPacket
    else roundUp (fifoSize / maxSamplesInPacket) 32 64 * maxSamplesInPacket
  RingFifo.new (bufferLength % 2 ^ 32) mBuffer

/-! ## The queue -/

/-- The samples of a packet that have not been popped. -/
def SamplesPacket.unread (packet : SamplesPacket α) : List α :=
  block packet.samples packet.first (packet.last - packet.first)

/-- A packet that holds samples. -/
structure SamplesPacket.Filled (packet : SamplesPacket α) : Prop where
  some : packet.first < packet.last
  fits : packet.last ≤ maxSamplesInPacket

namespace RingFifo

variable {fifo : RingFifo α} {call : Push α} {into : Popped α} {samplesTaken samplesCount : Nat}

/-- The packets from the head on. -/
def packets (fifo : RingFifo α) : List (SamplesPacket α) :=
  window fifo.mBufferSize fifo.mBuffer fifo.mHead fifo.mElementsFilled

/-- The samples in the ring, in order. -/
def contents (fifo : RingFifo α) : List α :=
  fifo.packets.flatMap SamplesPacket.unread

structure WellFormed (fifo : RingFifo α) : Prop where
  power : ∃ k, fifo.mBufferSize = 2 ^ k
  head_lt : fifo.mHead < fifo.mBufferSize
  filled_le : fifo.mElementsFilled ≤ fifo.mBufferSize
  tail_eq : fifo.mTail = (fifo.mHead + fifo.mElementsFilled) % fifo.mBufferSize
  filled : ∀ packet ∈ fifo.packets, packet.Filled

theorem WellFormed.next_eq (wellFormed : fifo.WellFormed) (position : Nat) :
    fifo.next position = (position + 1) % fifo.mBufferSize := by
  obtain ⟨k, power⟩ := wellFormed.power
  rw [next, power]
  exact Nat.and_two_pow_sub_one_eq_mod _ k

theorem WellFormed.size_pos (wellFormed : fifo.WellFormed) : 0 < fifo.mBufferSize :=
  Nat.zero_lt_of_lt wellFormed.head_lt

/-! ## Pushing -/

/-- How many samples a turn puts into the ring. -/
def putCount (call : Push α) (samplesTaken : Nat) : Nat :=
  if call.samplesCount - samplesTaken > maxSamplesInPacket then maxSamplesInPacket
  else call.samplesCount - samplesTaken

theorem put_snd : (fifo.put call samplesTaken).2 = samplesTaken + putCount call samplesTaken :=
  rfl

/-- A turn puts one packet behind the others. -/
theorem packets_put (call : Push α) (samplesTaken : Nat) (wellFormed : fifo.WellFormed)
    (room : fifo.mElementsFilled < fifo.mBufferSize) :
    ∃ packet, (fifo.put call samplesTaken).1.packets = fifo.packets ++ [packet] ∧
      packet.first = 0 ∧ packet.last = putCount call samplesTaken ∧
      block packet.samples 0 packet.last =
        block call.buffer samplesTaken (putCount call samplesTaken) ∧
      (call.flags = 0 → packet.flags = 0) := by
  refine ⟨(fifo.put call samplesTaken).1.mBuffer fifo.mTail, ?_, ?_⟩
  · have behind : (fifo.mHead + fifo.mElementsFilled) % fifo.mBufferSize = fifo.mTail :=
      wellFormed.tail_eq.symm
    have before : ∀ i < fifo.mElementsFilled,
        (fifo.mHead + i) % fifo.mBufferSize ≠ fifo.mTail := by
      intro i inside
      rw [← behind]
      exact mod_ne_of_lt (by omega) (by omega)
    change window _ _ _ (fifo.mElementsFilled + 1) = _
    rw [window_snoc]
    change window fifo.mBufferSize (Function.update _ _ _) fifo.mHead _ ++
      [(fifo.put call samplesTaken).1.mBuffer
        ((fifo.mHead + fifo.mElementsFilled) % fifo.mBufferSize)] = _
    rw [window_update before, behind]
    rfl
  · have packet : (fifo.put call samplesTaken).1.mBuffer fifo.mTail = _ :=
      Function.update_self ..
    rw [packet]
    refine ⟨rfl, rfl, block_copy, fun plain => ?_⟩
    dsimp only
    rw [plain]
    split <;> rfl

/-- **A turn of `push_samples`** appends samples to the queue. -/
theorem contents_put (call : Push α) (wellFormed : fifo.WellFormed)
    (room : fifo.mElementsFilled < fifo.mBufferSize) (more : samplesTaken < call.samplesCount) :
    (fifo.put call samplesTaken).1.WellFormed ∧
      (fifo.put call samplesTaken).1.contents =
        fifo.contents ++ block call.buffer samplesTaken (putCount call samplesTaken) := by
  obtain ⟨packet, packets, first, last, samples, -⟩ :=
    packets_put call samplesTaken wellFormed room
  have count : 0 < putCount call samplesTaken ∧
      putCount call samplesTaken ≤ maxSamplesInPacket := by
    have positive : 0 < maxSamplesInPacket := by decide
    unfold putCount
    split <;> omega
  refine ⟨⟨wellFormed.power, wellFormed.head_lt, room, ?_, ?_⟩, ?_⟩
  · change fifo.next fifo.mTail = (fifo.mHead + (fifo.mElementsFilled + 1)) % fifo.mBufferSize
    rw [wellFormed.next_eq, wellFormed.tail_eq, Nat.mod_add_mod, Nat.add_assoc]
  · intro other member
    rw [packets, List.mem_append, List.mem_singleton] at member
    rcases member with old | rfl
    · exact wellFormed.filled other old
    · exact ⟨by omega, by omega⟩
  · rw [contents, packets, List.flatMap_append, List.flatMap_singleton, SamplesPacket.unread,
      first, Nat.sub_zero, samples]
    rfl

/-! ## Popping -/

/-- How many samples a turn takes out of the packet in front. -/
def takeCount (fifo : RingFifo α) (samplesCount : Nat) (into : Popped α) : Nat :=
  let packet := fifo.mBuffer fifo.mHead
  let cnt := samplesCount - into.samplesFilled
  let cntbuf := packet.last - packet.first
  if cnt > cntbuf then cntbuf else cnt

theorem take_fst : (fifo.take samplesCount into).1 =
    if (fifo.mBuffer fifo.mHead).last - (fifo.mBuffer fifo.mHead).first =
        fifo.takeCount samplesCount into then
      { fifo with
        mHead := fifo.next fifo.mHead
        mElementsFilled := fifo.mElementsFilled - 1 }
    else
      { fifo with
        mBuffer := Function.update fifo.mBuffer fifo.mHead
          { fifo.mBuffer fifo.mHead with
            first := (fifo.mBuffer fifo.mHead).first + fifo.takeCount samplesCount into } } :=
  rfl

/-- A turn takes the packet in front away or cuts it. -/
theorem packets_take (samplesCount : Nat) (into : Popped α) (wellFormed : fifo.WellFormed)
    (some : 0 < fifo.mElementsFilled) :
    ∃ packet rest, fifo.packets = packet :: rest ∧
      (fifo.take samplesCount into).1.packets =
        (if packet.last - packet.first = fifo.takeCount samplesCount into then rest
          else { packet with first := packet.first + fifo.takeCount samplesCount into } :: rest) ∧
      packet = fifo.mBuffer fifo.mHead := by
  refine ⟨fifo.mBuffer fifo.mHead, _, window_cons wellFormed.head_lt some, ?_, rfl⟩
  rw [take_fst]
  split
  · change window fifo.mBufferSize fifo.mBuffer (fifo.next fifo.mHead)
      (fifo.mElementsFilled - 1) = _
    rw [wellFormed.next_eq]
    exact window_start (Nat.mod_mod _ _)
  · have after : ∀ i < fifo.mElementsFilled - 1,
        (fifo.mHead + 1 + i) % fifo.mBufferSize ≠ fifo.mHead := by
      intro i inside
      have here : fifo.mHead = fifo.mHead % fifo.mBufferSize :=
        (Nat.mod_eq_of_lt wellFormed.head_lt).symm
      have bound := wellFormed.filled_le
      rw [here]
      exact (mod_ne_of_lt (by omega) (by omega)).symm
    change window fifo.mBufferSize (Function.update _ _ _) fifo.mHead fifo.mElementsFilled = _
    rw [window_cons wellFormed.head_lt some, window_update after, Function.update_self]

/-- **A turn of the inner loop of `pop_samples`** takes samples from the front of the queue. -/
theorem contents_take (wellFormed : fifo.WellFormed) (some : 0 < fifo.mElementsFilled)
    (wanted : into.samplesFilled < samplesCount) :
    (fifo.take samplesCount into).1.WellFormed ∧
      0 < fifo.takeCount samplesCount into ∧
      (fifo.take samplesCount into).2.1.samplesFilled =
        into.samplesFilled + fifo.takeCount samplesCount into ∧
      into.samplesFilled + fifo.takeCount samplesCount into ≤ samplesCount ∧
      block (fifo.take samplesCount into).2.1.buffer 0
          (into.samplesFilled + fifo.takeCount samplesCount into) ++
        (fifo.take samplesCount into).1.contents =
      block into.buffer 0 into.samplesFilled ++ fifo.contents := by
  obtain ⟨packet, rest, packets, packets', front⟩ :=
    packets_take samplesCount into wellFormed some
  have filled := wellFormed.filled packet (by rw [packets]; exact List.mem_cons_self ..)
  obtain ⟨unreadSome, fits⟩ := filled
  have count : 0 < fifo.takeCount samplesCount into ∧
      fifo.takeCount samplesCount into ≤ packet.last - packet.first ∧
      into.samplesFilled + fifo.takeCount samplesCount into ≤ samplesCount := by
    unfold takeCount
    rw [← front]
    dsimp only
    split <;> omega
  have buffer : (fifo.take samplesCount into).2.1.buffer =
      copy into.buffer into.samplesFilled packet.samples packet.first
        (fifo.takeCount samplesCount into) := by
    rw [front]
    rfl
  have old : ∀ other ∈ rest, other.Filled := fun other member =>
    wellFormed.filled other (by rw [packets]; exact List.mem_cons_of_mem _ member)
  have unread : packet.unread = block packet.samples packet.first
        (fifo.takeCount samplesCount into) ++
      block packet.samples (packet.first + fifo.takeCount samplesCount into)
        (packet.last - (packet.first + fifo.takeCount samplesCount into)) := by
    rw [SamplesPacket.unread, ← block_append]
    congr 1
    omega
  have taken : block (fifo.take samplesCount into).2.1.buffer 0
        (into.samplesFilled + fifo.takeCount samplesCount into) =
      block into.buffer 0 into.samplesFilled ++
        block packet.samples packet.first (fifo.takeCount samplesCount into) := by
    rw [buffer, block_append, Nat.zero_add, block_copy, block_copy_of_le (by omega)]
  refine ⟨?_, count.1, rfl, count.2.2, ?_⟩
  · have filled' : ∀ other ∈ (fifo.take samplesCount into).1.packets, other.Filled := by
      rw [packets']
      split
      · exact old
      · intro other member
        rcases List.mem_cons.mp member with rfl | member
        · exact ⟨by dsimp only; omega, fits⟩
        · exact old other member
    have positive := wellFormed.size_pos
    rw [take_fst] at filled' ⊢
    by_cases depleted : (fifo.mBuffer fifo.mHead).last - (fifo.mBuffer fifo.mHead).first =
        fifo.takeCount samplesCount into
    · rw [if_pos depleted] at filled' ⊢
      refine ⟨wellFormed.power, ?_, (Nat.sub_le _ _).trans wellFormed.filled_le, ?_, filled'⟩
      · dsimp only
        rw [wellFormed.next_eq]
        exact Nat.mod_lt _ positive
      · dsimp only
        rw [wellFormed.next_eq, Nat.mod_add_mod, wellFormed.tail_eq]
        congr 1
        omega
    · rw [if_neg depleted] at filled' ⊢
      exact ⟨wellFormed.power, wellFormed.head_lt, wellFormed.filled_le, wellFormed.tail_eq,
        filled'⟩
  · rw [taken, contents, contents, packets, packets', List.flatMap_cons, unread]
    split
    · rename_i whole
      rw [show packet.last - (packet.first + fifo.takeCount samplesCount into) = 0 by omega,
        block_zero, List.append_nil, List.append_assoc]
    · rw [List.flatMap_cons, List.append_assoc, List.append_assoc]
      rfl

end RingFifo

/-! ## The length of the ring -/

section Length

variable {wanted turns j : Nat}

/-- The loop ends at a power of two that is large enough, and not far above it. -/
theorem roundUp_spec (j turns : Nat) (reachable : wanted ≤ 2 ^ (j + turns)) :
    ∃ k, roundUp wanted turns (2 ^ j) = 2 ^ k ∧ wanted ≤ 2 ^ k ∧
      ∀ limit ≥ j, wanted ≤ 2 ^ limit → k ≤ limit := by
  induction turns generalizing j with
  | zero => exact ⟨j, rfl, reachable, fun _ le _ => le⟩
  | succ turns ih =>
      rw [roundUp]
      split
      · rename_i short
        have double : 2 * 2 ^ j = 2 ^ (j + 1) := by rw [pow_succ, Nat.mul_comm]
        rw [double]
        obtain ⟨k, result, enough, least⟩ := ih (j := j + 1) (by rwa [Nat.add_right_comm])
        refine ⟨k, result, enough, fun limit le bound => least limit ?_ bound⟩
        have above : j < limit := (Nat.pow_lt_pow_iff_right (by decide)).mp (short.trans_le bound)
        omega
      · exact ⟨j, rfl, by omega, fun _ le _ => le⟩

/-- **The ring of a stream** is empty and has a power of two of packets, at least as many as were
asked for, as long as its length in samples fits into 32 bits. -/
theorem streamChannel_wellFormed {fifoSize : Nat} (mBuffer : Nat → SamplesPacket α)
    (bound : fifoSize / maxSamplesInPacket ≤ 2 ^ 21) :
    (streamChannelFifo fifoSize mBuffer).WellFormed ∧
      (streamChannelFifo fifoSize mBuffer).contents = [] ∧
      fifoSize / maxSamplesInPacket ≤ (streamChannelFifo fifoSize mBuffer).mBufferSize := by
  have size : ∃ k, (streamChannelFifo fifoSize mBuffer).mBufferSize = 2 ^ k ∧
      fifoSize / maxSamplesInPacket ≤ 2 ^ k := by
    unfold streamChannelFifo RingFifo.new
    dsimp only
    split
    · rename_i default
      exact ⟨13, by decide, by rw [default]; decide⟩
    · obtain ⟨k, result, enough, least⟩ := roundUp_spec 6 32
        (bound.trans (Nat.pow_le_pow_right (by decide) (by decide)))
      have below : 2 ^ k ≤ 2 ^ 21 := Nat.pow_le_pow_right (by decide)
        (least 21 (by decide) bound)
      have positive : 0 < 2 ^ k := Nat.two_pow_pos k
      have start : (64 : Nat) = 2 ^ 6 := by decide
      refine ⟨k, ?_, enough⟩
      rw [start, result]
      unfold maxSamplesInPacket samples12InPkt
      omega
  obtain ⟨k, power, enough⟩ := size
  refine ⟨⟨⟨k, power⟩, ?_, Nat.zero_le _, ?_, ?_⟩, rfl, by rw [power]; exact enough⟩
  · rw [power]
    exact Nat.two_pow_pos k
  · exact (Nat.zero_mod _).symm
  · intro packet member
    cases member

end Length

end Navisim.RealTime

import Navisim.RealTime.Link
import Navisim.RealTime.RingFifo

/-!
# From the generator to the device

The whole way of the samples: the generator and `tx_task_realTime` with the ring between them,
`LMS_SendStream` with the packet ring behind it, and `TransmitPacketsLoop`, which puts packets
into batches for the device.  Every turn of a loop is one step, and so is every expiry of a
`wait_for`; the generator waits, copies and advances `head` in a step each, as in
`Navisim.RealTime.Transfer`.  The steps of the sides come in any order.

A send that times out leaves the rest of its block, and an underflow the packets of its batch.
What reaches the device is otherwise, in order, what was generated (`chain_delivers`).
-/

namespace Navisim.RealTime

open Interleaving RingBuffer

/-! ## The device side -/

/-- `FPGA_DataPacket` -/
structure DataPacket where
  /-- `reserved[0]` -/
  reserved0 : BitVec 8
  counter : BitVec 64
  data : List (BitVec 8)

/-- The program points of `TransmitPacketsLoop`: in front of the call of `pop_samples`, in its
loop, in its `wait_for`, behind it, and behind an underflow. -/
inductive UsbStage
  | read
  | pop
  | waiting
  | popped
  | stopping
  | stopped
  deriving DecidableEq, Repr

/-- `samples` and `meta` of the loop, and the packets of the batch in progress. -/
structure Usb where
  stage : UsbStage
  into : Popped Complex16
  packets : List DataPacket

/-- What becomes of the samples that the loop has popped. -/
inductive Event
  /-- `BeginDataSending` of a batch -/
  | sent (packets : List DataPacket)
  /-- `underflow++`, with the packets of the batch and the samples that are given up -/
  | underflow (packets : List DataPacket) (samples : List Complex16)

/-- The two ends of the sample ring, the packet ring, the call of `push_samples` under way with
its `samplesTaken`, and the results of the calls before it. -/
structure Chain where
  transfer : Transfer Complex16
  fifo : RingFifo Complex16
  send : Option Nat
  returned : List Nat
  usb : Usb
  log : List Event

inductive ChainSide
  | gps
  | tx
  | sendTimer
  | usb
  | popTimer
  deriving DecidableEq, Repr

namespace Chain

/-- `LMS_SendStream(&tx_stream, s->tx.buffer, SAMPLES_PER_BUFFER, NULL, 1000)` -/
def call (c : Chain) : Push Complex16 where
  buffer := c.transfer.buffer
  samplesCount := samplesPerBuffer
  timestamp := 0
  flags := 0

/-- The return of `LMS_SendStream`; nothing looks at its result. -/
def finish (c : Chain) (samplesTaken : Nat) : Option Chain :=
  c.transfer.stepTx.map fun transfer =>
    { c with transfer, send := none, returned := c.returned ++ [samplesTaken] }

/-- `Write` starts the loop again if it has ended. -/
def restart (usb : Usb) : Usb :=
  if usb.stage = .stopped then { usb with stage := .read, packets := [] } else usb

def stepTx (c : Chain) : Option Chain :=
  match c.transfer.tx with
  | .send =>
      match c.send with
      | none => some { c with send := some 0, usb := restart c.usb }
      | some samplesTaken =>
          if samplesTaken < samplesPerBuffer then
            (c.fifo.pushTurn c.call samplesTaken).map fun turn =>
              { c with fifo := turn.1, send := some turn.2 }
          else c.finish samplesTaken
  | _ => c.transfer.stepTx.map fun transfer => { c with transfer }

/-- The wait of `push_samples` for a free packet ends without one. -/
def sendTimeout (c : Chain) : Option Chain :=
  match c.send with
  | some samplesTaken =>
      if samplesTaken < samplesPerBuffer ∧ c.fifo.mElementsFilled ≥ c.fifo.mBufferSize then
        c.finish samplesTaken
      else none
  | none => none

/-- The packet for the samples of a call of `pop_samples`. -/
def buildPacket (into : Popped Complex16) : DataPacket where
  reserved0 := if into.flags &&& syncTimestamp ≠ 0 then 0 else 1 <<< 4
  counter := into.timestamp
  data := samples2FPGAPacketPayload (block into.buffer 0 samples12InPkt)

/-- What `TransmitPacketsLoop` does with the result of `pop_samples`; `packetsToBatch` packets
make a batch. -/
def handlePopped (packetsToBatch : Nat) (c : Chain) : Chain :=
  let into := c.usb.into
  let short := into.samplesFilled ≠ samples12InPkt
  if short ∧ into.flags &&& endBurst = 0 then
    { c with
      usb := { c.usb with stage := .stopping, packets := [] }
      log := c.log ++
        [.underflow c.usb.packets (block into.buffer 0 into.samplesFilled)] }
  else
    -- At the end of a burst the rest of the packet is filled with zeros.
    let zeros : Nat → Complex16 := fun _ => { i := 0, q := 0 }
    let into := { into with
      buffer := copy into.buffer into.samplesFilled zeros 0
        (samples12InPkt - into.samplesFilled) }
    let packets := c.usb.packets ++ [buildPacket into]
    if packets.length ≥ packetsToBatch ∨ short then
      { c with
        usb := { stage := .read, into, packets := [] }
        log := c.log ++ [.sent packets] }
    else { c with usb := { stage := .read, into, packets } }

def stepUsb (packetsToBatch : Nat) (c : Chain) : Option Chain :=
  match c.usb.stage with
  | .read =>
      let into := { c.usb.into with samplesFilled := 0, flags := 0 }
      some { c with usb := { c.usb with stage := .pop, into } }
  | .pop =>
      if c.usb.into.samplesFilled < samples12InPkt then
        if c.fifo.mElementsFilled = 0 then
          some { c with usb := { c.usb with stage := .waiting } }
        else
          let taken := c.fifo.take samples12InPkt c.usb.into
          let stage := if taken.2.2 then UsbStage.popped else .pop
          some { c with fifo := taken.1, usb := { c.usb with stage, into := taken.2.1 } }
      else some { c with usb := { c.usb with stage := .popped } }
  | .waiting => some { c with usb := { c.usb with stage := .pop } }
  | .popped => some (c.handlePopped packetsToBatch)
  | .stopping => some { c with usb := { c.usb with stage := .stopped } }
  | .stopped => none

/-- The wait of `pop_samples` for a packet ends without one. -/
def popTimeout (c : Chain) : Option Chain :=
  match c.usb.stage with
  | .waiting => some { c with usb := { c.usb with stage := .popped } }
  | _ => none

/-- The state behind `init_sim` and `LMS_StartStream`, with whatever lies in the buffers. -/
def init (fifo buffer : Nat → Complex16) (mBuffer : Nat → SamplesPacket Complex16)
    (into : Popped Complex16) : Chain where
  transfer := .init fifo buffer
  fifo := streamChannelFifo (32 * 1024) mBuffer
  send := none
  returned := []
  usb := { stage := .read, into, packets := [] }
  log := []

end Chain

/-- The sides of the chain, for a run that generates the blocks `iumd = 1 .. numd-1`. -/
def chain (numd : Nat) (iqBuff : Nat → Nat → Complex16) (packetsToBatch : Nat) :
    Program ChainSide Chain
  | .gps, c => (c.transfer.stepGps numd iqBuff).map fun transfer => { c with transfer }
  | .tx, c => c.stepTx
  | .sendTimer, c => c.sendTimeout
  | .usb, c => c.stepUsb packetsToBatch
  | .popTimer, c => c.popTimeout

/-! ## What is accepted -/

section Accepted

variable {α : Type*}

/-- Of blocks of `SAMPLES_PER_BUFFER` samples, the first `r` samples each, for `r` in `returned`. -/
def accepted : (returned : List Nat) → (samples : List α) → List α
  | [], _ => []
  | r :: returned, samples =>
      samples.take r ++ accepted returned (samples.drop samplesPerBuffer)

variable {returned : List Nat} {samples more : List α} {r : Nat}

theorem accepted_append (whole : samples.length = returned.length * samplesPerBuffer)
    (results : ∀ s ∈ returned, s ≤ samplesPerBuffer) :
    accepted (returned ++ [r]) (samples ++ more) = accepted returned samples ++ more.take r := by
  induction returned generalizing samples with
  | nil =>
      have none : samples = [] := List.eq_nil_of_length_eq_zero (by simpa using whole)
      rw [none]
      exact List.append_nil _
  | cons s returned ih =>
      have long : samplesPerBuffer ≤ samples.length := by
        rw [whole, List.length_cons, Nat.succ_mul]
        omega
      have result := results s (List.mem_cons_self ..)
      have rest : (samples.drop samplesPerBuffer).length = returned.length * samplesPerBuffer := by
        rw [List.length_drop, whole, List.length_cons, Nat.succ_mul, Nat.add_sub_cancel]
      rw [List.cons_append, accepted, accepted, List.take_append_of_le_length (by omega),
        List.drop_append_of_le_length long,
        ih rest fun s member => results s (List.mem_cons_of_mem _ member), List.append_assoc]

theorem accepted_sublist (results : ∀ s ∈ returned, s ≤ samplesPerBuffer) :
    (accepted returned samples).Sublist samples := by
  induction returned generalizing samples with
  | nil => exact List.nil_sublist _
  | cons s returned ih =>
      have rest : (accepted returned (samples.drop samplesPerBuffer)).Sublist _ :=
        ih fun s member => results s (List.mem_cons_of_mem _ member)
      have first : (samples.take s).Sublist (samples.take samplesPerBuffer) :=
        (List.take_prefix_take_left (results s (List.mem_cons_self ..))).sublist
      have both := first.append rest
      rwa [List.take_append_drop] at both

theorem accepted_all (whole : samples.length = returned.length * samplesPerBuffer)
    (results : ∀ s ∈ returned, s = samplesPerBuffer) : accepted returned samples = samples := by
  induction returned generalizing samples with
  | nil => exact (List.eq_nil_of_length_eq_zero (by simpa using whole)).symm
  | cons s returned ih =>
      have rest : (samples.drop samplesPerBuffer).length = returned.length * samplesPerBuffer := by
        rw [List.length_drop, whole, List.length_cons, Nat.succ_mul, Nat.add_sub_cancel]
      rw [accepted, results s (List.mem_cons_self ..),
        ih rest fun s member => results s (List.mem_cons_of_mem _ member), List.take_append_drop]

end Accepted

/-! ## The invariant -/

/-- The samples that the device reads out of a packet. -/
def DataPacket.readBack (packet : DataPacket) : List Complex16 :=
  fpgaPacketPayload2Samples packet.data

/-- The samples of an event, as the device would read them. -/
def Event.samples : Event → List Complex16
  | .sent packets => packets.flatMap DataPacket.readBack
  | .underflow packets samples =>
      packets.flatMap DataPacket.readBack ++ samples.map linkSample

/-- The samples that have been popped and are in no packet yet. -/
def Usb.inHand (usb : Usb) : List Complex16 :=
  match usb.stage with
  | .pop | .waiting | .popped => block usb.into.buffer 0 usb.into.samplesFilled
  | .read | .stopping | .stopped => []

/-- A call of `pop_samples` is under way or has just returned. -/
def UsbStage.Popping : UsbStage → Prop
  | .pop | .waiting | .popped => True
  | .read | .stopping | .stopped => False

/-- What the packet ring has been given. -/
def Chain.given (c : Chain) : List Complex16 :=
  accepted c.returned c.transfer.sent ++ block c.transfer.buffer 0 (c.send.getD 0)

structure Chain.Inv (iqBuff : Nat → Nat → Complex16) (c : Chain) : Prop where
  transfer : c.transfer.Inv iqBuff
  ring : c.fifo.WellFormed
  /-- No packet ends a burst. -/
  plain : ∀ packet ∈ c.fifo.packets, packet.flags = 0
  popping : c.usb.stage.Popping →
    c.usb.into.flags = 0 ∧ c.usb.into.samplesFilled ≤ samples12InPkt
  /-- An underflow has left no packets. -/
  ended : c.usb.stage = .stopping ∨ c.usb.stage = .stopped → c.usb.packets = []
  calls : c.transfer.sent.length = c.returned.length * samplesPerBuffer
  results : ∀ s ∈ c.returned, s ≤ samplesPerBuffer
  sending : ∀ samplesTaken, c.send = some samplesTaken →
    c.transfer.tx = .send ∧ samplesTaken ≤ samplesPerBuffer
  /-- What the ring has been given is gone, in packets, in hand or in the ring. -/
  stream : c.log.flatMap Event.samples ++ c.usb.packets.flatMap DataPacket.readBack ++
    (c.usb.inHand ++ c.fifo.contents).map linkSample = c.given.map linkSample

theorem Chain.Inv.init (iqBuff : Nat → Nat → Complex16) (fifo buffer : Nat → Complex16)
    (mBuffer : Nat → SamplesPacket Complex16) (into : Popped Complex16) :
    (Chain.init fifo buffer mBuffer into).Inv iqBuff := by
  have bound : 32 * 1024 / maxSamplesInPacket ≤ 2 ^ 21 := by
    unfold maxSamplesInPacket samples12InPkt
    omega
  obtain ⟨wellFormed, empty, -⟩ := streamChannel_wellFormed mBuffer bound
  refine ⟨Transfer.Inv.init iqBuff fifo buffer, wellFormed, ?_, False.elim, fun _ => rfl,
    (Nat.zero_mul _).symm, nofun, nofun, ?_⟩
  · intro packet member
    cases member
  · change [] ++ [] ++
      ([] ++ (streamChannelFifo (32 * 1024) mBuffer).contents).map linkSample = [].map linkSample
    rw [empty]
    rfl

section Steps

variable {numd packetsToBatch : Nat} {iqBuff : Nat → Nat → Complex16} {c c' : Chain}

/-- A step of the sample ring that leaves the buffer of the call under way alone. -/
theorem Chain.Inv.move {transfer : Transfer Complex16} (inv : c.Inv iqBuff)
    (inv' : transfer.Inv iqBuff) (sent : transfer.sent = c.transfer.sent)
    (buffer : c.send ≠ none → transfer.buffer = c.transfer.buffer ∧ transfer.tx = .send) :
    Chain.Inv iqBuff { c with transfer } := by
  obtain ⟨-, ring, plain, popping, ended, calls, results, sending, stream⟩ := inv
  refine ⟨inv', ring, plain, popping, ended, ?_, results, fun samplesTaken under => ?_, ?_⟩
  · dsimp only
    rw [sent]
    exact calls
  · exact ⟨(buffer (by rw [under]; nofun)).2, (sending samplesTaken under).2⟩
  · rw [stream, Chain.given, Chain.given]
    dsimp only
    rw [sent]
    cases under : c.send with
    | none => rfl
    | some samplesTaken => rw [(buffer (by rw [under]; nofun)).1]

theorem Chain.Inv.step_gps (inv : c.Inv iqBuff)
    (step : chain numd iqBuff packetsToBatch .gps c = some c') : c'.Inv iqBuff := by
  obtain ⟨transfer, moved, rfl⟩ := Option.map_eq_some_iff.mp step
  have same : transfer.sent = c.transfer.sent ∧ transfer.buffer = c.transfer.buffer ∧
      transfer.tx = c.transfer.tx := by
    unfold Transfer.stepGps at moved
    split at moved
    · split at moved
      · cases moved
        exact ⟨rfl, rfl, rfl⟩
      · cases moved
    · cases moved
      exact ⟨rfl, rfl, rfl⟩
    · cases moved
      exact ⟨rfl, rfl, rfl⟩
  refine inv.move (inv.transfer.step_gps moved) same.1 fun under => ⟨same.2.1, ?_⟩
  obtain ⟨samplesTaken, sending⟩ := Option.ne_none_iff_exists'.mp under
  rw [same.2.2]
  exact (inv.sending samplesTaken sending).1

/-- The return of a call: its block has been sent, and the ring been given a part of it. -/
theorem Chain.Inv.finish {samplesTaken : Nat} (inv : c.Inv iqBuff)
    (under : c.send = some samplesTaken) (step : c.finish samplesTaken = some c') :
    c'.Inv iqBuff := by
  obtain ⟨transfer, moved, rfl⟩ := Option.map_eq_some_iff.mp step
  obtain ⟨inv', ring, plain, popping, ended, calls, results, sending, stream⟩ := inv
  obtain ⟨pc, le⟩ := sending samplesTaken under
  have sent : transfer.sent = c.transfer.sent ++ block c.transfer.buffer 0 samplesPerBuffer := by
    unfold Transfer.stepTx at moved
    rw [pc] at moved
    cases moved
    rfl
  refine ⟨inv'.step_tx moved, ring, plain, popping, ended, ?_, ?_, nofun, ?_⟩
  · dsimp only
    rw [sent, List.length_append, calls, List.length_append, List.length_singleton, Nat.succ_mul]
    simp [block]
  · intro s member
    rcases List.mem_append.mp member with old | new
    · exact results s old
    · rw [List.mem_singleton.mp new]
      exact le
  · have part : (block c.transfer.buffer 0 samplesPerBuffer).take samplesTaken =
        block c.transfer.buffer 0 samplesTaken := by
      obtain ⟨rest, total⟩ := Nat.exists_eq_add_of_le le
      have length : (block c.transfer.buffer 0 samplesTaken).length = samplesTaken := by
        simp [block]
      rw [total, block_append, List.take_left' length]
    rw [stream, Chain.given, Chain.given]
    dsimp only
    rw [sent, accepted_append calls results, part, under, Option.getD_some, Option.getD_none,
      block_zero, List.append_nil]

/-- A turn of `push_samples`. -/
theorem Chain.Inv.push {samplesTaken : Nat} {turn : RingFifo Complex16 × Nat}
    (inv : c.Inv iqBuff) (under : c.send = some samplesTaken)
    (more : samplesTaken < samplesPerBuffer)
    (pushed : c.fifo.pushTurn c.call samplesTaken = some turn) :
    Chain.Inv iqBuff { c with fifo := turn.1, send := some turn.2 } := by
  obtain ⟨transfer, ring, plain, popping, ended, calls, results, sending, stream⟩ := inv
  have room : c.fifo.mElementsFilled < c.fifo.mBufferSize := by
    by_contra full
    have keeps : ¬ c.call.flags &&& overwriteOld ≠ 0 := by
      exact not_not.mpr (BitVec.zero_and ..)
    rw [RingFifo.pushTurn, if_pos (by omega), if_neg keeps] at pushed
    cases pushed
  rw [RingFifo.pushTurn, if_neg (by omega)] at pushed
  cases pushed
  obtain ⟨wellFormed, contents⟩ := RingFifo.contents_put c.call ring room more
  obtain ⟨packet, packets, -, -, -, flags⟩ :=
    RingFifo.packets_put c.call samplesTaken ring room
  have count : RingFifo.putCount c.call samplesTaken ≤ samplesPerBuffer - samplesTaken := by
    unfold RingFifo.putCount
    split
    · rename_i long
      exact long.le
    · exact le_rfl
  refine ⟨transfer, wellFormed, ?_, popping, ended, calls, results, ?_, ?_⟩
  · intro other member
    dsimp only at member
    rw [packets] at member
    rcases List.mem_append.mp member with old | new
    · exact plain other old
    · rw [List.mem_singleton.mp new]
      exact flags rfl
  · intro s new
    cases new
    rw [RingFifo.put_snd]
    exact ⟨(sending samplesTaken under).1, by omega⟩
  · dsimp only
    rw [contents, ← List.append_assoc, List.map_append, ← List.append_assoc, stream,
      ← List.map_append, Chain.given, Chain.given, under]
    dsimp only
    rw [Option.getD_some, Option.getD_some, RingFifo.put_snd, block_append, List.append_assoc,
      Nat.zero_add]
    rfl

theorem Chain.Inv.step_tx (inv : c.Inv iqBuff) (step : c.stepTx = some c') : c'.Inv iqBuff := by
  unfold Chain.stepTx at step
  split at step
  · rename_i pc
    split at step
    · rename_i idle
      cases step
      obtain ⟨transfer, ring, plain, popping, ended, calls, results, sending, stream⟩ := inv
      have started : c.given = { c with send := some 0, usb := Chain.restart c.usb }.given := by
        rw [Chain.given, Chain.given, idle]
        rfl
      unfold Chain.restart at started ⊢
      split at started
      · rename_i stopped
        rw [if_pos stopped]
        refine ⟨transfer, ring, plain, False.elim, fun _ => rfl, calls, results, ?_, ?_⟩
        · intro samplesTaken first
          cases first
          exact ⟨pc, Nat.zero_le _⟩
        · rw [← started, ← stream, ended (Or.inr stopped), Usb.inHand, Usb.inHand, stopped]
      · rename_i running
        rw [if_neg running]
        refine ⟨transfer, ring, plain, popping, ended, calls, results, ?_, ?_⟩
        · intro samplesTaken first
          cases first
          exact ⟨pc, Nat.zero_le _⟩
        · rw [← started, ← stream]
    · rename_i samplesTaken under
      split at step
      · rename_i more
        obtain ⟨turn, pushed, rfl⟩ := Option.map_eq_some_iff.mp step
        exact inv.push under more pushed
      · exact inv.finish under step
  · rename_i other
    obtain ⟨transfer, moved, rfl⟩ := Option.map_eq_some_iff.mp step
    refine inv.move (inv.transfer.step_tx moved) ?_ fun under => ?_
    · unfold Transfer.stepTx at moved
      split at moved
      · split at moved
        · cases moved
        · cases moved
          rfl
      · cases moved
        rfl
      · cases moved
        rfl
      · rename_i pc
        exact absurd pc other
    · obtain ⟨samplesTaken, sending⟩ := Option.ne_none_iff_exists'.mp under
      exact absurd (inv.sending samplesTaken sending).1 other

/-- The packet of a call that has filled it. -/
theorem readBack_buildPacket (into : Popped Complex16) :
    (Chain.buildPacket into).readBack = (block into.buffer 0 samples12InPkt).map linkSample := by
  rw [DataPacket.readBack, Chain.buildPacket, payload_samples]

theorem Usb.inHand_eq {usb : Usb} (popping : usb.stage.Popping) :
    usb.inHand = block usb.into.buffer 0 usb.into.samplesFilled := by
  obtain ⟨stage, into, packets⟩ := usb
  cases stage with
  | pop | waiting | popped => rfl
  | read | stopping | stopped => exact popping.elim

/-- A step within a call of `pop_samples` that takes nothing. -/
theorem Chain.Inv.goOn {stage : UsbStage} (inv : c.Inv iqBuff) (before : c.usb.stage.Popping)
    (after : stage.Popping) : Chain.Inv iqBuff { c with usb := { c.usb with stage } } := by
  obtain ⟨transfer, ring, plain, popping, ended, calls, results, sending, stream⟩ := inv
  refine ⟨transfer, ring, plain, fun _ => popping before, ?_, calls, results, sending, ?_⟩
  · rintro (rfl | rfl) <;> exact after.elim
  · rw [Usb.inHand_eq before] at stream
    rw [Usb.inHand_eq after]
    exact stream

/-- A turn of `pop_samples`. -/
theorem Chain.Inv.take (inv : c.Inv iqBuff) (pc : c.usb.stage = .pop)
    (wanted : c.usb.into.samplesFilled < samples12InPkt) (some : 0 < c.fifo.mElementsFilled) :
    Chain.Inv iqBuff { c with
      fifo := (c.fifo.take samples12InPkt c.usb.into).1
      usb := { c.usb with
        stage := if (c.fifo.take samples12InPkt c.usb.into).2.2 then .popped else .pop
        into := (c.fifo.take samples12InPkt c.usb.into).2.1 } } := by
  obtain ⟨transfer, ring, plain, popping, ended, calls, results, sending, stream⟩ := inv
  have before : c.usb.stage.Popping := by
    rw [pc]
    trivial
  obtain ⟨wellFormed, -, filled, le, samples⟩ := RingFifo.contents_take ring some wanted
  obtain ⟨packet, rest, packets, packets', front⟩ :=
    RingFifo.packets_take samples12InPkt c.usb.into ring some
  have noFlags : packet.flags = 0 := plain packet (by rw [packets]; exact List.mem_cons_self ..)
  have after : UsbStage.Popping
      (if (c.fifo.take samples12InPkt c.usb.into).2.2 then UsbStage.popped else .pop) := by
    split <;> trivial
  refine ⟨transfer, wellFormed, ?_, fun _ => ⟨?_, filled.trans_le le⟩, ?_, calls, results, sending,
    ?_⟩
  · have old : ∀ other ∈ rest, other.flags = 0 := fun other member =>
      plain other (by rw [packets]; exact List.mem_cons_of_mem _ member)
    intro other member
    dsimp only at member
    rw [packets'] at member
    split at member
    · exact old other member
    · rcases List.mem_cons.mp member with rfl | member
      · exact noFlags
      · exact old other member
  · change c.usb.into.flags ||| (c.fifo.mBuffer c.fifo.mHead).flags = 0
    rw [← front, noFlags, (popping before).1]
    rfl
  · dsimp only
    split
    · rintro (stage | stage) <;> cases stage
    · rintro (stage | stage) <;> cases stage
  · rw [Usb.inHand_eq before] at stream
    rw [Usb.inHand_eq after]
    dsimp only
    rw [filled, samples]
    exact stream

/-- The end of a call of `pop_samples`: its samples go into a packet, or are given up. -/
theorem Chain.Inv.handlePopped (inv : c.Inv iqBuff) (pc : c.usb.stage = .popped) :
    (c.handlePopped packetsToBatch).Inv iqBuff := by
  obtain ⟨transfer, ring, plain, popping, ended, calls, results, sending, stream⟩ := inv
  obtain ⟨flags, le⟩ := popping (by rw [pc]; trivial)
  have noBurst : c.usb.into.flags &&& endBurst = 0 := by
    rw [flags]
    exact BitVec.zero_and ..
  have hand : c.usb.inHand = block c.usb.into.buffer 0 c.usb.into.samplesFilled := by
    rw [Usb.inHand, pc]
  unfold Chain.handlePopped
  dsimp only
  split
  · refine ⟨transfer, ring, plain, False.elim, fun _ => rfl, calls, results, sending, ?_⟩
    change _ = c.given.map linkSample
    rw [← stream, hand]
    simp only [List.flatMap_append, List.flatMap_singleton, Event.samples, Usb.inHand,
      List.flatMap_nil, List.append_nil, List.nil_append, List.map_append, List.append_assoc]
  · rename_i fullOrBurst
    have full : c.usb.into.samplesFilled = samples12InPkt := by
      by_contra short
      exact fullOrBurst ⟨short, noBurst⟩
    have packet : ∀ rest, (Chain.buildPacket { c.usb.into with
        buffer := copy c.usb.into.buffer c.usb.into.samplesFilled rest 0
          (samples12InPkt - c.usb.into.samplesFilled) }).readBack =
        (block c.usb.into.buffer 0 c.usb.into.samplesFilled).map linkSample := by
      intro rest
      rw [readBack_buildPacket, full, block_copy_of_le (by omega)]
    split
    · refine ⟨transfer, ring, plain, False.elim, nofun, calls, results, sending, ?_⟩
      change _ = c.given.map linkSample
      rw [← stream, hand]
      simp only [List.flatMap_append, List.flatMap_singleton, Event.samples, Usb.inHand, packet,
        List.flatMap_nil, List.append_nil, List.nil_append, List.map_append, List.append_assoc]
    · refine ⟨transfer, ring, plain, False.elim, nofun, calls, results, sending, ?_⟩
      change _ = c.given.map linkSample
      rw [← stream, hand]
      simp only [List.flatMap_append, List.flatMap_singleton, Usb.inHand, packet,
        List.nil_append, List.map_append, List.append_assoc]

theorem Chain.Inv.step_usb (inv : c.Inv iqBuff) (step : c.stepUsb packetsToBatch = some c') :
    c'.Inv iqBuff := by
  unfold Chain.stepUsb at step
  split at step
  · rename_i pc
    cases step
    obtain ⟨transfer, ring, plain, popping, ended, calls, results, sending, stream⟩ := inv
    refine ⟨transfer, ring, plain, fun _ => ⟨rfl, Nat.zero_le _⟩, nofun, calls, results, sending,
      ?_⟩
    rw [Usb.inHand, pc] at stream
    exact stream
  · rename_i pc
    split at step
    · rename_i wanted
      split at step
      · cases step
        exact inv.goOn (by rw [pc]; trivial) trivial
      · rename_i some
        cases step
        exact inv.take pc wanted (Nat.pos_of_ne_zero some)
    · cases step
      exact inv.goOn (by rw [pc]; trivial) trivial
  · rename_i pc
    cases step
    exact inv.goOn (by rw [pc]; trivial) trivial
  · rename_i pc
    cases step
    exact inv.handlePopped pc
  · rename_i pc
    cases step
    obtain ⟨transfer, ring, plain, popping, ended, calls, results, sending, stream⟩ := inv
    rw [Usb.inHand, pc] at stream
    exact ⟨transfer, ring, plain, False.elim, fun _ => ended (Or.inl pc), calls, results, sending,
      stream⟩
  · cases step

/-- Every step keeps the invariant. -/
theorem Chain.Inv.step {side : ChainSide} (inv : c.Inv iqBuff)
    (step : chain numd iqBuff packetsToBatch side c = some c') : c'.Inv iqBuff := by
  cases side with
  | gps => exact inv.step_gps step
  | tx => exact inv.step_tx step
  | sendTimer =>
      unfold chain Chain.sendTimeout at step
      dsimp only at step
      split at step
      · rename_i samplesTaken under
        split at step
        · exact inv.finish under step
        · cases step
      · cases step
  | usb => exact inv.step_usb step
  | popTimer =>
      unfold chain Chain.popTimeout at step
      dsimp only at step
      split at step
      · rename_i pc
        cases step
        exact inv.goOn (by rw [pc]; trivial) trivial
      · cases step

end Steps

/-! ## Runs -/

def Event.transmitted : Event → List Complex16
  | .sent packets => packets.flatMap DataPacket.readBack
  | .underflow _ _ => []

/-- What the device reads out of the packets of the batches that it is sent. -/
def Chain.transmitted (c : Chain) : List Complex16 :=
  c.log.flatMap Event.transmitted

/-- Nothing has been lost: every call of `LMS_SendStream` has returned the number of samples it
was given, and there was no underflow. -/
structure Chain.Lossless (c : Chain) : Prop where
  returned : ∀ samplesTaken ∈ c.returned, samplesTaken = samplesPerBuffer
  log : ∀ packets samples, Event.underflow packets samples ∉ c.log

section Runs

variable {iqBuff : Nat → Nat → Complex16} {c : Chain}

/-- The samples that the ring has been given, among those generated. -/
theorem Chain.Inv.given_append (inv : c.Inv iqBuff) : ∃ rest,
    c.transfer.sent ++ block c.transfer.buffer 0 (c.send.getD 0) ++ rest =
      generated iqBuff (c.transfer.iumd - 1) := by
  have stream := inv.transfer.stream
  cases under : c.send with
  | none =>
      refine ⟨block c.transfer.buffer 0 (c.transfer.filled + c.transfer.tx.taken) ++
        c.transfer.ring.queue, ?_⟩
      rw [Option.getD_none, block_zero, List.append_nil, ← stream, List.append_assoc]
  | some samplesTaken =>
      obtain ⟨pc, le⟩ := inv.sending samplesTaken under
      have counts := inv.transfer.counts
      rw [pc] at counts
      have empty : c.transfer.bufferSamplesRemaining = 0 := counts
      have gathered := inv.transfer.gathered
      have gone : samplesTaken ≤ c.transfer.filled + c.transfer.tx.taken := by omega
      obtain ⟨more, total⟩ := Nat.exists_eq_add_of_le gone
      refine ⟨block c.transfer.buffer (0 + samplesTaken) more ++ c.transfer.ring.queue, ?_⟩
      rw [Option.getD_some, ← stream, total, block_append]
      simp only [List.append_assoc]

theorem transmitted_sublist (log : List Event) :
    (log.flatMap Event.transmitted).Sublist (log.flatMap Event.samples) := by
  induction log with
  | nil => exact List.Sublist.refl _
  | cons event log ih =>
      rw [List.flatMap_cons, List.flatMap_cons]
      cases event with
      | sent packets => exact (List.Sublist.refl _).append ih
      | underflow packets samples => exact (List.nil_sublist _).append ih

theorem transmitted_all {log : List Event}
    (lossless : ∀ packets samples, Event.underflow packets samples ∉ log) :
    log.flatMap Event.transmitted = log.flatMap Event.samples := by
  induction log with
  | nil => rfl
  | cons event log ih =>
      have rest := ih fun packets samples member =>
        lossless packets samples (List.mem_cons_of_mem _ member)
      rw [List.flatMap_cons, List.flatMap_cons, rest]
      cases event with
      | sent packets => rfl
      | underflow packets samples =>
          exact absurd (List.mem_cons_self ..) (lossless packets samples)

theorem Chain.Inv.delivers (inv : c.Inv iqBuff) :
    c.transmitted.Sublist ((generated iqBuff (c.transfer.iumd - 1)).map linkSample) ∧
      (c.Lossless → c.transmitted <+: (generated iqBuff (c.transfer.iumd - 1)).map linkSample) := by
  have stream := inv.stream
  obtain ⟨rest, whole⟩ := inv.given_append
  constructor
  · have first : (c.log.flatMap Event.samples).Sublist (c.given.map linkSample) := by
      rw [← stream, List.append_assoc]
      exact List.sublist_append_left ..
    have given : c.given.Sublist (generated iqBuff (c.transfer.iumd - 1)) := by
      rw [← whole]
      exact ((accepted_sublist inv.results).append (List.Sublist.refl _)).trans
        (List.sublist_append_left ..)
    exact (transmitted_sublist c.log).trans (first.trans (given.map _))
  · intro lossless
    have all : c.transmitted = c.log.flatMap Event.samples := transmitted_all lossless.log
    have given : c.given <+: generated iqBuff (c.transfer.iumd - 1) := by
      rw [Chain.given, accepted_all inv.calls lossless.returned]
      exact ⟨rest, whole⟩
    rw [all]
    refine List.IsPrefix.trans ?_ (given.map _)
    rw [← stream, List.append_assoc]
    exact List.prefix_append ..

/-- **The chain delivers.**  In whatever order the sides move and waits expire, what the device
is sent has been generated, in the same order, none of it twice, with twelve bits of each value;
as long as every send has taken its whole block and there was no underflow, nothing is missing in
between. -/
theorem chain_delivers (numd : Nat) (iqBuff : Nat → Nat → Complex16) (packetsToBatch : Nat)
    (fifo buffer : Nat → Complex16) (mBuffer : Nat → SamplesPacket Complex16)
    (into : Popped Complex16) (c : Chain)
    (run : Reach (chain numd iqBuff packetsToBatch) (Chain.init fifo buffer mBuffer into) c) :
    c.transmitted.Sublist ((generated iqBuff (c.transfer.iumd - 1)).map linkSample) ∧
      (c.Lossless → c.transmitted <+: (generated iqBuff (c.transfer.iumd - 1)).map linkSample) :=
  (run.invariant (I := fun c : Chain => c.Inv iqBuff)
    (Chain.Inv.init iqBuff fifo buffer mBuffer into) fun _ _ _ _ inv step => inv.step step).delivers

end Runs

def zeroSample : Complex16 where
  i := 0
  q := 0

/-- Memory full of zeros. -/
def clearChain : Chain :=
  .init (fun _ => zeroSample) (fun _ => zeroSample)
    (fun _ => {
      timestamp := 0
      first := 0
      last := 0
      samples := fun _ => zeroSample
      flags := 0 })
    { buffer := fun _ => zeroSample
      samplesFilled := 0
      timestamp := 0
      flags := 0 }

/-- A run up to the first packet. -/
theorem chain_delivers_onePacket :
    ∃ c, Reach (chain 2 (fun iumd isamp => { i := iumd, q := isamp }) 1) clearChain c ∧
      c.log.length = 1 ∧
      c.transmitted.Sublist ((generated (fun iumd isamp => { i := iumd, q := isamp })
        (c.transfer.iumd - 1)).map linkSample) ∧
      (c.Lossless → c.transmitted <+: (generated (fun iumd isamp => { i := iumd, q := isamp })
        (c.transfer.iumd - 1)).map linkSample) := by
  have run : Reach (chain 2 (fun iumd isamp => { i := iumd, q := isamp }) 1) clearChain _ :=
    ReachIf.of_execIf [.gps, .gps, .gps, .tx, .tx, .tx, .tx, .tx, .usb, .usb, .usb, .usb] rfl
  exact ⟨_, run, rfl, chain_delivers 2 _ 1 _ _ _ _ _ run⟩

end Navisim.RealTime

import Navisim.Signal.Sample

/-!
# The sample loop on three threads

`threadChannelElabFunc` runs the sample loop of a block for a group of four channels, and
`runCore2` adds what the three groups have accumulated.  The code phase step of a group is
computed once per block, from the channel the loop variable `i` points to: the first channel of
the group in the first block, and in every later block the channel behind the group, where the
loop of the block before has left `i`.
-/

namespace Navisim.Signal

open Sweep

def maxChannelPerThread : Nat := 4
def numberOfThread : Nat := 3

/-- The state of a worker between two blocks. -/
structure Worker where
  samplingFreq : Int
  bufferSize : Nat
  i : Nat
  deriving DecidableEq, Repr

/-- `cThread->channel` -/
def groupChannels (chan : Nat → Channel) (indexThread : Nat) : Nat → Channel :=
  fun j => chan (indexThread * maxChannelPerThread + j)

/-- `delt` -/
def Worker.delt (worker : Worker) (channel : Nat → Channel) : ℚ :=
  (channel worker.i).fCode / worker.samplingFreq

/-- `iAccBuff` and `qAccBuff` after a block. -/
def Worker.accBuff (worker : Worker) (channel : Nat → Channel) (isamp : Nat) : Int × Int :=
  blockSum (fun _ => worker.delt channel) (fun j => (channel j).gainValue) maxChannelPerThread
    channel isamp

/-- The channels of a group after a block. -/
def Worker.channels (worker : Worker) (channel : Nat → Channel) : Nat → Channel :=
  afterSamples (fun _ => worker.delt channel) (fun j => (channel j).gainValue)
    maxChannelPerThread channel worker.bufferSize

/-- The loop variable after a block. -/
def Worker.next (worker : Worker) : Worker :=
  { worker with i := if worker.bufferSize = 0 then worker.i else maxChannelPerThread }

/-- The worker before block `block`, counted from 0. -/
def workerAt (samplingFreq : Int) (bufferSize : Nat) : Nat → Worker
  | 0 => { samplingFreq := samplingFreq, bufferSize := bufferSize, i := 0 }
  | block + 1 => (workerAt samplingFreq bufferSize block).next

/-- `i_accArr` and `q_accArr`: the sum over the threads. -/
def threadSum (worker : Worker) (chan : Nat → Channel) (isamp : Nat) : Int × Int :=
  ∑ indexThread ∈ Finset.range numberOfThread,
    worker.accBuff (groupChannels chan indexThread) isamp

/-- The channels after a block of the three threads: no thread writes a channel of another. -/
def threadChannels (worker : Worker) (chan : Nat → Channel) : Nat → Channel :=
  fun i =>
    if i < maxChan then
      worker.channels (groupChannels chan (i / maxChannelPerThread)) (i % maxChannelPerThread)
    else chan i

/-- The block of `runCore` for the same channels. -/
def runCoreSum (samplingFreq : Int) (chan : Nat → Channel) (isamp : Nat) : Int × Int :=
  blockSum (codeStep (1.0 / samplingFreq)) (fun i => (chan i).gainValue) maxChan chan isamp

def runCoreChannels (samplingFreq : Int) (bufferSize : Nat) (chan : Nat → Channel) :
    Nat → Channel :=
  afterSamples (codeStep (1.0 / samplingFreq)) (fun i => (chan i).gainValue) maxChan chan
    bufferSize

/-! ## The loop variable -/

/-- The channel of its group that a worker takes its code phase step from. -/
def stepSource (block : Nat) : Nat :=
  if block = 0 then 0 else maxChannelPerThread

theorem workerAt_i {samplingFreq : Int} {bufferSize : Nat} (samples : bufferSize ≠ 0)
    (block : Nat) :
    workerAt samplingFreq bufferSize block =
      { samplingFreq := samplingFreq, bufferSize := bufferSize, i := stepSource block } := by
  induction block with
  | zero => rfl
  | succ block ih =>
      rw [workerAt, ih, Worker.next, if_neg samples]
      rfl

theorem workerAt_samplingFreq (samplingFreq : Int) (bufferSize block : Nat) :
    (workerAt samplingFreq bufferSize block).samplingFreq = samplingFreq ∧
      (workerAt samplingFreq bufferSize block).bufferSize = bufferSize := by
  induction block with
  | zero => exact ⟨rfl, rfl⟩
  | succ block ih => exact ih

/-! ## Agreement -/

section Agreement

variable {worker : Worker} {chan : Nat → Channel} {samplingFreq : Int}

/-- The sum over the channels is the sum over the groups. -/
theorem sum_groups (f : Nat → Int × Int) :
    ∑ i ∈ Finset.range maxChan, f i =
      ∑ g ∈ Finset.range numberOfThread, ∑ j ∈ Finset.range maxChannelPerThread,
        f (g * maxChannelPerThread + j) := by
  simp only [maxChan, numberOfThread, maxChannelPerThread, Finset.sum_range_succ,
    Finset.sum_range_zero]
  abel

/-- The step of the worker is the step of every active channel of its group. -/
def StepsAgree (worker : Worker) (chan : Nat → Channel) : Prop :=
  ∀ g < numberOfThread, ∀ j < maxChannelPerThread,
    0 < (groupChannels chan g j).prn →
      worker.delt (groupChannels chan g) =
        codeStep (1.0 / worker.samplingFreq) (groupChannels chan g j)

theorem threadSum_eq (agree : StepsAgree worker chan) (isamp : Nat) :
    threadSum worker chan isamp = runCoreSum worker.samplingFreq chan isamp := by
  rw [runCoreSum, blockSum_eq (codeStep_constant _), sum_groups, threadSum]
  apply Finset.sum_congr rfl
  intro g member
  rw [Worker.accBuff, blockSum_eq fun _ _ _ => rfl]
  apply Finset.sum_congr rfl
  intro j member'
  have inGroups := Finset.mem_range.mp member
  have inGroup := Finset.mem_range.mp member'
  unfold channelSum
  by_cases active : 0 < (groupChannels chan g j).prn
  · rw [agree g inGroups j inGroup active]
    rfl
  · rw [if_neg active]
    exact (if_neg active).symm

/-- The channels after a block of the threads, group by group. -/
theorem threadChannels_group (worker : Worker) (chan : Nat → Channel) {g j : Nat}
    (inGroups : g < numberOfThread) (inGroup : j < maxChannelPerThread) :
    threadChannels worker chan (g * maxChannelPerThread + j) =
      worker.channels (groupChannels chan g) j := by
  have inside : g * maxChannelPerThread + j < maxChan := by
    simp only [maxChan, numberOfThread, maxChannelPerThread] at *
    omega
  have group : (g * maxChannelPerThread + j) / maxChannelPerThread = g := by
    simp only [maxChannelPerThread] at *
    omega
  have place : (g * maxChannelPerThread + j) % maxChannelPerThread = j := by
    simp only [maxChannelPerThread] at *
    omega
  rw [threadChannels, if_pos inside, group, place]

/-- An active channel after a block of its thread. -/
theorem worker_channels_active {g j : Nat} (inGroup : j < maxChannelPerThread)
    (active : 0 < (groupChannels chan g j).prn) :
    worker.channels (groupChannels chan g) j =
      samples (worker.delt (groupChannels chan g)) (groupChannels chan g j)
        worker.bufferSize := by
  have constant : ∀ c c', SameSignal c c' →
      (fun _ => worker.delt (groupChannels chan g)) c' =
        (fun _ : Channel => worker.delt (groupChannels chan g)) c := fun _ _ _ => rfl
  exact afterSamples_active constant inGroup active _

theorem runCoreChannels_active (samplingFreq : Int) (chan : Nat → Channel) {i : Nat}
    (inside : i < maxChan) (active : 0 < (chan i).prn) (bufferSize : Nat) :
    runCoreChannels samplingFreq bufferSize chan i =
      samples (codeStep (1.0 / samplingFreq) (chan i)) (chan i) bufferSize :=
  afterSamples_active (codeStep_constant _) inside active _

theorem threadChannels_eq (agree : StepsAgree worker chan) (i : Nat) (inside : i < maxChan) :
    threadChannels worker chan i =
      runCoreChannels worker.samplingFreq worker.bufferSize chan i := by
  have inGroups : i / maxChannelPerThread < numberOfThread := by
    simp only [maxChan, numberOfThread, maxChannelPerThread] at *
    omega
  have inGroup : i % maxChannelPerThread < maxChannelPerThread := Nat.mod_lt _ (by decide)
  have place : i / maxChannelPerThread * maxChannelPerThread + i % maxChannelPerThread = i :=
    Nat.div_add_mod' i maxChannelPerThread
  have here : groupChannels chan (i / maxChannelPerThread) (i % maxChannelPerThread) = chan i := by
    rw [groupChannels, place]
  rw [threadChannels, if_pos inside]
  by_cases active : 0 < (chan i).prn
  · rw [worker_channels_active inGroup (by rw [here]; exact active),
      agree _ inGroups _ inGroup (by rw [here]; exact active), here,
      runCoreChannels_active _ _ inside active]
  · rw [Worker.channels, afterSamples_idle (by rw [here]; exact active), here, runCoreChannels,
      afterSamples_idle active]

end Agreement

/-- The steps agree when the code frequencies do. -/
theorem stepsAgree_iff {samplingFreq : Int} {bufferSize block : Nat} {chan : Nat → Channel}
    (positive : 0 < samplingFreq) :
    StepsAgree { samplingFreq := samplingFreq, bufferSize := bufferSize, i := stepSource block }
        chan ↔
      ∀ g < numberOfThread, ∀ j < maxChannelPerThread,
        0 < (chan (g * maxChannelPerThread + j)).prn →
          (chan (g * maxChannelPerThread + j)).fCode =
            (chan (g * maxChannelPerThread + stepSource block)).fCode := by
  have nonzero : (samplingFreq : ℚ) ≠ 0 := by exact_mod_cast positive.ne'
  have step : ∀ f f' : ℚ, f / samplingFreq = f' * (1.0 / samplingFreq) ↔ f' = f := by
    intro f f'
    have one : (1.0 : ℚ) = 1 := by norm_num
    rw [one, mul_one_div, div_left_inj' nonzero, eq_comm]
  simp only [StepsAgree, Worker.delt, codeStep, groupChannels, step]

/-- Equal channels after a block that is not empty have made equal steps. -/
theorem step_eq_of_samples_eq {step step' : ℚ} {chan : Channel} {bufferSize : Nat}
    (counters : chan.Counters) (nonempty : bufferSize ≠ 0)
    (same : samples step chan bufferSize = samples step' chan bufferSize) : step = step' := by
  obtain ⟨-, position⟩ := samples_position step counters bufferSize
  obtain ⟨-, position'⟩ := samples_position step' counters bufferSize
  rw [same, position'] at position
  have scaled : (bufferSize : ℚ) * step = bufferSize * step' := by linarith
  exact mul_left_cancel₀ (by exact_mod_cast nonempty) scaled

/-- Two satellites of the first group with different Doppler shifts. -/
def dopplerPair : Nat → Channel := fun i =>
  match i with
  | 0 => { idleChannel (fun _ _ => 0) with
      prn := 1
      fCode := 1023000
      dataBit := 1
      codeCA := 1
      gainValue := 100 }
  | 1 => { idleChannel (fun _ _ => 0) with
      prn := 2
      fCode := 1023001
      dataBit := 1
      codeCA := 1
      gainValue := 100 }
  | _ => idleChannel fun _ _ => 0

theorem dopplerPair_counting (i : Nat) : (dopplerPair i).Counting := by
  unfold dopplerPair
  split <;> exact ⟨⟨by decide, by decide⟩, by norm_num [idleChannel]⟩

/-- **When the threads agree with the single loop.**  Whatever the channels are, the three
threads and `runCore` produce the same sums for every sample and leave the same channels exactly
when the block is empty or every active channel has the code frequency of the channel that the
worker of its group takes its step from. -/
theorem threads_agree_iff (samplingFreq : Int) (bufferSize block : Nat) (chan : Nat → Channel)
    (positive : 0 < samplingFreq)
    (counters : ∀ i < maxChan, 0 < (chan i).prn → (chan i).Counters) :
    ((∀ isamp < bufferSize,
        threadSum (workerAt samplingFreq bufferSize block) chan isamp =
          runCoreSum samplingFreq chan isamp) ∧
      ∀ i < maxChan, threadChannels (workerAt samplingFreq bufferSize block) chan i =
        runCoreChannels samplingFreq bufferSize chan i) ↔
    (bufferSize = 0 ∨
      ∀ g < numberOfThread, ∀ j < maxChannelPerThread,
        0 < (chan (g * maxChannelPerThread + j)).prn →
          (chan (g * maxChannelPerThread + j)).fCode =
            (chan (g * maxChannelPerThread + stepSource block)).fCode) := by
  rcases Nat.eq_zero_or_pos bufferSize with rfl | nonempty
  · refine iff_of_true ⟨fun isamp none => absurd none (Nat.not_lt_zero _), fun i inside => ?_⟩
      (Or.inl rfl)
    rw [threadChannels, if_pos inside, Worker.channels, (workerAt_samplingFreq ..).2]
    simp only [afterSamples, runCoreChannels, groupChannels, Nat.div_add_mod']
  · rw [workerAt_i nonempty.ne', ← stepsAgree_iff positive]
    constructor
    · intro both
      rcases both with ⟨-, same⟩
      apply Or.inr
      intro g inGroups j inGroup active
      have inside : g * maxChannelPerThread + j < maxChan := by
        simp only [maxChan, numberOfThread, maxChannelPerThread] at *
        omega
      have ends := same _ inside
      rw [threadChannels_group _ _ inGroups inGroup, worker_channels_active inGroup active,
        runCoreChannels_active _ _ inside active] at ends
      exact step_eq_of_samples_eq (counters _ inside active) nonempty.ne' ends
    · intro source
      rcases source with empty | agree
      · omega
      · exact ⟨fun isamp _ => threadSum_eq agree isamp,
          fun i inside => threadChannels_eq agree i inside⟩

/-- Two satellites of the first group, in a block after the first one. -/
theorem threads_agree_iff_dopplerPair :
    ((∀ isamp < 200000,
        threadSum (workerAt 2000000 200000 1) dopplerPair isamp =
          runCoreSum 2000000 dopplerPair isamp) ∧
      ∀ i < maxChan,
        threadChannels (workerAt 2000000 200000 1) dopplerPair i =
          runCoreChannels 2000000 200000 dopplerPair i) ↔
    ((200000 : Nat) = 0 ∨
      ∀ g < numberOfThread, ∀ j < maxChannelPerThread,
        0 < (dopplerPair (g * maxChannelPerThread + j)).prn →
          (dopplerPair (g * maxChannelPerThread + j)).fCode =
            (dopplerPair (g * maxChannelPerThread + stepSource 1)).fCode) :=
  threads_agree_iff 2000000 200000 1 dopplerPair (by decide)
    fun i _ _ => (dopplerPair_counting i).toCounters

/-- In the first block the second channel of the first group moves with the code frequency of
the first one. -/
theorem threads_differ :
    (∀ i, (dopplerPair i).Counting) ∧
      threadChannels (workerAt 2000000 1 0) dopplerPair 1 ≠
        runCoreChannels 2000000 1 dopplerPair 1 := by
  refine ⟨dopplerPair_counting, fun same => ?_⟩
  have active : 0 < (groupChannels dopplerPair 0 1).prn := by decide
  have group := threadChannels_group (workerAt 2000000 1 0) dopplerPair (g := 0) (j := 1)
    (by decide) (by decide)
  rw [worker_channels_active (by decide) active] at group
  have single := runCoreChannels_active 2000000 dopplerPair (i := 1) (by decide) active 1
  have steps := step_eq_of_samples_eq (dopplerPair_counting 1).toCounters one_ne_zero
    (group.symm.trans (same.trans single))
  norm_num [Worker.delt, workerAt, codeStep, groupChannels, dopplerPair] at steps

end Navisim.Signal

import Navisim.Pipeline.Exclusion

/-!
# The file under every interleaving

The threads decide when a block is computed, not what is written: with exclusive access to the
buffers, the main loop adds up exactly the block that its threads have computed last
(`Computed`), and its accumulators and its file follow the sequential loop from phase to phase
(`PhaseOk`).  So at every moment the file holds the first generated blocks, and at the end all of
them but the last (`written_of_reach`).
-/

namespace Navisim.Pipeline

open Interleaving Signal Loop Handover

/-! ## The buffers of the threads -/

/-- What the buffers of a thread hold, by how far it is with its block. -/
def Computed (p : Params) (iThread : Nat) (t : ThreadChannel) : Prop :=
  match t.pc with
  | .compute isamp => ∀ k < isamp, t.accBuff k = p.results (t.completed + 1) iThread k
  | .giveStop => ∀ k < p.bufferSize, t.accBuff k = p.results (t.completed + 1) iThread k
  | .takeStart | .finished =>
      0 < t.completed → ∀ k < p.bufferSize, t.accBuff k = p.results t.completed iThread k
  | _ => True

section Buffers

variable {p : Params} {s t : Sim} {iThread : Nat}

/-- A thread computes its block sample by sample. -/
theorem Computed.stepWorker {t t' : ThreadChannel} (computed : Computed p iThread t)
    (step : stepWorker p iThread t = some t') : Computed p iThread t' := by
  unfold Pipeline.stepWorker at step
  unfold Computed at computed
  cases here : t.pc <;> rw [here] at computed <;>
    simp only [here, reduceCtorEq, Option.ite_none_right_eq_some, Option.some.injEq] at step
  case takeStart | lockRunning =>
    obtain ⟨-, rfl⟩ := step
    exact trivial
  case readRunning =>
    subst step
    exact trivial
  case unlockRunning =>
    subst step
    unfold Computed
    dsimp only
    by_cases samples : 0 < p.bufferSize
    · rw [if_pos samples]
      intro k member
      cases member
    · rw [if_neg samples]
      exact fun k below => absurd below (by omega)
  case compute isamp =>
    subst step
    have filled : ∀ k < isamp + 1, Function.update t.accBuff isamp
        (p.results (t.completed + 1) iThread isamp) k =
          p.results (t.completed + 1) iThread k := by
      intro k below
      rcases eq_or_ne k isamp with rfl | other
      · exact Function.update_self ..
      · rw [Function.update_of_ne other]
        exact computed k (by omega)
    unfold Computed
    dsimp only
    by_cases more : isamp + 1 < p.bufferSize
    · rw [if_pos more]
      exact filled
    · rw [if_neg more]
      exact fun k below => filled k (by omega)
  case giveStop =>
    subst step
    unfold Computed
    dsimp only
    cases t.running with
    | false => exact fun _ => computed
    | true => exact fun _ => computed

/-- The main thread leaves the buffers alone. -/
theorem Computed.turn {iumd iumd' : Nat} {t t' : ThreadChannel} {stage stage' : Stage}
    (ok : ThreadOk iumd t stage) (turn : Turn iumd t stage stage' iumd' t')
    (computed : stage ≠ .behind → Computed p iThread t) (inLoop : stage' ≠ .behind) :
    Computed p iThread t' := by
  cases turn with
  | rest => exact computed inLoop
  | setUp => exact computed (by decide)
  | create =>
      obtain ⟨⟨-, -, none⟩, -⟩ := ok
      exact fun positive => absurd none positive.ne'
  | give => exact computed (by decide)
  | collect => exact computed (by decide)
  | advance => exact computed (by decide)
  | leave => exact absurd rfl inLoop

/-- The buffers of all threads, as long as the main thread is in its loop. -/
def Sim.Buffers (p : Params) (s : Sim) : Prop :=
  ∀ j < numberOfThread, s.main.stage j ≠ .behind → Computed p j (s.thread j)

theorem buffers_init (p : Params) (accArr : Nat → Int × Int) (accBuff : Nat → Nat → Int × Int) :
    (Sim.init accArr accBuff).Buffers p :=
  fun _ _ _ => trivial

theorem Sim.Buffers.step (ok : s.Ok) (buffers : s.Buffers p) (i : Thread)
    (step : program p i s = some t) : t.Buffers p := by
  intro j inThreads inLoop
  cases i with
  | main =>
      exact Computed.turn (ok j inThreads) (stepMain_turn inThreads step) (buffers j inThreads)
        inLoop
  | worker iThread =>
      simp only [program, Option.ite_none_right_eq_some, Option.map_eq_some_iff] at step
      obtain ⟨-, t', moved, rfl⟩ := step
      dsimp only at inLoop ⊢
      rcases eq_or_ne j iThread with rfl | other
      · rw [Function.update_self]
        exact (buffers j inThreads inLoop).stepWorker moved
      · rw [Function.update_of_ne other]
        exact buffers j inThreads inLoop

/-- **What the main thread collects**: the block of this turn. -/
theorem Computed.collected {iumd : Nat} {t : ThreadChannel} (computed : Computed p iThread t)
    (ok : ThreadOk iumd t .collected) (positive : 0 < iumd) :
    ∀ k < p.bufferSize, t.accBuff k = p.results iumd iThread k := by
  obtain ⟨running, count⟩ := ok
  unfold Computed at computed
  rw [running.resting running.rests, count] at computed
  exact computed positive

end Buffers

/-! ## The phases of the main loop -/

/-- How far the main thread is with a block of the file. -/
inductive Phase
  | outside
  | before
  | written
  | cleared
  | adding (iThread i : Nat)
  | added
  | behind

def MainPc.phase : MainPc → Phase
  | .setUp _ | .create _ | .head => .outside
  | .update _ | .point _ | .giveStart _ | .write => .before
  | .clear => .written
  | .takeStop _ => .cleared
  | .add iThread i => .adding iThread i
  | .testRenewal | .renewMessage _ | .testRefresh | .newSubframes _ | .allocate _
  | .advance => .added
  | .lockRunning _ | .clearRunning _ | .unlockRunning _ | .giveLastStart _ | .giveLastStop _
  | .join => .behind

/-- The accumulators and the file of the main thread. -/
def Sim.pipe (s : Sim) : Pipe where
  accArr := s.accArr
  file := s.file

/-- What a step of the main thread does with them. -/
inductive Work (p : Params) (thread : Nat → ThreadChannel) (iumd : Nat) (pipe : Pipe) :
    Phase → Phase → Nat → Pipe → Prop
  | rest (phase : Phase) : Work p thread iumd pipe phase phase iumd pipe
  | enter (inside : (iumd : Int) < p.numd) : Work p thread iumd pipe .outside .before iumd pipe
  | leave (ends : ¬ (iumd : Int) < p.numd) : Work p thread iumd pipe .outside .behind iumd pipe
  | write :
    Work p thread iumd pipe .before .written iumd { pipe with
      file := if iumd > 1 then pipe.file ++ iqBuff p.bufferSize pipe.accArr else pipe.file }
  | clear : Work p thread iumd pipe .written .cleared iumd { pipe with accArr := fun _ => 0 }
  | start : Work p thread iumd pipe .cleared (.adding 0 0) iumd pipe
  | skip (none : p.bufferSize = 0) : Work p thread iumd pipe .cleared .added iumd pipe
  | add (iThread i : Nat) (phase : Phase)
    (next : phase = .adding iThread (i + 1) ∨ p.bufferSize ≤ i + 1 ∧
      (iThread + 1 < numberOfThread ∧ phase = .adding (iThread + 1) 0 ∨
        numberOfThread ≤ iThread + 1 ∧ phase = .added)) :
    Work p thread iumd pipe (.adding iThread i) phase iumd { pipe with
      accArr := Function.update pipe.accArr i (pipe.accArr i + (thread iThread).accBuff i) }
  | advance : Work p thread iumd pipe .added .outside (iumd + 1) pipe

section Steps

variable {p : Params} {s t : Sim}

/-- **What a step of the main thread does with the file.** -/
theorem stepMain_work (step : stepMain p s = some t) :
    Work p s.thread s.iumd s.pipe s.main.phase t.main.phase t.iumd t.pipe := by
  rcases s with ⟨main, iumd, accArr, file, thread⟩
  cases main <;> simp only [stepMain, reduceCtorEq, Option.some.injEq] at step
  case head =>
    subst step
    dsimp only [forIumd]
    split
    · exact Work.enter ‹_›
    · exact Work.leave ‹_›
  case write =>
    subst step
    exact Work.write
  case clear =>
    subst step
    exact Work.clear
  case takeStop iThread =>
    split at step
    · cases step
      dsimp only [Sim.onThread, nextThread]
      split
      · exact Work.rest _
      · unfold firstAdd
        split
        · exact Work.start
        · exact Work.skip (by omega)
    · cases step
  case add iThread i =>
    subst step
    apply Work.add iThread i _
    dsimp only [nextAdd, nextThread]
    by_cases more : i + 1 < p.bufferSize
    · rw [if_pos more]
      exact Or.inl rfl
    · rw [if_neg more]
      by_cases threads : iThread + 1 < numberOfThread
      · rw [if_pos threads]
        exact Or.inr ⟨not_lt.mp more, Or.inl ⟨threads, rfl⟩⟩
      · rw [if_neg threads]
        exact Or.inr ⟨not_lt.mp more, Or.inr ⟨not_lt.mp threads, rfl⟩⟩
  case advance =>
    subst step
    exact Work.advance
  case lockRunning iThread =>
    split at step
    · cases step
      exact Work.rest _
    · cases step
  all_goals
    subst step
    dsimp only [Sim.onThread, nextChannel, nextSatellite, nextThread]
    (try split_ifs) <;> exact Work.rest _

end Steps

/-! ## The sequential loop -/

theorem iqBuff_congr {size : Nat} {acc acc' : Nat → Int × Int}
    (same : ∀ k < size, acc k = acc' k) : iqBuff size acc = iqBuff size acc' := by
  unfold iqBuff
  apply List.flatMap_congr
  intro k member
  rw [same k (List.mem_range.mp member)]

/-- Two pipes agree in the file and in the samples of a block. -/
structure Pipe.Same (size : Nat) (pipe pipe' : Pipe) : Prop where
  file : pipe.file = pipe'.file
  accArr : ∀ k < size, pipe.accArr k = pipe'.accArr k

/-- The buffers of the threads before `iThread` are added, and those of `iThread` up to `i`. -/
def Summed (size : Nat) (buffers : Nat → Nat → Int × Int) (iThread i : Nat)
    (accArr : Nat → Int × Int) : Prop :=
  ∀ k < size, accArr k =
    addBuffers buffers (fun _ => 0) (if k < i then iThread + 1 else iThread) k

section Summed

variable {size : Nat} {buffers : Nat → Nat → Int × Int} {iThread i : Nat} {accArr : Nat → Int × Int}

theorem summed_zero : Summed size buffers 0 0 fun _ => 0 :=
  fun _ _ => rfl

theorem Summed.add {value : Int × Int} (summed : Summed size buffers iThread i accArr)
    (added : i < size → value = buffers iThread i) :
    Summed size buffers iThread (i + 1) (Function.update accArr i (accArr i + value)) := by
  intro k inside
  have before := summed k inside
  rcases eq_or_ne k i with rfl | other
  · rw [if_neg (lt_irrefl k)] at before
    rw [Function.update_self, if_pos k.lt_succ_self, before, added inside]
    rfl
  · rw [Function.update_of_ne other, before]
    congr 1
    exact if_congr (by omega) rfl rfl

/-- All samples of a thread are added. -/
theorem Summed.whole (summed : Summed size buffers iThread i accArr) (whole : size ≤ i) :
    ∀ k < size, accArr k = addBuffers buffers (fun _ => 0) (iThread + 1) k := by
  intro k inside
  rw [summed k inside, if_pos (by omega)]

theorem Summed.next (summed : Summed size buffers iThread i accArr) (whole : size ≤ i) :
    Summed size buffers (iThread + 1) 0 accArr :=
  fun k inside => (summed.whole whole k inside).trans (by rw [if_neg k.not_lt_zero])

end Summed

/-- Where the accumulators and the file are, in terms of the sequential loop. -/
def PhaseOk (p : Params) (accArr : Nat → Int × Int) (iumd : Nat) (pipe : Pipe) : Phase → Prop
  | .outside =>
      pipe.Same p.bufferSize (pipeline p.bufferSize p.results accArr (iumd - 1)) ∧ 0 < iumd ∧
        (iumd = 1 ∨ (iumd : Int) ≤ p.numd)
  | .before =>
      pipe.Same p.bufferSize (pipeline p.bufferSize p.results accArr (iumd - 1)) ∧ 0 < iumd ∧
        (iumd : Int) < p.numd
  | .written =>
      pipe.file = (pipeline p.bufferSize p.results accArr iumd).file ∧ 0 < iumd ∧
        (iumd : Int) < p.numd
  | .cleared =>
      (pipe.file = (pipeline p.bufferSize p.results accArr iumd).file ∧
        pipe.accArr = fun _ => 0) ∧ 0 < iumd ∧ (iumd : Int) < p.numd
  | .adding iThread i =>
      (pipe.file = (pipeline p.bufferSize p.results accArr iumd).file ∧
        Summed p.bufferSize (p.results iumd) iThread i pipe.accArr ∧
          iThread < numberOfThread) ∧ 0 < iumd ∧ (iumd : Int) < p.numd
  | .added =>
      pipe.Same p.bufferSize (pipeline p.bufferSize p.results accArr iumd) ∧ 0 < iumd ∧
        (iumd : Int) < p.numd
  | .behind =>
      pipe.Same p.bufferSize (pipeline p.bufferSize p.results accArr (iumd - 1)) ∧ 0 < iumd ∧
        (p.numd - 1).toNat = iumd - 1

section Run

variable {p : Params} {accArr : Nat → Int × Int} {accBuff : Nat → Nat → Int × Int} {s t : Sim}

/-- **A step of the main thread** is one of the sequential loop. -/
theorem PhaseOk.work {iumd iumd' : Nat} {pipe pipe' : Pipe} {phase phase' : Phase}
    (ok : PhaseOk p accArr iumd pipe phase)
    (work : Work p s.thread iumd pipe phase phase' iumd' pipe')
    (collected : ∀ iThread i, phase = .adding iThread i → iThread < numberOfThread → 0 < iumd →
      ∀ k < p.bufferSize, (s.thread iThread).accBuff k = p.results iumd iThread k) :
    PhaseOk p accArr iumd' pipe' phase' := by
  cases work with
  | rest => exact ok
  | enter inside =>
      obtain ⟨same, positive, -⟩ := ok
      exact ⟨same, positive, inside⟩
  | leave ends =>
      obtain ⟨same, positive, bound⟩ := ok
      exact ⟨same, positive, by omega⟩
  | write =>
      obtain ⟨same, positive, inside⟩ := ok
      obtain ⟨n, rfl⟩ := Nat.exists_eq_succ_of_ne_zero positive.ne'
      refine ⟨?_, positive, inside⟩
      dsimp only
      rw [same.file, iqBuff_congr same.accArr]
      rfl
  | clear =>
      obtain ⟨file, inLoop⟩ := ok
      exact ⟨⟨file, rfl⟩, inLoop⟩
  | start =>
      obtain ⟨⟨file, zero⟩, inLoop⟩ := ok
      refine ⟨⟨file, ?_, by decide⟩, inLoop⟩
      rw [zero]
      exact summed_zero
  | skip none =>
      obtain ⟨⟨file, -⟩, inLoop⟩ := ok
      exact ⟨⟨file, fun k inside => absurd inside (by omega)⟩, inLoop⟩
  | add iThread i _ next =>
      obtain ⟨⟨file, summed, inThreads⟩, positive, inside⟩ := ok
      have more := summed.add (collected iThread i rfl inThreads positive i)
      rcases next with rfl | ⟨last, ⟨threads, rfl⟩ | ⟨done, rfl⟩⟩
      · exact ⟨⟨file, more, inThreads⟩, positive, inside⟩
      · exact ⟨⟨file, more.next last, threads⟩, positive, inside⟩
      · obtain ⟨n, rfl⟩ := Nat.exists_eq_succ_of_ne_zero positive.ne'
        have all : iThread + 1 = numberOfThread := by omega
        refine ⟨⟨file, fun k below => ?_⟩, positive, inside⟩
        have sum := more.whole last k below
        rw [all] at sum
        exact sum
  | advance =>
      obtain ⟨same, positive, inside⟩ := ok
      exact ⟨same, iumd.succ_pos, Or.inr (by push_cast; omega)⟩

/-- The invariant of a run. -/
structure Sim.Follows (p : Params) (accArr : Nat → Int × Int) (s : Sim) : Prop where
  ok : s.Ok
  buffers : s.Buffers p
  phase : PhaseOk p accArr s.iumd s.pipe s.main.phase

theorem follows_init (p : Params) (accArr : Nat → Int × Int) (accBuff : Nat → Nat → Int × Int) :
    (Sim.init accArr accBuff).Follows p accArr where
  ok := ok_init accArr accBuff
  buffers := buffers_init p accArr accBuff
  phase := ⟨⟨rfl, fun _ _ => rfl⟩, Nat.one_pos, Or.inl rfl⟩

theorem Sim.Follows.step (follows : s.Follows p accArr) (i : Thread)
    (step : program p i s = some t) : t.Follows p accArr := by
  refine ⟨follows.ok.step i step, follows.buffers.step follows.ok i step, ?_⟩
  cases i with
  | main =>
      apply follows.phase.work (stepMain_work step)
      intro iThread i adding inThreads positive
      have stage : s.main.stage iThread = .collected := by
        cases main : s.main <;> rw [main] at adding <;> cases adding
        rfl
      have ok := follows.ok iThread inThreads
      have computed := follows.buffers iThread inThreads (by rw [stage]; decide)
      rw [stage] at ok
      exact computed.collected ok positive
  | worker iThread =>
      simp only [program, Option.ite_none_right_eq_some, Option.map_eq_some_iff] at step
      obtain ⟨-, t', -, rfl⟩ := step
      exact follows.phase

theorem follows_of_reach (run : Reach (program p) (Sim.init accArr accBuff) s) :
    s.Follows p accArr :=
  ReachIf.invariant (follows_init p accArr accBuff)
    (fun i _ _ _ follows step => follows.step i step) run

end Run

/-! ## The file -/

/-- What is in the file and in the accumulators. -/
structure Sim.Written (p : Params) (s : Sim) : Prop where
  /-- The file holds the first blocks, up to the one of the turn before or the one before that, and
  never the last one. -/
  file : ∃ n, s.iumd ≤ n + 2 ∧ n < s.iumd ∧ (n = 0 ∨ (n : Int) + 2 ≤ p.numd) ∧
    s.file = plainFile p.bufferSize (generated p.results) n
  /-- At the end of a turn the accumulators hold its block. -/
  turned : s.main = .advance → ∀ k < p.bufferSize, s.accArr k = generated p.results s.iumd k
  /-- At the end of the run all blocks but the last are in the file. -/
  ended : s.main = .join →
    s.file = plainFile p.bufferSize (generated p.results) (p.numd - 2).toNat
  /-- The last block is left in the accumulators. -/
  left : s.main = .join → 1 < p.numd →
    s.file ++ iqBuff p.bufferSize s.accArr =
      plainFile p.bufferSize (generated p.results) (p.numd - 1).toNat

section Written

variable {p : Params} {accArr : Nat → Int × Int} {s : Sim}

theorem PhaseOk.file (ok : PhaseOk p accArr s.iumd s.pipe s.main.phase) :
    ∃ n, s.iumd ≤ n + 2 ∧ n < s.iumd ∧ (n = 0 ∨ (n : Int) + 2 ≤ p.numd) ∧
      s.file = plainFile p.bufferSize (generated p.results) n := by
  have before : s.pipe.file = (pipeline p.bufferSize p.results accArr (s.iumd - 1)).file →
      s.file = plainFile p.bufferSize (generated p.results) (s.iumd - 2) := fun file =>
    file.trans (pipeline_file ..)
  have after : s.pipe.file = (pipeline p.bufferSize p.results accArr s.iumd).file →
      s.file = plainFile p.bufferSize (generated p.results) (s.iumd - 1) := fun file =>
    file.trans (pipeline_file ..)
  generalize s.main.phase = phase at ok
  cases phase with
  | outside =>
      obtain ⟨same, positive, bound⟩ := ok
      exact ⟨s.iumd - 2, by omega, by omega, by omega, before same.file⟩
  | before =>
      obtain ⟨same, positive, bound⟩ := ok
      exact ⟨s.iumd - 2, by omega, by omega, by omega, before same.file⟩
  | written =>
      obtain ⟨file, positive, inside⟩ := ok
      exact ⟨s.iumd - 1, by omega, by omega, by omega, after file⟩
  | cleared =>
      obtain ⟨⟨file, -⟩, positive, inside⟩ := ok
      exact ⟨s.iumd - 1, by omega, by omega, by omega, after file⟩
  | adding iThread i =>
      obtain ⟨⟨file, -⟩, positive, inside⟩ := ok
      exact ⟨s.iumd - 1, by omega, by omega, by omega, after file⟩
  | added =>
      obtain ⟨same, positive, inside⟩ := ok
      exact ⟨s.iumd - 1, by omega, by omega, by omega, after same.file⟩
  | behind =>
      obtain ⟨same, positive, last⟩ := ok
      exact ⟨s.iumd - 2, by omega, by omega, by omega, before same.file⟩

theorem Sim.Follows.written (follows : s.Follows p accArr) : s.Written p := by
  have phase := follows.phase
  refine ⟨phase.file, fun turned => ?_, fun ended => ?_, fun ended some => ?_⟩
  · rw [turned] at phase
    obtain ⟨same, positive, -⟩ := phase
    have held := same.accArr
    rw [pipeline_accArr _ _ _ positive] at held
    exact held
  · rw [ended] at phase
    obtain ⟨same, -, last⟩ := phase
    have count : s.iumd - 1 - 1 = (p.numd - 2).toNat := by omega
    exact same.file.trans (by rw [pipeline_file, count])
  · rw [ended] at phase
    obtain ⟨same, -, last⟩ := phase
    obtain ⟨n, count⟩ : ∃ n, s.iumd - 1 = n + 1 := ⟨s.iumd - 2, by omega⟩
    have file : s.file = _ := same.file
    have held := iqBuff_congr same.accArr
    rw [pipeline_accArr _ _ _ (by omega)] at held
    rw [file, pipeline_file, last, count, Nat.add_sub_cancel, plainFile, ← count]
    exact congrArg _ held

end Written

/-- **The file of the threads.**  Under every interleaving the file holds the first generated
blocks, each once and in order, and at the end all of them but the last. -/
theorem written_of_reach (p : Params) (accArr : Nat → Int × Int)
    (accBuff : Nat → Nat → Int × Int) {s : Sim}
    (run : Reach (program p) (Sim.init accArr accBuff) s) : s.Written p :=
  (follows_of_reach run).written

/-- Two blocks of one sample, and the end of the run. -/
def twoBlocks : List Thread :=
  let threads := (List.range numberOfThread).flatMap fun iThread =>
    List.replicate 6 (.worker iThread)
  List.replicate 27 .main ++ threads ++ List.replicate 29 .main ++ threads ++
    List.replicate 24 .main

def twoSamples : Params where
  numd := 3
  bufferSize := 1
  results := fun iumd iThread _ => (128 * iumd, -128 * iThread)
  renews := fun _ => false
  refreshes := fun _ => false

/-- Of two blocks the first one is written. -/
theorem written_of_reach_twoBlocks :
    ∃ s : Sim, s.main = .join ∧ s.file = [3, -3] ∧
      s.file ++ iqBuff 1 s.accArr = [3, -3, 6, -3] := by
  have ends : (execIf (program twoSamples) (fun _ _ => True) twoBlocks
      (Sim.init (fun _ => 0) fun _ _ => 0)).map Sim.main = some .join := by
    decide +kernel
  obtain ⟨s, moved, ended⟩ := Option.map_eq_some_iff.mp ends
  have run : Reach (program twoSamples) (Sim.init (fun _ => 0) fun _ _ => 0) s :=
    ReachIf.of_execIf twoBlocks moved
  have written := written_of_reach twoSamples (fun _ => 0) (fun _ _ => 0) run
  exact ⟨s, ended, (written.ended ended).trans (by decide),
    (written.left ended (by decide)).trans (by decide)⟩

end Navisim.Pipeline

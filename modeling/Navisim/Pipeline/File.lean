import Navisim.Lib.Delay
import Navisim.Loop.Generate
import Navisim.Signal.Worker

/-!
# The file of the pipelined loop

The loop of `runCore2` writes the block it added up in the turn before, while the threads work
on the next one.  Behind the loop nothing is written, so the file lacks the last block
(`pipeline_file`), and it holds the generated blocks only where none is generated
(`files_agree_iff`).
-/

namespace Navisim.Pipeline

open Signal Loop Delay

/-- What the threads leave in `iAccBuff` and `qAccBuff`, by block, thread and sample. -/
abbrev Results : Type := Nat → Nat → Nat → Int × Int

/-- `(short)((acc +64)>>7)` -/
def scaled (acc : Int) : BitVec 16 :=
  BitVec.ofInt 16 ((acc + 64) >>> (7 : Nat))

/-- `iq_buff`, filled from the accumulators of a block of `size` samples. -/
def iqBuff (size : Nat) (acc : Nat → Int × Int) : List (BitVec 16) :=
  (List.range size).flatMap fun isamp => [scaled (acc isamp).1, scaled (acc isamp).2]

theorem length_iqBuff (size : Nat) (acc : Nat → Int × Int) :
    (iqBuff size acc).length = 2 * size := by
  rw [iqBuff, List.length_flatMap]
  simp only [List.length_cons, List.length_nil, List.map_const', List.length_range,
    List.sum_replicate, smul_eq_mul]
  ring

/-! ## The plain loop -/

/-- The file of a plain loop after the blocks `1 .. n`, in `SC16`: every block is written in the
turn that has added it up, as `runCore` does with its own blocks of `TX_SAMPLERATE/10` samples.
`block iumd isamp` is `i_acc` and `q_acc` of a sample. -/
def plainFile (size : Nat) (block : Nat → Nat → Int × Int) : Nat → List (BitVec 16)
  | 0 => []
  | n + 1 => plainFile size block n ++ iqBuff size (block (n + 1))

/-! ## The pipelined loop -/

/-- `i_accArr` and `q_accArr`, and what has been written. -/
structure Pipe where
  accArr : Nat → Int × Int
  file : List (BitVec 16)

/-- `i_accArr[i] += threadChannel[iThread].iAccBuff[i]`, thread after thread. -/
def addBuffers (accBuff : Nat → Nat → Int × Int) (accArr : Nat → Int × Int) :
    Nat → Nat → Int × Int
  | 0 => accArr
  | iThread + 1 => fun isamp => addBuffers accBuff accArr iThread isamp + accBuff iThread isamp

/-- The loop body of block `iumd`, as far as it concerns the file. -/
def pipelineBlock (size : Nat) (results : Results) (iumd : Nat) (s : Pipe) : Pipe :=
  let file := if iumd > 1 then s.file ++ iqBuff size s.accArr else s.file
  -- memset
  let accArr := fun _ => 0
  { accArr := addBuffers (results iumd) accArr numberOfThread
    file := file }

/-- The loop after `n` blocks; the accumulators start with whatever lies on the stack. -/
def pipeline (size : Nat) (results : Results) (accArr : Nat → Int × Int) : Nat → Pipe
  | 0 => { accArr := accArr, file := [] }
  | n + 1 => pipelineBlock size results (n + 1) (pipeline size results accArr n)

/-- The file of `for (iumd=1; iumd<numd; iumd++)` in `runCore2`: nothing is written behind the
loop. -/
def runCore2File (results : Results) (accArr : Nat → Int × Int) (numd : Int) :
    List (BitVec 16) :=
  (pipeline iqBuffSize results accArr (numd - 1).toNat).file

/-- The generated block: what the threads have produced together. -/
def generated (results : Results) (iumd isamp : Nat) : Int × Int :=
  ∑ iThread ∈ Finset.range numberOfThread, results iumd iThread isamp

/-- The file as it should be: the generated blocks of `runCore2`, written by a plain loop. -/
def generatedFile (results : Results) (numd : Int) : List (BitVec 16) :=
  plainFile iqBuffSize (generated results) (numd - 1).toNat

/-! ## Blocks one turn late -/

section Files

variable {size : Nat} {results : Results} {accArr : Nat → Int × Int}

theorem addBuffers_eq (accBuff : Nat → Nat → Int × Int) (accArr : Nat → Int × Int)
    (count isamp : Nat) :
    addBuffers accBuff accArr count isamp =
      accArr isamp + ∑ iThread ∈ Finset.range count, accBuff iThread isamp := by
  induction count with
  | zero => rw [addBuffers, Finset.sum_range_zero, add_zero]
  | succ count ih =>
      rw [Finset.sum_range_succ, ← add_assoc, ← ih]
      rfl

/-- The blocks `1 .. n`. -/
def blocks (block : Nat → Nat → Int × Int) (n : Nat) : List (Nat → Int × Int) :=
  (List.range n).map fun k => block (k + 1)

theorem blocks_succ (block : Nat → Nat → Int × Int) (n : Nat) :
    blocks block (n + 1) = blocks block n ++ [block (n + 1)] := by
  rw [blocks, List.range_succ, List.map_append]
  rfl

/-- Each block once and in order. -/
theorem plainFile_eq (size : Nat) (block : Nat → Nat → Int × Int) (n : Nat) :
    plainFile size block n = (blocks block n).flatMap (iqBuff size) := by
  induction n with
  | zero => rfl
  | succ n ih =>
      rw [plainFile, ih, blocks_succ, List.flatMap_append, List.flatMap_singleton]

/-- The accumulators hold what a delay line holds, and the file is what it has handed on. -/
structure Delayed (size : Nat) (s : Pipe) (line : Line (Nat → Int × Int)) : Prop where
  file : s.file = line.out.flatMap (iqBuff size)
  accArr : ∀ acc, line.held = some acc → s.accArr = acc

/-- A turn of the loop is a turn of the delay line, the first one included. -/
theorem Delayed.pipelineBlock {s : Pipe} {line : Line (Nat → Int × Int)} {iumd : Nat}
    (delayed : Delayed size s line) (first : iumd > 1 ↔ line.held.isSome) :
    Delayed size (pipelineBlock size results iumd s) (line.push (generated results iumd)) := by
  refine ⟨?_, fun acc held => ?_⟩
  · dsimp only [Pipeline.pipelineBlock, Line.push]
    rw [List.flatMap_append]
    cases holds : line.held with
    | none =>
        rw [holds] at first
        rw [if_neg fun late => Bool.noConfusion (first.mp late), delayed.file]
        exact (List.append_nil _).symm
    | some acc =>
        rw [holds] at first
        rw [if_pos (first.mpr rfl), delayed.file, delayed.accArr acc holds]
        exact congrArg _ (List.flatMap_singleton ..).symm
  · cases held
    funext isamp
    dsimp only [Pipeline.pipelineBlock]
    rw [addBuffers_eq, zero_add]
    rfl

theorem delayed_pipeline (size : Nat) (results : Results) (accArr : Nat → Int × Int) (n : Nat) :
    Delayed size (pipeline size results accArr n)
        (Line.empty.feed (blocks (generated results) n)) ∧
      (0 < n ↔ (Line.empty.feed (blocks (generated results) n)).held.isSome) := by
  induction n with
  | zero => exact ⟨⟨rfl, fun _ held => by cases held⟩, by simp [blocks, feed_nil, Line.empty]⟩
  | succ n ih =>
      obtain ⟨delayed, filled⟩ := ih
      rw [blocks_succ, feed_concat]
      refine ⟨delayed.pipelineBlock (Iff.trans ?_ filled), ?_⟩
      · omega
      · exact iff_of_true n.succ_pos rfl

/-- **What the pipelined loop writes**: the blocks of the run without the last one. -/
theorem pipeline_file (size : Nat) (results : Results) (accArr : Nat → Int × Int) (n : Nat) :
    (pipeline size results accArr n).file = plainFile size (generated results) (n - 1) := by
  obtain ⟨⟨file, -⟩, -⟩ := delayed_pipeline size results accArr n
  rw [file, plainFile_eq]
  cases n with
  | zero => rfl
  | succ n => rw [blocks_succ, out_feed_concat, Nat.add_sub_cancel]

/-- The last block is in the accumulators. -/
theorem pipeline_accArr (size : Nat) (results : Results) (accArr : Nat → Int × Int) {n : Nat}
    (some : 0 < n) : (pipeline size results accArr n).accArr = generated results n := by
  obtain ⟨n, rfl⟩ := Nat.exists_eq_succ_of_ne_zero some.ne'
  obtain ⟨⟨-, held⟩, -⟩ := delayed_pipeline size results accArr (n + 1)
  rw [blocks_succ, feed_concat] at held
  exact held _ rfl

theorem length_plainFile (size : Nat) (block : Nat → Nat → Int × Int) (n : Nat) :
    (plainFile size block n).length = n * (2 * size) := by
  induction n with
  | zero => rw [plainFile, List.length_nil, Nat.zero_mul]
  | succ n ih => rw [plainFile, List.length_append, ih, length_iqBuff, Nat.add_mul, Nat.one_mul]

end Files

/-- **When the pipelined file is the generated one.**  For every run length and all results of the
threads, the file of `runCore2` holds its generated blocks, each once and in order, exactly when
no block is generated. -/
theorem files_agree_iff (results : Results) (accArr : Nat → Int × Int) (numd : Int) :
    runCore2File results accArr numd = generatedFile results numd ↔ numd ≤ 1 := by
  rw [runCore2File, generatedFile, pipeline_file]
  constructor
  · intro same
    have length := congrArg List.length same
    rw [length_plainFile, length_plainFile, iqBuffSize_eq] at length
    omega
  · intro none
    rw [Int.toNat_of_nonpos (by omega)]

/-- A run of one block writes nothing. -/
theorem last_block_missing :
    runCore2File (fun _ _ _ => 0) (fun _ => 0) 2 ≠ generatedFile (fun _ _ _ => 0) 2 := by
  intro same
  have length := congrArg List.length same
  have written : (runCore2File (fun _ _ _ => 0) (fun _ => 0) 2).length = 0 := rfl
  have one : (2 - 1 : Int).toNat = 1 := rfl
  rw [written, generatedFile, one, length_plainFile, iqBuffSize_eq] at length
  cases length

end Navisim.Pipeline

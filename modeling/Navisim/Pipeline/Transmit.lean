import Navisim.RealTime.Fifo

/-!
# Sending the file

The loop of `tx_task` over `gpssim.bin`.  It asks for the end of the file only before a read, and
sends a whole buffer whatever was read, so the read that hits the end is followed by one more
block: what the read has left over is what the buffer held before (`txTask_blocks`).
-/

namespace Navisim.Pipeline

open RealTime

/-- What the loop uses of a `FILE`: what is left to be read, and the end-of-file indicator. -/
structure File where
  rest : List (BitVec 8)
  eof : Bool

/-- `fread` into the start of a buffer: the complete items that it has read, the buffer and the
file.  The indicator is set if there is less than what is asked for. -/
def fread (buffer : Nat → BitVec 8) (size count : Nat) (fid : File) :
    Nat × (Nat → BitVec 8) × File :=
  let bytes := fid.rest.take (size * count)
  (bytes.length / size, fun i => bytes.getD i (buffer i), {
    rest := fid.rest.drop (size * count)
    eof := fid.eof || fid.rest.length < size * count })

/-- A sample of two `short`s, with the low byte first. -/
def sampleAt (buffer : Nat → BitVec 8) (k : Nat) : BitVec 16 × BitVec 16 :=
  (buffer (4 * k + 1) ++ buffer (4 * k), buffer (4 * k + 3) ++ buffer (4 * k + 2))

/-- What `LMS_SendStream` is given of a buffer. -/
def sendStream (buffer : Nat → BitVec 8) (count : Nat) : List (BitVec 16 × BitVec 16) :=
  (List.range count).map (sampleAt buffer)

/-- The samples of a file. -/
def fileSamples (file : List (BitVec 8)) : List (BitVec 16 × BitVec 16) :=
  sendStream (fun i => file.getD i 0) (file.length / 4)

/-- `sizeof(short)` -/
def sizeofShort : Nat := 2

/-- How far the loop is from its end. -/
def File.measure (fid : File) : Nat :=
  if fid.eof then 0 else fid.rest.length + 1

/-- A read brings the loop nearer to its end. -/
theorem fread_measure (buffer : Nat → BitVec 8) {size count : Nat} (positive : 0 < size * count)
    {fid : File} (more : ¬ fid.eof = true) :
    (fread buffer size count fid).2.2.measure < fid.measure := by
  unfold fread File.measure
  rw [if_neg more, Bool.eq_false_iff.mpr more, Bool.false_or]
  dsimp only
  by_cases short : fid.rest.length < size * count
  · rw [if_pos (decide_eq_true short)]
    omega
  · rw [if_neg (by simpa using short), List.length_drop]
    omega

/-- `while (!feof(fid))`: the blocks that are sent. -/
def txLoop (iqBuff : Nat → BitVec 8) (fid : File) : List (List (BitVec 16 × BitVec 16)) :=
  if fid.eof then []
  else
    let read := fread iqBuff sizeofShort (samplesPerBuffer * 2) fid
    sendStream read.2.1 samplesPerBuffer :: txLoop read.2.1 read.2.2
termination_by fid.measure
decreasing_by
  rename_i more
  exact fread_measure iqBuff (by decide) more

/-- The blocks that `tx_task` sends of a file; the buffer starts with whatever lies on the
stack. -/
def txTask (iqBuff : Nat → BitVec 8) (file : List (BitVec 8)) :
    List (List (BitVec 16 × BitVec 16)) :=
  txLoop iqBuff { rest := file, eof := false }

/-- The bytes of a block. -/
def blockBytes : Nat := sizeofShort * (samplesPerBuffer * 2)

theorem blockBytes_eq : blockBytes = 4 * samplesPerBuffer := by decide

theorem blockBytes_pos : 0 < blockBytes := by decide

section Loop

variable {iqBuff buffer buffer' : Nat → BitVec 8} {rest file : List (BitVec 8)}

theorem sendStream_congr {count : Nat} (same : ∀ i < 4 * count, buffer i = buffer' i) :
    sendStream buffer count = sendStream buffer' count := by
  apply List.map_congr_left
  intro k member
  have below := List.mem_range.mp member
  simp only [sampleAt]
  rw [same _ (by omega), same _ (by omega), same _ (by omega), same _ (by omega)]

/-- The buffer behind a read: the bytes of the file, and behind them what was there before. -/
def overwritten (iqBuff : Nat → BitVec 8) (rest : List (BitVec 8)) : Nat → BitVec 8 :=
  fun i => (rest.take blockBytes).getD i (iqBuff i)

theorem txLoop_eof {fid : File} (ended : fid.eof = true) : txLoop iqBuff fid = [] := by
  unfold txLoop
  rw [if_pos ended]

theorem txLoop_read (iqBuff : Nat → BitVec 8) (rest : List (BitVec 8)) :
    txLoop iqBuff { rest := rest, eof := false } =
      sendStream (overwritten iqBuff rest) samplesPerBuffer ::
        txLoop (overwritten iqBuff rest)
          { rest := rest.drop blockBytes, eof := rest.length < blockBytes } := by
  conv_lhs => unfold txLoop
  rfl

/-- The read that hits the end is followed by the last block. -/
theorem txLoop_last (short : rest.length < blockBytes) :
    txLoop iqBuff { rest := rest, eof := false } =
      [sendStream (overwritten iqBuff rest) samplesPerBuffer] := by
  rw [txLoop_read, txLoop_eof (decide_eq_true short)]

/-- A whole block is sent, and the loop goes on. -/
theorem txLoop_whole (whole : blockBytes ≤ rest.length) :
    txLoop iqBuff { rest := rest, eof := false } =
      sendStream (overwritten iqBuff rest) samplesPerBuffer ::
        txLoop (overwritten iqBuff rest) { rest := rest.drop blockBytes, eof := false } := by
  rw [txLoop_read, decide_eq_false (Nat.not_lt.mpr whole)]

theorem getD_overwritten {i : Nat} (inside : i < blockBytes) :
    overwritten iqBuff rest i = rest.getD i (iqBuff i) := by
  rw [overwritten, List.getD_eq_getElem?_getD, List.getD_eq_getElem?_getD,
    List.getElem?_take_of_lt inside]

theorem getD_drop (n i : Nat) (default : BitVec 8) :
    (rest.drop n).getD i default = rest.getD (n + i) default := by
  rw [List.getD_eq_getElem?_getD, List.getD_eq_getElem?_getD, List.getElem?_drop]

/-- Block `b`, as it lies in the buffer when it is sent: the bytes of the file, and where these
end, those of the block before, or for the first block, what the buffer held at the start. -/
def sentBlock (iqBuff : Nat → BitVec 8) (file : List (BitVec 8)) (b i : Nat) : BitVec 8 :=
  file.getD (b * blockBytes + i)
    (if b = 0 then iqBuff i else file.getD ((b - 1) * blockBytes + i) 0)

/-- The blocks behind the first one are those of the rest of the file. -/
theorem sentBlock_drop (whole : blockBytes ≤ rest.length) {i : Nat} (inside : i < blockBytes)
    (b : Nat) : sentBlock (overwritten iqBuff rest) (rest.drop blockBytes) b i =
      sentBlock iqBuff rest (b + 1) i := by
  unfold sentBlock
  rw [getD_drop, if_neg b.succ_ne_zero, Nat.add_sub_cancel, Nat.succ_mul,
    show b * blockBytes + blockBytes + i = blockBytes + (b * blockBytes + i) by omega]
  congr 1
  cases b with
  | zero =>
      rw [if_pos rfl, getD_overwritten inside, Nat.zero_mul, Nat.zero_add]
      have inside' : i < rest.length := by omega
      rw [List.getD_eq_getElem?_getD, List.getD_eq_getElem?_getD,
        List.getElem?_eq_getElem inside', Option.getD_some, Option.getD_some]
  | succ b =>
      rw [if_neg b.succ_ne_zero, getD_drop, Nat.add_sub_cancel, Nat.succ_mul,
        show blockBytes + (b * blockBytes + i) = b * blockBytes + blockBytes + i by omega]

/-- **What is sent**: one block more than there are whole blocks in the file. -/
theorem txTask_blocks (iqBuff : Nat → BitVec 8) (file : List (BitVec 8)) :
    (txTask iqBuff file).length = file.length / blockBytes + 1 ∧
      ∀ b ≤ file.length / blockBytes, (txTask iqBuff file)[b]? =
        some (sendStream (sentBlock iqBuff file b) samplesPerBuffer) := by
  unfold txTask
  induction length : file.length using Nat.strong_induction_on generalizing file iqBuff with
  | _ n ih =>
      have positive := blockBytes_pos
      have first : sendStream (overwritten iqBuff file) samplesPerBuffer =
          sendStream (sentBlock iqBuff file 0) samplesPerBuffer := by
        apply sendStream_congr
        intro i inside
        rw [getD_overwritten (by rwa [blockBytes_eq]), sentBlock, Nat.zero_mul, Nat.zero_add,
          if_pos rfl]
      rcases Nat.lt_or_ge n blockBytes with short | whole
      · rw [txLoop_last (by omega), Nat.div_eq_of_lt short, first]
        refine ⟨rfl, fun b last => ?_⟩
        obtain rfl : b = 0 := Nat.le_zero.mp last
        rfl
      · have shorter : (file.drop blockBytes).length = n - blockBytes := by
          rw [List.length_drop, length]
        rcases ih (n - blockBytes) (by omega) (overwritten iqBuff file) (file.drop blockBytes)
          shorter with ⟨count, later⟩
        rw [txLoop_whole (by omega), Nat.div_eq_sub_div positive whole, first]
        refine ⟨by rw [List.length_cons, count], fun b last => ?_⟩
        cases b with
        | zero => rfl
        | succ b =>
            rw [List.getElem?_cons_succ, later b (by omega)]
            refine congrArg some (sendStream_congr fun i inside => ?_)
            exact sentBlock_drop (by omega) (by rwa [blockBytes_eq]) b

theorem length_of_mem_txTask {block : List (BitVec 16 × BitVec 16)}
    (member : block ∈ txTask iqBuff file) : block.length = samplesPerBuffer := by
  rcases txTask_blocks iqBuff file with ⟨count, blocks⟩
  rcases List.mem_iff_getElem?.mp member with ⟨b, here⟩
  have inside := (List.getElem?_eq_some_iff.mp here).1
  rw [blocks b (by omega)] at here
  rw [← Option.some.inj here, sendStream, List.length_map, List.length_range]

theorem txTask_flatten_length (iqBuff : Nat → BitVec 8) (file : List (BitVec 8)) :
    (txTask iqBuff file).flatten.length = (file.length / blockBytes + 1) * samplesPerBuffer := by
  have same : (txTask iqBuff file).map List.length =
      List.replicate (file.length / blockBytes + 1) samplesPerBuffer := by
    rw [List.eq_replicate_iff]
    constructor
    · rw [List.length_map, (txTask_blocks iqBuff file).1]
    · intro length member
      rcases List.mem_map.mp member with ⟨block, inside, rfl⟩
      exact length_of_mem_txTask inside
  rw [List.length_flatten, same, List.sum_replicate, smul_eq_mul]

end Loop

/-- The blocks are the samples of the file in order, no more and no less. -/
def SendsFile (file : List (BitVec 8)) (blocks : List (List (BitVec 16 × BitVec 16))) : Prop :=
  blocks.flatten = fileSamples file

/-- **No file is sent as it is.**  Whatever its length, more samples are sent than it has. -/
theorem txTask_not_sendsFile (iqBuff : Nat → BitVec 8) (file : List (BitVec 8)) :
    ¬ SendsFile file (txTask iqBuff file) := by
  intro sends
  have length := congrArg List.length sends
  rw [txTask_flatten_length, fileSamples, sendStream, List.length_map, List.length_range] at length
  have few : file.length / 4 < (file.length / blockBytes + 1) * samplesPerBuffer := by
    have inside := Nat.lt_div_mul_add (a := file.length) blockBytes_pos
    rw [blockBytes_eq] at inside ⊢
    rw [Nat.div_lt_iff_lt_mul (by decide)]
    linarith
  omega

/-- Of an empty file, a block of whatever lay on the stack is sent. -/
theorem txTask_emptyFile : ¬ SendsFile [] (txTask (fun _ => 0) []) := by
  intro sends
  have length := congrArg List.length sends
  rw [txTask_flatten_length] at length
  exact absurd length (by decide)

end Navisim.Pipeline

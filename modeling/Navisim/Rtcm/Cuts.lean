import Navisim.Rtcm.Receive

/-!
# Cutting the stream

What `getRTCM3Eph` makes of a stream that `recv` returns in pieces.  The length of the frame that
is being received is lost between two pieces, so that the pieces matter exactly when one of them
ends behind the header of a frame (`cuts_irrelevant_iff`).
-/

namespace Navisim.Rtcm

open Framing

section Blocks

variable {sqrt : ℚ → ℚ} {eph : Table} {stream : List (BitVec 8)} {s : Receiver}

/-- Nothing is delivered behind the end. -/
theorem foldl_stopped {d : Delivery} (stopped : d.nSV ≥ maxSat) (frames : List (List (BitVec 8))) :
    frames.foldl (deliverFrame sqrt) d = d := by
  induction frames with
  | nil => rfl
  | cons frame rest ih =>
      rw [List.foldl_cons, deliverFrame, if_pos (Or.inl stopped)]
      exact ih

theorem deliver_append (stopped : Stopped sqrt eph stream) (more : List (BitVec 8)) :
    deliver sqrt eph (stream ++ more) = deliver sqrt eph stream := by
  obtain ⟨extra, frames⟩ := Format.split_append_frames (F := rtcmFormat) stream more
  rw [deliver, frames, List.foldl_append]
  exact foldl_stopped stopped extra

theorem Stopped.append (stopped : Stopped sqrt eph stream) (more : List (BitVec 8)) :
    Stopped sqrt eph (stream ++ more) := by
  rwa [Stopped, deliver_append stopped]

/-- **A block**: the loop over its bytes delivers what the stream up to its end does. -/
theorem Follows.receiveBytes (follows : Follows sqrt eph stream s)
    (running : ¬ Stopped sqrt eph stream) (block : List (BitVec 8)) :
    ∃ s', receiveBytes sqrt block s = some s' ∧
      s'.delivery = deliver sqrt eph (stream ++ block) ∧
      (¬ Stopped sqrt eph (stream ++ block) → Follows sqrt eph (stream ++ block) s') := by
  induction block generalizing s stream with
  | nil =>
      rw [List.append_nil]
      exact ⟨s, rfl, follows.delivered, fun _ => follows⟩
  | cons byte rest ih =>
      obtain ⟨s₁, received, follows₁⟩ := follows.receiveByte running byte
      have whole : stream ++ byte :: rest = (stream ++ [byte]) ++ rest := by simp
      rw [Rtcm.receiveBytes, received, whole]
      by_cases stopped : Stopped sqrt eph (stream ++ [byte])
      · refine ⟨s₁, ?_, ?_, fun running' => absurd (stopped.append rest) running'⟩
        · simp only [Option.bind_eq_bind, Option.bind_some]
          rw [if_pos (by rw [follows₁.delivered]; exact stopped)]
          rfl
        · rw [deliver_append stopped, follows₁.delivered]
      · obtain ⟨s', rest', delivered, follows'⟩ := ih follows₁ stopped
        refine ⟨s', ?_, delivered, follows'⟩
        simp only [Option.bind_eq_bind, Option.bind_some]
        rw [if_neg (by rw [follows₁.delivered]; exact stopped)]
        exact rest'

/-- The value that the length must have when a block is entered behind a stream. -/
def LengthFits (stream : List (BitVec 8)) (len : BitVec 32) : Prop :=
  3 ≤ (pending stream).length → len.toInt + 3 = rtcmFormat.size (pending stream)

theorem Follows.enter (follows : Follows sqrt eph stream s) {len : BitVec 32}
    (fits : LengthFits stream len) : Follows sqrt eph stream { s with len := len.toInt } :=
  ⟨follows.delivered, follows.count, follows.holds, fits⟩

/-- Behind a stream, the length fits wherever a block is entered before receiving has stopped. -/
def LengthsFit (sqrt : ℚ → ℚ) (eph : Table) (stream : List (BitVec 8)) (lens : Nat → BitVec 32)
    (k : Nat) (blocks : List (List (BitVec 8))) : Prop :=
  ∀ before after, blocks = before ++ after → after ≠ [] →
    Stopped sqrt eph (stream ++ before.flatten) ∨
      LengthFits (stream ++ before.flatten) (lens (k + before.length))

theorem LengthsFit.head {lens : Nat → BitVec 32} {k : Nat} {block : List (BitVec 8)}
    {rest : List (List (BitVec 8))} (fits : LengthsFit sqrt eph stream lens k (block :: rest))
    (running : ¬ Stopped sqrt eph stream) : LengthFits stream (lens k) := by
  rcases fits [] (block :: rest) rfl (List.cons_ne_nil _ _) with stopped | here
  · rw [List.flatten_nil, List.append_nil] at stopped
    exact absurd stopped running
  · rwa [List.flatten_nil, List.append_nil] at here

theorem LengthsFit.tail {lens : Nat → BitVec 32} {k : Nat} {block : List (BitVec 8)}
    {rest : List (List (BitVec 8))} (fits : LengthsFit sqrt eph stream lens k (block :: rest)) :
    LengthsFit sqrt eph (stream ++ block) lens (k + 1) rest := by
  intro before after cut more
  have here := fits (block :: before) after (by rw [cut]; rfl) more
  have place : k + (before.length + 1) = k + 1 + before.length := by omega
  rwa [List.flatten_cons, ← List.append_assoc, List.length_cons, place] at here

/-- **The blocks**: they deliver what the stream does, if the length fits whenever it is needed. -/
theorem Follows.receiveBlocks (follows : Follows sqrt eph stream s) (lens : Nat → BitVec 32)
    (running : ¬ Stopped sqrt eph stream) {k : Nat} (blocks : List (List (BitVec 8)))
    (fits : LengthsFit sqrt eph stream lens k blocks) :
    ∃ s', receiveBlocks sqrt lens k blocks s = some s' ∧
      s'.delivery = deliver sqrt eph (stream ++ blocks.flatten) ∧
      (¬ Stopped sqrt eph (stream ++ blocks.flatten) →
        Follows sqrt eph (stream ++ blocks.flatten) s') := by
  induction blocks generalizing s stream k with
  | nil =>
      rw [List.flatten_nil, List.append_nil]
      exact ⟨s, rfl, follows.delivered, fun _ => follows⟩
  | cons block rest ih =>
      obtain ⟨s₁, received, delivered₁, follows₁⟩ :=
        (follows.enter (fits.head running)).receiveBytes running block
      have whole : stream ++ (block :: rest).flatten = (stream ++ block) ++ rest.flatten := by
        simp
      rw [Rtcm.receiveBlocks, received, whole]
      by_cases stopped : Stopped sqrt eph (stream ++ block)
      · refine ⟨s₁, ?_, ?_, fun running' => absurd (stopped.append _) running'⟩
        · simp only [Option.bind_eq_bind, Option.bind_some]
          rw [if_pos (by rw [delivered₁]; exact stopped)]
          rfl
        · rw [deliver_append stopped, delivered₁]
      · obtain ⟨s', rest', delivered, follows'⟩ := ih (follows₁ stopped) stopped fits.tail
        refine ⟨s', ?_, delivered, follows'⟩
        simp only [Option.bind_eq_bind, Option.bind_some]
        rw [if_neg (by rw [delivered₁]; exact stopped)]
        exact rest'

end Blocks

/-! ## Pieces of a stream -/

/-- What `recv` can return of a stream. -/
structure Cutting (stream : List (BitVec 8)) (blocks : List (List (BitVec 8))) : Prop where
  whole : blocks.flatten = stream
  nonempty : ∀ block ∈ blocks, block ≠ []
  bounded : ∀ block ∈ blocks, block.length ≤ defaultBuflen

/-- Every call of `recv` but the last leaves off before the third byte of a frame, or after
receiving has stopped. -/
def HeadersWhole (sqrt : ℚ → ℚ) (eph : Table) (blocks : List (List (BitVec 8))) : Prop :=
  ∀ before after, blocks = before ++ after → after ≠ [] →
    Stopped sqrt eph before.flatten ∨ (pending before.flatten).length < 3

section Cuts

variable {sqrt : ℚ → ℚ} {eph : Table} {stream : List (BitVec 8)} {s s' : Receiver}
  {blocks before after : List (List (BitVec 8))} {lens : Nat → BitVec 32}

theorem follows_start (sqrt : ℚ → ℚ) (eph : Table) (buff : Buffer) :
    Follows sqrt eph [] {
      i := 0
      len := 0
      buff := buff
      delivery := { nSV := 0, eph := eph, frames := [] } } :=
  ⟨rfl, rfl, fun j inside => absurd inside (Nat.not_lt_zero j),
    fun header => absurd header (by decide)⟩

theorem not_stopped_nil : ¬ Stopped sqrt eph [] := by
  simp [Stopped, deliver, maxSat]

/-- **What is received**, if the length survives wherever it is needed. -/
theorem getRtcm3Eph_of_lengths (buff : Buffer)
    (fits : ∀ before after, blocks = before ++ after → after ≠ [] →
      Stopped sqrt eph before.flatten ∨ LengthFits before.flatten (lens before.length)) :
    getRtcm3Eph sqrt eph buff lens blocks = some (deliver sqrt eph blocks.flatten) := by
  have everywhere : LengthsFit sqrt eph [] lens 0 blocks := by
    simpa [LengthsFit] using fits
  obtain ⟨s', received, delivered, -⟩ :=
    (follows_start sqrt eph buff).receiveBlocks lens not_stopped_nil blocks everywhere
  rw [getRtcm3Eph, received, Option.map_some, delivered, List.nil_append]

/-- Blocks that leave the headers whole need no length. -/
theorem getRtcm3Eph_of_headersWhole (buff : Buffer) (whole : HeadersWhole sqrt eph blocks) :
    getRtcm3Eph sqrt eph buff lens blocks = some (deliver sqrt eph blocks.flatten) :=
  getRtcm3Eph_of_lengths buff fun before after cut more =>
    (whole before after cut more).imp_right fun short header => by omega

/-- The length that fits behind a stream. -/
def fittingLength (stream : List (BitVec 8)) : BitVec 32 :=
  BitVec.ofNat 32 (rtcmFormat.size (pending stream) - 3)

theorem lengthFits_fittingLength (stream : List (BitVec 8)) :
    LengthFits stream (fittingLength stream) := by
  intro _
  have upper := size_lt (pending stream)
  have lower : 6 ≤ rtcmFormat.size (pending stream) := Nat.le_add_left ..
  have value : (fittingLength stream).toNat = rtcmFormat.size (pending stream) - 3 := by
    rw [fittingLength, BitVec.toNat_ofNat]
    omega
  rw [BitVec.toInt_eq_toNat_of_lt (by omega), value]
  omega

theorem receiveBlocks_append {k : Nat} (first : receiveBlocks sqrt lens k before s = some s')
    (running : ¬ s'.delivery.nSV ≥ maxSat) :
    receiveBlocks sqrt lens k (before ++ after) s =
      receiveBlocks sqrt lens (k + before.length) after s' := by
  induction before generalizing k s with
  | nil =>
      obtain rfl : s = s' := by simpa [receiveBlocks] using first
      rfl
  | cons block rest ih =>
      rw [receiveBlocks, Option.bind_eq_bind, Option.bind_eq_some_iff] at first
      obtain ⟨s₁, received, rest'⟩ := first
      rw [List.cons_append, receiveBlocks, received, Option.bind_eq_bind, Option.bind_some]
      split at rest'
      · obtain rfl : s₁ = s' := by simpa using rest'
        contradiction
      · rename_i going
        rw [if_neg going, ih rest', List.length_cons,
          show k + 1 + rest.length = k + (rest.length + 1) by omega]

/-- With the length -1, the byte behind a header ends the frame, and its parity is read in front
of the buffer. -/
theorem Follows.lost (follows : Follows sqrt eph stream s) (header : 3 ≤ (pending stream).length)
    (byte : BitVec 8) : Rtcm.receiveByte sqrt byte { s with len := -1 } = none := by
  have short := (pending_lt header).trans (size_lt _)
  have count := follows.count
  have started : s.i ≠ 0 := by omega
  have inside : ¬ s.i ≥ buffSize := by
    simp only [buffSize]
    omega
  have fourth : s.i + 1 ≠ 3 := by omega
  rw [Rtcm.receiveByte]
  dsimp only
  rw [if_neg started, if_neg inside, takeLength]
  dsimp only
  rw [if_neg fourth, checkFrame]
  dsimp only
  rw [if_neg (by omega), if_neg (by decide), if_neg (by omega), if_pos (Or.inl (by decide))]

/-- A cut behind the header of a frame can be fatal. -/
theorem exists_lens_undefined (nonempty : ∀ block ∈ blocks, block ≠ [])
    (cutHeader : ¬ HeadersWhole sqrt eph blocks) (buff : Buffer) :
    ∃ lens, getRtcm3Eph sqrt eph buff lens blocks = none := by
  unfold HeadersWhole at cutHeader
  push Not at cutHeader
  obtain ⟨before, after, rfl, more, running, header⟩ := cutHeader
  -- The length survives everywhere but at this cut.
  let lens : Nat → BitVec 32 := fun k =>
    if k = before.length then -1 else fittingLength ((before ++ after).take k).flatten
  refine ⟨lens, ?_⟩
  obtain ⟨s, received, delivered, follows⟩ := (follows_start sqrt eph buff).receiveBlocks lens
    (k := 0) not_stopped_nil before fun front back cut rest => by
      have shorter : front.length < before.length := by
        rw [cut, List.length_append]
        have := List.length_pos_iff.mpr rest
        omega
      right
      have here : lens (0 + front.length) = fittingLength front.flatten := by
        simp only [lens, Nat.zero_add]
        rw [if_neg (by omega), cut, List.append_assoc, List.take_left]
      rw [here, List.nil_append]
      exact lengthFits_fittingLength _
  rw [List.nil_append] at delivered follows
  obtain ⟨block, rest, rfl⟩ := List.exists_cons_of_ne_nil more
  obtain ⟨byte, bytes, rfl⟩ := List.exists_cons_of_ne_nil (nonempty block (by simp))
  have last : lens (0 + before.length) = -1 := by
    simp only [lens, Nat.zero_add, if_true]
  have lost := (follows running).lost header byte
  rw [getRtcm3Eph, receiveBlocks_append received (by rw [delivered]; exact running),
    receiveBlocks, last, receiveBytes]
  have value : (-1 : BitVec 32).toInt = -1 := by decide
  rw [value, lost]
  rfl

/-- **When the cuts do not matter**: two ways of cutting a stream deliver the same, whatever the
length and the buffer hold, exactly if both leave the headers of the frames whole. -/
theorem cuts_irrelevant_iff {blocks blocks' : List (List (BitVec 8))}
    (cutting : Cutting stream blocks) (cutting' : Cutting stream blocks') :
    (∀ lens lens' buff buff', getRtcm3Eph sqrt eph buff lens blocks =
      getRtcm3Eph sqrt eph buff' lens' blocks') ↔
    HeadersWhole sqrt eph blocks ∧ HeadersWhole sqrt eph blocks' := by
  constructor
  · intro same
    have survives : ∀ blocks : List (List (BitVec 8)), getRtcm3Eph sqrt eph (fun _ => 0)
        (fun k => fittingLength (blocks.take k).flatten) blocks ≠ none := by
      intro blocks
      rw [getRtcm3Eph_of_lengths (fun _ => 0) fun before after cut more => Or.inr (by
        rw [cut, List.take_left]
        exact lengthFits_fittingLength _)]
      exact Option.some_ne_none _
    constructor
    · by_contra cutHeader
      obtain ⟨lens, undefined⟩ :=
        exists_lens_undefined cutting.nonempty cutHeader (fun _ => 0)
      exact survives blocks' ((same lens _ _ _).symm.trans undefined)
    · by_contra cutHeader
      obtain ⟨lens, undefined⟩ :=
        exists_lens_undefined cutting'.nonempty cutHeader (fun _ => 0)
      exact survives blocks ((same _ lens _ _).trans undefined)
  · intro both lens lens' buff buff'
    rcases both with ⟨whole, whole'⟩
    rw [getRtcm3Eph_of_headersWhole buff whole, getRtcm3Eph_of_headersWhole buff' whole',
      cutting.whole, cutting'.whole]

end Cuts

/-! ## An ephemeris in two pieces -/

/-- A message 1019 with the ephemeris of satellite 1, whose other fields are zero. -/
def blankMessage : List (BitVec 8) :=
  [0xD3, 0x00, 0x3D, 0x3F, 0xB0, 0x40] ++ List.replicate 58 0 ++ [0x31, 0xE5, 0xE1]

/-- An empty table. -/
def sampleTable : Table where
  eph _ := { decodeEphem id (fun _ => 0) with vflg := 0 }
  nSV := 0

/-- The message in one piece. -/
def oneBlock : List (List (BitVec 8)) :=
  [blankMessage]

/-- The message, cut behind its tenth byte. -/
def twoBlocks : List (List (BitVec 8)) :=
  [blankMessage.take 10, blankMessage.drop 10]

theorem cutting_blankMessage :
    Cutting blankMessage oneBlock ∧ Cutting blankMessage twoBlocks := by
  refine ⟨⟨?_, ?_, ?_⟩, ⟨?_, ?_, ?_⟩⟩ <;> decide

theorem cuts_irrelevant_iff_blankMessage :
    (∀ lens lens' buff buff', getRtcm3Eph id sampleTable buff lens oneBlock =
      getRtcm3Eph id sampleTable buff' lens' twoBlocks) ↔
    HeadersWhole id sampleTable oneBlock ∧ HeadersWhole id sampleTable twoBlocks :=
  cuts_irrelevant_iff cutting_blankMessage.1 cutting_blankMessage.2

/-- **A message is lost**: cut in two, with the length 0 when the second piece arrives, the
message is not handed to `decode_rtcm3`. -/
theorem message_lost :
    (Cutting blankMessage oneBlock ∧ Cutting blankMessage twoBlocks) ∧
      (getRtcm3Eph id sampleTable (fun _ => 0) (fun _ => 0) oneBlock).map
        (fun d => (d.frames, d.nSV, (d.eph.eph 0).vflg)) = some ([(blankMessage, 64)], 1, 1) ∧
      (getRtcm3Eph id sampleTable (fun _ => 0) (fun _ => 0) twoBlocks).map
        (fun d => (d.frames, d.nSV, (d.eph.eph 0).vflg)) = some ([], 0, 0) := by
  refine ⟨cutting_blankMessage, ?_, ?_⟩ <;> decide +kernel

end Navisim.Rtcm

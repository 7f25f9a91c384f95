import Navisim.Lib.Detection
import Navisim.Rtcm.Deframe
import Navisim.Rtcm.Parity

/-!
# Damaged frames

What the parity of CRC-24Q is there for.  A frame whose header has arrived and in which an odd
number of bits is wrong, or two, or any within 24 places, is not handed to `decode_rtcm3`, and the
frames around it are (`damaged_dropped`).
-/

namespace Navisim.Rtcm

open Division Framing

/-- The bits in which what is received differs from what was sent. -/
def wrongBits (sent received : List (BitVec 8)) : Finset (Fin (8 * sent.length)) :=
  Syndrome.wrong (fun i => messageBit (toBuffer sent) i) fun i => messageBit (toBuffer received) i

/-- A frame that is received with some bits wrong, but none of the preamble and of the length. -/
structure DamagedFrame where
  sent : ValidFrame
  bytes : List (BitVec 8)
  length : bytes.length = sent.bytes.length
  preamble : bytes.head? = some rtcm3Preamb
  size : getbitu (toBuffer bytes) 14 10 = getbitu (toBuffer sent.bytes) 14 10
  damage : Detectable 24 (wrongBits sent.bytes bytes)

/-- What arrives. -/
inductive Arrival
  | noise (byte : BitVec 8) (other : byte ≠ rtcm3Preamb)
  | intact (f : ValidFrame)
  | damaged (f : DamagedFrame)

namespace Arrival

def bytes : Arrival → List (BitVec 8)
  | noise byte _ => [byte]
  | intact f => f.bytes
  | damaged f => f.bytes

def frames : Arrival → List ValidFrame
  | intact f => [f]
  | _ => []

end Arrival

def arrivalBytes (arrivals : List Arrival) : List (BitVec 8) :=
  arrivals.flatMap Arrival.bytes

/-- The frames that arrive as they were sent. -/
def intactFrames (arrivals : List Arrival) : List ValidFrame :=
  arrivals.flatMap Arrival.frames

/-! ## The generator -/

theorem weight_generator : weight generator = 0 := by
  decide

/-- The register does not come back to one within the longest frame. -/
theorem generator_returns : returns generator 8232 1#25 = false := by
  decide +kernel

/-! ## The parity of a damaged frame -/

section Parity

variable {sqrt : ℚ → ℚ} {d : Delivery}

theorem messageBits_eq_ofFn (buff : Buffer) (len : Nat) :
    messageBits buff len = List.ofFn fun i : Fin (8 * len) => messageBit buff i := by
  apply List.ext_getElem
  · simp [messageBits]
  · intro i _ _
    simp [messageBits, bitsFrom]

/-- A frame has the right parity if the generator goes into it. -/
theorem parity_iff (buff : Buffer) (len : Nat) :
    crc24q buff len = getbitu buff (len * 8) 24 ↔
      divide generator (messageBits buff (len + 3)) = 0#25 := by
  have short := toNat_crc_lt generator_monic (messageBits buff (len + 3))
  have top := msb_divide generator_monic (messageBits buff (len + 3))
  have narrow : (Division.crc generator (messageBits buff (len + 3))).setWidth 32 = 0#32 ↔
      Division.crc generator (messageBits buff (len + 3)) = 0#25 := by
    rw [← BitVec.toNat_inj, ← BitVec.toNat_inj, BitVec.toNat_setWidth, Nat.mod_eq_of_lt (by omega)]
    rfl
  rw [crc24q_eq_getbitu_iff, crc24q_eq]
  exact narrow.trans
    (by rw [crc_eq, iterate_shift_eq_zero_iff generator_odd generator_monic top])

theorem DamagedFrame.framed (f : DamagedFrame) : rtcmFormat.Framed f.bytes := by
  have length := f.sent.length
  rw [← f.length, ← f.size] at length
  refine ⟨fun byte first => ?_, show 3 ≤ _ by omega, ?_⟩
  · rw [f.preamble] at first
    obtain rfl := Option.mem_some.mp first
    rfl
  · simp only [rtcmFormat]
    omega

/-- **The parity is wrong.** -/
theorem DamagedFrame.parity_ne (f : DamagedFrame) :
    crc24q (toBuffer f.bytes) (f.bytes.length - 3) ≠
      getbitu (toBuffer f.bytes) ((f.bytes.length - 3) * 8) 24 := by
  have header : 3 ≤ f.sent.bytes.length := f.sent.framed.header
  have short : f.sent.bytes.length < 1030 := by
    rw [← f.sent.framed.length]
    exact size_lt _
  have passes := (parity_iff _ _).mp f.sent.parity
  rw [Nat.sub_add_cancel header, messageBits_eq_ofFn] at passes
  rw [Ne, parity_iff, f.length, Nat.sub_add_cancel header, messageBits_eq_ofFn]
  exact divide_ne_zero_of_detectable (by decide) generator_odd generator_monic weight_generator
    generator_returns (by omega) passes f.damage

/-- A damaged frame is dropped. -/
theorem deliverFrame_damaged (f : DamagedFrame) : deliverFrame sqrt d f.bytes = d :=
  if_pos (Or.inr f.parity_ne)

end Parity

/-! ## Streams with damaged frames -/

section Streams

variable {sqrt : ℚ → ℚ} {eph : Table}

def Arrival.piece : Arrival → rtcmFormat.Piece
  | noise byte other => (Item.noise byte other).piece
  | intact f => .frame f.bytes f.framed
  | damaged f => .frame f.bytes f.framed

/-- Only what arrives intact changes what is delivered. -/
theorem foldl_deliverFrame_arrivals (sqrt : ℚ → ℚ) (arrivals : List Arrival) (d : Delivery) :
    ((arrivals.map Arrival.piece).flatMap Format.Piece.frames).foldl (deliverFrame sqrt) d =
      ((intactFrames arrivals).map ValidFrame.bytes).foldl (deliverFrame sqrt) d := by
  induction arrivals generalizing d with
  | nil => rfl
  | cons arrival rest ih =>
      have first : intactFrames (arrival :: rest) = arrival.frames ++ intactFrames rest :=
        List.flatMap_cons
      rw [List.map_cons, List.flatMap_cons, List.foldl_append, ih, first, List.map_append,
        List.foldl_append]
      cases arrival with
      | noise byte other => rfl
      | intact f => rfl
      | damaged f =>
          exact congrArg (((intactFrames rest).map ValidFrame.bytes).foldl (deliverFrame sqrt))
            (deliverFrame_damaged f)

theorem deliver_arrivalBytes (sqrt : ℚ → ℚ) (eph : Table) (arrivals : List Arrival) :
    deliver sqrt eph (arrivalBytes arrivals) =
      passFrames sqrt (intactFrames arrivals) (Delivery.start eph) := by
  have bytes : (arrivals.map Arrival.piece).flatMap Format.Piece.bytes = arrivalBytes arrivals := by
    rw [List.flatMap_map, arrivalBytes]
    apply List.flatMap_congr
    intro arrival _
    cases arrival <;> rfl
  rw [deliver, ← bytes, Format.split_pieces]
  exact (foldl_deliverFrame_arrivals sqrt arrivals (Delivery.start eph)).trans
    (foldl_deliverFrame_valid (start_running eph) _)

end Streams

/-- **Damaged frames are dropped.**  However a stream of frames and of bytes that are no preamble
is cut, if no cut leaves a header behind: the frames that arrive as they were sent are passed to
`decode_rtcm3`, in order and up to the one at which the count stops the loop, and those in which
an odd number of bits is wrong, or two, or any within 24 places, are not. -/
theorem damaged_dropped (sqrt : ℚ → ℚ) (eph : Table) (buff : Buffer) (lens : Nat → BitVec 32)
    {blocks : List (List (BitVec 8))} {arrivals : List Arrival}
    (cut : blocks.flatten = arrivalBytes arrivals) (whole : HeadersWhole sqrt eph blocks) :
    getRtcm3Eph sqrt eph buff lens blocks =
      some (passFrames sqrt (intactFrames arrivals) (Delivery.start eph)) := by
  rw [getRtcm3Eph_of_headersWhole buff whole, cut, deliver_arrivalBytes]

/-! ## A sample stream -/

/-- The message with nothing in it, as it is sent. -/
def sentMessage : ValidFrame where
  bytes := blankMessage
  preamble := rfl
  length := by decide
  parity := by decide +kernel

/-- It is received with 24 places wrong at both ends. -/
def spoiltMessage : DamagedFrame where
  sent := sentMessage
  bytes := blankMessage.take 40 ++ [0x80, 0x00, 0x01] ++ blankMessage.drop 43
  length := by decide
  preamble := rfl
  size := by decide
  damage := by
    refine Or.inr (Or.inr ⟨⟨⟨320, by decide⟩, ?_⟩, 320, ?_⟩)
    · rw [wrongBits, Syndrome.mem_wrong]
      decide
    · have places : ∀ i : Fin (8 * sentMessage.bytes.length),
          messageBit (toBuffer sentMessage.bytes) i ≠ messageBit (toBuffer
            (blankMessage.take 40 ++ [0x80, 0x00, 0x01] ++ blankMessage.drop 43)) i →
          320 ≤ i.val ∧ i.val < 320 + 24 := by
        decide +kernel
      intro i inside
      rw [wrongBits, Syndrome.mem_wrong] at inside
      exact places i inside

/-- A byte of noise, the damaged message, and the message, cut behind the noise and in the last
header. -/
def spoiltBlocks : List (List (BitVec 8)) :=
  [[0x00], spoiltMessage.bytes ++ [0xD3, 0x00], blankMessage.drop 2]

theorem damaged_dropped_sample :
    getRtcm3Eph id sampleTable (fun _ => 0) (fun _ => 0) spoiltBlocks =
      some (passFrames id [sentMessage] (Delivery.start sampleTable)) := by
  have whole : HeadersWhole id sampleTable spoiltBlocks := by
    intro before after cut more
    have short : ∀ k < 3, (pending (spoiltBlocks.take k).flatten).length < 3 := by
      decide +kernel
    have front : before = spoiltBlocks.take before.length := by rw [cut, List.take_left]
    have bound : before.length < 3 := by
      have lengths : 3 = (before ++ after).length := by rw [← cut]; rfl
      have positive := List.length_pos_iff.mpr more
      rw [List.length_append] at lengths
      omega
    right
    rw [front]
    exact short _ bound
  have cut : spoiltBlocks.flatten = arrivalBytes
      [.noise 0 (by decide), .damaged spoiltMessage, .intact sentMessage] := rfl
  exact damaged_dropped id sampleTable (fun _ => 0) (fun _ => 0) cut whole

end Navisim.Rtcm

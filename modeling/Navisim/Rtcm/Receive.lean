import Navisim.Lib.Framing
import Navisim.Rtcm.Crc

/-!
# The receive loop

`getRTCM3Eph` puts the bytes that `recv` returns together to frames and hands those with the
right parity to `decode_rtcm3`.  The byte count `i` and the buffer live across the calls of
`recv`; the length of the frame is declared inside the loop, and is lost between them.

The frames of a stream are those of its format (`deliver`).  The loop delivers them when each
call of `recv` leaves off with the header of a frame unread, or when the length happens to
survive (`getRtcm3Eph_of_lengths`).
-/

namespace Navisim.Rtcm

open Framing

/-- `RTCM3PREAMB` -/
def rtcm3Preamb : BitVec 8 := 0xD3

/-- `buff[1200]` -/
def buffSize : Nat := 1200

/-- `DEFAULT_BUFLEN` -/
def defaultBuflen : Nat := 4096

/-- What the calls of `decode_rtcm3` have been given, and what they have left. -/
structure Delivery where
  nSV : Int
  eph : Table
  /-- The bytes of the frames, up to the parity, and their lengths. -/
  frames : List (List (BitVec 8) × Int)

/-- The variables of the loop. -/
structure Receiver where
  i : Nat
  len : Int
  buff : Buffer
  delivery : Delivery

/-- The length of a message, which is in the third byte. -/
def takeLength (s : Receiver) : Receiver :=
  if s.i = 3 then { s with len := (getbitu s.buff 14 10).toNat + 3 } else s

/-- What happens to a frame whose bytes are all there. -/
def endFrame (sqrt : ℚ → ℚ) (s : Receiver) : Receiver :=
  let s := { s with i := 0 }
  -- check parity
  if crc24q s.buff s.len.toNat ≠ getbitu s.buff (s.len.toNat * 8) 24 then s
  else
    -- decode rtcm3 message
    let (ret, eph) := decodeRtcm3 sqrt s.delivery.eph s.buff s.len
    { s with delivery := {
        nSV := ret
        eph := eph
        frames := s.delivery.frames ++
          [((List.range (s.len.toNat + 3)).map s.buff, s.len)] } }

/-- `if (i < 3 || i < len + 3) continue`, and what follows.  The result is undefined when the sum
overflows or bytes outside the buffer are read. -/
def checkFrame (sqrt : ℚ → ℚ) (s : Receiver) : Option Receiver :=
  if s.i < 3 then some s
  else if s.len + 3 ≥ 2 ^ 31 then none
  else if s.i < s.len + 3 then some s
  else if s.len < 0 ∨ s.len + 3 > buffSize then none
  else some (endFrame sqrt s)

/-- The body of the loop over the bytes.  A byte that does not fit is stored outside the
buffer. -/
def receiveByte (sqrt : ℚ → ℚ) (byte : BitVec 8) (s : Receiver) : Option Receiver :=
  if s.i = 0 then
    if byte ≠ rtcm3Preamb then some s
    else some { s with buff := Function.update s.buff 0 byte, i := 1 }
  else if s.i ≥ buffSize then none
  else checkFrame sqrt
    (takeLength { s with buff := Function.update s.buff s.i byte, i := s.i + 1 })

/-- The loop over the bytes of a block. -/
def receiveBytes (sqrt : ℚ → ℚ) : List (BitVec 8) → Receiver → Option Receiver
  | [], s => some s
  | byte :: rest, s => do
      let s ← receiveByte sqrt byte s
      if s.delivery.nSV ≥ maxSat then return s else receiveBytes sqrt rest s

/-- The loop over the results of `recv`; in block `k`, `len` starts with the value `lens k`. -/
def receiveBlocks (sqrt : ℚ → ℚ) (lens : Nat → BitVec 32) :
    Nat → List (List (BitVec 8)) → Receiver → Option Receiver
  | _, [], s => some s
  | k, block :: rest, s => do
      let s ← receiveBytes sqrt block { s with len := (lens k).toInt }
      if s.delivery.nSV ≥ maxSat then return s else receiveBlocks sqrt lens (k + 1) rest s

/-- `getRTCM3Eph`: `buff` is what its buffer holds at the start. -/
def getRtcm3Eph (sqrt : ℚ → ℚ) (eph : Table) (buff : Buffer) (lens : Nat → BitVec 32)
    (blocks : List (List (BitVec 8))) : Option Delivery :=
  (receiveBlocks sqrt lens 0 blocks {
    i := 0
    len := 0
    buff := buff
    delivery := { nSV := 0, eph := eph, frames := [] } }).map Receiver.delivery

/-! ## The frames of a stream -/

/-- The bytes of a frame in a buffer. -/
def toBuffer (frame : List (BitVec 8)) : Buffer :=
  fun j => frame.getD j 0

theorem size_congr {buff buff' : Buffer} (same : ∀ j < 3, buff j = buff' j) :
    getbitu buff 14 10 = getbitu buff' 14 10 := by
  rw [← getbitu_first buff 3 (by decide), Buffer.first_congr same,
    getbitu_first buff' 3 (by decide)]

/-- A frame is a preamble, a length of ten bits, a payload of this length, and three bytes of
parity. -/
def rtcmFormat : Format (BitVec 8) where
  isStart byte := byte = rtcm3Preamb
  header := 3
  size frame := (getbitu (toBuffer frame) 14 10).toNat + 6
  header_pos := by decide
  header_le_size frame := by omega
  size_append frame more header := by
    have same : getbitu (toBuffer (frame ++ more)) 14 10 = getbitu (toBuffer frame) 14 10 := by
      apply size_congr
      intro j inside
      simp only [toBuffer, List.getD_eq_getElem?_getD]
      rw [List.getElem?_append_left (by omega)]
    rw [same]

/-- A frame is delivered if its parity is right, unless receiving has stopped. -/
def deliverFrame (sqrt : ℚ → ℚ) (d : Delivery) (frame : List (BitVec 8)) : Delivery :=
  let len := frame.length - 3
  if d.nSV ≥ maxSat ∨ crc24q (toBuffer frame) len ≠ getbitu (toBuffer frame) (len * 8) 24 then d
  else
    let (ret, eph) := decodeRtcm3 sqrt d.eph (toBuffer frame) len
    { nSV := ret, eph := eph, frames := d.frames ++ [(frame, (len : Int))] }

/-- What a stream delivers. -/
def deliver (sqrt : ℚ → ℚ) (eph : Table) (stream : List (BitVec 8)) : Delivery :=
  (rtcmFormat.split stream).1.foldl (deliverFrame sqrt) { nSV := 0, eph := eph, frames := [] }

/-- Receiving has stopped by the end of a stream. -/
def Stopped (sqrt : ℚ → ℚ) (eph : Table) (stream : List (BitVec 8)) : Prop :=
  (deliver sqrt eph stream).nSV ≥ maxSat

/-- The bytes of the unfinished frame at the end of a stream. -/
def pending (stream : List (BitVec 8)) : List (BitVec 8) :=
  (rtcmFormat.split stream).2

/-! ## The loop follows the frames -/

section Steps

variable {sqrt : ℚ → ℚ} {eph : Table} {stream frame : List (BitVec 8)} {byte : BitVec 8}
  {s : Receiver}

theorem size_lt (frame : List (BitVec 8)) : rtcmFormat.size frame < 1030 := by
  have field : (getbitu (toBuffer frame) 14 10).toNat < 1024 := by
    rw [getbitu_toNat _ _ (by decide)]
    exact messageField_lt ..
  simp only [rtcmFormat]
  omega

/-- **What a byte does to a stream**: it is skipped, or it ends a frame, or a frame grows. -/
theorem append_cases (sqrt : ℚ → ℚ) (eph : Table) (stream : List (BitVec 8)) (byte : BitVec 8) :
    (pending stream = [] ∧ byte ≠ rtcm3Preamb ∧ pending (stream ++ [byte]) = [] ∧
      deliver sqrt eph (stream ++ [byte]) = deliver sqrt eph stream) ∨
    (rtcmFormat.Complete (pending stream ++ [byte]) ∧ pending (stream ++ [byte]) = [] ∧
      deliver sqrt eph (stream ++ [byte]) =
        deliverFrame sqrt (deliver sqrt eph stream) (pending stream ++ [byte])) ∨
    ((pending stream = [] → byte = rtcm3Preamb) ∧ ¬ rtcmFormat.Complete (pending stream ++ [byte]) ∧
      pending (stream ++ [byte]) = pending stream ++ [byte] ∧
      deliver sqrt eph (stream ++ [byte]) = deliver sqrt eph stream) := by
  have step : rtcmFormat.split (stream ++ [byte]) =
      rtcmFormat.feed (rtcmFormat.split stream) byte := by
    rw [Format.split_append, List.foldl_cons, List.foldl_nil]
  unfold pending deliver
  rw [step, Format.feed]
  split
  · rename_i skip
    refine Or.inl ⟨skip.1, ?_, skip.1, rfl⟩
    simpa [rtcmFormat] using skip.2
  · rename_i start
    split
    · rename_i complete
      refine Or.inr (Or.inl ⟨complete, rfl, ?_⟩)
      rw [List.foldl_append, List.foldl_cons, List.foldl_nil]
    · rename_i unfinished
      refine Or.inr (Or.inr ⟨fun empty => ?_, unfinished, rfl, rfl⟩)
      by_contra noise
      exact start ⟨empty, by simpa [rtcmFormat] using noise⟩

/-- An unfinished frame is shorter than its size. -/
theorem pending_lt (header : 3 ≤ (pending stream).length) :
    (pending stream).length < rtcmFormat.size (pending stream) := by
  by_contra long
  exact Format.not_complete_pending (F := rtcmFormat) stream ⟨header, not_lt.mp long⟩

/-- The buffer holds the bytes of a frame. -/
def Holds (buff : Buffer) (frame : List (BitVec 8)) : Prop :=
  ∀ j < frame.length, buff j = toBuffer frame j

theorem Holds.append {buff : Buffer} (holds : Holds buff frame) (byte : BitVec 8) :
    Holds (Function.update buff frame.length byte) (frame ++ [byte]) := by
  intro j inside
  rw [List.length_append, List.length_singleton] at inside
  rcases Nat.lt_succ_iff_lt_or_eq.mp inside with before | rfl
  · rw [Function.update_of_ne (by omega), holds j before, toBuffer, toBuffer,
      List.getD_eq_getElem?_getD, List.getD_eq_getElem?_getD,
      List.getElem?_append_left before]
  · rw [Function.update_self, toBuffer, List.getD_eq_getElem?_getD,
      List.getElem?_append_right le_rfl, Nat.sub_self]
    rfl

theorem Holds.map_range {buff : Buffer} (holds : Holds buff frame) :
    (List.range frame.length).map buff = frame := by
  apply List.ext_getElem (by simp)
  intro j inside inside'
  rw [List.getElem_map, List.getElem_range, holds j inside', toBuffer,
    List.getD_eq_getElem?_getD, List.getElem?_eq_getElem inside']
  rfl

/-- A finished frame is delivered from the buffer. -/
theorem endFrame_delivery (sqrt : ℚ → ℚ) (holds : Holds s.buff frame)
    (length : s.len + 3 = frame.length) (header : 6 ≤ frame.length)
    (running : ¬ s.delivery.nSV ≥ maxSat) :
    (endFrame sqrt s).delivery = deliverFrame sqrt s.delivery frame ∧ (endFrame sqrt s).i = 0 := by
  obtain ⟨len, place⟩ : ∃ len : Nat, s.len = len := ⟨frame.length - 3, by omega⟩
  have size : len + 3 = frame.length := by omega
  have bytes : s.buff.first (len + 3) = (toBuffer frame).first (len + 3) :=
    Buffer.first_congr fun j inside => holds j (by omega)
  have crc : crc24q s.buff len = crc24q (toBuffer frame) len := by
    rw [← crc24q_first _ (len + 3) (by omega), bytes, crc24q_first _ _ (by omega)]
  have parity : getbitu s.buff (len * 8) 24 = getbitu (toBuffer frame) (len * 8) 24 := by
    rw [← getbitu_first _ (len + 3) (by omega), bytes, getbitu_first _ _ (by omega)]
  have decoded : decodeRtcm3 sqrt s.delivery.eph s.buff len =
      decodeRtcm3 sqrt s.delivery.eph (toBuffer frame) len :=
    decodeRtcm3_congr sqrt _ (by omega) fun j inside => holds j (by omega)
  unfold endFrame deliverFrame
  dsimp only
  rw [place, Int.toNat_natCast, show frame.length - 3 = len by omega, crc, parity, decoded, size,
    holds.map_range]
  by_cases wrong : crc24q (toBuffer frame) len ≠ getbitu (toBuffer frame) (len * 8) 24
  · rw [if_pos wrong, if_pos (Or.inr wrong)]
    exact ⟨rfl, rfl⟩
  · rw [if_neg wrong, if_neg (not_or.mpr ⟨running, wrong⟩)]
    exact ⟨rfl, rfl⟩

variable (sqrt eph)

/-- The variables of the loop after a stream whose frames have all been received in one run. -/
structure Follows (stream : List (BitVec 8)) (s : Receiver) : Prop where
  delivered : s.delivery = deliver sqrt eph stream
  count : s.i = (pending stream).length
  holds : Holds s.buff (pending stream)
  length : 3 ≤ (pending stream).length → s.len + 3 = rtcmFormat.size (pending stream)

variable {sqrt eph}

/-- The length is read from the third byte, and is kept from then on. -/
theorem takeLength_len (holds : Holds s.buff frame) (count : s.i = frame.length)
    (length : 4 ≤ frame.length → s.len + 3 = rtcmFormat.size frame) :
    (takeLength s).i = frame.length ∧ (takeLength s).buff = s.buff ∧
      (takeLength s).delivery = s.delivery ∧
      (3 ≤ frame.length → (takeLength s).len + 3 = rtcmFormat.size frame) := by
  unfold takeLength
  split
  · rename_i third
    refine ⟨count, rfl, rfl, fun _ => ?_⟩
    have field : getbitu s.buff 14 10 = getbitu (toBuffer frame) 14 10 :=
      size_congr fun j inside => holds j (by omega)
    dsimp only
    rw [field]
    simp only [rtcmFormat]
    push_cast
    ring
  · exact ⟨count, rfl, rfl, fun header => length (by omega)⟩

/-- A frame that is not finished goes on, and one that is finished is delivered. -/
theorem checkFrame_cases (sqrt : ℚ → ℚ) (holds : Holds s.buff frame) (count : s.i = frame.length)
    (length : 3 ≤ frame.length → s.len + 3 = rtcmFormat.size frame)
    (limit : 3 ≤ frame.length → frame.length ≤ rtcmFormat.size frame)
    (running : ¬ s.delivery.nSV ≥ maxSat) :
    (¬ rtcmFormat.Complete frame → checkFrame sqrt s = some s) ∧
      (rtcmFormat.Complete frame → ∃ s', checkFrame sqrt s = some s' ∧ s'.i = 0 ∧
        s'.delivery = deliverFrame sqrt s.delivery frame) := by
  have bound := size_lt frame
  constructor
  · intro unfinished
    unfold checkFrame
    rcases Nat.lt_or_ge frame.length 3 with header | header
    · rw [if_pos (by omega)]
    · have more : frame.length < rtcmFormat.size frame := by
        by_contra long
        exact unfinished ⟨header, not_lt.mp long⟩
      have len := length header
      rw [if_neg (by omega), if_neg (by omega), if_pos (by omega)]
  · intro complete
    rcases complete with ⟨header, long⟩
    have header' : 3 ≤ frame.length := header
    have len := length header'
    have size := limit header'
    have six : 6 ≤ rtcmFormat.size frame := Nat.le_add_left ..
    obtain ⟨delivery, i⟩ := endFrame_delivery sqrt holds (by omega) (by omega) running
    refine ⟨endFrame sqrt s, ?_, i, delivery⟩
    have fits : ¬ (s.len < 0 ∨ s.len + 3 > buffSize) := by
      simp only [buffSize]
      omega
    unfold checkFrame
    rw [if_neg (by omega), if_neg (by omega), if_neg (by omega), if_neg fits]

/-- The state in which a byte behind the start of a frame is checked. -/
def storeByte (byte : BitVec 8) (s : Receiver) : Receiver :=
  takeLength { s with buff := Function.update s.buff s.i byte, i := s.i + 1 }

theorem size_append (stream : List (BitVec 8)) (byte : BitVec 8)
    (long : 4 ≤ (pending stream ++ [byte]).length) :
    rtcmFormat.size (pending stream ++ [byte]) = rtcmFormat.size (pending stream) ∧
      3 ≤ (pending stream).length := by
  rw [List.length_append, List.length_singleton] at long
  exact ⟨rtcmFormat.size_append _ _ (show 3 ≤ _ by omega), by omega⟩

/-- A frame does not grow beyond its size. -/
theorem append_le_size (stream : List (BitVec 8)) (byte : BitVec 8) :
    (pending stream ++ [byte]).length ≤ rtcmFormat.size (pending stream ++ [byte]) := by
  have six : 6 ≤ rtcmFormat.size (pending stream ++ [byte]) := Nat.le_add_left ..
  rcases Nat.lt_or_ge (pending stream ++ [byte]).length 4 with third | long
  · omega
  · obtain ⟨size, header⟩ := size_append stream byte long
    have below := pending_lt header
    rw [size, List.length_append, List.length_singleton]
    omega

/-- The unfinished frame fits into the buffer. -/
theorem Follows.inside (follows : Follows sqrt eph stream s) : ¬ s.i ≥ buffSize := by
  have short : (pending stream).length < 1030 := by
    rcases Nat.lt_or_ge (pending stream).length 3 with header | header
    · omega
    · exact (pending_lt header).trans (size_lt _)
  have count := follows.count
  simp only [buffSize]
  omega

/-- The byte that is stored is the next one of the frame. -/
theorem Follows.stored (follows : Follows sqrt eph stream s) (byte : BitVec 8) :
    (storeByte byte s).i = (pending stream ++ [byte]).length ∧
      Holds (storeByte byte s).buff (pending stream ++ [byte]) ∧
      (storeByte byte s).delivery = s.delivery ∧
      (3 ≤ (pending stream ++ [byte]).length →
        (storeByte byte s).len + 3 = rtcmFormat.size (pending stream ++ [byte])) := by
  obtain ⟨delivered, count, holds, length⟩ := follows
  have count' : s.i + 1 = (pending stream ++ [byte]).length := by
    rw [count, List.length_append, List.length_singleton]
  have holds' : Holds (Function.update s.buff s.i byte) (pending stream ++ [byte]) := by
    rw [count]
    exact holds.append byte
  obtain ⟨i, buff, delivery, len⟩ := takeLength_len
    (s := { s with buff := Function.update s.buff s.i byte, i := s.i + 1 }) holds' count'
    fun long => by
      obtain ⟨size, header⟩ := size_append stream byte long
      rw [size]
      exact length header
  refine ⟨i, ?_, delivery, len⟩
  rw [storeByte, buff]
  exact holds'

/-- A byte that finishes a frame. -/
theorem Follows.finish (follows : Follows sqrt eph stream s) (running : ¬ Stopped sqrt eph stream)
    {byte : BitVec 8} (complete : rtcmFormat.Complete (pending stream ++ [byte])) :
    ∃ s', receiveByte sqrt byte s = some s' ∧ s'.i = 0 ∧
      s'.delivery = deliverFrame sqrt s.delivery (pending stream ++ [byte]) := by
  obtain ⟨i, holds, delivery, len⟩ := follows.stored byte
  have started : s.i ≠ 0 := by
    have header : 3 ≤ (pending stream ++ [byte]).length := complete.1
    rw [List.length_append, List.length_singleton] at header
    rw [follows.count]
    omega
  have running' : ¬ (storeByte byte s).delivery.nSV ≥ maxSat := by
    rwa [delivery, follows.delivered]
  obtain ⟨s', checked, ready, delivered⟩ := (checkFrame_cases sqrt holds i len
    (fun _ => append_le_size stream byte) running').2 complete
  refine ⟨s', ?_, ready, by rw [delivered, delivery]⟩
  rw [Rtcm.receiveByte, if_neg started, if_neg follows.inside]
  exact checked

/-- A byte behind the first one that leaves the frame unfinished. -/
theorem Follows.grow (follows : Follows sqrt eph stream s) (running : ¬ Stopped sqrt eph stream)
    {byte : BitVec 8} (incomplete : ¬ rtcmFormat.Complete (pending stream ++ [byte]))
    (started : s.i ≠ 0) : receiveByte sqrt byte s = some (storeByte byte s) := by
  obtain ⟨i, holds, delivery, len⟩ := follows.stored byte
  have running' : ¬ (storeByte byte s).delivery.nSV ≥ maxSat := by
    rwa [delivery, follows.delivered]
  rw [Rtcm.receiveByte, if_neg started, if_neg follows.inside]
  exact (checkFrame_cases sqrt holds i len (fun _ => append_le_size stream byte) running').1
    incomplete

/-- Nothing is pending: the loop waits for a preamble. -/
theorem Follows.of_idle {s' : Receiver} (delivered : s'.delivery = deliver sqrt eph stream)
    (ready : s'.i = 0) (idle : pending stream = []) : Follows sqrt eph stream s' := by
  refine ⟨delivered, ?_, ?_, ?_⟩
  · rw [ready, idle, List.length_nil]
  · rw [idle]
    exact fun j inside => absurd inside (Nat.not_lt_zero j)
  · rw [idle]
    exact fun header => absurd header (by decide)

/-- **One byte**: the loop is never undefined and keeps up with the frames. -/
theorem Follows.receiveByte (follows : Follows sqrt eph stream s)
    (running : ¬ Stopped sqrt eph stream) (byte : BitVec 8) :
    ∃ s', receiveByte sqrt byte s = some s' ∧ Follows sqrt eph (stream ++ [byte]) s' := by
  rcases append_cases sqrt eph stream byte with
    ⟨empty, noise, rest, same⟩ | ⟨complete, rest, next⟩ | ⟨start, incomplete, rest, same⟩
  · have ready : s.i = 0 := by rw [follows.count, empty, List.length_nil]
    refine ⟨s, ?_, .of_idle (by rw [follows.delivered, same]) ready rest⟩
    rw [Rtcm.receiveByte, if_pos ready, if_pos noise]
  · obtain ⟨s', received, ready, delivered⟩ := follows.finish running complete
    refine ⟨s', received, .of_idle ?_ ready rest⟩
    rw [delivered, next, follows.delivered]
  · obtain ⟨i, holds, delivery, len⟩ := follows.stored byte
    by_cases started : s.i = 0
    · have empty : pending stream = [] :=
        List.eq_nil_of_length_eq_zero (by rw [← follows.count, started])
      have first : Holds (Function.update s.buff 0 byte) (pending stream ++ [byte]) := by
        have none : Holds s.buff [] := fun j inside => absurd inside (Nat.not_lt_zero j)
        rw [empty]
        exact none.append byte
      refine ⟨{ s with buff := Function.update s.buff 0 byte, i := 1 }, ?_, ?_, ?_, ?_, ?_⟩
      · rw [Rtcm.receiveByte, if_pos started, if_neg (not_not.mpr (start empty))]
      · rw [same]
        exact follows.delivered
      · rw [rest, empty]
        rfl
      · rw [rest]
        exact first
      · rw [rest, empty]
        exact fun header => absurd header (by simp)
    · refine ⟨storeByte byte s, follows.grow running incomplete started, ?_, ?_, ?_, ?_⟩
      · rw [delivery, same]
        exact follows.delivered
      · rw [rest, i]
      · rw [rest]
        exact holds
      · rw [rest]
        exact len

end Steps

end Navisim.Rtcm

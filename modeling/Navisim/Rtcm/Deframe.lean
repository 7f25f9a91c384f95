import Navisim.Rtcm.Bounds

/-!
# Frames between noise

A stream of valid frames with bytes between them that are no preamble, cut anywhere but inside a
frame.  The loop hands over these frames and nothing else, whatever bytes they consist of, and
waits for a preamble behind each of them (`deframe`).
-/

namespace Navisim.Rtcm

open Framing

/-- A preamble, six reserved bits, a length of ten bits, a payload of this length, and its
parity. -/
structure ValidFrame where
  bytes : List (BitVec 8)
  preamble : bytes.head? = some rtcm3Preamb
  length : bytes.length = 3 + (getbitu (toBuffer bytes) 14 10).toNat + 3
  parity : crc24q (toBuffer bytes) (bytes.length - 3) =
    getbitu (toBuffer bytes) ((bytes.length - 3) * 8) 24

/-- The length that `decode_rtcm3` is given, that of the frame without its parity. -/
def ValidFrame.len (f : ValidFrame) : Nat :=
  f.bytes.length - 3

/-- What `recv` returns without cutting a frame. -/
inductive Item
  | noise (byte : BitVec 8) (other : byte ≠ rtcm3Preamb)
  | frame (f : ValidFrame)

namespace Item

def bytes : Item → List (BitVec 8)
  | noise byte _ => [byte]
  | frame f => f.bytes

def frames : Item → List ValidFrame
  | noise _ _ => []
  | frame f => [f]

end Item

/-- The bytes of a block. -/
def itemBytes (items : List Item) : List (BitVec 8) :=
  items.flatMap Item.bytes

/-- The frames of a block. -/
def itemFrames (items : List Item) : List ValidFrame :=
  items.flatMap Item.frames

/-- A frame is passed to `decode_rtcm3`. -/
def passFrame (sqrt : ℚ → ℚ) (d : Delivery) (f : ValidFrame) : Delivery :=
  let (ret, eph) := decodeRtcm3 sqrt d.eph (toBuffer f.bytes) f.len
  { nSV := ret, eph := eph, frames := d.frames ++ [(f.bytes, (f.len : Int))] }

/-- Frames are passed on until the count stops the loop. -/
def passFrames (sqrt : ℚ → ℚ) : List ValidFrame → Delivery → Delivery
  | [], d => d
  | f :: rest, d =>
      let d := passFrame sqrt d f
      if d.nSV ≥ maxSat then d else passFrames sqrt rest d

/-- A call that has received nothing. -/
def Delivery.start (eph : Table) : Delivery where
  nSV := 0
  eph := eph
  frames := []

section Frames

variable {sqrt : ℚ → ℚ} {d : Delivery} {eph : Table}

theorem start_running (eph : Table) : ¬ (Delivery.start eph).nSV ≥ maxSat := by
  simp [Delivery.start, maxSat]

theorem ValidFrame.framed (f : ValidFrame) : rtcmFormat.Framed f.bytes := by
  have length := f.length
  refine ⟨fun byte first => ?_, show 3 ≤ _ by omega, ?_⟩
  · rw [f.preamble] at first
    obtain rfl := Option.mem_some.mp first
    rfl
  · simp only [rtcmFormat]
    omega

def Item.piece : Item → rtcmFormat.Piece
  | noise byte other => .noise byte (by simpa [rtcmFormat] using other)
  | frame f => .frame f.bytes f.framed

theorem split_itemBytes (items : List Item) :
    rtcmFormat.split (itemBytes items) = ((itemFrames items).map ValidFrame.bytes, []) := by
  have split := Format.split_pieces (items.map Item.piece)
  have bytes : (items.map Item.piece).flatMap Format.Piece.bytes = itemBytes items := by
    rw [List.flatMap_map, itemBytes]
    apply List.flatMap_congr
    intro item _
    cases item <;> rfl
  have frames : (items.map Item.piece).flatMap Format.Piece.frames =
      (itemFrames items).map ValidFrame.bytes := by
    rw [List.flatMap_map, itemFrames, List.map_flatMap]
    apply List.flatMap_congr
    intro item _
    cases item <;> rfl
  rwa [bytes, frames] at split

/-- A valid frame is delivered unless receiving has stopped. -/
theorem deliverFrame_valid (running : ¬ d.nSV ≥ maxSat) (f : ValidFrame) :
    deliverFrame sqrt d f.bytes = passFrame sqrt d f := by
  unfold deliverFrame
  dsimp only
  rw [if_neg (not_or.mpr ⟨running, not_not.mpr f.parity⟩)]
  rfl

theorem foldl_deliverFrame_valid (running : ¬ d.nSV ≥ maxSat) (frames : List ValidFrame) :
    (frames.map ValidFrame.bytes).foldl (deliverFrame sqrt) d = passFrames sqrt frames d := by
  induction frames generalizing d with
  | nil => rfl
  | cons f rest ih =>
      rw [List.map_cons, List.foldl_cons, deliverFrame_valid running, passFrames]
      by_cases stopped : (passFrame sqrt d f).nSV ≥ maxSat
      · rw [if_pos stopped, foldl_stopped stopped]
      · rw [if_neg stopped]
        exact ih stopped

theorem deliver_itemBytes (sqrt : ℚ → ℚ) (eph : Table) (items : List Item) :
    deliver sqrt eph (itemBytes items) =
      passFrames sqrt (itemFrames items) (Delivery.start eph) := by
  rw [deliver, split_itemBytes]
  exact foldl_deliverFrame_valid (d := Delivery.start eph) (start_running eph) _

theorem pending_itemBytes (items : List Item) : pending (itemBytes items) = [] := by
  rw [pending, split_itemBytes]

/-- **The frames that are passed on** are the first ones, each once and in order, and all of them
unless the count stops the loop. -/
theorem passFrames_frames (frames : List ValidFrame) :
    ∃ n ≤ frames.length, (passFrames sqrt frames d).frames =
        d.frames ++ (frames.take n).map (fun f => (f.bytes, (f.len : Int))) ∧
      (n < frames.length → (passFrames sqrt frames d).nSV ≥ maxSat) := by
  induction frames generalizing d with
  | nil => exact ⟨0, le_rfl, (List.append_nil _).symm, fun more => absurd more (lt_irrefl 0)⟩
  | cons f rest ih =>
      rw [passFrames]
      by_cases stopped : (passFrame sqrt d f).nSV ≥ maxSat
      · rw [if_pos stopped]
        exact ⟨1, by simp, rfl, fun _ => stopped⟩
      · rw [if_neg stopped]
        obtain ⟨n, bound, passed, more⟩ := ih (d := passFrame sqrt d f)
        refine ⟨n + 1, by simpa using bound, ?_, fun short => more (by simpa using short)⟩
        rw [passed, List.take_succ_cons, List.map_cons]
        exact List.append_assoc ..

end Frames

/-! ## The searching state -/

section Searching

variable {sqrt : ℚ → ℚ} {s s' : Receiver} {lens : Nat → BitVec 32}

/-- The byte that stops the loop ends a frame. -/
theorem receiveByte_stopped {byte : BitVec 8} (received : receiveByte sqrt byte s = some s')
    (running : ¬ s.delivery.nSV ≥ maxSat) (stopped : s'.delivery.nSV ≥ maxSat) : s'.i = 0 := by
  have taken : ∀ r : Receiver, (takeLength r).delivery = r.delivery := by
    intro r
    unfold takeLength
    split <;> rfl
  have kept : ∀ r : Receiver, r.delivery = s.delivery → some r = some s' → s'.i = 0 := by
    intro r same equal
    obtain rfl := Option.some.inj equal
    rw [same] at stopped
    exact absurd stopped running
  rw [receiveByte] at received
  split at received
  · split at received
    · exact kept s rfl received
    · exact kept _ (by rfl) received
  split at received
  · exact absurd received (by simp)
  rw [checkFrame] at received
  split at received
  · exact kept _ (by rw [taken]) received
  split at received
  · exact absurd received (by simp)
  split at received
  · exact kept _ (by rw [taken]) received
  split at received
  · exact absurd received (by simp)
  obtain rfl := Option.some.inj received
  unfold endFrame
  dsimp only
  split <;> rfl

theorem receiveBytes_stopped {block : List (BitVec 8)}
    (received : receiveBytes sqrt block s = some s') (running : ¬ s.delivery.nSV ≥ maxSat)
    (stopped : s'.delivery.nSV ≥ maxSat) : s'.i = 0 := by
  induction block generalizing s with
  | nil =>
      obtain rfl : s = s' := Option.some.inj received
      exact absurd stopped running
  | cons byte rest ih =>
      rw [receiveBytes, Option.bind_eq_bind, Option.bind_eq_some_iff] at received
      obtain ⟨s₁, first, received⟩ := received
      split at received
      · rename_i here
        obtain rfl : s₁ = s' := Option.some.inj received
        exact receiveByte_stopped first running here
      · rename_i going
        exact ih received going

theorem receiveBlocks_stopped {k : Nat} {blocks : List (List (BitVec 8))}
    (received : receiveBlocks sqrt lens k blocks s = some s') (running : ¬ s.delivery.nSV ≥ maxSat)
    (stopped : s'.delivery.nSV ≥ maxSat) : s'.i = 0 := by
  induction blocks generalizing k s with
  | nil =>
      obtain rfl : s = s' := Option.some.inj received
      exact absurd stopped running
  | cons block rest ih =>
      rw [receiveBlocks, Option.bind_eq_bind, Option.bind_eq_some_iff] at received
      obtain ⟨s₁, first, received⟩ := received
      split at received
      · rename_i here
        obtain rfl : s₁ = s' := Option.some.inj received
        exact receiveBytes_stopped first running here
      · rename_i going
        exact ih received going

/-- The loop has stopped behind a stream of items, or waits for a preamble. -/
theorem searching_of_follows {eph : Table} {items : List Item}
    (delivered : s.delivery = deliver sqrt eph (itemBytes items))
    (follows : ¬ Stopped sqrt eph (itemBytes items) → Follows sqrt eph (itemBytes items) s)
    (ends : s.delivery.nSV ≥ maxSat → s.i = 0) : s.i = 0 := by
  by_cases stopped : Stopped sqrt eph (itemBytes items)
  · apply ends
    rw [delivered]
    exact stopped
  · rw [(follows stopped).count, pending_itemBytes, List.length_nil]

end Searching

/-! ## De-framing -/

section Deframe

variable {sqrt : ℚ → ℚ} {eph : Table} {lens : Nat → BitVec 32}

theorem flatten_itemBytes (blocks : List (List Item)) :
    (blocks.map itemBytes).flatten = itemBytes blocks.flatten := by
  induction blocks with
  | nil => rfl
  | cons items rest ih =>
      rw [List.map_cons, List.flatten_cons, ih, List.flatten_cons, itemBytes, itemBytes, itemBytes,
        List.flatMap_append]

/-- A block that ends between two items needs no length for the next one. -/
theorem lengthFits_itemBytes (items : List Item) (len : BitVec 32) :
    LengthFits (itemBytes items) len := by
  intro header
  rw [pending_itemBytes] at header
  exact absurd header (by decide)

/-- **Behind some blocks** the loop searches, and has passed their frames on. -/
theorem receiveBlocks_items (sqrt : ℚ → ℚ) (lens : Nat → BitVec 32) (eph : Table) (buff : Buffer)
    (blocks : List (List Item)) :
    ∃ s, receiveBlocks sqrt lens 0 (blocks.map itemBytes) (Receiver.start eph buff) = some s ∧
      s.i = 0 ∧ s.delivery = passFrames sqrt (itemFrames blocks.flatten) (Delivery.start eph) ∧
      (¬ s.delivery.nSV ≥ maxSat → Follows sqrt eph (itemBytes blocks.flatten) s) := by
  obtain ⟨s, received, delivered, follows⟩ := (follows_start sqrt eph buff).receiveBlocks lens
    (k := 0) not_stopped_nil (blocks.map itemBytes) fun before after cut _ => by
      obtain ⟨front, back, -, rfl, -⟩ := List.map_eq_append_iff.mp cut
      rw [List.nil_append, flatten_itemBytes]
      exact Or.inr (lengthFits_itemBytes _ _)
  rw [List.nil_append, flatten_itemBytes] at delivered follows
  have running : ¬ (Delivery.start eph).nSV ≥ maxSat := start_running eph
  refine ⟨s, received, searching_of_follows delivered follows
    (receiveBlocks_stopped received running), ?_, fun going => follows ?_⟩
  · rw [delivered, deliver_itemBytes]
  · rwa [Stopped, ← delivered]

/-- **Inside a block** the loop searches behind every item. -/
theorem receiveBytes_items {before : List (List Item)} {s : Receiver} {len : BitVec 32}
    (follows : Follows sqrt eph (itemBytes before.flatten) s)
    (running : ¬ s.delivery.nSV ≥ maxSat) (items : List Item) :
    ∃ s', receiveBytes sqrt (itemBytes items) { s with len := len.toInt } = some s' ∧
      s'.i = 0 ∧
      s'.delivery =
        passFrames sqrt (itemFrames (before.flatten ++ items)) (Delivery.start eph) := by
  have running' : ¬ Stopped sqrt eph (itemBytes before.flatten) := by
    rwa [Stopped, ← follows.delivered]
  have whole : itemBytes before.flatten ++ itemBytes items =
      itemBytes (before.flatten ++ items) := by
    rw [itemBytes, itemBytes, itemBytes, List.flatMap_append]
  obtain ⟨s', received, delivered, follows'⟩ :=
    (follows.enter (lengthFits_itemBytes _ len)).receiveBytes running' (itemBytes items)
  rw [whole] at delivered follows'
  refine ⟨s', received, searching_of_follows delivered follows'
    (receiveBytes_stopped received running), ?_⟩
  rw [delivered, deliver_itemBytes]

end Deframe

/-- **De-framing undoes framing.**  Blocks of valid frames and of bytes that are no preamble are
received as these frames: each is passed to `decode_rtcm3` once and in order, up to the one at
which the count stops the loop, and behind every frame and every other byte `i` is 0. -/
theorem deframe (sqrt : ℚ → ℚ) (eph : Table) (buff : Buffer) (lens : Nat → BitVec 32)
    (blocks : List (List Item)) :
    getRtcm3Eph sqrt eph buff lens (blocks.map itemBytes) =
        some (passFrames sqrt (itemFrames blocks.flatten) (Delivery.start eph)) ∧
      (∃ n ≤ (itemFrames blocks.flatten).length,
        (passFrames sqrt (itemFrames blocks.flatten) (Delivery.start eph)).frames =
          ((itemFrames blocks.flatten).take n).map (fun f => (f.bytes, (f.len : Int))) ∧
        (n < (itemFrames blocks.flatten).length →
          (passFrames sqrt (itemFrames blocks.flatten) (Delivery.start eph)).nSV ≥ maxSat)) ∧
      ∀ before items rest after, blocks = before ++ (items ++ rest) :: after →
        ∃ s, receiveBlocks sqrt lens 0 (before.map itemBytes) (Receiver.start eph buff) = some s ∧
          s.i = 0 ∧
          (¬ s.delivery.nSV ≥ maxSat →
            ∃ s', receiveBytes sqrt (itemBytes items) { s with len := (lens before.length).toInt } =
              some s' ∧ s'.i = 0) := by
  refine ⟨?_, ?_, fun before items rest after _ => ?_⟩
  · obtain ⟨s, received, -, delivered, -⟩ := receiveBlocks_items sqrt lens eph buff blocks
    rw [Receiver.start] at received
    rw [getRtcm3Eph, received, Option.map_some, delivered]
  · exact passFrames_frames _
  · obtain ⟨s, received, searching, -, follows⟩ := receiveBlocks_items sqrt lens eph buff before
    refine ⟨s, received, searching, fun going => ?_⟩
    obtain ⟨s', received', searching', -⟩ := receiveBytes_items (follows going) going items
    exact ⟨s', received', searching'⟩

end Navisim.Rtcm

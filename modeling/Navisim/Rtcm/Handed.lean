import Navisim.Rtcm.Receive

/-!
# The frames that are handed over

The receive loop puts frames together without regard to what `decode_rtcm3` makes of them; only
its return value can end the loop.  So a call of `getRTCM3Eph` is the frames of the bytes it
receives (`framesOfBlocks`), handed over one after the other until the loop stops (`handOver`).
-/

namespace Navisim.Rtcm

/-- The variables of the loop that put a frame together. -/
structure Framer where
  i : Nat
  len : Int
  buff : Buffer

def Framer.receiver (s : Framer) (d : Delivery) : Receiver :=
  { i := s.i, len := s.len, buff := s.buff, delivery := d }

/-- The buffer and the length that are handed to `decode_rtcm3`. -/
abbrev Message := Buffer × Int

/-- The bytes of a message, its parity included, and its length. -/
def messageFrame (m : Message) : List (BitVec 8) × Int :=
  ((List.range (m.2.toNat + 3)).map m.1, m.2)

/-- What handing over a message leaves. -/
def handMessage (sqrt : ℚ → ℚ) (d : Delivery) (m : Message) : Delivery :=
  let (ret, eph) := decodeRtcm3 sqrt d.eph m.1 m.2
  { nSV := ret, eph := eph, frames := d.frames ++ [messageFrame m] }

/-- Nothing has been handed over. -/
def noDelivery : Delivery where
  nSV := 0
  eph := { eph := fun _ => decodeEphem id fun _ => 0, nSV := 0 }
  frames := []

/-- What a byte does to the frame, and whether the frame is handed over. -/
def frameByte (byte : BitVec 8) (s : Framer) : Option (Framer × Bool) :=
  (receiveByte id byte (s.receiver noDelivery)).map fun r =>
    ({ i := r.i, len := r.len, buff := r.buff }, !r.delivery.frames.isEmpty)

/-- The messages of a block, and the variables behind it unless a byte is undefined. -/
def framesOfBytes : List (BitVec 8) → Framer → List Message × Option Framer
  | [], s => ([], some s)
  | byte :: rest, s =>
      match frameByte byte s with
      | none => ([], none)
      | some (s, false) => framesOfBytes rest s
      | some (s, true) =>
          let (messages, last) := framesOfBytes rest s
          ((s.buff, s.len) :: messages, last)

/-- The messages of the results of `recv`, and whether all bytes are defined. -/
def framesOfBlocks (lens : Nat → BitVec 32) :
    Nat → List (List (BitVec 8)) → Framer → List Message × Bool
  | _, [], _ => ([], true)
  | k, block :: rest, s =>
      match framesOfBytes block { s with len := (lens k).toInt } with
      | (messages, none) => (messages, false)
      | (messages, some s) =>
          let (more, defined) := framesOfBlocks lens (k + 1) rest s
          (messages ++ more, defined)

/-- The messages are handed over until the count ends the loop. -/
def handOver (sqrt : ℚ → ℚ) : List Message → Delivery → Delivery × Bool
  | [], d => (d, false)
  | m :: rest, d =>
      let d := handMessage sqrt d m
      if d.nSV ≥ maxSat then (d, true) else handOver sqrt rest d

section Steps

variable {sqrt : ℚ → ℚ} {d d' : Delivery} {s s' : Framer} {byte : BitVec 8}

/-- A frame that is complete is handed over if its parity is right. -/
theorem endFrame_eq (sqrt : ℚ → ℚ) (s : Framer) (d : Delivery) :
    endFrame sqrt (s.receiver d) = ({ s with i := 0 } : Framer).receiver
      (if crc24q s.buff s.len.toNat = getbitu s.buff (s.len.toNat * 8) 24 then
        handMessage sqrt d (s.buff, s.len) else d) := by
  unfold endFrame Framer.receiver
  dsimp only
  by_cases parity : crc24q s.buff s.len.toNat = getbitu s.buff (s.len.toNat * 8) 24
  · rw [if_neg (not_not.mpr parity), if_pos parity]
    rfl
  · rw [if_pos parity, if_neg parity]

theorem checkFrame_receiver (sqrt : ℚ → ℚ) (s : Framer) (d : Delivery) :
    checkFrame sqrt (s.receiver d) =
      if s.i < 3 then some (s.receiver d)
      else if s.len + 3 ≥ 2 ^ 31 then none
      else if s.i < s.len + 3 then some (s.receiver d)
      else if s.len < 0 ∨ s.len + 3 > buffSize then none
      else some (({ s with i := 0 } : Framer).receiver
        (if crc24q s.buff s.len.toNat = getbitu s.buff (s.len.toNat * 8) 24 then
          handMessage sqrt d (s.buff, s.len) else d)) := by
  rw [← endFrame_eq]
  rfl

/-- The length is taken, and the frame is checked. -/
theorem checkFrame_eq (sqrt : ℚ → ℚ) (s : Framer) (d : Delivery) :
    checkFrame sqrt (takeLength (s.receiver d)) =
      ((checkFrame id (takeLength (s.receiver noDelivery))).map fun r =>
        (({ i := r.i, len := r.len, buff := r.buff } : Framer),
          !r.delivery.frames.isEmpty)).map fun r =>
      r.1.receiver (if r.2 then handMessage sqrt d (r.1.buff, r.1.len) else d) := by
  have length : ∃ s' : Framer, ∀ d : Delivery, takeLength (s.receiver d) = s'.receiver d := by
    unfold takeLength Framer.receiver
    dsimp only
    split
    · exact ⟨{ s with len := (getbitu s.buff 14 10).toNat + 3 }, fun _ => rfl⟩
    · exact ⟨s, fun _ => rfl⟩
  obtain ⟨s', taken⟩ := length
  rw [taken, taken]
  rw [checkFrame_receiver, checkFrame_receiver]
  by_cases header : s'.i < 3
  · rw [if_pos header, if_pos header]
    rfl
  rw [if_neg header, if_neg header]
  by_cases overflow : s'.len + 3 ≥ 2 ^ 31
  · rw [if_pos overflow, if_pos overflow]
    rfl
  rw [if_neg overflow, if_neg overflow]
  by_cases short : s'.i < s'.len + 3
  · rw [if_pos short, if_pos short]
    rfl
  rw [if_neg short, if_neg short]
  by_cases outside : s'.len < 0 ∨ s'.len + 3 > buffSize
  · rw [if_pos outside, if_pos outside]
    rfl
  rw [if_neg outside, if_neg outside]
  by_cases parity : crc24q s'.buff s'.len.toNat = getbitu s'.buff (s'.len.toNat * 8) 24
  · rw [if_pos parity, if_pos parity]
    rfl
  · rw [if_neg parity, if_neg parity]
    rfl

/-- **A byte**: the frame grows in the same way whatever has been handed over before. -/
theorem receiveByte_eq (sqrt : ℚ → ℚ) (byte : BitVec 8) (s : Framer) (d : Delivery) :
    receiveByte sqrt byte (s.receiver d) = (frameByte byte s).map fun r =>
      r.1.receiver (if r.2 then handMessage sqrt d (r.1.buff, r.1.len) else d) := by
  unfold frameByte receiveByte Framer.receiver
  dsimp only
  split
  · split <;> rfl
  split
  · rfl
  · exact checkFrame_eq sqrt { i := s.i + 1, len := s.len, buff := _ } d

theorem handOver_append (messages more : List Message) :
    handOver sqrt (messages ++ more) d =
      match handOver sqrt messages d with
      | (d', true) => (d', true)
      | (d', false) => handOver sqrt more d' := by
  induction messages generalizing d with
  | nil => rfl
  | cons m rest ih =>
      rw [List.cons_append, handOver, handOver]
      split
      · rfl
      · exact ih

/-- **A block**: its messages are handed over, unless the loop stops before. -/
theorem receiveBytes_eq (running : ¬ d.nSV ≥ maxSat) (bytes : List (BitVec 8)) :
    match handOver sqrt (framesOfBytes bytes s).1 d with
    | (d', true) => ∃ r, receiveBytes sqrt bytes (s.receiver d) = some r ∧ r.delivery = d' ∧
        d'.nSV ≥ maxSat
    | (d', false) => ¬ d'.nSV ≥ maxSat ∧ receiveBytes sqrt bytes (s.receiver d) =
        (framesOfBytes bytes s).2.map fun s' => s'.receiver d' := by
  induction bytes generalizing s d with
  | nil => exact ⟨running, rfl⟩
  | cons byte rest ih =>
      rw [receiveBytes, receiveByte_eq, framesOfBytes]
      rcases frameByte byte s with _ | ⟨s₁, _ | _⟩
      · exact ⟨running, rfl⟩
      · have next := ih (s := s₁) running
        simp only [Option.map_some, Option.bind_eq_bind, Option.bind_some, Framer.receiver,
          Bool.false_eq_true, if_false, if_neg running] at next ⊢
        exact next
      · simp only [Option.map_some, Option.bind_eq_bind, Option.bind_some, Framer.receiver,
          if_true, handOver]
        by_cases stopped : (handMessage sqrt d (s₁.buff, s₁.len)).nSV ≥ maxSat
        · simp only [if_pos stopped]
          exact ⟨_, rfl, rfl, stopped⟩
        · simp only [if_neg stopped]
          exact ih (s := s₁) stopped

end Steps

/-- What a call of `getRTCM3Eph` leaves, from its messages. -/
def delivered (sqrt : ℚ → ℚ) (messages : List Message × Bool) (d : Delivery) : Option Delivery :=
  let (d', stopped) := handOver sqrt messages.1 d
  if stopped ∨ messages.2 then some d' else none

theorem receiveBlocks_eq {sqrt : ℚ → ℚ} {lens : Nat → BitVec 32} {d : Delivery}
    (running : ¬ d.nSV ≥ maxSat) (k : Nat) (blocks : List (List (BitVec 8))) (s : Framer) :
    (receiveBlocks sqrt lens k blocks (s.receiver d)).map Receiver.delivery =
      delivered sqrt (framesOfBlocks lens k blocks s) d := by
  induction blocks generalizing k s d with
  | nil => rfl
  | cons block rest ih =>
      have first := @receiveBytes_eq sqrt d { s with len := (lens k).toInt } running block
      have enter : ({ s.receiver d with len := (lens k).toInt } : Receiver) =
          ({ s with len := (lens k).toInt } : Framer).receiver d := rfl
      rw [receiveBlocks, enter, framesOfBlocks]
      generalize framesOfBytes block { s with len := (lens k).toInt } = here at *
      obtain ⟨messages, last⟩ := here
      dsimp only at first ⊢
      rcases handed : handOver sqrt messages d with ⟨d', _ | _⟩
      · rw [handed] at first
        obtain ⟨running', received⟩ := first
        rw [received]
        cases last with
        | none => simp [delivered, handed]
        | some s' =>
            have next := ih running' (k + 1) s'
            simp only [Option.map_some, Option.bind_eq_bind, Option.bind_some, delivered,
              handOver_append, handed] at next ⊢
            rw [if_neg (show ¬ (s'.receiver d').delivery.nSV ≥ maxSat from running')]
            exact next
      · rw [handed] at first
        obtain ⟨r, received, rfl, stopped⟩ := first
        rw [received]
        cases last with
        | none => simp [delivered, handed, stopped]
        | some s' => simp [delivered, handed, handOver_append, stopped]

/-- **A call** of `getRTCM3Eph` hands over the messages of the bytes until the count ends it. -/
theorem getRtcm3Eph_eq (sqrt : ℚ → ℚ) (eph : Table) (buff : Buffer) (lens : Nat → BitVec 32)
    (blocks : List (List (BitVec 8))) :
    getRtcm3Eph sqrt eph buff lens blocks =
      delivered sqrt (framesOfBlocks lens 0 blocks { i := 0, len := 0, buff := buff })
        { nSV := 0, eph := eph, frames := [] } := by
  have running : ¬ (0 : Int) ≥ maxSat := by decide
  exact receiveBlocks_eq (d := { nSV := 0, eph := eph, frames := [] }) running 0 blocks
    { i := 0, len := 0, buff := buff }

end Navisim.Rtcm

import Navisim.Rtcm.Cuts
import Navisim.Rtcm.Handed

/-!
# Calls after calls

The count that `decode_rtcm3` returns is global and lives as long as the process, while the loop
of `getRTCM3Eph` compares it with the number of satellites.  So a later call can stop before an
earlier one would have; when it does is known from the messages it receives and the count it finds
(`history_irrelevant_iff`).
-/

namespace Navisim.Rtcm

/-- An ephemeris message that ends before its last field. -/
def Truncated (m : Message) : Prop :=
  (getbitu m.1 24 12).toNat = 1019 ∧ ¬ ((24 + 12 : Nat) : Int) + 476 ≤ m.2 * 8

/-- An ephemeris message that is stored. -/
def Stores (m : Message) : Prop :=
  (getbitu m.1 24 12).toNat = 1019 ∧ ((24 + 12 : Nat) : Int) + 476 ≤ m.2 * 8 ∧
    (getbitu m.1 (24 + 12) 6).toNat ≤ 32

instance : DecidablePred Truncated :=
  fun _ => inferInstanceAs (Decidable (_ ∧ _))

instance : DecidablePred Stores :=
  fun _ => inferInstanceAs (Decidable (_ ∧ _ ∧ _))

/-- The number of ephemerides that are stored. -/
def stored (messages : List Message) : Nat :=
  messages.countP Stores

/-- What a call has received: the frames it handed over and the ephemerides it left. -/
def Delivery.received (d : Delivery) : List (List (BitVec 8) × Int) × (Int → Ephem ℚ) :=
  (d.frames, d.eph.eph)

/-! ## One message -/

section Messages

variable {sqrt : ℚ → ℚ} {d d₀ : Delivery} {c n : Int}

theorem Stores.whole {m : Message} (stores : Stores m) : ¬ Truncated m :=
  fun truncated => truncated.2 stores.2.1

/-- **What `decode_rtcm3` does with a message**: it reports a truncated one, stores and counts an
ephemeris, and passes over everything else. -/
theorem decodeRtcm3_eq (sqrt : ℚ → ℚ) (eph : Table) (m : Message) :
    decodeRtcm3 sqrt eph m.1 m.2 =
      if Truncated m then (-1, eph)
      else if Stores m then
        (eph.nSV + 1,
          { eph := Function.update eph.eph (((getbitu m.1 (24 + 12) 6).toNat : Int) - 1)
              (decodeEphem sqrt m.1)
            nSV := eph.nSV + 1 })
      else (eph.nSV, eph) := by
  unfold decodeRtcm3
  dsimp only
  by_cases type : (getbitu m.1 24 12).toNat = 1019
  · rw [if_pos type]
    by_cases long : ((24 + 12 : Nat) : Int) + 476 ≤ m.2 * 8
    · have whole : ¬ Truncated m := fun truncated => truncated.2 long
      rw [if_pos long, if_neg whole]
      by_cases prn : (getbitu m.1 (24 + 12) 6).toNat ≤ 32
      · have stores : Stores m := ⟨type, long, prn⟩
        rw [if_pos ⟨Int.natCast_nonneg _, by exact_mod_cast prn⟩, if_pos stores]
      · have passes : ¬ Stores m := fun stores => prn stores.2.2
        rw [if_neg fun both => prn (by exact_mod_cast both.2), if_neg passes]
    · have truncated : Truncated m := ⟨type, long⟩
      rw [if_neg long, if_pos truncated]
  · have whole : ¬ Truncated m := fun truncated => type truncated.1
    have passes : ¬ Stores m := fun stores => type stores.1
    rw [if_neg type, if_neg whole, if_neg passes]

/-- It counts what it stores and returns the count, but -1 for a truncated message. -/
theorem decodeRtcm3_count (sqrt : ℚ → ℚ) (eph : Table) (m : Message) :
    (decodeRtcm3 sqrt eph m.1 m.2).2.nSV = eph.nSV + (if Stores m then 1 else 0) ∧
      (decodeRtcm3 sqrt eph m.1 m.2).1 =
        if Truncated m then -1 else (decodeRtcm3 sqrt eph m.1 m.2).2.nSV := by
  rw [decodeRtcm3_eq]
  by_cases truncated : Truncated m
  · have passes : ¬ Stores m := fun stores => stores.whole truncated
    rw [if_pos truncated, if_pos truncated, if_neg passes]
    exact ⟨(add_zero _).symm, rfl⟩
  rw [if_neg truncated, if_neg truncated]
  by_cases stores : Stores m
  · rw [if_pos stores, if_pos stores]
    exact ⟨rfl, rfl⟩
  · rw [if_neg stores, if_neg stores]
    exact ⟨(add_zero _).symm, rfl⟩

/-- The ephemerides do not depend on the count. -/
theorem decodeRtcm3_eph (sqrt : ℚ → ℚ) {eph eph' : Table} (same : eph.eph = eph'.eph)
    (m : Message) :
    (decodeRtcm3 sqrt eph m.1 m.2).2.eph = (decodeRtcm3 sqrt eph' m.1 m.2).2.eph := by
  rw [decodeRtcm3_eq, decodeRtcm3_eq, same]
  split_ifs
  · exact same
  · rfl
  · exact same

/-- Two calls have received the same, but one found a count of `c`. -/
structure Alike (c : Int) (d d₀ : Delivery) : Prop where
  received : d.received = d₀.received
  count : d.eph.nSV = d₀.eph.nSV + c

theorem Alike.handMessage (alike : Alike c d d₀) (m : Message) :
    Alike c (handMessage sqrt d m) (handMessage sqrt d₀ m) := by
  obtain ⟨received, count⟩ := alike
  obtain ⟨frames, eph⟩ := Prod.mk.inj received
  refine ⟨Prod.ext ?_ (decodeRtcm3_eph sqrt eph m), ?_⟩
  · exact congrArg (· ++ [messageFrame m]) frames
  · have first := (decodeRtcm3_count sqrt d.eph m).1
    have second := (decodeRtcm3_count sqrt d₀.eph m).1
    simp only [Rtcm.handMessage, first, second, count]
    ring

theorem handMessage_count (sqrt : ℚ → ℚ) (d : Delivery) (m : Message) :
    (handMessage sqrt d m).eph.nSV = d.eph.nSV + stored [m] := by
  have here := (decodeRtcm3_count sqrt d.eph m).1
  by_cases stores : Stores m
  · rw [handMessage, here, if_pos stores, stored, List.countP_singleton, if_pos (by simpa)]
    rfl
  · rw [handMessage, here, if_neg stores, stored, List.countP_singleton, if_neg (by simpa)]
    rfl

/-- The loop stops at a message that is not truncated, when the count is large enough. -/
theorem handMessage_stops (sqrt : ℚ → ℚ) (d : Delivery) (m : Message) :
    (handMessage sqrt d m).nSV ≥ maxSat ↔
      ¬ Truncated m ∧ (handMessage sqrt d m).eph.nSV ≥ maxSat := by
  have here := (decodeRtcm3_count sqrt d.eph m).2
  simp only [handMessage, here]
  by_cases truncated : Truncated m
  · rw [if_pos truncated]
    exact iff_of_false (by decide) fun both => both.1 truncated
  · rw [if_neg truncated]
    exact (and_iff_right truncated).symm

/-- Handing over messages only adds frames. -/
theorem handOver_frames (messages : List Message) :
    ∃ extra, (handOver sqrt messages d).1.frames = d.frames ++ extra ∧
      (messages ≠ [] → extra ≠ []) := by
  induction messages generalizing d with
  | nil => exact ⟨[], (List.append_nil _).symm, fun nonempty => absurd rfl nonempty⟩
  | cons m rest ih =>
      obtain ⟨extra, frames, -⟩ := ih (d := handMessage sqrt d m)
      rw [handOver]
      split
      · exact ⟨[messageFrame m], rfl, fun _ => List.cons_ne_nil _ _⟩
      · refine ⟨messageFrame m :: extra, ?_, fun _ => List.cons_ne_nil _ _⟩
        rw [frames]
        exact List.append_assoc ..

/-- The count only grows. -/
theorem handOver_count_le (messages : List Message) :
    d.eph.nSV ≤ (handOver sqrt messages d).1.eph.nSV := by
  induction messages generalizing d with
  | nil => exact le_rfl
  | cons m rest ih =>
      have here := handMessage_count sqrt d m
      rw [handOver]
      split
      · dsimp only
        omega
      · have later := ih (d := handMessage sqrt d m)
        omega

/-! ## Stopping early -/

/-- With `n` ephemerides counted in the call and `c` before it, a message ends the loop that would
not end it otherwise, and something comes after it. -/
def StopsEarly (c n : Int) (messages : List Message × Bool) : Prop :=
  ∃ before m after, messages.1 = before ++ m :: after ∧ ¬ Truncated m ∧
    maxSat ≤ n + stored (before ++ [m]) + c ∧ n + stored (before ++ [m]) < maxSat ∧
    (after ≠ [] ∨ messages.2 = false)

theorem stored_cons (m : Message) (messages : List Message) :
    stored (m :: messages) = stored [m] + stored messages := by
  rw [← List.singleton_append, stored, List.countP_append]
  rfl

/-- The first message ends the loop early, or a later one does. -/
theorem stopsEarly_cons {m : Message} {rest : List Message} {defined : Bool} :
    StopsEarly c n (m :: rest, defined) ↔
      (¬ Truncated m ∧ maxSat ≤ n + stored [m] + c ∧ n + stored [m] < maxSat ∧
        (rest ≠ [] ∨ defined = false)) ∨
      StopsEarly c (n + stored [m]) (rest, defined) := by
  constructor
  · intro early
    rcases early with ⟨before, m', after, messages, whole, reached, short, more⟩
    cases before with
    | nil =>
        obtain ⟨rfl, rfl⟩ := List.cons.inj messages
        exact Or.inl ⟨whole, reached, short, more⟩
    | cons first before =>
        obtain ⟨rfl, rfl⟩ := List.cons.inj messages
        rw [List.cons_append, stored_cons] at reached short
        push_cast at reached short
        exact Or.inr ⟨before, m', after, rfl, whole, by omega, by omega, more⟩
  · intro early
    rcases early with ⟨whole, reached, short, more⟩ | later
    · exact ⟨[], m, rest, rfl, whole, reached, short, more⟩
    · obtain ⟨before, m', after, messages, whole, reached, short, more⟩ := later
      refine ⟨m :: before, m', after, congrArg (m :: ·) messages, whole, ?_, ?_, more⟩ <;>
        rw [List.cons_append, stored_cons] <;> push_cast <;> omega

theorem StopsEarly.ne_nil {messages : List Message × Bool} (stops : StopsEarly c n messages) :
    messages.1 ≠ [] := by
  obtain ⟨before, m, after, split, -⟩ := stops
  rw [split]
  exact List.append_ne_nil_of_right_ne_nil _ (List.cons_ne_nil _ _)

/-- A call that has counted enough itself does not stop early. -/
theorem not_stopsEarly_of_enough {messages : List Message × Bool} (enough : maxSat ≤ n) :
    ¬ StopsEarly c n messages := by
  intro early
  rcases early with ⟨before, m, after, -, -, -, short, -⟩
  omega

theorem delivered_cons (m : Message) (rest : List Message) (defined : Bool) :
    delivered sqrt (m :: rest, defined) d =
      if (handMessage sqrt d m).nSV ≥ maxSat then some (handMessage sqrt d m)
      else delivered sqrt (rest, defined) (handMessage sqrt d m) := by
  simp only [delivered, handOver]
  split_ifs <;> simp_all

/-- A call that has stopped has received what one that goes on receives only if nothing more
comes. -/
theorem received_iff_of_stopped (rest : List Message) (defined : Bool)
    (same : d.received = d₀.received) :
    some d.received = (delivered sqrt (rest, defined) d₀).map Delivery.received ↔
      ¬ (rest ≠ [] ∨ defined = false) := by
  cases rest with
  | nil =>
      cases defined with
      | false => exact iff_of_false (by simp [delivered, handOver]) (not_not.mpr (Or.inr rfl))
      | true => exact iff_of_true (congrArg some same) (by simp)
  | cons m rest =>
      refine iff_of_false (fun equal => ?_) (not_not.mpr (Or.inl (List.cons_ne_nil _ _)))
      obtain ⟨extra, frames, more⟩ := @handOver_frames sqrt d₀ (m :: rest)
      obtain ⟨d', here, received⟩ := Option.map_eq_some_iff.mp equal.symm
      have outcome : (handOver sqrt (m :: rest) d₀).1 = d' := by
        unfold delivered at here
        dsimp only at here
        split at here
        · exact Option.some.inj here
        · exact absurd here (by simp)
      have frames' : d'.frames = d₀.frames := congrArg Prod.fst (received.trans same)
      rw [outcome, frames'] at frames
      exact more (List.cons_ne_nil _ _) (List.self_eq_append_right.mp frames)

/-- **Two calls** that have received the same so far receive the same in the end exactly if the one
with the larger count does not stop early. -/
theorem delivered_alike_iff (nonneg : 0 ≤ c) (alike : Alike c d d₀) (messages : List Message)
    (defined : Bool) :
    (delivered sqrt (messages, defined) d).map Delivery.received =
        (delivered sqrt (messages, defined) d₀).map Delivery.received ↔
      ¬ StopsEarly c d₀.eph.nSV (messages, defined) := by
  induction messages generalizing d d₀ with
  | nil =>
      refine iff_of_true ?_ fun stops => stops.ne_nil rfl
      cases defined with
      | false => rfl
      | true => exact congrArg some alike.received
  | cons m rest ih =>
      have next := @Alike.handMessage sqrt d d₀ c alike m
      have count := handMessage_count sqrt d₀ m
      have stops := handMessage_stops sqrt d m
      have stops₀ := handMessage_stops sqrt d₀ m
      rw [next.count] at stops
      rw [delivered_cons, delivered_cons, stopsEarly_cons, ← count]
      by_cases fresh : (handMessage sqrt d₀ m).nSV ≥ maxSat
      · -- Both stop here.
        obtain ⟨whole, enough⟩ := stops₀.mp fresh
        rw [if_pos fresh, if_pos (stops.mpr ⟨whole, by omega⟩)]
        apply iff_of_true (congrArg some next.received)
        intro early
        rcases early with ⟨-, -, short, -⟩ | later
        · omega
        · exact not_stopsEarly_of_enough enough later
      · rw [if_neg fresh]
        by_cases early : (handMessage sqrt d m).nSV ≥ maxSat
        · -- Only the call with the larger count stops here.
          obtain ⟨whole, enough⟩ := stops.mp early
          have short : (handMessage sqrt d₀ m).eph.nSV < maxSat := by
            by_contra long
            exact fresh (stops₀.mpr ⟨whole, not_lt.mp long⟩)
          rw [if_pos early, Option.map_some, received_iff_of_stopped rest defined next.received]
          refine not_congr ⟨fun more => Or.inl ⟨whole, enough, short, more⟩, ?_⟩
          intro early
          rcases early with ⟨-, -, -, more⟩ | later
          · exact more
          · exact Or.inl later.ne_nil
        · -- Both go on.
          rw [if_neg early, ih next]
          refine not_congr (or_iff_right ?_).symm
          intro early
          rcases early with ⟨whole, enough, -, -⟩
          exact early (stops.mpr ⟨whole, by omega⟩)

end Messages

/-! ## Calls of a process -/

/-- What a call is given, and what its memory holds. -/
structure EphCall where
  eph : Int → Ephem ℚ
  buff : Buffer
  lens : Nat → BitVec 32
  blocks : List (List (BitVec 8))

/-- A call in a process that has counted `nSV` ephemerides. -/
def EphCall.run (sqrt : ℚ → ℚ) (call : EphCall) (nSV : Int) : Option Delivery :=
  getRtcm3Eph sqrt { eph := call.eph, nSV := nSV } call.buff call.lens call.blocks

/-- The messages of a call, and whether its bytes are all defined. -/
def EphCall.messages (call : EphCall) : List Message × Bool :=
  framesOfBlocks call.lens 0 call.blocks { i := 0, len := 0, buff := call.buff }

/-- The count that some calls leave in a fresh process. -/
def countAfter (sqrt : ℚ → ℚ) (calls : List EphCall) : Option Int :=
  calls.foldlM (fun nSV call => (call.run sqrt nSV).map fun d => d.eph.nSV) 0

section Calls

variable {sqrt : ℚ → ℚ} {c : Int}

theorem run_count_le {call : EphCall} {nSV : Int} {d : Delivery}
    (ran : call.run sqrt nSV = some d) : nSV ≤ d.eph.nSV := by
  rw [EphCall.run, getRtcm3Eph_eq, delivered] at ran
  dsimp only at ran
  split at ran
  · obtain rfl := Option.some.inj ran
    let start : Delivery := { nSV := 0, eph := { eph := call.eph, nSV := nSV }, frames := [] }
    exact handOver_count_le (d := start) call.messages.1
  · exact absurd ran (by simp)

theorem count_le_foldlM {calls : List EphCall} {n : Int}
    (counted : calls.foldlM (fun nSV call => (call.run sqrt nSV).map fun d => d.eph.nSV) n =
      some c) : n ≤ c := by
  induction calls generalizing n with
  | nil => exact (Option.some.inj counted).le
  | cons call rest ih =>
      simp only [List.foldlM_cons, Option.bind_eq_bind, Option.bind_eq_some_iff,
        Option.map_eq_some_iff] at counted
      obtain ⟨n', ⟨d, ran, rfl⟩, counted⟩ := counted
      exact (run_count_le ran).trans (ih counted)

theorem countAfter_nonneg {calls : List EphCall} (counted : countAfter sqrt calls = some c) :
    0 ≤ c :=
  count_le_foldlM counted

/-- **When earlier calls do not matter**: a call hands over the same frames and leaves the same
ephemerides as in a fresh process exactly if the count it finds does not stop it early. -/
theorem history_irrelevant_iff (sqrt : ℚ → ℚ) (call : EphCall) {history : List EphCall}
    (earlier : countAfter sqrt history = some c) :
    (call.run sqrt c).map Delivery.received = (call.run sqrt 0).map Delivery.received ↔
      ¬ StopsEarly c 0 call.messages := by
  have nonneg := countAfter_nonneg earlier
  have alike : Alike c
      { nSV := 0, eph := { eph := call.eph, nSV := c }, frames := [] }
      { nSV := 0, eph := { eph := call.eph, nSV := 0 }, frames := [] } :=
    ⟨rfl, (zero_add c).symm⟩
  rw [EphCall.run, EphCall.run, getRtcm3Eph_eq, getRtcm3Eph_eq]
  exact delivered_alike_iff nonneg alike call.messages.1 call.messages.2

end Calls

/-! ## A second simulation -/

section Second

open Framing

theorem split_replicate (n : Nat) : rtcmFormat.split (List.replicate n blankMessage).flatten =
    (List.replicate n blankMessage, []) := by
  induction n with
  | zero => rfl
  | succ n ih =>
      have one : blankMessage.foldl rtcmFormat.feed ([], []) = ([blankMessage], []) := by
        decide +kernel
      rw [List.replicate_succ', List.flatten_append, Format.split_append, ih,
        List.flatten_singleton, Format.foldl_feed_shift, one]

theorem deliverFrame_blankMessage {sqrt : ℚ → ℚ} {d : Delivery} (running : ¬ d.nSV ≥ maxSat) :
    (deliverFrame sqrt d blankMessage).nSV = d.eph.nSV + 1 ∧
      (deliverFrame sqrt d blankMessage).eph.nSV = d.eph.nSV + 1 := by
  have parity : crc24q (toBuffer blankMessage) 64 =
      getbitu (toBuffer blankMessage) (64 * 8) 24 := by
    decide +kernel
  have stores : Stores (toBuffer blankMessage, 64) := by decide +kernel
  obtain ⟨count, ret⟩ := decodeRtcm3_count sqrt d.eph (toBuffer blankMessage, 64)
  rw [if_pos stores] at count
  rw [if_neg stores.whole] at ret
  have length : blankMessage.length - 3 = 64 := by decide
  unfold deliverFrame
  dsimp only
  rw [length, if_neg (not_or.mpr ⟨running, not_not.mpr parity⟩)]
  exact ⟨ret.trans count, count⟩

/-- Each of the first 32 messages counts. -/
theorem deliver_replicate (sqrt : ℚ → ℚ) (eph : Int → Ephem ℚ) {n : Nat} (bound : n ≤ maxSat) :
    (deliver sqrt { eph := eph, nSV := 0 } (List.replicate n blankMessage).flatten).nSV = n ∧
      (deliver sqrt { eph := eph, nSV := 0 } (List.replicate n blankMessage).flatten).eph.nSV =
        n := by
  unfold deliver
  rw [split_replicate]
  dsimp only
  induction n with
  | zero => exact ⟨rfl, rfl⟩
  | succ n ih =>
      obtain ⟨ret, count⟩ := ih (by omega)
      rw [List.replicate_succ', List.foldl_append, List.foldl_cons, List.foldl_nil]
      obtain ⟨ret', count'⟩ := @deliverFrame_blankMessage sqrt (List.foldl
        (deliverFrame sqrt) { nSV := 0, eph := { eph := eph, nSV := 0 }, frames := [] }
        (List.replicate n blankMessage)) (by rw [ret]; omega)
      rw [ret', count', count]
      exact ⟨rfl, rfl⟩

/-- A call that receives some bytes in one piece. -/
def callOf (bytes : List (BitVec 8)) : EphCall where
  eph := sampleTable.eph
  buff _ := 0
  lens _ := 0
  blocks := [bytes]

/-- A first simulation, in which 32 messages arrive. -/
def firstCall : EphCall :=
  callOf (List.replicate 32 blankMessage).flatten

/-- A second simulation, in which an ephemeris follows a message of another type. -/
def secondCall : EphCall :=
  callOf ([0xD3, 0x00, 0x00, 0x47, 0xEA, 0x4B] ++ blankMessage)

theorem firstCall_run (sqrt : ℚ → ℚ) :
    firstCall.run sqrt 0 = some (deliver sqrt { eph := sampleTable.eph, nSV := 0 }
      (List.replicate 32 blankMessage).flatten) := by
  have whole : HeadersWhole sqrt { eph := sampleTable.eph, nSV := 0 } firstCall.blocks := by
    intro before after cut more
    cases before with
    | nil => exact Or.inr (by decide)
    | cons block rest =>
        have none : after = [] := by
          have lengths := congrArg List.length cut
          simp only [firstCall, callOf, List.length_cons, List.length_append,
            List.length_nil] at lengths
          exact List.eq_nil_of_length_eq_zero (by omega)
        exact absurd none more
  have received := @getRtcm3Eph_of_headersWhole sqrt _ _ firstCall.lens firstCall.buff whole
  rw [EphCall.run, show firstCall.eph = sampleTable.eph from rfl, received,
    show firstCall.blocks.flatten = (List.replicate 32 blankMessage).flatten from
      List.append_nil _]

theorem countAfter_firstCall (sqrt : ℚ → ℚ) : countAfter sqrt [firstCall] = some 32 := by
  have count := (deliver_replicate sqrt sampleTable.eph (n := 32) (by decide)).2
  rw [countAfter, List.foldlM_cons, firstCall_run]
  simp only [Option.map_some, Option.bind_eq_bind, Option.bind_some, List.foldlM_nil]
  rw [count]
  rfl

theorem history_irrelevant_iff_secondCall :
    (secondCall.run id 32).map Delivery.received = (secondCall.run id 0).map Delivery.received ↔
      ¬ StopsEarly 32 0 secondCall.messages :=
  history_irrelevant_iff id secondCall (countAfter_firstCall id)

/-- **An ephemeris is skipped**: after a simulation that received 32 ephemerides, a call stops at
its first message, of whatever type, and the ephemeris behind it is not stored. -/
theorem ephemeris_skipped :
    countAfter id [firstCall] = some 32 ∧
      (secondCall.run id 32).map (fun d => (d.frames.length, (d.eph.eph 0).vflg)) = some (1, 0) ∧
      (secondCall.run id 0).map (fun d => (d.frames.length, (d.eph.eph 0).vflg)) = some (2, 1) := by
  refine ⟨countAfter_firstCall id, ?_, ?_⟩ <;> decide +kernel

end Second

end Navisim.Rtcm

import Navisim.Lib.Syndrome
import Navisim.Nav.RoundTrip

/-!
# Errors in received words

What the parity of `computeChecksum` is good for.  The six equations of a word are linear in the
32 bits they look at, the 30 bits of the word and the last two of the word before it, and they
separate these bits: one, two or three wrong bits among them are seen, and every odd number.
So a receiver of a frame of `generateNavMsg` never takes a frame with so few errors for good.
-/

namespace Navisim.Nav

open Syndrome

/-! ## The equations of a word as checks -/

/-- The bits that the equations of a word look at: the word's 30 bits and, behind them, `D29*`
and `D30*`. -/
def heard (prev w : Word) (i : Fin 32) : Bool :=
  if i.val < 30 then transmittedBit w (i + 1) else transmittedBit prev (i - 1)

/-- An equation as a check of the bits it looks at: whether it fails. -/
def fails (x : Fin 32 → Bool) (j : Fin 6) : Bool :=
  let e := parityEquations j
  x (Fin.ofNat 32 (e.bit - 1)) ^^
    e.data.foldr (fun k acc => (x (Fin.ofNat 32 (k - 1)) ^^ x 31) ^^ acc)
      (if e.useD30 then x 31 else x 30)

/-- The numbers of the data bits that enter an equation. -/
theorem parityEquations_data (j : Fin 6) : ∀ k ∈ (parityEquations j).data, 1 ≤ k ∧ k ≤ 24 := by
  revert j
  decide

theorem parityEquations_bit (j : Fin 6) :
    1 ≤ (parityEquations j).bit ∧ (parityEquations j).bit ≤ 30 := by
  revert j
  decide

section Words

variable {prev w prev' w' : Word}

theorem heard_word {k : Nat} (lower : 1 ≤ k) (upper : k ≤ 30) :
    heard prev w (Fin.ofNat 32 (k - 1)) = transmittedBit w k := by
  have value : (Fin.ofNat 32 (k - 1)).val = k - 1 := Nat.mod_eq_of_lt (by omega)
  rw [heard, value, if_pos (by omega), Nat.sub_add_cancel lower]

/-- A data bit as the receiver reads it. -/
theorem receivedData_getLsbD {k : Nat} (lower : 1 ≤ k) (upper : k ≤ 24) :
    (receivedData prev w).getLsbD (24 - k) =
      (transmittedBit w k ^^ transmittedBit prev 30) := by
  have place : 6 + (24 - k) = 30 - k := by omega
  have inside : 24 - k < 24 := by omega
  unfold receivedData transmittedBit
  dsimp only
  split
  · rename_i inverted
    rw [inverted, BitVec.getLsbD_not, BitVec.getLsbD_extractLsb', place]
    simp [inside]
  · rename_i plain
    rw [Bool.eq_false_of_not_eq_true plain, BitVec.getLsbD_extractLsb', place]
    simp [inside]

theorem parityOk_iff : ParityOk prev w ↔ ∀ j, fails (heard prev w) j = false := by
  apply forall_congr'
  intro j
  obtain ⟨lower, upper⟩ := parityEquations_bit j
  have right : (parityEquations j).value prev (receivedData prev w) =
      (parityEquations j).data.foldr
        (fun k acc => (heard prev w (Fin.ofNat 32 (k - 1)) ^^ heard prev w 31) ^^ acc)
        (if (parityEquations j).useD30 then heard prev w 31 else heard prev w 30) := by
    unfold ParityEquation.value
    apply List.foldr_ext
    intro k member acc
    obtain ⟨first, last⟩ := parityEquations_data j k member
    rw [receivedData_getLsbD first last, heard_word first (by omega)]
    rfl
  rw [fails, heard_word lower upper, ← right]
  cases transmittedBit w (parityEquations j).bit <;>
    cases (parityEquations j).value prev (receivedData prev w) <;> decide

theorem xor_interchange (a b c d : Bool) : ((a ^^ b) ^^ (c ^^ d)) = ((a ^^ c) ^^ (b ^^ d)) := by
  cases a <;> cases b <;> cases c <;> cases d <;> rfl

theorem foldr_interchange (f g : Nat → Bool) (data : List Nat) (a b : Bool) :
    data.foldr (fun k acc => (f k ^^ g k) ^^ acc) (a ^^ b) =
      (data.foldr (fun k acc => f k ^^ acc) a ^^ data.foldr (fun k acc => g k ^^ acc) b) := by
  induction data with
  | nil => rfl
  | cons k data ih =>
      rw [List.foldr_cons, List.foldr_cons, List.foldr_cons, ih, xor_interchange]

/-- The equations are linear in the bits they look at. -/
theorem fails_linear : Linear fails where
  xor := by
    intro x y j
    have star : (if (parityEquations j).useD30 then x 31 ^^ y 31 else x 30 ^^ y 30) =
        ((if (parityEquations j).useD30 then x 31 else x 30) ^^
          if (parityEquations j).useD30 then y 31 else y 30) := by
      cases (parityEquations j).useD30 <;> rfl
    unfold fails
    dsimp only
    simp only [xor_interchange _ _ (x 31)]
    rw [star, foldr_interchange, xor_interchange]

/-- No two of the 32 bits enter the same equations, and each enters an odd number of them. -/
theorem fails_separates : Separates fails where
  odd := by decide +kernel
  distinct := by decide +kernel

/-- The wrong ones among the bits that a word's equations look at. -/
def wrongBits (prev w prev' w' : Word) : Finset (Fin 32) :=
  wrong (heard prev w) (heard prev' w')

/-- **One, two or three wrong bits make a word fail**, and so does every odd number of them. -/
theorem not_parityOk_of_wrong (sent : ParityOk prev w)
    (some : (wrongBits prev w prev' w').Nonempty)
    (seen : (wrongBits prev w prev' w').card ≤ 3 ∨ Odd (wrongBits prev w prev' w').card) :
    ¬ ParityOk prev' w' := by
  have passes := parityOk_iff.mp sent
  have caught : ∃ j, fails (heard prev' w') j = true := by
    rcases seen with few | odd
    · exact fails_linear.detects_few fails_separates passes some few
    · exact fails_linear.detects_odd fails_separates passes odd
  rcases caught with ⟨j, failed⟩
  intro received
  rw [parityOk_iff.mp received j] at failed
  exact Bool.noConfusion failed

end Words

/-! ## Frames -/

/-- The bits of `dwrd[9..59]` that a receiver of the frame in `dwrd[10..59]` looks at, as
numbers of words and of bits: of word 9 only the last two. -/
def heardBits : Finset (Nat × Nat) :=
  (Finset.Icc 9 59 ×ˢ Finset.Icc 1 30).filter fun p => 10 ≤ p.1 ∨ 29 ≤ p.2

/-- The bits of a frame that are received wrong. -/
def wrongBitsOfFrame (dwrd dwrd' : Int → Word) : Finset (Nat × Nat) :=
  heardBits.filter fun p => transmittedBit (dwrd p.1) p.2 ≠ transmittedBit (dwrd' p.1) p.2

/-- Where a word's equations look. -/
def place (n : Nat) (i : Fin 32) : Nat × Nat :=
  if i.val < 30 then (n, i + 1) else (n - 1, i - 1)

section Frames

variable {dwrd dwrd' : Int → Word} {n : Nat}

theorem heard_place (positive : 1 ≤ n) (i : Fin 32) :
    heard (dwrd (n - 1)) (dwrd n) i = transmittedBit (dwrd (place n i).1) (place n i).2 := by
  unfold heard place
  split
  · rfl
  · rw [Nat.cast_sub positive]
    rfl

theorem place_injective (positive : 1 ≤ n) : Function.Injective (place n) := by
  intro i k same
  unfold place at same
  ext
  split at same <;> split at same <;> rw [Prod.mk.injEq] at same <;> omega

theorem place_mem (lower : 10 ≤ n) (upper : n ≤ 59) (i : Fin 32) : place n i ∈ heardBits := by
  have bound := i.isLt
  unfold place heardBits
  split <;> simp only [Finset.mem_filter, Finset.mem_product, Finset.mem_Icc] <;> omega

/-- Every bit that is looked at is looked at by some word. -/
theorem exists_place {p : Nat × Nat} (member : p ∈ heardBits) :
    ∃ n i, 10 ≤ n ∧ n ≤ 59 ∧ place n i = p := by
  rcases p with ⟨m, k⟩
  simp only [heardBits, Finset.mem_filter, Finset.mem_product, Finset.mem_Icc] at member
  by_cases inFrame : 10 ≤ m
  · refine ⟨m, ⟨k - 1, by omega⟩, inFrame, by omega, ?_⟩
    rw [place, if_pos (by dsimp only; omega), Prod.mk.injEq]
    exact ⟨rfl, by dsimp only; omega⟩
  · refine ⟨10, ⟨k + 1, by omega⟩, le_rfl, by decide, ?_⟩
    rw [place, if_neg (by dsimp only; omega), Prod.mk.injEq]
    exact ⟨by omega, by dsimp only; omega⟩

/-- The wrong bits of a word are wrong bits of the frame. -/
theorem wrongBits_map (lower : 10 ≤ n) (upper : n ≤ 59) (i : Fin 32) :
    i ∈ wrongBits (dwrd (n - 1)) (dwrd n) (dwrd' (n - 1)) (dwrd' n) ↔
      place n i ∈ wrongBitsOfFrame dwrd dwrd' := by
  rw [wrongBits, mem_wrong, heard_place (by omega), heard_place (by omega), wrongBitsOfFrame,
    Finset.mem_filter]
  exact (and_iff_right (place_mem lower upper i)).symm

theorem wrongBits_card_le (lower : 10 ≤ n) (upper : n ≤ 59) :
    (wrongBits (dwrd (n - 1)) (dwrd n) (dwrd' (n - 1)) (dwrd' n)).card ≤
      (wrongBitsOfFrame dwrd dwrd').card := by
  apply Finset.card_le_card_of_injOn (place n)
  · intro i member
    exact (wrongBits_map lower upper i).mp member
  · exact (place_injective (by omega)).injOn

/-- A frame is received when its five subframes are. -/
theorem receiveFrame_subframes {frame : Frame} (received : receiveFrame dwrd = some frame)
    (isbf : Nat) (first : 1 ≤ isbf) (last : isbf ≤ 5) :
    ∃ d, receiveSubframe dwrd ((isbf * 10 : Nat) : Int) = some d := by
  simp only [receiveFrame, Option.bind_eq_bind, Option.bind_eq_some_iff] at received
  rcases received with ⟨d1, some1, d2, some2, d3, some3, d4, some4, d5, some5, -⟩
  interval_cases isbf
  · exact ⟨d1, some1⟩
  · exact ⟨d2, some2⟩
  · exact ⟨d3, some3⟩
  · exact ⟨d4, some4⟩
  · exact ⟨d5, some5⟩

/-- The words of a frame that is received pass their equations. -/
theorem receiveFrame_parityOk {frame : Frame} (received : receiveFrame dwrd = some frame)
    (lower : 10 ≤ n) (upper : n ≤ 59) : ParityOk (dwrd (n - 1)) (dwrd n) := by
  obtain ⟨d, subframe⟩ := receiveFrame_subframes received (n / 10) (by omega) (by omega)
  rw [receiveSubframe] at subframe
  split at subframe
  · rename_i all
    have here := all (n % 10) (Nat.mod_lt _ (by decide))
    rw [← Nat.cast_add, Nat.div_add_mod'] at here
    exact here
  · cases subframe

/-- Every wrong bit is heard by a word. -/
theorem exists_wrongBits (some : 0 < (wrongBitsOfFrame dwrd dwrd').card) :
    ∃ n : Nat, 10 ≤ n ∧ n ≤ 59 ∧
      (wrongBits (dwrd (n - 1)) (dwrd n) (dwrd' (n - 1)) (dwrd' n)).Nonempty := by
  rcases Finset.card_pos.mp some with ⟨p, member⟩
  obtain ⟨n, i, lower, upper, rfl⟩ := exists_place (Finset.mem_filter.mp member).1
  exact ⟨n, lower, upper, i, (wrongBits_map lower upper i).mpr member⟩

/-- A frame whose words all pass is not mistaken for one that differs in few bits. -/
theorem receiveFrame_eq_none_of_wrong
    (sent : ∀ n : Nat, 10 ≤ n → n ≤ 59 → ParityOk (dwrd (n - 1)) (dwrd n))
    (seen : (0 < (wrongBitsOfFrame dwrd dwrd').card ∧ (wrongBitsOfFrame dwrd dwrd').card ≤ 3) ∨
      ∃ n : Nat, 10 ≤ n ∧ n ≤ 59 ∧
        Odd (wrongBits (dwrd (n - 1)) (dwrd n) (dwrd' (n - 1)) (dwrd' n)).card) :
    receiveFrame dwrd' = none := by
  have failed : ∃ n : Nat, 10 ≤ n ∧ n ≤ 59 ∧ ¬ ParityOk (dwrd' (n - 1)) (dwrd' n) := by
    rcases seen with ⟨some, few⟩ | ⟨n, lower, upper, odd⟩
    · obtain ⟨n, lower, upper, here⟩ := exists_wrongBits some
      have fewer := (wrongBits_card_le lower upper).trans few
      exact ⟨n, lower, upper, not_parityOk_of_wrong (sent n lower upper) here (.inl fewer)⟩
    · exact ⟨n, lower, upper, not_parityOk_of_wrong (sent n lower upper)
        (Finset.card_pos.mp odd.pos) (.inr odd)⟩
  obtain ⟨n, lower, upper, fails⟩ := failed
  cases received : receiveFrame dwrd' with
  | none => rfl
  | some frame => exact absurd (receiveFrame_parityOk received lower upper) fails

end Frames

section Sent

variable {F : Type*} [Div F] [OfScientific F] [Rounding F]

/-- Every word of a frame passes. -/
theorem parityOk_generateNavMsg (eph : Ephem F) (ionoutc : IonoUtc F) (g : GpsTime ℚ)
    {chan : Channel} (init : Int) (subframes : chan.sbf = eph2sbf eph ionoutc) {n : Nat}
    (lower : 10 ≤ n) (upper : n ≤ 59) :
    ParityOk ((generateNavMsg g chan init).dwrd (n - 1)) ((generateNavMsg g chan init).dwrd n) := by
  have inFrame : n / 10 - 1 < nSbf := by
    simp only [nSbf]
    omega
  have inSubframe : n % 10 < nDwrdSbf := Nat.mod_lt _ (by decide)
  have position : (n / 10 - 1 + 1) * nDwrdSbf + n % 10 = n := by
    simp only [nDwrdSbf]
    omega
  have free : Free (chan.sbf (n / 10 - 1) (n % 10)) := by
    rw [subframes]
    exact eph2sbf_free eph ionoutc _ _
  have word := generateNavMsg_frame g chan init inFrame inSubframe
  rw [position] at word
  rw [word]
  exact parityOk_sendWord (free.addWeek ..)

/-- **A wrong frame is not taken for good.**  Whatever the ephemeris and the time: when one, two
or three of the bits that a receiver of a frame of `generateNavMsg` looks at are wrong, or an
odd number of those that one of its words looks at, the receiver rejects the frame. -/
theorem generateNavMsg_rejected (eph : Ephem F) (ionoutc : IonoUtc F) (g : GpsTime ℚ)
    (chan : Channel) (init : Int) (subframes : chan.sbf = eph2sbf eph ionoutc)
    (dwrd : Int → Word)
    (wrong : (0 < (wrongBitsOfFrame (generateNavMsg g chan init).dwrd dwrd).card ∧
        (wrongBitsOfFrame (generateNavMsg g chan init).dwrd dwrd).card ≤ 3) ∨
      ∃ n : Nat, 10 ≤ n ∧ n ≤ 59 ∧
        Odd (wrongBits ((generateNavMsg g chan init).dwrd (n - 1))
          ((generateNavMsg g chan init).dwrd n) (dwrd (n - 1)) (dwrd n)).card) :
    receiveFrame dwrd = none := by
  apply receiveFrame_eq_none_of_wrong _ wrong
  intro n lower upper
  exact parityOk_generateNavMsg eph ionoutc g init subframes lower upper

/-- One bit of word 23 is received wrong. -/
theorem generateNavMsg_rejected_oneBit :
    receiveFrame (Function.update
      (generateNavMsg { week := 2000, sec := 7230.4 }
        (idleChannel (eph2sbf sampleEphem sampleIono)) 1).dwrd 23
      ((generateNavMsg { week := 2000, sec := 7230.4 }
        (idleChannel (eph2sbf sampleEphem sampleIono)) 1).dwrd 23 ^^^ 0x20)) = none := by
  apply generateNavMsg_rejected sampleEphem sampleIono { week := 2000, sec := 7230.4 }
    (idleChannel (eph2sbf sampleEphem sampleIono)) 1 rfl
  left
  generalize (generateNavMsg _ _ _).dwrd = dwrd
  have flipped : ∀ k ∈ Finset.Icc 1 30, ((0x20 : Word).getLsbD (30 - k) ↔ k = 25) := by decide
  have one : wrongBitsOfFrame dwrd (Function.update dwrd 23 (dwrd 23 ^^^ 0x20)) = {(23, 25)} := by
    ext ⟨m, k⟩
    rw [wrongBitsOfFrame, Finset.mem_filter, Finset.mem_singleton, Prod.mk.injEq]
    by_cases same : m = 23
    · subst same
      rw [show ((23 : Nat) : Int) = 23 from rfl, Function.update_self, transmittedBit,
        transmittedBit, BitVec.getLsbD_xor, heardBits, Finset.mem_filter, Finset.mem_product]
      constructor
      · rintro ⟨⟨⟨-, inside⟩, -⟩, differs⟩
        refine ⟨rfl, (flipped k inside).mp ?_⟩
        by_contra kept
        rw [Bool.eq_false_of_not_eq_true kept, Bool.xor_false] at differs
        exact differs rfl
      · rintro ⟨-, rfl⟩
        refine ⟨by decide, ?_⟩
        rw [(flipped 25 (by decide)).mpr rfl, Bool.xor_true]
        exact (Bool.not_ne_self _).symm
    · have other : (m : Int) ≠ 23 := by omega
      rw [Function.update_of_ne other]
      simp [same]
  rw [one]
  decide

end Sent

end Navisim.Nav

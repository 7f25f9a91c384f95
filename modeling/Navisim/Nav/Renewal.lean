import Navisim.Nav.TowCount

/-!
# Renewed and new messages

A renewed message copies the leading subframe from the message of 30 seconds before, and a new one
computes it.  The tenth word of every subframe ends in two zero parity bits
(`stars_sendWord_last`), so that subframe 5 does not depend on the frame in front of it, and both
ways give the same window (`renewed_eq_new`).
-/

namespace Navisim.Nav

open BitCount

/-! ## The tenth word -/

section Solve

/-- The effect of one bit on the parity of the masked data. -/
theorem parity_flip (mask d : Word) {k : Nat} (inside : k < 32) :
    parity (mask &&& (d ^^^ ((0x1 : Word) <<< k))) = (parity (mask &&& d) ^^ mask.getLsbD k) := by
  have bits : ∀ i, (mask &&& (d ^^^ ((0x1 : Word) <<< k))).getLsbD i =
      ((mask &&& d).getLsbD i ^^ (mask.getLsbD k && decide (i = k))) := by
    intro i
    by_cases other : i = k
    · subst other
      have bit : ((0x1 : Word) <<< i).getLsbD i = true := by
        simp [inside]
      rw [BitVec.getLsbD_and, BitVec.getLsbD_xor, bit, BitVec.getLsbD_and, decide_eq_true rfl]
      cases mask.getLsbD i <;> cases d.getLsbD i <;> rfl
    · rw [BitVec.getLsbD_and, flip_getLsbD d other, BitVec.getLsbD_and]
      simp [other]
  rw [parity, funext bits, xorBits_xor, xorBits_single, decide_eq_true inside, Bool.and_true]
  rfl

/-- The solved bits make the last two parity bits zero. -/
theorem solveBits_parity (D29 D30 : Bool) (d : Word) :
    (D30 ^^ parity (bmask 4 &&& solveBits (bitWord D29) (bitWord D30) d)) = false ∧
      (D29 ^^ parity (bmask 5 &&& solveBits (bitWord D29) (bitWord D30) d)) = false := by
  have bits : (bmask 4).getLsbD 6 = true ∧ (bmask 4).getLsbD 7 = false ∧
      (bmask 5).getLsbD 7 = true := by decide
  obtain ⟨six, apart, seven⟩ := bits
  unfold solveBits
  simp only [parityBit, bitWord_ne_zero]
  -- Bit 23 of the word does not enter the other equation, so the first one stays solved.
  have first : ∀ d' : Word, (D30 ^^ parity (bmask 4 &&& (d' ^^^ ((0x1 : Word) <<< 7)))) =
      (D30 ^^ parity (bmask 4 &&& d')) := by
    intro d'
    rw [parity_flip _ _ (by decide), apart, Bool.xor_false]
  have solved4 : (D30 ^^ parity (bmask 4 &&&
      if (D30 ^^ parity (bmask 4 &&& d)) = true then d ^^^ ((0x1 : Word) <<< 6) else d)) =
        false := by
    cases odd : (D30 ^^ parity (bmask 4 &&& d)) with
    | false => simp only [Bool.false_eq_true, if_false, odd]
    | true =>
        rw [if_pos rfl, parity_flip _ _ (by decide), six, ← Bool.xor_assoc, odd, Bool.xor_self]
  generalize (if (D30 ^^ parity (bmask 4 &&& d)) = true then d ^^^ ((0x1 : Word) <<< 6) else d) = d'
    at solved4 ⊢
  cases odd : (D29 ^^ parity (bmask 5 &&& d')) with
  | false =>
      simp only [Bool.false_eq_true, if_false]
      exact ⟨solved4, odd⟩
  | true =>
      rw [if_pos rfl, first, parity_flip _ _ (by decide), seven, ← Bool.xor_assoc, odd]
      exact ⟨solved4, rfl⟩

/-- A word with solved bits ends in two zeros. -/
theorem computeChecksum_nib (source : Word) :
    (computeChecksum source true).getLsbD 0 = false ∧
      (computeChecksum source true).getLsbD 1 = false := by
  obtain ⟨bit29, bit30⟩ := solveBits_parity (source.getLsbD 31) (source.getLsbD 30)
    (source &&& 0x3FFFFFC0)
  exact ⟨(computeChecksum_parity source true 5).trans bit30,
    (computeChecksum_parity source true 4).trans bit29⟩

/-- The two bits that a word hands to the next one. -/
theorem stars_of_getLsbD {prev : Word} (D30 : prev.getLsbD 0 = false)
    (D29 : prev.getLsbD 1 = false) : prev <<< 30 &&& 0xC0000000 = 0 := by
  apply BitVec.eq_of_getLsbD_eq
  intro i bound
  rw [BitVec.getLsbD_and, BitVec.getLsbD_shiftLeft]
  rcases Nat.lt_or_ge i 30 with low | high
  · simp [low]
  · obtain rfl | rfl : i = 30 ∨ i = 31 := by omega
    · simp [D30, -BitVec.getLsbD_eq_getElem]
    · simp [D29, -BitVec.getLsbD_eq_getElem]

/-- **The tenth word** hands two zeros to the next subframe, whatever it holds. -/
theorem stars_sendWord_last (w prev : Word) (tow : Nat) :
    sendWord w 9 tow prev <<< 30 &&& 0xC0000000 = 0 := by
  obtain ⟨D30, D29⟩ := computeChecksum_nib
    (addTow w 9 tow ||| (prev <<< 30 &&& 0xC0000000))
  exact stars_of_getLsbD D30 D29

end Solve

/-! ## Frames that follow each other -/

section Frames

variable {g g' : GpsTime ℚ}

/-- Thirty seconds before, unless the week has just started, is the frame before. -/
theorem frameTow_add (inWeek : g.InWeek) (inWeek' : g'.InWeek) (earlier : subGpsTime g g' = 30)
    (late : 30 ≤ g.sec) : frameTow g' + 5 = frameTow g := by
  have week : g.week - g'.week = 0 := by
    rw [subGpsTime, secondsInWeek_eq] at earlier
    have lower : ((-1 : Int) : ℚ) < (g.week - g'.week : Int) := by
      push_cast at earlier ⊢
      linarith [inWeek.2, inWeek'.1]
    have upper : ((g.week - g'.week : Int) : ℚ) < (1 : Int) := by
      push_cast at earlier ⊢
      linarith [inWeek'.2]
    have lower' : -1 < g.week - g'.week := by exact_mod_cast lower
    have upper' : g.week - g'.week < 1 := by exact_mod_cast upper
    omega
  have sec : g.sec = g'.sec + 30 := by
    simp only [subGpsTime, week, Int.cast_zero, zero_mul, add_zero] at earlier
    linarith
  have number : frameNumber g = frameNumber g' + 1 := by
    have second : g.sec + 1 / 2 = g'.sec + 1 / 2 + ((30 : Int) : ℚ) := by
      rw [sec]
      push_cast
      ring
    rw [frameNumber, frameNumber, second, Int.floor_add_intCast]
    omega
  have start := frameTow_eq inWeek
  have start' := frameTow_eq inWeek'
  omega

/-- The previous word enters with its last two bits only. -/
theorem sendWord_congr {w prev prev' : Word} {iwrd tow : Nat}
    (stars : prev <<< 30 &&& (0xC0000000 : Word) = prev' <<< 30 &&& (0xC0000000 : Word)) :
    sendWord w iwrd tow prev = sendWord w iwrd tow prev' := by
  rw [sendWord, stars]
  rfl

variable {before fresh : Channel} {init : Int}

/-- Subframe 5 of a message is the leading subframe of a new message 30 seconds later. -/
theorem subframe5_eq_new (tow : frameTow g' + 5 = frameTow g)
    (page : ∀ iwrd < nDwrdSbf, fresh.sbf 4 iwrd = before.sbf 4 iwrd) :
    ∀ iwrd < nDwrdSbf, (generateNavMsg g' before init).dwrd (nDwrdSbf * nSbf + iwrd : Nat) =
      (generateNavMsg g fresh 1).dwrd iwrd := by
  intro iwrd inSubframe
  have noWeek : addWeek (before.sbf 4 iwrd) 4 iwrd (frameWeek g') = before.sbf 4 iwrd :=
    if_neg fun both => absurd both.1 (by decide)
  have old := generateNavMsg_frame g' before init (show 4 < nSbf by decide) inSubframe
  have new := generateNavMsg_first g fresh inSubframe
  have place : (4 + 1) * nDwrdSbf + iwrd = nDwrdSbf * nSbf + iwrd := rfl
  rw [noWeek, tow, place] at old
  rw [old, new, page iwrd inSubframe]
  apply sendWord_congr
  cases iwrd with
  | zero =>
      -- The word in front of subframe 5 is the tenth of subframe 4.
      have last := generateNavMsg_frame g' before init (show 3 < nSbf by decide)
        (show 9 < nDwrdSbf by decide)
      have front : ((nDwrdSbf * nSbf + 0 : Nat) : Int) - 1 = ((3 + 1) * nDwrdSbf + 9 : Nat) := rfl
      rw [if_pos rfl, front, last, stars_sendWord_last]
      rfl
  | succ iwrd =>
      have ih := subframe5_eq_new tow page iwrd (by omega)
      have front : ((nDwrdSbf * nSbf + (iwrd + 1) : Nat) : Int) - 1 =
          (nDwrdSbf * nSbf + iwrd : Nat) := by
        push_cast
        ring
      have front' : ((iwrd + 1 : Nat) : Int) - 1 = iwrd := by
        push_cast
        ring
      rw [if_neg (Nat.succ_ne_zero iwrd), front, front', ih]

/-- The leading subframe of a renewed message is that of a new one. -/
theorem leading_eq_new {chan : Channel} (tow : frameTow g' + 5 = frameTow g)
    (page : ∀ iwrd < nDwrdSbf, fresh.sbf 4 iwrd = before.sbf 4 iwrd)
    (sent : ∀ w < nDwrd, chan.dwrd w = (generateNavMsg g' before init).dwrd w) {w : Nat}
    (leading : w < nDwrdSbf) :
    (generateNavMsg g chan 0).dwrd w = (generateNavMsg g fresh 1).dwrd w := by
  have inside : nDwrdSbf * nSbf + w < nDwrd := by
    simp only [nDwrd, nSbf, nDwrdSbf] at leading ⊢
    omega
  rw [generateNavMsg_saved g chan zero_ne_one leading, sent _ inside,
    subframe5_eq_new tow page w leading]

/-- Behind the leading subframe, a word depends on the one in front of it only. -/
theorem frame_eq_new {chan : Channel} (subframes : fresh.sbf = chan.sbf) {w : Nat}
    (inside : w + 1 < nDwrd) (inFrame : nDwrdSbf ≤ w + 1)
    (front : (generateNavMsg g chan 0).dwrd w = (generateNavMsg g fresh 1).dwrd w) :
    (generateNavMsg g chan 0).dwrd (w + 1 : Nat) =
      (generateNavMsg g fresh 1).dwrd (w + 1 : Nat) := by
  simp only [nDwrd, nSbf, nDwrdSbf] at inside inFrame
  have place : w + 1 = ((w - 9) / 10 + 1) * nDwrdSbf + (w - 9) % 10 := by
    simp only [nDwrdSbf]
    omega
  have isbf : (w - 9) / 10 < nSbf := by
    simp only [nSbf]
    omega
  have iwrd : (w - 9) % 10 < nDwrdSbf := by
    simp only [nDwrdSbf]
    omega
  have previous : ((w + 1 : Nat) : Int) - 1 = w := by
    push_cast
    ring
  have word := generateNavMsg_frame g chan 0 isbf iwrd
  have word' := generateNavMsg_frame g fresh 1 isbf iwrd
  rw [← place, previous] at word word'
  rw [word, word', subframes, front]

/-- **A renewed message is the new one.**  When the channel still has the words of a message of 30
seconds before, and the week has not just started, the window that continues the message is the
window that a new message has: whatever the subframes of the old message were, apart from
subframe 5. -/
theorem renewed_eq_new {chan : Channel} (inWeek : g.InWeek) (inWeek' : g'.InWeek)
    (earlier : subGpsTime g g' = 30) (late : 30 ≤ g.sec)
    (sent : ∀ w < nDwrd, chan.dwrd w = (generateNavMsg g' before init).dwrd w)
    (page : ∀ iwrd < nDwrdSbf, chan.sbf 4 iwrd = before.sbf 4 iwrd)
    (subframes : fresh.sbf = chan.sbf) :
    (generateNavMsg g chan 0).g0 = (generateNavMsg g fresh 1).g0 ∧
      ∀ w < nDwrd, (generateNavMsg g chan 0).dwrd w = (generateNavMsg g fresh 1).dwrd w := by
  have tow := frameTow_add inWeek inWeek' earlier late
  have page' : ∀ iwrd < nDwrdSbf, fresh.sbf 4 iwrd = before.sbf 4 iwrd := by
    rw [subframes]
    exact page
  refine ⟨rfl, fun w => ?_⟩
  induction w with
  | zero => exact fun _ => leading_eq_new tow page' sent (by decide)
  | succ w ih =>
      intro inside
      rcases Nat.lt_or_ge (w + 1) nDwrdSbf with leading | inFrame
      · exact leading_eq_new tow page' sent leading
      · exact frame_eq_new subframes inside inFrame (ih (by omega))

end Frames

/-- An ephemeris with another clock correction. -/
def correctedEphem : Ephem ℚ :=
  { sampleEphem with af0 := 0 }

/-- The channel half a minute after its first message, with the subframes of another set. -/
def correctedChannel : Channel :=
  { generateNavMsg { week := 2000, sec := 7200 } (idleChannel (eph2sbf sampleEphem sampleIono)) 1
    with sbf := eph2sbf correctedEphem sampleIono }

theorem renewed_eq_new_sample :
    (generateNavMsg { week := 2000, sec := 7230 } correctedChannel 0).dwrd 59 =
      (generateNavMsg { week := 2000, sec := 7230 }
        (idleChannel (eph2sbf correctedEphem sampleIono)) 1).dwrd 59 := by
  have inWeek : ∀ sec : ℚ, 0 ≤ sec → sec < 604800 →
      GpsTime.InWeek { week := 2000, sec := sec } := fun _ lower upper => ⟨lower, upper⟩
  have earlier : subGpsTime { week := 2000, sec := 7230 } { week := 2000, sec := 7200 } = 30 := by
    norm_num [subGpsTime]
  have sent : ∀ w < nDwrd, correctedChannel.dwrd w =
      (generateNavMsg { week := 2000, sec := 7200 }
        (idleChannel (eph2sbf sampleEphem sampleIono)) 1).dwrd w := fun _ _ => rfl
  have page : ∀ iwrd < nDwrdSbf, correctedChannel.sbf 4 iwrd =
      (idleChannel (eph2sbf sampleEphem sampleIono)).sbf 4 iwrd := fun _ _ => rfl
  have subframes : (idleChannel (eph2sbf correctedEphem sampleIono)).sbf = correctedChannel.sbf :=
    rfl
  exact (renewed_eq_new (inWeek 7230 (by norm_num) (by norm_num))
    (inWeek 7200 (by norm_num) (by norm_num)) earlier (by norm_num) sent page subframes).2 59
    (by decide)

end Navisim.Nav

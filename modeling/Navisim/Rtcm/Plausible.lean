import Navisim.Gps.Exact
import Navisim.Rtcm.Effect

/-!
# Received ephemerides

The fields of a message bound what is stored from it.  Whatever bytes arrive, only the
eccentricity, the axis and the time of clock decide whether an entry is plausible
(`received_plausible_iff`).
-/

namespace Navisim.Rtcm

/-! ## Fields -/

section Fields

variable {buff : Buffer} {pos len : Nat} {unit : ℚ}

/-- A signed field. -/
theorem abs_getbits_le (buff : Buffer) (pos : Nat) (positive : 0 < len) (fits : len ≤ 32) :
    |getbits buff pos len| ≤ 2 ^ (len - 1) := by
  have bound := messageField_lt buff pos len
  have top : 2 ^ len = 2 * 2 ^ (len - 1) := by
    rw [← pow_succ']
    congr
    omega
  have cast : (2 : Int) ^ (len - 1) = (2 ^ (len - 1) : Nat) := by push_cast; rfl
  have cast' : (2 : Int) ^ len = (2 ^ len : Nat) := by push_cast; rfl
  rw [getbits_eq pos positive fits, BitField.signExtend, abs_le, cast, cast']
  split <;> omega

/-- The value of a signed field. -/
theorem abs_scaled_le (buff : Buffer) (pos : Nat) (positive : 0 < len) (fits : len ≤ 32)
    (nonneg : 0 ≤ unit) {bound : ℚ} (small : 2 ^ (len - 1) * unit ≤ bound) :
    |getbits buff pos len * unit| ≤ bound := by
  have size : |(getbits buff pos len : ℚ)| ≤ 2 ^ (len - 1) := by
    exact_mod_cast abs_getbits_le buff pos positive fits
  rw [abs_mul, abs_of_nonneg nonneg]
  exact (mul_le_mul_of_nonneg_right size nonneg).trans small

end Fields

/-- **What is decoded** is plausible if these are. -/
theorem decodeEphem_plausible_iff (sqrt : ℚ → ℚ) (buffer : Buffer) :
    (decodeEphem sqrt buffer).Plausible ↔
      (decodeEphem sqrt buffer).ecc ≤ 0.1 ∧
      (5000 ≤ (decodeEphem sqrt buffer).sqrta ∧ (decodeEphem sqrt buffer).sqrta ≤ 5290) ∧
      (decodeEphem sqrt buffer).toc.sec ≤ 604800 := by
  constructor
  · intro likely
    exact ⟨likely.ecc.2, likely.sqrta, likely.toc.2⟩
  · intro sizes
    obtain ⟨ecc, sqrta, toc⟩ := sizes
    have ecc' : 0 ≤ (decodeEphem sqrt buffer).ecc := by
      change (0 : ℚ) ≤ (getbitu buffer 232 32).toNat * p2_33
      norm_num [p2_33]
    have toc' : 0 ≤ (decodeEphem sqrt buffer).toc.sec := by
      change (0 : ℚ) ≤ (getbitu buffer 80 16).toNat * (16.0 : ℚ)
      norm_num
    have field : ∀ {pos len : Nat} {x unit bound : ℚ}, x = getbits buffer pos len * unit →
        0 < len → len ≤ 32 → 0 ≤ unit → 2 ^ (len - 1) * unit ≤ bound → |x| ≤ bound := by
      intro pos len x unit bound value positive fits nonneg small
      rw [value]
      exact abs_scaled_le buffer pos positive fits nonneg small
    have angle : ∀ {pos len : Nat} {x unit bound : ℚ}, x = getbits buffer pos len * unit * sc2rad →
        0 < len → len ≤ 32 → 0 ≤ unit → 2 ^ (len - 1) * (unit * sc2rad) ≤ bound → |x| ≤ bound := by
      intro pos len x unit bound value positive fits nonneg small
      rw [value, mul_assoc]
      exact abs_scaled_le buffer pos positive fits
        (mul_nonneg nonneg (by norm_num [sc2rad])) small
    exact {
      ecc := ⟨ecc', ecc⟩
      sqrta := sqrta
      deltan := angle rfl (by decide) (by decide) (by norm_num [p2_43])
        (by norm_num [p2_43, sc2rad])
      omgdot := angle rfl (by decide) (by decide) (by norm_num [p2_43])
        (by norm_num [p2_43, sc2rad])
      idot := angle rfl (by decide) (by decide) (by norm_num [p2_43])
        (by norm_num [p2_43, sc2rad])
      crc := field rfl (by decide) (by decide) (by norm_num [p2_5]) (by norm_num [p2_5])
      crs := field rfl (by decide) (by decide) (by norm_num [p2_5]) (by norm_num [p2_5])
      cuc := field rfl (by decide) (by decide) (by norm_num [p2_29]) (by norm_num [p2_29])
      cus := field rfl (by decide) (by decide) (by norm_num [p2_29]) (by norm_num [p2_29])
      cic := field rfl (by decide) (by decide) (by norm_num [p2_29]) (by norm_num [p2_29])
      cis := field rfl (by decide) (by decide) (by norm_num [p2_29]) (by norm_num [p2_29])
      af0 := field rfl (by decide) (by decide) (by norm_num [p2_31]) (by norm_num [p2_31])
      af1 := field rfl (by decide) (by decide) (by norm_num [p2_43]) (by norm_num [p2_43])
      af2 := field rfl (by decide) (by decide) (by norm_num [p2_55]) (by norm_num [p2_55])
      tgd := field rfl (by decide) (by decide) (by norm_num [p2_31]) (by norm_num [p2_31])
      toc := ⟨toc', toc⟩ }

/-! ## The table -/

/-- An entry that has been there before the call, or has been received and is plausible if its
size and its time of clock are. -/
def KeptOrReceived (before entry : Ephem ℚ) : Prop :=
  entry = before ∨ entry.vflg = 1 ∧
    (entry.Plausible ↔ entry.ecc ≤ 0.1 ∧ (5000 ≤ entry.sqrta ∧ entry.sqrta ≤ 5290) ∧
      entry.toc.sec ≤ 604800)

section Calls

variable {before : Int → Ephem ℚ} {d : Delivery}

theorem handMessage_keptOrReceived (sqrt : ℚ → ℚ)
    (kept : ∀ sv, KeptOrReceived (before sv) (d.eph.eph sv))
    (m : Message) (sv : Int) :
    KeptOrReceived (before sv) ((handMessage sqrt d m).eph.eph sv) := by
  have table := decodeRtcm3_table sqrt d.eph m.1 m.2
  change KeptOrReceived (before sv) ((decodeRtcm3 sqrt d.eph m.1 m.2).2.eph sv)
  rw [table]
  split
  · by_cases stored : sv = (messageField m.1 36 6 : Int) - 1
    · subst stored
      rw [Function.update_self]
      exact Or.inr ⟨rfl, decodeEphem_plausible_iff sqrt m.1⟩
    · rw [Function.update_of_ne stored]
      exact kept sv
  · exact kept sv

theorem handOver_keptOrReceived (sqrt : ℚ → ℚ)
    (kept : ∀ sv, KeptOrReceived (before sv) (d.eph.eph sv))
    (messages : List Message) (sv : Int) :
    KeptOrReceived (before sv) ((handOver sqrt messages d).1.eph.eph sv) := by
  induction messages generalizing d with
  | nil => exact kept sv
  | cons m rest ih =>
      have next := handMessage_keptOrReceived sqrt kept m
      rw [handOver]
      split
      · exact next sv
      · exact ih next

end Calls

/-- **Received ephemerides.**  Whatever bytes arrive in a call, cut in whatever way, and whatever
has been counted before: every entry of the table is that from before the call, or is valid and
plausible exactly if its eccentricity is at most 0.1, the root of its axis between 5000 and 5290
and its time of clock within a week. -/
theorem received_plausible_iff (sqrt : ℚ → ℚ) (call : EphCall) (nSV : Int) {d : Delivery}
    (ran : call.run sqrt nSV = some d) (sv : Int) :
    KeptOrReceived (call.eph sv) (d.eph.eph sv) := by
  have kept : KeptOrReceived (call.eph sv) ((handOver sqrt call.messages.1
      { nSV := 0, eph := { eph := call.eph, nSV := nSV }, frames := [] }).1.eph.eph sv) :=
    handOver_keptOrReceived sqrt (fun sv => Or.inl rfl) _ sv
  rw [EphCall.run, getRtcm3Eph_eq, delivered] at ran
  rw [EphCall.messages] at kept
  generalize handOver sqrt _ _ = handed at ran kept
  rcases handed with ⟨d', stopped⟩
  dsimp only at ran kept
  split at ran
  · obtain rfl := Option.some.inj ran
    exact kept
  · cases ran

theorem received_plausible_iff_firstCall : KeptOrReceived (firstCall.eph 0)
    ((deliver id { eph := sampleTable.eph, nSV := 0 }
      (List.replicate 32 blankMessage).flatten).eph.eph 0) :=
  received_plausible_iff id firstCall 0 (firstCall_run id) 0

end Navisim.Rtcm

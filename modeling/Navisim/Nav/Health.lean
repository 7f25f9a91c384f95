import Navisim.Rinex.Read
import Navisim.Rtcm.Rebroadcast

/-!
# The health of a satellite

The SV health on its way from the two sources of ephemerides to subframe 1.  A record of a RINEX
file hands it on, remapped so that its most significant bit is set; an RTCM message loses it.
-/

namespace Navisim.Nav

open BitField Rinex Rtcm

/-- The health field of subframe 1. -/
def sentHealth (sbf : Subframes) : Nat :=
  field 8 6 (sbf 0 2)

/-- A health of zero is sent as zero, and any other one with the most significant bit set. -/
def HealthKept (health : Int) (sbf : Subframes) : Prop :=
  (health ≠ 0 → sentHealth sbf ≠ 0 ∧ (sentHealth sbf).testBit 5 = true) ∧
    (health = 0 → sentHealth sbf = 0)

instance (health : Int) (sbf : Subframes) : Decidable (HealthKept health sbf) :=
  inferInstanceAs (Decidable (_ ∧ _))

section Sent

variable {eph : Ephem ℚ} {ionoutc : IonoUtc ℚ} {health : Int}

/-- Subframe 1 has the six low bits of the record's health. -/
theorem sentHealth_eph2sbf (eph : Ephem ℚ) (ionoutc : IonoUtc ℚ) :
    sentHealth (eph2sbf eph ionoutc) = residue 6 eph.svhlth := by
  simp (disch := decide) only [sentHealth, eph2sbf, subframe1, ura, field_or, field_apart,
    field_piece, ofInt_toNat_mod, Nat.or_zero, Nat.zero_or, scaleEphem]

/-- Two satellites of the same health are sent as both healthy or both unhealthy. -/
theorem HealthKept.agree {sbf sbf' : Subframes} (kept : HealthKept health sbf)
    (kept' : HealthKept health sbf') : sentHealth sbf = 0 ↔ sentHealth sbf' = 0 := by
  by_cases zero : health = 0
  · rw [kept.2 zero, kept'.2 zero]
  · exact iff_of_false (kept.1 zero).1 (kept'.1 zero).1

/-- The remapping of `readRinexNavAll` keeps every health of six bits. -/
theorem healthKept_of_svhlth (six : Unsigned 6 health) (stored : eph.svhlth = Rinex.health health) :
    HealthKept health (eph2sbf eph ionoutc) := by
  obtain ⟨nonneg, upper⟩ := six
  have sent := sentHealth_eph2sbf eph ionoutc
  rw [stored] at sent
  have top : ∀ h : Nat, h < 64 → 32 ≤ h → h.testBit 5 = true := by decide
  by_cases zero : health = 0
  · subst zero
    exact ⟨fun nonzero => absurd rfl nonzero, fun _ => sent⟩
  · have set : Unsigned 6 (Rinex.health health) ∧ 32 ≤ Rinex.health health := by
      unfold Rinex.health Unsigned
      split <;> omega
    have value := residue_of_unsigned set.1
    have bound := set.1.2
    rw [← sent] at value
    refine ⟨fun _ => ⟨by omega, top _ (by omega) (by omega)⟩, fun healthy => absurd healthy zero⟩

end Sent

/-! ## Records of a RINEX file -/

section Records

variable {sqrt : ℚ → ℚ} {t : DateTime} {g : GpsTime ℚ} {values eph : Ephem ℚ} {lines : Nat}

theorem storeLine_svhlth (line : Nat) :
    (storeLine sqrt t g values line eph).svhlth =
      if line = 6 then Rinex.health values.svhlth else eph.svhlth := by
  unfold storeLine
  split <;> first | rfl | (rw [if_neg ‹_›])

theorem storeLines_svhlth :
    (storeLines sqrt t g values lines eph).svhlth =
      if 7 ≤ lines then Rinex.health values.svhlth else eph.svhlth := by
  induction lines with
  | zero => rfl
  | succ lines ih =>
      rw [storeLines, storeLine_svhlth, ih]
      split_ifs <;> first | rfl | omega

/-- The record whose health was stored last in entry `sv` of set `k`, where `last` was the one
before; the records are read as `readRecords` reads them. -/
def lastHealth (sqrt : ℚ → ℚ) (k : Int) (sv : Nat) :
    List Record → Reader → Option Record → Option Record
  | [], _, last => last
  | record :: rest, s, last =>
      match date2gps record.t with
      | none => last
      | some g =>
          let s := s.checkTime g
          if s.ieph ≥ ephemArraySize then last
          else if 0 ≤ record.sv ∧ record.sv < maxSat then
            let last' :=
              if k = s.ieph ∧ sv = record.sv.toNat ∧ 6 ≤ record.orbits then some record else last
            if record.orbits < 7 then last'
            else
              lastHealth sqrt k sv rest
                (s.update record.sv.toNat
                  (storeLines sqrt record.t g record.values (record.orbits + 1)))
                last'
          else last

/-- What is known of an entry and of the record its health is from. -/
structure HealthFrom (sv : Nat) (records : List Record) (eph : Ephem ℚ) (last : Option Record) :
    Prop where
  stored : ∀ record, last = some record →
    record ∈ records ∧ record.sv = sv ∧ eph.svhlth = Rinex.health record.values.svhlth
  valid : eph.vflg = 1 → last ≠ none

/-- One record is stored. -/
theorem HealthFrom.store {sv : Nat} {records : List Record} {last : Option Record} {record : Record}
    {s : Reader} {k : Int} (source : HealthFrom sv records (s.eph k sv) last)
    (member : record ∈ records) (slot : 0 ≤ record.sv) :
    HealthFrom sv records
      ((s.update record.sv.toNat
        (storeLines sqrt record.t g record.values (record.orbits + 1))).eph k sv)
      (if k = s.ieph ∧ sv = record.sv.toNat ∧ 6 ≤ record.orbits then some record else last) := by
  by_cases entry : k = s.ieph ∧ sv = record.sv.toNat
  · obtain ⟨rfl, rfl⟩ := entry
    rw [update_self]
    by_cases line : 6 ≤ record.orbits
    · rw [if_pos ⟨rfl, rfl, line⟩]
      refine ⟨fun other same => ?_, fun _ => Option.some_ne_none record⟩
      cases same
      rw [storeLines_svhlth, if_pos (by omega)]
      exact ⟨member, (Int.toNat_of_nonneg slot).symm, rfl⟩
    · rw [if_neg fun both => line both.2.2]
      refine ⟨fun other same => ?_, fun flag => ?_⟩
      · rw [storeLines_svhlth, if_neg (by omega)]
        exact source.stored other same
      · rw [storeLines_vflg, if_neg (by omega)] at flag
        exact source.valid flag
  · rw [update_of_ne _ entry, if_neg fun both => entry ⟨both.1, both.2.1⟩]
    exact source

theorem checkTime_eph (s : Reader) (g : GpsTime ℚ) : (s.checkTime g).eph = s.eph := by
  unfold Reader.checkTime
  dsimp only
  split <;> split <;> rfl

/-- The array after the records has in every entry the health of the last record for it. -/
theorem readRecords_health {records rest : List Record} {s s' : Reader} {k : Int} {sv : Nat}
    {last : Option Record} (read : readRecords sqrt rest s = some s') (members : rest ⊆ records)
    (source : HealthFrom sv records (s.eph k sv) last) :
    HealthFrom sv records (s'.eph k sv) (lastHealth sqrt k sv rest s last) := by
  induction rest generalizing s last with
  | nil =>
      obtain rfl : s = s' := by simpa [readRecords] using read
      exact source
  | cons record rest ih =>
      obtain ⟨member, others⟩ := List.cons_subset.mp members
      simp only [readRecords, Option.bind_eq_bind, Option.bind_eq_some_iff] at read
      obtain ⟨g, converted, read⟩ := read
      simp only [lastHealth, converted]
      have source' : HealthFrom sv records ((s.checkTime g).eph k sv) last := by
        rw [checkTime_eph]
        exact source
      generalize s.checkTime g = s₁ at read source' ⊢
      split at read
      · rename_i full
        obtain rfl : s₁ = s' := by simpa using read
        rw [if_pos full]
        exact source'
      · rename_i room
        rw [if_neg room]
        split at read
        · rename_i slot
          have stored : HealthFrom sv records
              ((s₁.update record.sv.toNat
                (storeLines sqrt record.t g record.values (record.orbits + 1))).eph k sv)
              (if k = s₁.ieph ∧ sv = record.sv.toNat ∧ 6 ≤ record.orbits then some record
                else last) :=
            source'.store member slot.1
          rw [if_pos slot]
          split at read
          · rename_i cut
            rw [if_pos cut]
            cases read
            exact stored
          · rename_i complete
            rw [if_neg complete]
            exact ih read others stored
        · exact absurd read (by simp)

end Records

/-! ## The two sources -/

/-- An ephemeris with the source it comes from. -/
inductive Source
  /-- Entry `sv` of set `k`, once a file has been read. -/
  | rinex (memory : Int → Nat → Ephem ℚ) (records : List Record) (k : Int) (sv : Nat)
  /-- The entry that a message 1019 replaces. -/
  | rtcm (table : Table) (buffer : Buffer) (len : Int)

/-- The array before the first record. -/
def fileStart (memory : Int → Nat → Ephem ℚ) : Reader where
  eph := clearFlags memory
  g0 := { week := -1, sec := 0 }
  ieph := 0

/-- A message 1019 for one of the satellites that the table has. -/
structure IsEphemeris (buffer : Buffer) (len : Int) : Prop where
  type : messageField buffer 24 12 = 1019
  sat : 1 ≤ messageField buffer 36 6 ∧ messageField buffer 36 6 ≤ maxSat
  whole : 61 + 3 ≤ len

instance (buffer : Buffer) (len : Int) : Decidable (IsEphemeris buffer len) :=
  decidable_of_iff (messageField buffer 24 12 = 1019 ∧
    (1 ≤ messageField buffer 36 6 ∧ messageField buffer 36 6 ≤ maxSat) ∧ 61 + 3 ≤ len)
    ⟨fun ⟨type, sat, whole⟩ => ⟨type, sat, whole⟩, fun ⟨type, sat, whole⟩ => ⟨type, sat, whole⟩⟩

/-- The `SV health` of message 1019. -/
def messageHealth (buffer : Buffer) : Nat :=
  messageField buffer 504 6

/-- The health of the source is sent in subframe 1.  For a valid entry of the array it is the
health of the last record for this entry. -/
def Source.HealthSent (sqrt : ℚ → ℚ) (ionoutc : IonoUtc ℚ) : Source → Prop
  | rinex memory records k sv =>
      (∀ record ∈ records, Unsigned 6 record.values.svhlth) →
      ∀ eph neph, readRinexNavAll sqrt memory (some records) = some (eph, neph) →
      0 ≤ k → k < ephemArraySize → sv < maxSat → (eph k sv).vflg = 1 →
      ∃ record ∈ records, record.sv = sv ∧
        lastHealth sqrt k sv records (fileStart memory) none = some record ∧
        HealthKept record.values.svhlth (eph2sbf (eph k sv) ionoutc)
  | rtcm table buffer len =>
      IsEphemeris buffer len →
      HealthKept (messageHealth buffer)
        (eph2sbf ((decodeRtcm3 sqrt table buffer len).2.eph (messageField buffer 36 6 - 1)) ionoutc)

/-- The source is a file, or a message of a healthy satellite. -/
def Source.HealthySource : Source → Prop
  | rinex .. => True
  | rtcm _ buffer len => IsEphemeris buffer len → messageHealth buffer = 0

/-- A file hands on the health of its records. -/
theorem healthSent_rinex (sqrt : ℚ → ℚ) (ionoutc : IonoUtc ℚ) (memory : Int → Nat → Ephem ℚ)
    (records : List Record) (k : Int) (sv : Nat) :
    (Source.rinex memory records k sv).HealthSent sqrt ionoutc := by
  intro six eph neph read nonneg below inside flag
  simp only [readRinexNavAll, Option.bind_eq_bind, Option.bind_eq_some_iff, Option.pure_def,
    Option.some.injEq, Prod.mk.injEq] at read
  obtain ⟨s, result, rfl, -⟩ := read
  have start : HealthFrom sv records ((fileStart memory).eph k sv) none := by
    refine ⟨fun record same => absurd same (by simp), fun valid => ?_⟩
    change (clearFlags memory k sv).vflg = 1 at valid
    rw [clearFlags, if_pos ⟨nonneg, below, inside⟩] at valid
    exact absurd (show (0 : Int) = 1 from valid) (by decide)
  have source := readRecords_health (s := fileStart memory) result (List.Subset.refl records)
    start
  cases last : lastHealth sqrt k sv records (fileStart memory) none with
  | none => exact absurd last (source.valid flag)
  | some record =>
      obtain ⟨member, sat, stored⟩ := source.stored record last
      exact ⟨record, member, sat, rfl, healthKept_of_svhlth (six record member) stored⟩

/-- A message is sent as that of a healthy satellite, whatever its health is. -/
theorem sentHealth_decodeRtcm3 (sqrt : ℚ → ℚ) (ionoutc : IonoUtc ℚ) (table : Table)
    {buffer : Buffer} {len : Int} (ephemeris : IsEphemeris buffer len) :
    sentHealth (eph2sbf ((decodeRtcm3 sqrt table buffer len).2.eph (messageField buffer 36 6 - 1))
      ionoutc) = 0 := by
  rw [decodeRtcm3_stored sqrt table buffer ephemeris.type ephemeris.sat.2 ephemeris.whole,
    sentHealth_eph2sbf]
  rfl

/-- **Which health is sent.**  Subframe 1 has the health of the source for every file, and for a
message exactly when the message says that the satellite is healthy. -/
theorem healthSent_iff (sqrt : ℚ → ℚ) (ionoutc : IonoUtc ℚ) (source : Source) :
    source.HealthSent sqrt ionoutc ↔ source.HealthySource := by
  cases source with
  | rinex memory records k sv =>
      exact iff_of_true (healthSent_rinex sqrt ionoutc memory records k sv) trivial
  | rtcm table buffer len =>
      apply forall_congr'
      intro ephemeris
      have zero := sentHealth_decodeRtcm3 sqrt ionoutc table ephemeris
      constructor
      · intro kept
        by_contra unhealthy
        exact (kept.1 (by exact_mod_cast unhealthy)).1 zero
      · intro healthy
        rw [healthy]
        exact ⟨fun nonzero => absurd rfl nonzero, fun _ => zero⟩

/-- A message with health 56. -/
theorem healthSent_iff_sample : messageHealth sampleMessage = 56 ∧
    ¬ (Source.rtcm { eph := fun _ => sampleEphem, nSV := 0 } sampleMessage 64).HealthSent id
      sampleIono := by
  have ephemeris : IsEphemeris sampleMessage 64 := by decide
  have health : messageHealth sampleMessage = 56 := by decide
  refine ⟨health, fun kept => ?_⟩
  have zero := sentHealth_decodeRtcm3 id sampleIono { eph := fun _ => sampleEphem, nSV := 0 }
    ephemeris
  have nonzero : ((messageHealth sampleMessage : Nat) : Int) ≠ 0 := by
    rw [health]
    decide
  exact ((kept ephemeris).1 nonzero).1 zero

end Navisim.Nav

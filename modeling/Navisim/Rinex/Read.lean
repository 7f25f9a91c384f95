import Navisim.Gps.Calendar
import Navisim.Gps.Channel

/-!
# Reading a RINEX file

The ephemeris blocks of `readRinexNavAll`.  A record of the file stands for its eight lines, less
those behind the end of the file, as the numbers in their columns.  The lines themselves, and the
header, which fills the ionosphere record, are those of `Navisim.Rinex.File`.
-/

namespace Navisim.Rinex

/-- `EPHEM_ARRAY_SIZE` -/
def ephemArraySize : Int := 13

/-- What `atoi` makes of two characters. -/
def TwoDigits : Type := { n : Int // -9 ≤ n ∧ n ≤ 99 }

/-- What `atof` makes of two characters: whole tenths. -/
def Tenths : Type := { x : ℚ // ∃ n : Int, x = n / 10 }

structure Record where
  prn : TwoDigits
  y : TwoDigits
  m : TwoDigits
  d : TwoDigits
  hh : TwoDigits
  mm : TwoDigits
  sec : Tenths
  /-- The numbers of the other columns. -/
  values : Ephem ℚ
  /-- The number of orbit lines up to the end of the file. -/
  orbits : Nat

/-- EPOCH -/
def Record.t (record : Record) : DateTime where
  y := record.y.1 + 2000
  m := record.m.1
  d := record.d.1
  hh := record.hh.1
  mm := record.mm.1
  sec := record.sec.1

def Record.sv (record : Record) : Int :=
  record.prn.1 - 1

/-- `svhlth`, with the MSB set to 1. -/
def health (svhlth : Int) : Int :=
  if svhlth > 0 ∧ svhlth < 32 then svhlth + 32 else svhlth

/-- What line `line` of a record, counted from 0, puts into its entry. -/
def storeLine (sqrt : ℚ → ℚ) (t : DateTime) (g : GpsTime ℚ) (values : Ephem ℚ) (line : Nat)
    (eph : Ephem ℚ) : Ephem ℚ :=
  match line with
  -- Date and time, SV CLK
  | 0 => { eph with
      t := t
      toc := g
      af0 := values.af0
      af1 := values.af1
      af2 := values.af2 }
  -- BROADCAST ORBIT - 1
  | 1 => { eph with
      iode := values.iode
      crs := values.crs
      deltan := values.deltan
      m0 := values.m0 }
  -- BROADCAST ORBIT - 2
  | 2 => { eph with
      cuc := values.cuc
      ecc := values.ecc
      cus := values.cus
      sqrta := values.sqrta }
  -- BROADCAST ORBIT - 3
  | 3 => { eph with
      toe := { eph.toe with sec := values.toe.sec }
      cic := values.cic
      omg0 := values.omg0
      cis := values.cis }
  -- BROADCAST ORBIT - 4
  | 4 => { eph with
      inc0 := values.inc0
      crc := values.crc
      aop := values.aop
      omgdot := values.omgdot }
  -- BROADCAST ORBIT - 5
  | 5 => { eph with
      idot := values.idot
      codeL2 := values.codeL2
      toe := { eph.toe with week := values.toe.week } }
  -- BROADCAST ORBIT - 6
  | 6 => { eph with
      svhlth := health values.svhlth
      tgd := values.tgd
      iodc := values.iodc }
  -- BROADCAST ORBIT - 7: the entry is valid, update the working variables
  | 7 =>
      let A := eph.sqrta * eph.sqrta
      { eph with
        vflg := 1
        A := A
        n := sqrt (gmEarth / (A * A * A)) + eph.deltan
        sq1e2 := sqrt (1.0 - eph.ecc * eph.ecc)
        omgkdot := eph.omgdot - omegaEarth }
  | _ => eph

/-- The first `lines` lines of a record. -/
def storeLines (sqrt : ℚ → ℚ) (t : DateTime) (g : GpsTime ℚ) (values : Ephem ℚ) :
    Nat → Ephem ℚ → Ephem ℚ
  | 0, eph => eph
  | lines + 1, eph => storeLine sqrt t g values lines (storeLines sqrt t g values lines eph)

/-- The array with whatever lies around it, and the loop variables. -/
structure Reader where
  eph : Int → Nat → Ephem ℚ
  g0 : GpsTime ℚ
  ieph : Int

/-- Check current time of clock. -/
def Reader.checkTime (s : Reader) (g : GpsTime ℚ) : Reader :=
  let g0 := if s.g0.week = -1 then g else s.g0
  let dt := subGpsTime g g0
  if dt > secondsInHour then
    { s with g0 := g, ieph := s.ieph + 1 } -- a new set of ephemerides
  else { s with g0 := g0 }

/-- An entry of the array is replaced. -/
def Reader.update (s : Reader) (sv : Nat) (f : Ephem ℚ → Ephem ℚ) : Reader :=
  { s with eph := fun k i => if k = s.ieph ∧ i = sv then f (s.eph k i) else s.eph k i }

/-- The loop over the records.  It is undefined where it writes outside the array. -/
def readRecords (sqrt : ℚ → ℚ) : List Record → Reader → Option Reader
  | [], s => some s
  | record :: rest, s => do
      let g ← date2gps record.t
      let s := s.checkTime g
      if s.ieph ≥ ephemArraySize then
        return s
      if 0 ≤ record.sv ∧ record.sv < maxSat then
        let s := s.update record.sv.toNat
          (storeLines sqrt record.t g record.values (record.orbits + 1))
        if record.orbits < 7 then return s else readRecords sqrt rest s
      else none

/-- Clear valid flag. -/
def clearFlags (eph : Int → Nat → Ephem ℚ) : Int → Nat → Ephem ℚ :=
  fun k sv =>
    if 0 ≤ k ∧ k < ephemArraySize ∧ sv < maxSat then { eph k sv with vflg := 0 } else eph k sv

/-- The array and the number of sets of ephemerides; `file` is `none` if it cannot be opened. -/
def readRinexNavAll (sqrt : ℚ → ℚ) (eph : Int → Nat → Ephem ℚ) (file : Option (List Record)) :
    Option ((Int → Nat → Ephem ℚ) × Int) :=
  match file with
  | none => some (eph, -1)
  | some records => do
      let s ← readRecords sqrt records
        { eph := clearFlags eph, g0 := { week := -1, sec := 0 }, ieph := 0 }
      return (s.eph, if s.g0.week ≥ 0 then s.ieph + 1 else s.ieph)

/-! ## The table -/

/-- A set has a valid entry. -/
def HasValid (eph : Nat → Ephem ℚ) : Prop :=
  ∃ sv < maxSat, (eph sv).vflg = 1

/-- What the callers can rely on. -/
structure Loaded (eph : Int → Nat → Ephem ℚ) (neph : Int) : Prop where
  unused : ∀ k, neph ≤ k → 0 ≤ k → k < ephemArraySize → ¬ HasValid (eph k)
  tenths : ∀ k, 0 ≤ k → k < ephemArraySize → ∀ sv < maxSat, (eph k sv).vflg = 1 →
    ∃ n : Int, (eph k sv).toc.total = n / 10
  /-- The first set has a valid entry, or no set has. -/
  first : HasValid (eph 0) ∨ ∀ k, 0 ≤ k → k < ephemArraySize → ¬ HasValid (eph k)

section Store

variable {sqrt : ℚ → ℚ} {t : DateTime} {g : GpsTime ℚ} {values eph : Ephem ℚ} {lines : Nat}

theorem storeLine_vflg (line : Nat) :
    (storeLine sqrt t g values line eph).vflg = if line = 7 then 1 else eph.vflg := by
  unfold storeLine
  split <;> first | rfl | (rw [if_neg ‹_›])

theorem storeLine_toc (line : Nat) :
    (storeLine sqrt t g values line eph).toc = if line = 0 then g else eph.toc := by
  unfold storeLine
  split <;> first | rfl | (rw [if_neg ‹_›])

/-- The last line of a record sets the valid flag, and no other line touches it. -/
theorem storeLines_vflg :
    (storeLines sqrt t g values lines eph).vflg = if 8 ≤ lines then 1 else eph.vflg := by
  induction lines with
  | zero => rfl
  | succ lines ih =>
      rw [storeLines, storeLine_vflg, ih]
      split_ifs <;> first | rfl | omega

theorem storeLines_toc :
    (storeLines sqrt t g values lines eph).toc = if 0 < lines then g else eph.toc := by
  induction lines with
  | zero => rfl
  | succ lines ih =>
      rw [storeLines, storeLine_toc, ih]
      split_ifs <;> first | rfl | omega

end Store

section Records

variable {sqrt : ℚ → ℚ} {t : DateTime} {g : GpsTime ℚ} {values : Ephem ℚ} {lines sv : Nat}
  {s s' : Reader}

/-- The array at the start, before the first record. -/
structure Reader.Fresh (s : Reader) : Prop where
  set : s.ieph = 0
  week : s.g0.week = -1
  empty : ∀ k, 0 ≤ k → k < ephemArraySize → ¬ HasValid (s.eph k)

/-- The state of the reader between two records. -/
structure Reader.Reading (s : Reader) : Prop where
  range : 0 ≤ s.ieph
  loaded : Loaded s.eph (s.ieph + 1)
  /-- The first record that is complete makes the first set valid. -/
  first : s.Fresh ∨ HasValid (s.eph 0) ∧ 0 ≤ s.g0.week

/-- A record opens at most one new set, and the first record none. -/
theorem checkTime_cases (week : 0 ≤ g.week) (reading : s.Reading) :
    (s.checkTime g).eph = s.eph ∧ 0 ≤ (s.checkTime g).g0.week ∧
      ((s.checkTime g).ieph = s.ieph ∨
        (s.checkTime g).ieph = s.ieph + 1 ∧ HasValid (s.eph 0)) := by
  unfold Reader.checkTime
  dsimp only
  rcases reading.first with fresh | ⟨valid, positive⟩
  · have same : ¬ subGpsTime g g > secondsInHour := by
      rw [subGpsTime_eq, sub_self, seconds_eq.2.1]
      norm_num
    rw [if_pos fresh.week, if_neg same]
    exact ⟨rfl, week, Or.inl rfl⟩
  · have later : s.g0.week ≠ -1 := by omega
    rw [if_neg later]
    split
    · exact ⟨rfl, week, Or.inr ⟨rfl, valid⟩⟩
    · exact ⟨rfl, positive, Or.inl rfl⟩

theorem update_self (s : Reader) (sv : Nat) (f : Ephem ℚ → Ephem ℚ) :
    (s.update sv f).eph s.ieph sv = f (s.eph s.ieph sv) :=
  if_pos ⟨rfl, rfl⟩

theorem update_of_ne (f : Ephem ℚ → Ephem ℚ) {k : Int} {i : Nat} (other : ¬ (k = s.ieph ∧ i = sv)) :
    (s.update sv f).eph k i = s.eph k i :=
  if_neg other

/-- Storing lines never takes a valid entry away. -/
theorem update_hasValid {k : Int} (valid : HasValid (s.eph k)) :
    HasValid ((s.update sv (storeLines sqrt t g values lines)).eph k) := by
  obtain ⟨i, inside, flag⟩ := valid
  refine ⟨i, inside, ?_⟩
  by_cases entry : k = s.ieph ∧ i = sv
  · obtain ⟨rfl, rfl⟩ := entry
    rw [update_self, storeLines_vflg, flag]
    split <;> rfl
  · rw [update_of_ne _ entry, flag]

/-- Storing lines keeps the table. -/
theorem Loaded.update (loaded : Loaded s.eph (s.ieph + 1)) {n : Int}
    (tenths : g.total = (n : ℚ) / 10)
    (first : HasValid (s.eph 0) ∨ s.ieph = 0) (inside : sv < maxSat) :
    Loaded (s.update sv (storeLines sqrt t g values (lines + 1))).eph (s.ieph + 1) := by
  refine ⟨fun k above nonneg below valid => ?_, fun k nonneg below i bound valid => ?_, ?_⟩
  · obtain ⟨i, bound, flag⟩ := valid
    rw [update_of_ne _ (by omega)] at flag
    exact loaded.unused k above nonneg below ⟨i, bound, flag⟩
  · by_cases entry : k = s.ieph ∧ i = sv
    · obtain ⟨rfl, rfl⟩ := entry
      rw [update_self, storeLines_toc, if_pos (Nat.succ_pos lines)]
      exact ⟨n, tenths⟩
    · rw [update_of_ne _ entry] at valid ⊢
      exact loaded.tenths k nonneg below i bound valid
  · by_cases valid : HasValid ((s.update sv (storeLines sqrt t g values (lines + 1))).eph 0)
    · exact Or.inl valid
    · refine Or.inr fun k nonneg below => ?_
      intro valid
      rcases valid with ⟨i, bound, flag⟩
      have zero : s.ieph = 0 := by
        rcases first with old | zero
        · exact absurd (update_hasValid old) valid
        · exact zero
      have set : k ≠ 0 := by
        intro same
        subst same
        exact valid ⟨i, bound, flag⟩
      rw [update_of_ne _ (by omega)] at flag
      exact loaded.unused k (by omega) nonneg below ⟨i, bound, flag⟩

/-- The reader behind the time of a record. -/
theorem checkTime_loaded {record : Record} {g : GpsTime ℚ} (reading : s.Reading)
    (converted : date2gps record.t = some g) :
    0 ≤ (s.checkTime g).ieph ∧ Loaded (s.checkTime g).eph ((s.checkTime g).ieph + 1) ∧
      0 ≤ (s.checkTime g).g0.week ∧
      (HasValid ((s.checkTime g).eph 0) ∨ (s.checkTime g).ieph = 0) := by
  have year : 1981 ≤ record.t.y := by
    have := record.y.2
    simp only [Record.t]
    omega
  have range := reading.range
  have week := date2gps_week converted year record.d.2.1
  obtain ⟨same, positive, sets⟩ := checkTime_cases week reading
  refine ⟨by omega, ?_, positive, ?_⟩
  · rw [same]
    refine ⟨fun k above => reading.loaded.unused k ?_, reading.loaded.tenths,
      reading.loaded.first⟩
    omega
  · rw [same]
    rcases reading.first with fresh | ⟨valid, -⟩
    · have start := fresh.set
      rcases sets with kept | ⟨next, valid⟩
      · exact Or.inr (by omega)
      · exact Or.inl valid
    · exact Or.inl valid

theorem readRecords_loaded {records : List Record} (reading : s.Reading)
    (result : readRecords sqrt records s = some s') :
    0 ≤ s'.ieph ∧ (s'.ieph < ephemArraySize → Loaded s'.eph (s'.ieph + 1)) ∧
      (s'.Fresh ∨ 0 ≤ s'.g0.week) := by
  induction records generalizing s with
  | nil =>
      obtain rfl : s = s' := by simpa [readRecords] using result
      exact ⟨reading.range, fun _ => reading.loaded, reading.first.imp id And.right⟩
  | cons record rest ih =>
      simp only [readRecords, Option.bind_eq_bind, Option.bind_eq_some_iff] at result
      obtain ⟨g, converted, result⟩ := result
      obtain ⟨n, sec⟩ := record.sec.2
      obtain ⟨total, tenths⟩ := date2gps_tenths converted sec
      obtain ⟨range, loaded, positive, first⟩ := checkTime_loaded reading converted
      generalize s.checkTime g = s₁ at *
      split at result
      · obtain rfl : s₁ = s' := by simpa using result
        exact ⟨range, fun below => by omega, Or.inr positive⟩
      split at result
      · rename_i slot
        have slot' : record.sv.toNat < maxSat := by
          have := slot.2
          simp only [maxSat] at this ⊢
          omega
        have stored : Loaded (s₁.update record.sv.toNat
            (storeLines sqrt record.t g record.values (record.orbits + 1))).eph (s₁.ieph + 1) :=
          loaded.update tenths first slot'
        split at result
        · obtain rfl : s₁.update record.sv.toNat
              (storeLines sqrt record.t g record.values (record.orbits + 1)) = s' := by
            simpa using result
          exact ⟨range, fun _ => stored, Or.inr positive⟩
        · rename_i complete
          refine ih (s := s₁.update record.sv.toNat
            (storeLines sqrt record.t g record.values (record.orbits + 1)))
            ⟨range, stored, Or.inr ⟨?_, positive⟩⟩ result
          rcases first with valid | zero
          · exact update_hasValid valid
          · refine ⟨record.sv.toNat, slot', ?_⟩
            have entry := update_self s₁ record.sv.toNat
              (storeLines sqrt record.t g record.values (record.orbits + 1))
            rw [zero] at entry
            rw [entry, storeLines_vflg, if_pos (by omega)]
      · exact absurd result (by simp)

end Records

/-- **The table that is returned**: the sets behind the last one are empty, the clock times are
whole tenths of a second, and the first set is valid if any is. -/
theorem readRinexNavAll_loaded {sqrt : ℚ → ℚ} {memory eph : Int → Nat → Ephem ℚ} {neph : Int}
    {file : Option (List Record)} (read : readRinexNavAll sqrt memory file = some (eph, neph))
    (some_sets : 1 ≤ neph) (fits : neph ≤ ephemArraySize) : Loaded eph neph := by
  cases file with
  | none =>
      simp only [readRinexNavAll, Option.some.injEq, Prod.mk.injEq] at read
      omega
  | some records =>
      simp only [readRinexNavAll, Option.bind_eq_bind, Option.bind_eq_some_iff, Option.pure_def,
        Option.some.injEq, Prod.mk.injEq] at read
      obtain ⟨s, result, rfl, count⟩ := read
      have empty : ∀ k, 0 ≤ k → k < ephemArraySize → ¬ HasValid (clearFlags memory k) := by
        intro k nonneg below valid
        rcases valid with ⟨sv, inside, flag⟩
        rw [clearFlags, if_pos ⟨nonneg, below, inside⟩] at flag
        exact absurd (show (0 : Int) = 1 from flag) (by decide)
      have start : Reader.Reading
          { eph := clearFlags memory, g0 := { week := -1, sec := 0 }, ieph := 0 } :=
        ⟨le_rfl, ⟨fun k _ nonneg below => empty k nonneg below,
          fun k nonneg below sv inside flag => absurd ⟨sv, inside, flag⟩ (empty k nonneg below),
          Or.inr empty⟩, Or.inl ⟨rfl, rfl, empty⟩⟩
      obtain ⟨range, loaded, week⟩ := readRecords_loaded start result
      have positive : 0 ≤ s.g0.week := by
        rcases week with fresh | positive
        · have := fresh.set
          have := fresh.week
          rw [if_neg (by omega)] at count
          omega
        · exact positive
      rw [if_pos positive] at count
      subst count
      exact loaded (by omega)

end Navisim.Rinex

import Navisim.Rinex.Limits

/-!
# A record cut off by the end of the file

The lines of a record are stored as they come, and the entry becomes valid with the last one.  An
entry that is valid already, from an earlier record of the satellite in the same set, holds
numbers of two records if the file ends in the middle of the second one.
-/

namespace Navisim.Rinex

open Text
open Motion (maxChar)

/-- Every valid entry holds one complete record. -/
def SingleRecords (sqrt : ℚ → ℚ) (records : List Record) (eph : Int → Nat → Ephem ℚ) : Prop :=
  ∀ k sv : Nat, (k : Int) < ephemArraySize → sv < maxSat → (eph k sv).vflg = 1 →
    ∃ record ∈ records, record.Complete ∧ record.sv = sv ∧ eph k sv = record.entry sqrt

/-- A record that lacks lines leaves the valid entries as they were; `memory` is the array in
front of the first record. -/
def CutOffKept (sqrt : ℚ → ℚ) (memory : Int → Nat → Ephem ℚ) (records : List Record)
    (eph : Int → Nat → Ephem ℚ) : Prop :=
  ∀ before record s, records = before ++ [record] → ¬ record.Complete →
    readRecords sqrt before (Reader.start memory) = some s →
      ∀ k sv : Nat, (k : Int) < ephemArraySize → sv < maxSat → (s.eph k sv).vflg = 1 →
        eph k sv = s.eph k sv

/-- The lines of a record hold the same numbers as those of another one. -/
def Record.SameLines (sqrt : ℚ → ℚ) (record other : Record) : Prop :=
  storeLines sqrt record.t record.g record.values (record.orbits + 1) blank =
    storeLines sqrt other.t other.g other.values (record.orbits + 1) blank

/-- A record that lacks lines repeats the last one of its satellite in the same set, if there is
one. -/
def CutOffRepeats (sqrt : ℚ → ℚ) (records : List Record) : Prop :=
  ∀ before record other, records = before ++ [record] → ¬ record.Complete →
    (sets records).length ≤ ephemArraySize →
      lastRecord before ((sets records).length - 1) record.sv.toNat = some other →
        record.SameLines sqrt other

section CutOff

variable {sqrt : ℚ → ℚ} {memory : Int → Nat → Ephem ℚ} {records before : List Record}
  {record other : Record} {s : Reader}

/-- Some lines leave an entry as it is if they hold its numbers. -/
theorem storeLines_entry_iff {lines : Nat} (few : lines < 8) (t t' : DateTime) (g g' : GpsTime ℚ)
    (values values' : Ephem ℚ) :
    storeLines sqrt t g values lines (storeLines sqrt t' g' values' 8 blank) =
        storeLines sqrt t' g' values' 8 blank ↔
      storeLines sqrt t g values lines blank = storeLines sqrt t' g' values' lines blank := by
  interval_cases lines <;>
    simp only [storeLines, storeLine, Ephem.mk.injEq, GpsTime.mk.injEq, true_and, and_true]

/-- The entries behind good records are those of complete records. -/
theorem Reader.After.singleRecords (after : s.After sqrt (clearFlags memory) before)
    (good : ∀ record ∈ before, record.Good) (sub : ∀ record ∈ before, record ∈ records) :
    SingleRecords sqrt records s.eph := by
  intro k sv below slot valid
  rw [after.table] at valid ⊢
  cases last : lastRecord before k sv with
  | none =>
      rw [last, Option.elim_none, clearFlags_vflg memory below slot] at valid
      exact absurd valid (by decide)
  | some record =>
      obtain ⟨inside, same⟩ := lastRecord_eq_some last
      have member := (mem_records_of_getD rfl inside).2
      exact ⟨record, sub record member, (good record member).complete, same, rfl⟩

/-- The table behind a record that lacks lines: they change the entry of its satellite in the
last set. -/
theorem Reader.After.cutOff_table (after : s.After sqrt (clearFlags memory) before)
    (good : ∀ record ∈ before, record.Good) (satellite : record.HasSatellite)
    (f : Ephem ℚ → Ephem ℚ) (k sv : Nat) :
    ((s.checkTime record.g).update record.sv.toNat f).eph k sv =
      if k = (sets (before ++ [record])).length - 1 ∧ sv = record.sv.toNat then f (s.eph k sv)
      else s.eph k sv := by
  obtain ⟨table, clock⟩ := after.checkTime (fun r member => (good r member).month) record
  obtain ⟨init, first, block, last⟩ := exists_last_set (List.concat_ne_nil record before)
  have row := (clock init first block last).1
  have count : (sets (before ++ [record])).length - 1 = init.length := by
    rw [last, List.length_append, List.length_singleton, Nat.add_sub_cancel]
  obtain ⟨index, slot⟩ := Record.sv_toNat satellite
  rw [count]
  split
  · rename_i here
    rcases here with ⟨rfl, rfl⟩
    rw [← row, update_self, table]
  · rename_i other
    rw [update_of_ne _ (by omega), table]

/-- A record that repeats another one keeps the valid entries. -/
theorem Reader.After.cutOff_kept (after : s.After sqrt (clearFlags memory) before)
    (good : ∀ record ∈ before, record.Good) (satellite : record.HasSatellite)
    (incomplete : ¬ record.Complete)
    (fits : (sets (before ++ [record])).length ≤ ephemArraySize)
    (repeats : CutOffRepeats sqrt (before ++ [record])) {k sv : Nat}
    (below : (k : Int) < ephemArraySize) (slot : sv < maxSat) (valid : (s.eph k sv).vflg = 1) :
    ((s.checkTime record.g).update record.sv.toNat
      (storeLines sqrt record.t record.g record.values (record.orbits + 1))).eph k sv =
        s.eph k sv := by
  have few : record.orbits + 1 < 8 := Nat.succ_lt_succ (Nat.not_le.mp incomplete)
  rw [after.cutOff_table good satellite]
  split
  · rename_i here
    cases there : lastRecord before k sv with
    | none =>
        rw [after.table, there, Option.elim_none, clearFlags_vflg memory below slot] at valid
        exact absurd valid (by decide)
    | some other =>
        rw [here.1, here.2] at there
        have same := repeats before record other rfl incomplete fits there
        rw [after.table, here.1, here.2, there, Option.elim_some]
        exact (storeLines_entry_iff few _ _ _ _ _ _).mpr same
  · rfl

/-- A record that keeps the valid entries repeats the one that is there. -/
theorem Reader.After.cutOff_repeats (after : s.After sqrt (clearFlags memory) before)
    (good : ∀ record ∈ before, record.Good) (satellite : record.HasSatellite)
    (read : readRecords sqrt before (Reader.start (clearFlags memory)) = some s)
    (kept : CutOffKept sqrt (clearFlags memory) (before ++ [record])
      ((s.checkTime record.g).update record.sv.toNat
        (storeLines sqrt record.t record.g record.values (record.orbits + 1))).eph) :
    CutOffRepeats sqrt (before ++ [record]) := by
  intro before' record' other split incomplete fits there
  obtain ⟨rfl, one⟩ := List.append_inj' split rfl
  obtain rfl : record = record' := by simpa using one
  have few : record.orbits + 1 < 8 := Nat.succ_lt_succ (Nat.not_le.mp incomplete)
  obtain ⟨index, slot⟩ := Record.sv_toNat satellite
  obtain ⟨init, first, block, last⟩ := exists_last_set (List.concat_ne_nil record before)
  have some_set : 0 < (sets (before ++ [record])).length := by
    rw [last, List.length_append, List.length_singleton]
    exact Nat.succ_pos _
  generalize place : (sets (before ++ [record])).length - 1 = k at there
  have held : s.eph k record.sv.toNat = other.entry sqrt := by
    rw [after.table, there]
    rfl
  have same := kept before record s rfl incomplete read k record.sv.toNat (by omega) slot
    (by rw [held, Record.entry_vflg])
  rw [after.cutOff_table good satellite, if_pos ⟨place.symm, rfl⟩, held] at same
  exact (storeLines_entry_iff few _ _ _ _ _ _).mp same

/-- **A record that lacks lines** leaves the table whole exactly if it repeats the one that is
there. -/
theorem Reader.After.cutOff_iff (after : s.After sqrt (clearFlags memory) before)
    (good : ∀ record ∈ before, record.Good) (satellite : record.HasSatellite)
    (incomplete : ¬ record.Complete)
    (fits : (sets (before ++ [record])).length ≤ ephemArraySize)
    (read : readRecords sqrt before (Reader.start (clearFlags memory)) = some s) :
    SingleRecords sqrt (before ++ [record])
          ((s.checkTime record.g).update record.sv.toNat
            (storeLines sqrt record.t record.g record.values (record.orbits + 1))).eph ∧
        CutOffKept sqrt (clearFlags memory) (before ++ [record])
          ((s.checkTime record.g).update record.sv.toNat
            (storeLines sqrt record.t record.g record.values (record.orbits + 1))).eph ↔
      CutOffRepeats sqrt (before ++ [record]) := by
  constructor
  · exact fun whole => after.cutOff_repeats good satellite read whole.2
  · intro repeats
    have few : record.orbits + 1 < 8 := Nat.succ_lt_succ (Nat.not_le.mp incomplete)
    constructor
    · intro k sv below slot valid
      have old : (s.eph k sv).vflg = 1 := by
        rw [after.cutOff_table good satellite] at valid
        split at valid
        · rwa [storeLines_vflg, if_neg (by omega)] at valid
        · exact valid
      rw [after.cutOff_kept good satellite incomplete fits repeats below slot old]
      exact after.singleRecords good (fun r member => List.mem_append_left _ member) k sv below
        slot old
    · intro before' record' s' split incomplete' read' k sv below slot valid
      obtain ⟨rfl, -⟩ := List.append_inj' split rfl
      obtain rfl := Option.some.inj (read.symm.trans read')
      exact after.cutOff_kept good satellite incomplete fits repeats below slot valid

end CutOff

/-- **No record is mixed**: every valid entry holds one complete record, and a record that is cut
off leaves the valid entries as they were, exactly if the numbers of the records are in range, and
a record that is cut off holds the same numbers as the one it would be stored over. -/
theorem readRinexNavAll_single_iff (sqrt : ℚ → ℚ) (eph : Int → Nat → Ephem ℚ)
    (ionoutc : IonoUtc ℚ) (str file : List Char) :
    (∃ eph' ionoutc' n,
      File.readRinexNavAll sqrt eph ionoutc str (some file) = some (eph', ionoutc', n) ∧
        SingleRecords sqrt (records str file) eph' ∧
        CutOffKept sqrt (clearFlags eph) (records str file) eph') ↔
      InRange (records str file) ∧ CutOffRepeats sqrt (records str file) := by
  rw [exists_read_iff fun eph' _ => SingleRecords sqrt (records str file) eph' ∧
    CutOffKept sqrt (clearFlags eph) (records str file) eph']
  have reads := readRecords_isSome sqrt (clearFlags eph) (course str file)
  cases course str file with
  | full good fits =>
      obtain ⟨s, after, read⟩ := readRecords_full sqrt (clearFlags eph) good fits
      have whole : ∀ before record, records str file = before ++ [record] → record.Complete := by
        intro before record split
        exact (good record (by rw [split]; simp)).complete
      refine iff_of_true ⟨s, read, after.singleRecords good fun r member => member, ?_⟩
        ⟨reads.mp (by rw [read]; rfl), ?_⟩
      · intro before record s' split incomplete
        exact absurd (whole before record split) incomplete
      · intro before record other split incomplete
        exact absurd (whole before record split) incomplete
  | cutOff before record split good month satellite incomplete fits =>
      rw [split] at reads fits ⊢
      obtain ⟨s, after, earlier, read⟩ :=
        readRecords_cutOff sqrt (clearFlags eph) good month satellite incomplete fits
      rw [iff_true_intro (reads.mp (by rw [read]; rfl)), true_and,
        ← after.cutOff_iff good satellite incomplete fits earlier, read]
      simp only [Option.some.injEq, exists_eq_left']
  | tooMany before record rest split good month fits full =>
      rw [split] at reads ⊢
      obtain ⟨s, after, earlier, read⟩ :=
        readRecords_tooMany sqrt (clearFlags eph) good month fits full rest
      have table := (after.checkTime (fun r member => (good r member).month) record).1
      have more := sets_length_cons before record rest
      refine iff_of_true ⟨_, read, ?_, ?_⟩ ⟨reads.mp (by rw [read]; rfl), ?_⟩
      · rw [table]
        exact after.singleRecords good fun r member => List.mem_append_left _ member
      · intro before' record' s' split' incomplete read' k sv _ _ _
        rw [table]
        cases rest using List.reverseRecOn with
        | nil =>
            obtain ⟨rfl, -⟩ := List.append_inj' split' rfl
            rw [Option.some.inj (earlier.symm.trans read')]
        | append_singleton rest last =>
            -- The record is behind the one that stopped the loop.
            rw [← List.cons_append, ← List.append_assoc] at split'
            obtain ⟨rfl, -⟩ := List.append_inj' split' rfl
            obtain ⟨s'', -, earlier', read''⟩ :=
              readRecords_tooMany sqrt (clearFlags eph) good month fits full rest
            obtain rfl := Option.some.inj (earlier.symm.trans earlier')
            rw [← Option.some.inj (read''.symm.trans read'), table]
      · intro before' record' other split' incomplete fits'
        omega
  | outOfRange before record rest split good fits bad =>
      exact outOfRange_iff sqrt _ (fun s => SingleRecords sqrt (records str file) s.eph ∧
        CutOffKept sqrt (clearFlags eph) (records str file) s.eph) _ split good fits bad

/-- A record, and the first line of another one of the same satellite. -/
def mixedFile : List Char :=
  endOfHeader ++ clockLine "01 20 01 01 00 00".toList " 0.100000000000D+01".toList ++ orbitLines ++
    clockLine "01 20 01 01 00 00".toList " 0.200000000000D+01".toList

/-- The entry has the clock bias of the second record and is valid by the first one. -/
theorem readRinexNavAll_mixes :
    ¬ ∃ eph ionoutc n, readFile mixedFile = some (eph, ionoutc, n) ∧
      SingleRecords id (records (List.replicate maxChar nul) mixedFile) eph ∧
      CutOffKept id (clearFlags fun _ _ => blank) (records (List.replicate maxChar nul) mixedFile)
        eph := by
  intro found
  rcases found with ⟨eph, ionoutc, n, read, single, -⟩
  have mixed : (readFile mixedFile).map
      (fun out => ((out.1 0 0).vflg, (out.1 0 0).af0)) = some (1, 2) := by
    decide +kernel
  have sources : (records (List.replicate maxChar nul) mixedFile).all
      (fun record => record.orbits < 7 ∨ (record.entry id).af0 = 1) = true := by
    decide +kernel
  rw [read, Option.map_some, Option.some.injEq, Prod.mk.injEq] at mixed
  obtain ⟨record, member, complete, -, same⟩ := single 0 0 (by decide) (by decide) mixed.1
  have source := List.all_eq_true.mp sources record member
  rw [decide_eq_true_iff] at source
  have bias : (eph 0 0).af0 = 2 := mixed.2
  rcases source with few | one
  · exact absurd complete (Nat.not_le.mpr few)
  · rw [show eph 0 0 = record.entry id from same, one] at bias
    exact absurd bias (by norm_num)

end Navisim.Rinex

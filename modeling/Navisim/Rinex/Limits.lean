import Navisim.Rinex.Table

/-!
# The limits of the table

How many sets of ephemerides `readRinexNavAll` reports, and what it reads and writes on the way.
The set counter moves on before the end of the array is noticed and before a record is known to be
complete, and two numbers of a record are indices as they stand in the file.
-/

namespace Navisim.Rinex

open Text
open Motion (maxChar)

/-! ## The outcome of a course -/

section Outcome

variable {sqrt : ℚ → ℚ} {memory : Int → Nat → Ephem ℚ} {records before rest : List Record}
  {record : Record} {s : Reader}

theorem inRange_append (good : ∀ record ∈ before, record.Good)
    (behind : ∀ mid record rest', rest = mid ++ record :: rest' →
      (sets (before ++ mid)).length ≤ ephemArraySize →
        record.HasMonth ∧ ((sets (before ++ mid ++ [record])).length ≤ ephemArraySize →
          record.HasSatellite)) : InRange (before ++ rest) := by
  intro before' record rest' split fits
  rcases List.append_eq_append_iff.mp split with ⟨mid, rfl, later⟩ | ⟨mid, rfl, later⟩
  · exact behind mid record rest' later fits
  · cases mid with
    | nil =>
        rw [List.append_nil] at behind good
        have here := behind [] record rest' later.symm
        rw [List.append_nil] at here
        exact here fits
    | cons head mid =>
        obtain ⟨rfl, -⟩ := List.cons.inj later
        have member : record ∈ before' ++ record :: mid := by simp
        exact ⟨(good record member).month, fun _ => (good record member).satellite⟩

/-- The numbers are in range on every course but the last. -/
theorem Course.inRange_or (course : Course records) :
    InRange records ∨ ∃ before record rest, records = before ++ record :: rest ∧
      (∀ record ∈ before, record.Good) ∧ (sets before).length ≤ ephemArraySize ∧
      (record.HasMonth → (sets (before ++ [record])).length ≤ ephemArraySize ∧
        ¬ record.HasSatellite) := by
  cases course with
  | full good fits =>
      left
      rw [← List.append_nil records]
      apply inRange_append good
      intro mid record rest split
      exact absurd split (by simp)
  | cutOff before record split good month satellite incomplete fits =>
      left
      rw [split]
      apply inRange_append good
      intro mid record' rest same fits'
      cases mid with
      | nil =>
          obtain ⟨rfl, -⟩ := List.cons.inj same
          exact ⟨month, fun _ => satellite⟩
      | cons head mid => exact absurd (congrArg List.length same) (by simp)
  | tooMany before record rest split good month fits full =>
      left
      rw [split]
      apply inRange_append good
      intro mid record' rest' same fits'
      cases mid with
      | nil =>
          obtain ⟨rfl, -⟩ := List.cons.inj same
          rw [List.append_nil]
          exact ⟨month, fun below => absurd below (by omega)⟩
      | cons head mid =>
          obtain ⟨rfl, -⟩ := List.cons.inj same
          have more := sets_length_cons before record mid
          omega
  | outOfRange before record rest split good fits bad =>
      exact Or.inr ⟨before, record, rest, split, good, fits, bad⟩

theorem not_inRange (split : records = before ++ record :: rest)
    (fits : (sets before).length ≤ ephemArraySize)
    (bad : record.HasMonth → (sets (before ++ [record])).length ≤ ephemArraySize ∧
      ¬ record.HasSatellite) : ¬ InRange records := by
  intro inRange
  obtain ⟨month, satellite⟩ := inRange before record rest split fits
  exact (bad month).2 (satellite (bad month).1)

variable (sqrt memory)

theorem readRecords_full (good : ∀ record ∈ records, record.Good)
    (fits : (sets records).length ≤ ephemArraySize) :
    ∃ s : Reader, s.After sqrt memory records ∧
      readRecords sqrt records (Reader.start memory) = some s := by
  obtain ⟨s, after, reads⟩ := readRecords_good sqrt memory good fits
  have read := reads []
  rw [List.append_nil, readRecords] at read
  exact ⟨s, after, read⟩

/-- A record that is cut off is stored as far as it goes. -/
theorem readRecords_cutOff (good : ∀ record ∈ before, record.Good) (month : record.HasMonth)
    (satellite : record.HasSatellite) (incomplete : ¬ record.Complete)
    (fits : (sets (before ++ [record])).length ≤ ephemArraySize) :
    ∃ s : Reader, s.After sqrt memory before ∧
      readRecords sqrt before (Reader.start memory) = some s ∧
      readRecords sqrt (before ++ [record]) (Reader.start memory) =
        some ((s.checkTime record.g).update record.sv.toNat
          (storeLines sqrt record.t record.g record.values (record.orbits + 1))) := by
  have shorter := (sets_length_concat before record).1
  obtain ⟨s, after, reads⟩ := readRecords_good sqrt memory good (by omega)
  have read := reads []
  rw [List.append_nil, readRecords] at read
  refine ⟨s, after, read, ?_⟩
  rw [reads, after.readRecords_cons fun r member => (good r member).month,
    if_neg (not_not.mpr month), if_neg (by omega), if_neg (not_not.mpr satellite)]
  exact if_neg incomplete

/-- A record behind the end of the array stops the loop. -/
theorem readRecords_tooMany (good : ∀ record ∈ before, record.Good) (month : record.HasMonth)
    (fits : (sets before).length ≤ ephemArraySize)
    (full : ephemArraySize < (sets (before ++ [record])).length) (rest : List Record) :
    ∃ s : Reader, s.After sqrt memory before ∧
      readRecords sqrt before (Reader.start memory) = some s ∧
      readRecords sqrt (before ++ record :: rest) (Reader.start memory) =
        some (s.checkTime record.g) := by
  obtain ⟨s, after, reads⟩ := readRecords_good sqrt memory good fits
  have read := reads []
  rw [List.append_nil, readRecords] at read
  refine ⟨s, after, read, ?_⟩
  rw [reads, after.readRecords_cons fun r member => (good r member).month,
    if_neg (not_not.mpr month), if_pos full]

theorem readRecords_outOfRange (good : ∀ record ∈ before, record.Good)
    (fits : (sets before).length ≤ ephemArraySize)
    (bad : record.HasMonth → (sets (before ++ [record])).length ≤ ephemArraySize ∧
      ¬ record.HasSatellite) (rest : List Record) :
    readRecords sqrt (before ++ record :: rest) (Reader.start memory) = none := by
  obtain ⟨s, after, reads⟩ := readRecords_good sqrt memory good fits
  rw [reads, after.readRecords_cons fun r member => (good r member).month]
  by_cases month : record.HasMonth
  · obtain ⟨below, satellite⟩ := bad month
    rw [if_neg (not_not.mpr month), if_neg (by omega), if_pos satellite]
  · rw [if_pos month]

/-- Nothing is known of a reader that meets a number out of range. -/
theorem outOfRange_iff (property : Reader → Prop) (conditions : Prop)
    (split : records = before ++ record :: rest) (good : ∀ record ∈ before, record.Good)
    (fits : (sets before).length ≤ ephemArraySize)
    (bad : record.HasMonth → (sets (before ++ [record])).length ≤ ephemArraySize ∧
      ¬ record.HasSatellite) :
    (∃ s, readRecords sqrt records (Reader.start memory) = some s ∧ property s) ↔
      InRange records ∧ conditions := by
  refine iff_of_false ?_ fun inRange => not_inRange split fits bad inRange.1
  intro found
  rcases found with ⟨s, read, -⟩
  rw [split, readRecords_outOfRange sqrt memory good fits bad rest] at read
  cases read

/-- The records are read to an end exactly if their numbers are in range. -/
theorem readRecords_isSome (course : Course records) :
    (readRecords sqrt records (Reader.start memory)).isSome = true ↔ InRange records := by
  rcases course.inRange_or with inRange | ⟨before, record, rest, split, good, fits, bad⟩
  · refine iff_of_true ?_ inRange
    cases course with
    | full good fits =>
        obtain ⟨s, -, read⟩ := readRecords_full sqrt memory good fits
        rw [read]
        rfl
    | cutOff before record split good month satellite incomplete fits =>
        subst split
        obtain ⟨s, -, -, read⟩ :=
          readRecords_cutOff sqrt memory good month satellite incomplete fits
        rw [read]
        rfl
    | tooMany before record rest split good month fits full =>
        subst split
        obtain ⟨s, -, -, read⟩ := readRecords_tooMany sqrt memory good month fits full rest
        rw [read]
        rfl
    | outOfRange before record rest split good fits bad =>
        exact absurd inRange (not_inRange split fits bad)
  · refine iff_of_false ?_ (not_inRange split fits bad)
    rw [split, readRecords_outOfRange sqrt memory good fits bad]
    exact Bool.false_ne_true

end Outcome

/-! ## Files -/

/-- The number of sets of ephemerides, as it is returned. -/
def Reader.count (s : Reader) : Int :=
  if s.g0.week ≥ 0 then s.ieph + 1 else s.ieph

section Files

variable {sqrt : ℚ → ℚ} {eph : Int → Nat → Ephem ℚ} {ionoutc : IonoUtc ℚ} {str file : List Char}

theorem recordsOf_completeButLast (strs : List (List Char)) :
    CompleteButLast (recordsOf strs) := by
  induction strs using recordsOf.induct with
  | case1 =>
      intro record member
      rw [recordsOf] at member
      cases member
  | case2 str rest ih =>
      intro record member
      rw [recordsOf] at member
      by_cases last : recordsOf (rest.drop 7) = []
      · rw [last] at member
        cases member
      · rw [List.dropLast_cons_of_ne_nil last] at member
        rcases List.mem_cons.mp member with rfl | later
        · have more : rest.drop 7 ≠ [] := by
            intro empty
            rw [empty, recordsOf] at last
            exact last rfl
          have length := List.length_pos_of_ne_nil more
          rw [List.length_drop] at length
          exact (List.length_take_of_le (by omega)).ge
        · exact ih record later

/-- The loop over the records of a file takes one of the courses. -/
theorem course (str file : List Char) : Course (records str file) :=
  course_of_completeButLast (recordsOf_completeButLast _)

/-- What is returned for a file is what is left of the reader behind its records. -/
theorem exists_read_iff (property : (Int → Nat → Ephem ℚ) → Int → Prop) :
    (∃ eph' ionoutc' n,
      File.readRinexNavAll sqrt eph ionoutc str (some file) = some (eph', ionoutc', n) ∧
        property eph' n) ↔
      ∃ s, readRecords sqrt (records str file) (Reader.start (clearFlags eph)) = some s ∧
        property s.eph s.count := by
  have refined := readRinexNavAll_records sqrt eph ionoutc str file
  have blocks : readRinexNavAll sqrt eph (some (records str file)) =
      (readRecords sqrt (records str file) (Reader.start (clearFlags eph))).map
        fun s => (s.eph, s.count) := by
    rw [Option.map_eq_bind]
    rfl
  rw [blocks] at refined
  constructor
  · intro found
    rcases found with ⟨eph', ionoutc', n, read, holds⟩
    rw [read, Option.map_some] at refined
    obtain ⟨s, reads, same⟩ := Option.map_eq_some_iff.mp refined.symm
    obtain ⟨rfl, rfl⟩ := Prod.mk.inj same
    exact ⟨s, reads, holds⟩
  · intro found
    rcases found with ⟨s, reads, holds⟩
    rw [reads, Option.map_some] at refined
    obtain ⟨⟨eph', ionoutc', n⟩, read, same⟩ := Option.map_eq_some_iff.mp refined
    obtain ⟨rfl, rfl⟩ := Prod.mk.inj same
    exact ⟨_, ionoutc', _, read, holds⟩

end Files

/-! ## The number of sets -/

section Valid

variable {sqrt : ℚ → ℚ} {memory : Int → Nat → Ephem ℚ} {records before : List Record}
  {record : Record} {s : Reader} {k sv : Nat}

theorem clearFlags_vflg (memory : Int → Nat → Ephem ℚ) (below : (k : Int) < ephemArraySize)
    (slot : sv < maxSat) : (clearFlags memory k sv).vflg = 0 := by
  rw [clearFlags, if_pos ⟨Int.natCast_nonneg k, below, slot⟩]

theorem lastRecord_eq_none :
    lastRecord records k sv = none ↔ ∀ record ∈ (sets records).getD k [], record.sv ≠ sv := by
  rw [lastRecord, List.getLast?_eq_none_iff, List.filter_eq_nil_iff]
  simp

theorem lastRecord_eq_some (last : lastRecord records k sv = some record) :
    record ∈ (sets records).getD k [] ∧ record.sv = sv := by
  have member := List.mem_of_getLast? last
  simpa using member

/-- An entry is valid if its set has a record of its satellite. -/
theorem Reader.After.vflg_iff (after : s.After sqrt (clearFlags memory) records)
    (below : (k : Int) < ephemArraySize) (slot : sv < maxSat) :
    (s.eph k sv).vflg = 1 ↔ ∃ record ∈ (sets records).getD k [], record.sv = sv := by
  rw [after.table]
  cases last : lastRecord records k sv with
  | none =>
      have none_there := lastRecord_eq_none.mp last
      rw [Option.elim_none, clearFlags_vflg memory below slot]
      refine iff_of_false (by decide) ?_
      intro found
      rcases found with ⟨record, member, same⟩
      exact none_there record member same
  | some record =>
      rw [Option.elim_some, Record.entry_vflg]
      exact iff_of_true rfl ⟨record, lastRecord_eq_some last⟩

theorem mem_records_of_getD {set : List Record} (here : (sets records).getD k [] = set)
    (inside : record ∈ set) : k < (sets records).length ∧ record ∈ records := by
  subst here
  by_cases less : k < (sets records).length
  · rw [List.getD_eq_getElem _ _ less] at inside
    exact ⟨less, mem_of_mem_cut (List.getElem_mem less) inside⟩
  · rw [List.getD_eq_default _ _ (by omega)] at inside
    cases inside

/-- The sets of the records are those with a valid entry. -/
theorem Reader.After.hasValid_iff (after : s.After sqrt (clearFlags memory) records)
    (good : ∀ record ∈ records, record.Good) (below : (k : Int) < ephemArraySize) :
    HasValid (s.eph k) ↔ k < (sets records).length := by
  constructor
  · intro valid
    rcases valid with ⟨sv, slot, flag⟩
    obtain ⟨record, member, -⟩ := (after.vflg_iff below slot).mp flag
    exact (mem_records_of_getD rfl member).1
  · intro less
    have set := ne_nil_of_mem_cut (List.getElem_mem less)
    obtain ⟨record, rest, first⟩ := List.exists_cons_of_ne_nil set
    have member : record ∈ (sets records).getD k [] := by
      rw [List.getD_eq_getElem _ _ less, first]
      exact List.mem_cons_self
    obtain ⟨same, slot⟩ :=
      Record.sv_toNat (good record (mem_records_of_getD rfl member).2).satellite
    exact ⟨record.sv.toNat, slot, (after.vflg_iff below slot).mpr ⟨record, member, same.symm⟩⟩

/-- A record that lacks lines leaves the valid entries of the others. -/
theorem update_hasValid_iff {lines : Nat} (few : lines < 8) (k : Int) :
    HasValid ((s.update sv (storeLines sqrt record.t record.g record.values lines)).eph k) ↔
      HasValid (s.eph k) := by
  have flags : ∀ i,
      ((s.update sv (storeLines sqrt record.t record.g record.values lines)).eph k i).vflg =
        (s.eph k i).vflg := by
    intro i
    by_cases here : k = s.ieph ∧ i = sv
    · rcases here with ⟨rfl, rfl⟩
      rw [update_self, storeLines_vflg, if_neg (by omega)]
    · rw [update_of_ne _ here]
  simp only [HasValid, flags]

/-- The number of sets that is returned behind some records and one more. -/
theorem Reader.After.count_concat (after : s.After sqrt memory before)
    (months : ∀ record ∈ before, record.HasMonth) (month : record.HasMonth) :
    (s.checkTime record.g).count = (sets (before ++ [record])).length := by
  obtain ⟨init, first, block, last⟩ :=
    exists_last_set (List.concat_ne_nil record before)
  obtain ⟨index, time⟩ := (after.checkTime months record).2 init first block last
  have member := mem_of_last_set last
  have week : 0 ≤ first.g.week := by
    rcases List.mem_append.mp member with old | new
    · exact Record.week_nonneg (months first old)
    · obtain rfl := List.mem_singleton.mp new
      exact Record.week_nonneg month
  rw [Reader.count, time, if_pos week, index, last, List.length_append,
    List.length_singleton]
  push_cast
  rfl

theorem Reader.After.count (after : s.After sqrt memory records)
    (months : ∀ record ∈ records, record.HasMonth) : s.count = (sets records).length := by
  by_cases empty : records = []
  · subst empty
    obtain ⟨zero, week⟩ := after.fresh rfl
    rw [Reader.count, week, if_neg (by decide), zero, sets_nil]
    rfl
  · obtain ⟨init, first, block, last⟩ := exists_last_set empty
    obtain ⟨index, time⟩ := after.clock init first block last
    have member := mem_of_last_set last
    rw [Reader.count, time, if_pos (Record.week_nonneg (months first member)), index, last,
      List.length_append, List.length_singleton]
    push_cast
    rfl

end Valid

/-- Every set has a valid entry, and there are not too many. -/
def WellCounted (eph : Int → Nat → Ephem ℚ) (n : Int) : Prop :=
  n ≤ ephemArraySize ∧ ∀ k, 0 ≤ k → k < n → HasValid (eph k)

/-- Every set has a complete record. -/
def EachComplete (records : List Record) : Prop :=
  ∀ set ∈ sets records, ∃ record ∈ set, record.Complete

section Count

variable {sqrt : ℚ → ℚ} {memory : Int → Nat → Ephem ℚ} {records before : List Record}
  {record : Record} {s : Reader}

theorem eachComplete_of_complete (complete : ∀ record ∈ records, record.Complete) :
    EachComplete records := by
  intro set member
  obtain ⟨record, rest, first⟩ := List.exists_cons_of_ne_nil (ne_nil_of_mem_cut member)
  have inside : record ∈ set := by
    rw [first]
    exact List.mem_cons_self
  exact ⟨record, inside, complete record (mem_of_mem_cut member inside)⟩

/-- A record that lacks lines leaves every set with a complete one if it does not open a set. -/
theorem eachComplete_concat_iff (complete : ∀ record ∈ before, record.Complete)
    (incomplete : ¬ record.Complete) :
    EachComplete (before ++ [record]) ↔
      (sets (before ++ [record])).length ≤ (sets before).length := by
  by_cases empty : before = []
  · subst empty
    rw [EachComplete, List.nil_append, sets_singleton, sets_nil]
    refine iff_of_false ?_ (by simp)
    intro each
    obtain ⟨r, inside, lines⟩ := each [record] List.mem_cons_self
    obtain rfl := List.mem_singleton.mp inside
    exact incomplete lines
  · obtain ⟨init, first, block, last⟩ := exists_last_set empty
    have each : ∀ set ∈ init ++ [first :: block], ∃ r ∈ set, r.Complete := by
      rw [← last]
      exact eachComplete_of_complete complete
    rw [EachComplete, sets_concat last, last]
    split
    · refine iff_of_false ?_ (by simp)
      intro all
      obtain ⟨r, inside, lines⟩ := all [record] (by simp)
      obtain rfl := List.mem_singleton.mp inside
      exact incomplete lines
    · refine iff_of_true ?_ (by simp)
      intro set member
      rcases List.mem_append.mp member with old | new
      · exact each set (List.mem_append_left _ old)
      · obtain rfl := List.mem_singleton.mp new
        exact ⟨first, List.mem_cons_self, complete first (mem_of_last_set last)⟩

/-- The table behind good records is well counted. -/
theorem Reader.After.wellCounted_iff (after : s.After sqrt (clearFlags memory) records)
    (good : ∀ record ∈ records, record.Good) {n : Nat} (fits : (n : Int) ≤ ephemArraySize) :
    WellCounted s.eph n ↔ n ≤ (sets records).length := by
  constructor
  · intro counted
    by_contra more
    have valid := counted.2 (sets records).length (Int.natCast_nonneg _) (by omega)
    exact absurd ((after.hasValid_iff good (by omega)).mp valid) (lt_irrefl _)
  · intro few
    refine ⟨fits, fun k nonneg below => ?_⟩
    obtain ⟨k, rfl⟩ := Int.eq_ofNat_of_zero_le nonneg
    exact (after.hasValid_iff good (by omega)).mpr (by omega)

end Count

/-- **The number of sets** is at most `EPHEM_ARRAY_SIZE`, and each set has a valid entry, exactly
if the numbers of the records are in range, they open no more sets than that, and each set has a
complete record. -/
theorem readRinexNavAll_wellCounted_iff (sqrt : ℚ → ℚ) (eph : Int → Nat → Ephem ℚ)
    (ionoutc : IonoUtc ℚ) (str file : List Char) :
    (∃ eph' ionoutc' n,
      File.readRinexNavAll sqrt eph ionoutc str (some file) = some (eph', ionoutc', n) ∧
        WellCounted eph' n) ↔
      InRange (records str file) ∧ (sets (records str file)).length ≤ ephemArraySize ∧
        EachComplete (records str file) := by
  rw [exists_read_iff WellCounted]
  have reads := readRecords_isSome sqrt (clearFlags eph) (course str file)
  cases course str file with
  | full good fits =>
      obtain ⟨s, after, read⟩ := readRecords_full sqrt (clearFlags eph) good fits
      refine iff_of_true ⟨s, read, ?_⟩ ⟨reads.mp (by rw [read]; rfl), fits,
        eachComplete_of_complete fun r member => (good r member).complete⟩
      rw [after.count fun r member => (good r member).month]
      exact (after.wellCounted_iff good fits).mpr le_rfl
  | cutOff before record split good month satellite incomplete fits =>
      rw [split] at reads fits ⊢
      obtain ⟨s, after, -, read⟩ :=
        readRecords_cutOff sqrt (clearFlags eph) good month satellite incomplete fits
      have few : record.orbits + 1 < 8 := Nat.succ_lt_succ (Nat.not_le.mp incomplete)
      have months : ∀ r ∈ before, r.HasMonth := fun r member => (good r member).month
      have table := (after.checkTime months record).1
      rw [eachComplete_concat_iff (fun r member => (good r member).complete) incomplete, read]
      simp only [Option.some.injEq, exists_eq_left']
      rw [iff_true_intro (reads.mp (by rw [read]; rfl)), iff_true_intro fits, true_and, true_and,
        ← after.wellCounted_iff good fits, ← after.count_concat months month]
      simp only [WellCounted, update_hasValid_iff few, table]
      rfl
  | tooMany before record rest split good month fits full =>
      rw [split] at reads ⊢
      obtain ⟨s, after, -, read⟩ :=
        readRecords_tooMany sqrt (clearFlags eph) good month fits full rest
      have more := sets_length_cons before record rest
      refine iff_of_false ?_ fun conditions => absurd conditions.2.1 (by omega)
      intro found
      rcases found with ⟨s', read', counted⟩
      obtain rfl := Option.some.inj (read.symm.trans read')
      have above := counted.1
      rw [after.count_concat (fun r member => (good r member).month) month] at above
      omega
  | outOfRange before record rest split good fits bad =>
      exact outOfRange_iff sqrt _ (fun s => WellCounted s.eph s.count) _ split good fits bad

/-- The last line of a header. -/
def endOfHeader : List Char :=
  List.replicate 60 ' ' ++ "END OF HEADER\n".toList

/-- The first line of a record, with its satellite, date and clock bias. -/
def clockLine (epoch af0 : List Char) : List Char :=
  epoch ++ "  0.0".toList ++ af0 ++ " 0.000000000000D+00 0.000000000000D+00\n".toList

def orbitLine : List Char :=
  "    0.100000000000D+01 0.100000000000D+01 0.100000000000D+01 0.100000000000D+01\n".toList

def orbitLines : List Char :=
  (List.replicate 7 orbitLine).flatten

/-- Nothing is known of ionosphere and UTC. -/
def noIonoUtc : IonoUtc ℚ :=
  { enable := 0, vflg := 0, alpha0 := 0, alpha1 := 0, alpha2 := 0, alpha3 := 0, beta0 := 0,
    beta1 := 0, beta2 := 0, beta3 := 0, A0 := 0, A1 := 0, dtls := 0, tot := 0, wnt := 0,
    dtlsf := 0, dn := 0, wnlsf := 0 }

/-- The reader on a file, with an empty buffer and an empty array. -/
def readFile (file : List Char) : Option ((Int → Nat → Ephem ℚ) × IonoUtc ℚ × Int) :=
  File.readRinexNavAll id (fun _ _ => blank) noIonoUtc (List.replicate maxChar nul) (some file)

/-- Fourteen records, a day apart. -/
def fourteenSets : List Char :=
  (List.range 14).flatMap fun k =>
    clockLine ("01 20 01 ".toList ++ [Nat.digitChar ((k + 1) / 10), Nat.digitChar ((k + 1) % 10)] ++
      " 00 00".toList) " 0.100000000000D-03".toList ++ orbitLines

/-- A file that ends in its first record has a set without an entry, and of fourteen sets all are
counted. -/
theorem readRinexNavAll_miscounts :
    (¬ ∃ eph ionoutc n,
      readFile (endOfHeader ++
          clockLine "01 20 01 01 00 00".toList " 0.100000000000D-03".toList) =
        some (eph, ionoutc, n) ∧ WellCounted eph n) ∧
      ¬ ∃ eph ionoutc n,
        readFile (endOfHeader ++ fourteenSets) = some (eph, ionoutc, n) ∧ WellCounted eph n := by
  have first : (readFile (endOfHeader ++
      clockLine "01 20 01 01 00 00".toList " 0.100000000000D-03".toList)).map
      (fun out => (out.2.2, (List.range maxSat).all fun sv => (out.1 0 sv).vflg == 0)) =
        some (1, true) := by
    decide +kernel
  have second : (readFile (endOfHeader ++ fourteenSets)).map (fun out => out.2.2) = some 14 := by
    decide +kernel
  constructor
  · intro found
    rcases found with ⟨eph, ionoutc, n, read, counted⟩
    rw [read, Option.map_some, Option.some.injEq, Prod.mk.injEq, List.all_eq_true] at first
    obtain ⟨sv, slot, flag⟩ := counted.2 0 le_rfl (by rw [show n = 1 from first.1]; decide)
    have zero := first.2 sv (List.mem_range.mpr slot)
    dsimp only at zero
    rw [flag] at zero
    exact absurd zero (by decide)
  · intro found
    rcases found with ⟨eph, ionoutc, n, read, counted⟩
    rw [read, Option.map_some, Option.some.injEq] at second
    have above := counted.1
    rw [show n = 14 from second] at above
    exact absurd above (by decide)

/-! ## The sets -/

/-- **The sets of a file** of complete records, with numbers in range: the table holds the last
record of each satellite in each set, no other entry is valid, and the number of sets is
returned. -/
theorem readRinexNavAll_sets (sqrt : ℚ → ℚ) (eph : Int → Nat → Ephem ℚ) (ionoutc : IonoUtc ℚ)
    (str file : List Char) (good : ∀ record ∈ records str file, record.Good)
    (fits : (sets (records str file)).length ≤ ephemArraySize) :
    ∃ eph' ionoutc' n,
      File.readRinexNavAll sqrt eph ionoutc str (some file) = some (eph', ionoutc', n) ∧
        n = (sets (records str file)).length ∧
        ∀ k sv : Nat, (k : Int) < ephemArraySize → sv < maxSat →
          ((eph' k sv).vflg = 1 ↔
              ∃ record ∈ (sets (records str file)).getD k [], record.sv = sv) ∧
            ∀ record, lastRecord (records str file) k sv = some record →
              eph' k sv = record.entry sqrt := by
  apply (exists_read_iff fun eph' n => n = (sets (records str file)).length ∧
    ∀ k sv : Nat, (k : Int) < ephemArraySize → sv < maxSat →
      ((eph' k sv).vflg = 1 ↔
          ∃ record ∈ (sets (records str file)).getD k [], record.sv = sv) ∧
        ∀ record, lastRecord (records str file) k sv = some record →
          eph' k sv = record.entry sqrt).mpr
  obtain ⟨s, after, read⟩ := readRecords_full sqrt (clearFlags eph) good fits
  refine ⟨s, read, after.count fun r member => (good r member).month, fun k sv below slot =>
    ⟨after.vflg_iff below slot, fun record last => ?_⟩⟩
  rw [after.table, last]
  rfl

/-- Two records of a satellite an hour apart, and one of another satellite a minute later. -/
def threeRecords : List Char :=
  endOfHeader ++ clockLine "01 20 01 01 00 00".toList " 0.100000000000D-03".toList ++
    orbitLines ++ clockLine "01 20 01 01 01 00".toList " 0.200000000000D-03".toList ++
    orbitLines ++ clockLine "02 20 01 01 01 01".toList " 0.300000000000D-03".toList ++ orbitLines

theorem readRinexNavAll_sets_three :
    ∃ eph ionoutc, readFile threeRecords = some (eph, ionoutc, 2) ∧ (eph 1 1).vflg = 1 := by
  have good : ∀ record ∈ records (List.replicate maxChar nul) threeRecords, record.Good := by
    have all : (records (List.replicate maxChar nul) threeRecords).all fun record =>
        record.HasMonth ∧ record.HasSatellite ∧ record.Complete := by
      decide +kernel
    intro record member
    have one := List.all_eq_true.mp all record member
    rw [decide_eq_true_iff] at one
    exact ⟨one.1, one.2.1, one.2.2⟩
  have two : (sets (records (List.replicate maxChar nul) threeRecords)).length = 2 := by
    decide +kernel
  have member : ∃ record ∈ (sets (records (List.replicate maxChar nul) threeRecords)).getD 1 [],
      record.sv = 1 := by
    have any : ((sets (records (List.replicate maxChar nul) threeRecords)).getD 1 []).any
        fun record => record.sv = 1 := by
      decide +kernel
    obtain ⟨record, inside, same⟩ := List.any_eq_true.mp any
    exact ⟨record, inside, of_decide_eq_true same⟩
  obtain ⟨eph, ionoutc, n, read, count, table⟩ :=
    readRinexNavAll_sets id (fun _ _ => blank) noIonoUtc (List.replicate maxChar nul) threeRecords
      good (by rw [two]; decide)
  rw [two] at count
  subst count
  exact ⟨eph, ionoutc, read, (table 1 1 (by decide) (by decide)).1.mpr member⟩

/-! ## The indices -/

/-- An element that is read or written. -/
inductive Access
  /-- `doy[index]` -/
  | month (index : Int)
  /-- `eph[k][sv]` -/
  | entry (k sv : Int)

/-- The element is one of its array. -/
def Access.Inside : Access → Prop
  | .month index => 0 ≤ index ∧ index < doy.length
  | .entry k sv => (0 ≤ k ∧ k < ephemArraySize) ∧ 0 ≤ sv ∧ sv < maxSat

/-- The elements that a line reads and writes. -/
def Scan.accesses (s : Scan) : Taken → List Access
  | .header _ => []
  | .clock record =>
      .month (record.t.m - 1) ::
        match date2gps record.t with
        | none => []
        | some g =>
            if (s.reader.checkTime g).ieph ≥ ephemArraySize then []
            else [.entry (s.reader.checkTime g).ieph record.sv]
  | .orbit _ _ => [.entry s.reader.ieph s.sv]

/-- The elements that the loops over the lines read and write, up to the first one that is
outside. -/
def Scan.readAccesses (sqrt : ℚ → ℚ) : List (List Char) → Scan → List Access
  | [], _ => []
  | str :: rest, s =>
      match s.place with
      | none => []
      | some place =>
          s.accesses (taken place str) ++
            match s.step sqrt (taken place str) with
            | none => []
            | some s => Scan.readAccesses sqrt rest s

/-- The elements that `readRinexNavAll` reads and writes. -/
def File.accesses (sqrt : ℚ → ℚ) (eph : Int → Nat → Ephem ℚ) (ionoutc : IonoUtc ℚ)
    (str file : List Char) : List Access :=
  -- Clear valid flag
  ((List.range ephemArraySize.toNat).flatMap fun k : Nat =>
      (List.range maxSat).map fun sv : Nat => Access.entry k sv) ++
    (start eph ionoutc).readAccesses sqrt (lines maxChar str file)

/-- The indices that were checked stay inside. -/
structure Scan.Checked (s : Scan) : Prop where
  nonneg : 0 ≤ s.reader.ieph
  entry : ∀ line, s.place = some (.record (line + 1)) →
    s.reader.ieph < ephemArraySize ∧ s.sv < maxSat

section Indices

variable {sqrt : ℚ → ℚ} {s s' : Scan}

theorem checkTime_ieph (reader : Reader) (g : GpsTime ℚ) :
    (reader.checkTime g).ieph = reader.ieph ∨ (reader.checkTime g).ieph = reader.ieph + 1 := by
  unfold Reader.checkTime
  dsimp only
  generalize (if reader.g0.week = -1 then g else reader.g0) = g0
  by_cases late : subGpsTime g g0 > secondsInHour
  · rw [if_pos late]
    exact Or.inr rfl
  · rw [if_neg late]
    exact Or.inl rfl

theorem inside_month_iff (m : Int) :
    (Access.month (m - 1)).Inside ↔ (daysBefore m).isSome = true := by
  have size : doy.length = 12 := rfl
  rw [daysBefore_isSome, Access.Inside, size]
  omega

theorem Scan.Checked.header (checked : s.Checked) (here : s.place = some .header) (h : Header)
    (next : s.step sqrt (.header h) = some s') : s'.Checked := by
  rw [step] at next
  split at next
  · obtain rfl := Option.some.inj next
    exact ⟨checked.nonneg, fun line place => absurd place (by simp [endHeader])⟩
  · obtain rfl := Option.some.inj next
    refine ⟨by rw [Header.store_reader]; exact checked.nonneg, fun line place => ?_⟩
    rw [Header.store_place, here] at place
    exact absurd place (by simp)

/-- The first line of a record goes on exactly if month and satellite are in range. -/
theorem Scan.Checked.clock (checked : s.Checked) (record : Record) :
    ((s.step sqrt (.clock record)).isSome = true ↔
        ∀ access ∈ s.accesses (.clock record), access.Inside) ∧
      ∀ s', s.step sqrt (.clock record) = some s' → s'.Checked := by
  have month := inside_month_iff record.t.m
  rw [step, accesses, List.forall_mem_cons, month]
  have converted : (date2gps record.t).isSome = (daysBefore record.t.m).isSome := by
    rw [date2gps, Option.isSome_map]
  rw [← converted]
  have nonneg := checked.nonneg
  cases date2gps record.t with
  | none => exact ⟨by simp, fun s' next => by cases next⟩
  | some g =>
      have index := checkTime_ieph s.reader g
      simp only [Option.bind_eq_bind, Option.bind_some, Option.pure_def, Option.isSome_some,
        true_and]
      by_cases full : (s.reader.checkTime g).ieph ≥ ephemArraySize
      · rw [if_pos full, if_pos full]
        refine ⟨iff_of_true rfl fun access member => absurd member List.not_mem_nil,
          fun s' next => ?_⟩
        obtain rfl := Option.some.inj next
        exact ⟨show 0 ≤ (s.reader.checkTime g).ieph by omega, fun line place => by cases place⟩
      · rw [if_neg full, if_neg full, List.forall_mem_singleton]
        by_cases slot : 0 ≤ record.sv ∧ record.sv < maxSat
        · rw [if_pos slot]
          refine ⟨iff_of_true rfl ⟨⟨by omega, by omega⟩, slot⟩, fun s' next => ?_⟩
          obtain rfl := Option.some.inj next
          refine ⟨show 0 ≤ (s.reader.checkTime g).ieph by omega, fun line _ => ⟨?_, ?_⟩⟩
          · exact not_le.mp full
          · exact (Int.toNat_lt slot.1).mpr slot.2
        · rw [if_neg slot]
          exact ⟨iff_of_false Bool.false_ne_true fun inside => slot inside.2,
            fun s' next => by cases next⟩

/-- An orbit line writes to the entry that the first line of the record has found. -/
theorem Scan.Checked.orbit (sqrt : ℚ → ℚ) (checked : s.Checked) {line : Nat}
    (here : s.place = some (.record (line + 1))) (values : Ephem ℚ) :
    (∀ access ∈ s.accesses (.orbit (line + 1) values), access.Inside) ∧
      ∀ s', s.step sqrt (.orbit (line + 1) values) = some s' → s'.Checked := by
  obtain ⟨row, slot⟩ := checked.entry line here
  have nonneg := checked.nonneg
  constructor
  · intro access member
    obtain rfl := List.mem_singleton.mp member
    exact ⟨⟨nonneg, row⟩, Int.natCast_nonneg _, Int.ofNat_lt.mpr slot⟩
  · intro s' next
    obtain rfl := Option.some.inj next
    exact ⟨nonneg, fun _ _ => ⟨row, slot⟩⟩

/-- A line goes on exactly if what it reads and writes is inside. -/
theorem Scan.Checked.step_inside (sqrt : ℚ → ℚ) {place : Place} (checked : s.Checked)
    (here : s.place = some place)
    (str : List Char) :
    ((s.step sqrt (taken place str)).isSome = true ↔
        ∀ access ∈ s.accesses (taken place str), access.Inside) ∧
      ∀ s', s.step sqrt (taken place str) = some s' → s'.Checked := by
  match place with
  | .header =>
      refine ⟨iff_of_true ?_ fun access member => absurd member List.not_mem_nil,
        fun s' next => checked.header here _ next⟩
      rw [taken, step]
      split <;> rfl
  | .record 0 => exact checked.clock _
  | .record (line + 1) =>
      obtain ⟨inside, next⟩ := Checked.orbit sqrt checked here (lineValues (line + 1) str)
      exact ⟨iff_of_true rfl inside, next⟩

/-- The lines are read to an end exactly if what they read and write is inside. -/
theorem Scan.Checked.read_inside (checked : s.Checked) (strs : List (List Char)) :
    (s.read sqrt strs).isSome = true ↔ ∀ access ∈ s.readAccesses sqrt strs, access.Inside := by
  induction strs generalizing s with
  | nil => exact iff_of_true rfl fun access member => absurd member List.not_mem_nil
  | cons str rest ih =>
      rw [Scan.read, Scan.readAccesses]
      cases here : s.place with
      | none => exact iff_of_true rfl fun access member => absurd member List.not_mem_nil
      | some place =>
          obtain ⟨inside, next⟩ := step_inside sqrt checked here str
          rw [List.forall_mem_append, ← inside]
          dsimp only
          cases step : s.step sqrt (taken place str) with
          | none => exact iff_of_false Bool.false_ne_true fun all => Bool.false_ne_true all.1
          | some s' => rw [Option.bind_some, ih (next s' step), Option.isSome_some, eq_self,
              true_and]

theorem start_checked (eph : Int → Nat → Ephem ℚ) (ionoutc : IonoUtc ℚ) :
    (File.start eph ionoutc).Checked :=
  ⟨le_rfl, fun line place => by cases place⟩

end Indices

/-- **What is read and written lies inside** the table of days and the array exactly if the
numbers of the records are in range. -/
theorem indices_inside_iff (sqrt : ℚ → ℚ) (eph : Int → Nat → Ephem ℚ) (ionoutc : IonoUtc ℚ)
    (str file : List Char) :
    (∀ access ∈ File.accesses sqrt eph ionoutc str file, access.Inside) ↔
      InRange (records str file) := by
  have blocks : ((File.start eph ionoutc).read sqrt (lines maxChar str file)).map Scan.reader = _ :=
    read_header sqrt (lines maxChar str file) rfl
  have cleared : ∀ access ∈ (List.range ephemArraySize.toNat).flatMap fun k : Nat =>
      (List.range maxSat).map fun sv : Nat => Access.entry k sv, access.Inside := by
    intro access member
    obtain ⟨k, row, inside⟩ := List.mem_flatMap.mp member
    obtain ⟨sv, slot, rfl⟩ := List.mem_map.mp inside
    have below := List.mem_range.mp row
    exact ⟨⟨Int.natCast_nonneg k, by omega⟩, Int.natCast_nonneg sv,
      Int.ofNat_lt.mpr (List.mem_range.mp slot)⟩
  rw [File.accesses, List.forall_mem_append, iff_true_intro cleared, true_and,
    ← (start_checked eph ionoutc).read_inside, ← Option.isSome_map, blocks]
  exact readRecords_isSome sqrt (clearFlags eph) (course str file)

instance : DecidablePred Access.Inside
  | .month _ => inferInstanceAs (Decidable (_ ∧ _))
  | .entry _ _ => inferInstanceAs (Decidable (_ ∧ _))

/-- A blank line behind the header is read as a record of month zero. -/
theorem blank_line_outside :
    ¬ ∀ access ∈ File.accesses id (fun _ _ => blank) noIonoUtc (List.replicate maxChar nul)
      (endOfHeader ++ ['\n']), access.Inside := by
  decide +kernel

end Navisim.Rinex

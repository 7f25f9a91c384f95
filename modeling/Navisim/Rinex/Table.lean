import Navisim.Lib.Cut
import Navisim.Rinex.File

/-!
# The sets of ephemerides

What the loop over the records makes of a file.  Its records are cut into sets: a set goes on
until a record is more than an hour later than the first one of the set.  The table holds the
last record of each satellite in each set (`Reader.After`), as long as every record is complete
and has numbers in range; a record that is not takes the loop on one of three other courses
(`Course`).
-/

namespace Navisim.Rinex

/-! ## Records -/

namespace Record

variable (record : Record)

/-- The time of clock; it is defined if the month is one. -/
def g : GpsTime ℚ :=
  (date2gps record.t).getD { week := 0, sec := 0 }

def HasMonth : Prop :=
  1 ≤ record.m.1 ∧ record.m.1 ≤ 12

def HasSatellite : Prop :=
  1 ≤ record.prn.1 ∧ record.prn.1 ≤ 32

/-- No line is missing. -/
def Complete : Prop :=
  7 ≤ record.orbits

/-- The record is complete, and its numbers are in range. -/
structure Good : Prop where
  month : record.HasMonth
  satellite : record.HasSatellite
  complete : record.Complete

instance : Decidable record.HasMonth := inferInstanceAs (Decidable (_ ∧ _))

instance : Decidable record.HasSatellite := inferInstanceAs (Decidable (_ ∧ _))

instance : Decidable record.Complete := inferInstanceAs (Decidable (_ ≤ _))

/-- The entry that a complete record makes. -/
def entry (sqrt : ℚ → ℚ) : Ephem ℚ :=
  storeLines sqrt record.t record.g record.values 8 blank

/-- A record is more than an hour later than the first one of a set. -/
def Late (first record : Record) : Prop :=
  subGpsTime record.g first.g > secondsInHour

instance : DecidableRel Late := fun _ _ => inferInstanceAs (Decidable (_ > _))

end Record

/-- The sets of ephemerides in a file. -/
def sets (records : List Record) : List (List Record) :=
  cut Record.Late records

/-- The last record of a satellite in a set. -/
def lastRecord (records : List Record) (k sv : Nat) : Option Record :=
  (((sets records).getD k []).filter fun record : Record => record.sv = (sv : Int)).getLast?

section Records

variable {sqrt : ℚ → ℚ} {record : Record} {records before after : List Record}

theorem storeLines_eight (t : DateTime) (g : GpsTime ℚ) (values eph eph' : Ephem ℚ) :
    storeLines sqrt t g values 8 eph = storeLines sqrt t g values 8 eph' := by
  simp only [storeLines, storeLine]

theorem storeLines_of_le {lines : Nat} (enough : 8 ≤ lines) (t : DateTime) (g : GpsTime ℚ)
    (values eph : Ephem ℚ) :
    storeLines sqrt t g values lines eph = storeLines sqrt t g values 8 eph := by
  induction lines, enough using Nat.le_induction with
  | base => rfl
  | succ lines enough ih =>
      obtain ⟨more, rfl⟩ := Nat.exists_eq_add_of_le enough
      rw [← ih, Nat.add_comm 8, storeLines]
      rfl

/-- A complete record makes its entry, whatever was there. -/
theorem Record.storeLines_complete (complete : record.Complete) (eph : Ephem ℚ) :
    storeLines sqrt record.t record.g record.values (record.orbits + 1) eph =
      record.entry sqrt := by
  rw [storeLines_of_le (Nat.succ_le_succ complete)]
  exact storeLines_eight ..

theorem Record.entry_vflg (record : Record) : (record.entry sqrt).vflg = 1 := by
  rw [Record.entry, storeLines_vflg, if_pos le_rfl]

theorem daysBefore_isSome (m : Int) : (daysBefore m).isSome = true ↔ 1 ≤ m ∧ m ≤ 12 := by
  have size : doy.length = 12 := rfl
  unfold daysBefore
  split
  · rw [Option.isSome_iff_ne_none, ne_eq, List.getElem?_eq_none_iff, size]
    omega
  · simp only [Option.isSome_none, Bool.false_eq_true, false_iff]
    omega

/-- The date of a record is converted if its month is one. -/
theorem Record.date2gps_t (month : record.HasMonth) : date2gps record.t = some record.g := by
  obtain ⟨days, found⟩ := Option.isSome_iff_exists.mp ((daysBefore_isSome _).mpr month)
  rw [Record.g, date2gps, show daysBefore record.t.m = some days from found]
  rfl

theorem Record.date2gps_t_none (month : ¬ record.HasMonth) : date2gps record.t = none := by
  have missing : daysBefore record.t.m = none := by
    rw [← Option.not_isSome_iff_eq_none, daysBefore_isSome]
    exact month
  rw [date2gps, missing, Option.map_none]

theorem Record.week_nonneg (month : record.HasMonth) : 0 ≤ record.g.week := by
  have year := record.y.2
  exact date2gps_week (Record.date2gps_t month) (by simp only [Record.t]; omega) record.d.2.1

theorem Record.sv_range : 0 ≤ record.sv ∧ record.sv < maxSat ↔ record.HasSatellite := by
  simp only [Record.sv, Record.HasSatellite, maxSat]
  omega

theorem Record.sv_toNat (satellite : record.HasSatellite) :
    (record.sv.toNat : Int) = record.sv ∧ record.sv.toNat < maxSat := by
  obtain ⟨nonneg, below⟩ := Record.sv_range.mpr satellite
  simp only [maxSat] at below ⊢
  omega

theorem getD_concat {α : Type*} (init : List α) (b d : α) (k : Nat) :
    (init ++ [b]).getD k d = if k = init.length then b else init.getD k d := by
  rcases Nat.lt_trichotomy k init.length with less | same | more
  · rw [if_neg less.ne, List.getD_append _ _ _ _ less]
  · rw [if_pos same, List.getD_append_right _ _ _ _ same.ge, same, Nat.sub_self]
    rfl
  · rw [if_neg more.ne', List.getD_eq_default _ _ (by simpa using more),
      List.getD_eq_default _ _ more.le]

theorem sets_length_concat (records : List Record) (record : Record) :
    (sets records).length ≤ (sets (records ++ [record])).length ∧
      (sets (records ++ [record])).length ≤ (sets records).length + 1 :=
  cut_length_concat records record

@[simp] theorem sets_nil : sets [] = [] :=
  cut_nil

@[simp] theorem sets_singleton (record : Record) : sets [record] = [[record]] :=
  cut_singleton record

/-- A record joins the last set, or opens one. -/
theorem sets_concat {init : List (List Record)} {first : Record} {block : List Record}
    (last : sets records = init ++ [first :: block]) (record : Record) :
    sets (records ++ [record]) =
      if first.Late record then init ++ [first :: block] ++ [[record]]
      else init ++ [first :: (block ++ [record])] :=
  cut_concat last record

theorem exists_last_set (some_record : records ≠ []) :
    ∃ init first block, sets records = init ++ [first :: block] :=
  exists_last_block Record.Late some_record

theorem mem_of_last_set {init : List (List Record)} {first : Record} {block : List Record}
    (last : sets records = init ++ [first :: block]) : first ∈ records := by
  have member : first :: block ∈ cut Record.Late records := by
    rw [← sets, last]
    exact List.mem_append_right _ List.mem_cons_self
  exact mem_of_mem_cut member List.mem_cons_self

theorem sets_length_cons (before : List Record) (record : Record) (rest : List Record) :
    (sets (before ++ [record])).length ≤ (sets (before ++ record :: rest)).length := by
  have longer := cut_length_mono Record.Late (before ++ [record]) rest
  rwa [List.append_assoc, List.singleton_append] at longer

/-- One more record is the last one of its satellite in the last set. -/
theorem lastRecord_concat (records : List Record) (record : Record) (k sv : Nat) :
    lastRecord (records ++ [record]) k sv =
      if k + 1 = (sets (records ++ [record])).length ∧ record.sv = sv then some record
      else lastRecord records k sv := by
  unfold lastRecord
  by_cases empty : records = []
  · subst empty
    rw [List.nil_append, sets_singleton, sets_nil]
    cases k with
    | zero =>
        by_cases same : record.sv = sv
        · simp [same]
        · simp [same]
    | succ k => simp
  · obtain ⟨init, first, block, last⟩ := exists_last_set empty
    rw [sets_concat last, last]
    split
    · -- The record opens a set.
      generalize init ++ [first :: block] = earlier
      rw [getD_concat, List.length_append, List.length_singleton]
      by_cases here : k = earlier.length
      · rw [if_pos here, List.getD_eq_default _ _ here.ge]
        by_cases same : record.sv = sv
        · simp [same, here]
        · simp [same]
      · rw [if_neg here, if_neg (by omega)]
    · rw [getD_concat, getD_concat, List.length_append, List.length_singleton]
      by_cases here : k = init.length
      · rw [if_pos here, if_pos here, ← List.cons_append, List.filter_append]
        by_cases same : record.sv = sv
        · simp [same, here]
        · simp [same]
      · rw [if_neg here, if_neg here, if_neg (by omega)]

end Records

/-! ## The loop over the records -/

/-- The variables of the reader behind some records, over an array with the entries `memory`. -/
structure Reader.After (sqrt : ℚ → ℚ) (memory : Int → Nat → Ephem ℚ) (records : List Record)
    (s : Reader) : Prop where
  fresh : records = [] → s.ieph = 0 ∧ s.g0.week = -1
  /-- The first record of the last set is what the next one is compared with. -/
  clock : ∀ init first block, sets records = init ++ [first :: block] →
    s.ieph = init.length ∧ s.g0 = first.g
  table : ∀ k sv : Nat,
    s.eph k sv = (lastRecord records k sv).elim (memory k sv) fun record => record.entry sqrt

section Loop

variable {sqrt : ℚ → ℚ} {memory : Int → Nat → Ephem ℚ} {records before rest : List Record}
  {record : Record} {s s' : Reader}

theorem Reader.After.ieph (after : s.After sqrt memory records) (some_record : records ≠ []) :
    s.ieph + 1 = (sets records).length := by
  obtain ⟨init, first, block, last⟩ := exists_last_set some_record
  rw [(after.clock init first block last).1, last, List.length_append,
    List.length_singleton]
  push_cast
  rfl

/-- A record starts a set, or belongs to the last one. -/
theorem Reader.After.checkTime (after : s.After sqrt memory records)
    (months : ∀ record ∈ records, record.HasMonth) (record : Record) :
    (s.checkTime record.g).eph = s.eph ∧
      ∀ init first block, sets (records ++ [record]) = init ++ [first :: block] →
        (s.checkTime record.g).ieph = init.length ∧ (s.checkTime record.g).g0 = first.g := by
  unfold Reader.checkTime
  by_cases empty : records = []
  · subst empty
    obtain ⟨zero, week⟩ := after.fresh rfl
    have same : ¬ subGpsTime record.g record.g > secondsInHour := by
      rw [subGpsTime_eq, sub_self, seconds_eq.2.1]
      norm_num
    simp only [if_pos week, if_neg same, true_and]
    intro init first block last
    rw [List.nil_append, sets_singleton, List.singleton_eq_append_iff] at last
    rcases last with ⟨rfl, one⟩ | ⟨-, none_left⟩
    · obtain ⟨rfl, rfl⟩ := by simpa using one
      exact ⟨zero, rfl⟩
    · exact absurd none_left (List.cons_ne_nil _ _)
  · obtain ⟨init, first, block, last⟩ := exists_last_set empty
    obtain ⟨index, time⟩ := after.clock init first block last
    have member := mem_of_last_set last
    have week : first.g.week ≠ -1 := by
      have := Record.week_nonneg (months first member)
      omega
    rw [sets_concat last]
    simp only [time, if_neg week]
    by_cases late : first.Late record
    · rw [if_pos late, if_pos (show subGpsTime record.g first.g > secondsInHour from late)]
      refine ⟨rfl, fun init' first' block' same => ?_⟩
      obtain ⟨rfl, one⟩ := List.append_inj' same rfl
      obtain ⟨rfl, rfl⟩ := by simpa using one
      simp [index]
    · rw [if_neg late, if_neg (show ¬ subGpsTime record.g first.g > secondsInHour from late)]
      refine ⟨rfl, fun init' first' block' same => ?_⟩
      obtain ⟨rfl, one⟩ := List.append_inj' same rfl
      obtain ⟨rfl, rfl⟩ := by simpa using one
      exact ⟨index, rfl⟩

/-- **One record more.** -/
theorem Reader.After.store (after : s.After sqrt memory records)
    (months : ∀ record ∈ records, record.HasMonth) (good : record.Good) :
    ((s.checkTime record.g).update record.sv.toNat
      (storeLines sqrt record.t record.g record.values (record.orbits + 1))).After sqrt memory
        (records ++ [record]) := by
  obtain ⟨kept, clock⟩ := after.checkTime months record
  obtain ⟨slot, -⟩ := Record.sv_toNat good.satellite
  obtain ⟨init, first, block, last⟩ :=
    exists_last_set (List.concat_ne_nil record records)
  have index := (clock init first block last).1
  have count : (sets (records ++ [record])).length = init.length + 1 := by
    rw [last, List.length_append, List.length_singleton]
  refine ⟨fun empty => absurd empty (List.concat_ne_nil _ _), clock, fun k sv => ?_⟩
  rw [lastRecord_concat, count]
  by_cases here : k + 1 = init.length + 1 ∧ record.sv = sv
  · obtain ⟨rfl, rfl⟩ : k = init.length ∧ record.sv.toNat = sv := by omega
    rw [if_pos here, ← index, update_self, Record.storeLines_complete good.complete]
    rfl
  · rw [if_neg here, update_of_ne _ (by omega), kept, after.table]

/-- What the loop does with one record, behind good ones. -/
theorem Reader.After.readRecords_cons (after : s.After sqrt memory before)
    (months : ∀ record ∈ before, record.HasMonth) (record : Record) (rest : List Record) :
    readRecords sqrt (record :: rest) s =
      if ¬ record.HasMonth then none
      else if ephemArraySize < (sets (before ++ [record])).length then
        some (s.checkTime record.g)
      else if ¬ record.HasSatellite then none
      else
        let s := (s.checkTime record.g).update record.sv.toNat
          (storeLines sqrt record.t record.g record.values (record.orbits + 1))
        if record.Complete then readRecords sqrt rest s else some s := by
  rw [readRecords]
  by_cases month : record.HasMonth
  · obtain ⟨init, first, block, last⟩ :=
      exists_last_set (List.concat_ne_nil record before)
    have index := ((after.checkTime months record).2 init first block last).1
    have full : (s.checkTime record.g).ieph ≥ ephemArraySize ↔
        ephemArraySize < (sets (before ++ [record])).length := by
      rw [last, List.length_append, List.length_singleton, index]
      push_cast
      omega
    have incomplete : record.orbits < 7 ↔ ¬ record.Complete := Nat.not_le.symm
    rw [Record.date2gps_t month, if_neg (not_not.mpr month)]
    simp only [Option.bind_eq_bind, Option.bind_some, Option.pure_def, full, incomplete,
      Record.sv_range, ite_not]
  · rw [Record.date2gps_t_none month, if_pos month]
    rfl

/-- The variables in front of the first record. -/
def Reader.start (memory : Int → Nat → Ephem ℚ) : Reader where
  eph := memory
  g0 := { week := -1, sec := 0 }
  ieph := 0

theorem Reader.after_start (sqrt : ℚ → ℚ) (memory : Int → Nat → Ephem ℚ) :
    (Reader.start memory).After sqrt memory [] where
  fresh _ := ⟨rfl, rfl⟩
  clock init first block last := by
    rw [sets_nil] at last
    exact absurd (congrArg List.length last) (by simp)
  table k sv := by simp [lastRecord, Reader.start]

/-- **Good records, in sets that fit into the array**, are stored one after the other. -/
theorem readRecords_good (sqrt : ℚ → ℚ) (memory : Int → Nat → Ephem ℚ)
    (good : ∀ record ∈ before, record.Good) (fits : (sets before).length ≤ ephemArraySize) :
    ∃ s : Reader, s.After sqrt memory before ∧
      ∀ rest, readRecords sqrt (before ++ rest) (Reader.start memory) =
        readRecords sqrt rest s := by
  induction before using List.reverseRecOn with
  | nil => exact ⟨Reader.start memory, Reader.after_start sqrt memory, fun rest => rfl⟩
  | append_singleton before record ih =>
      have shorter := (sets_length_concat before record).1
      obtain ⟨s, after, reads⟩ :=
        ih (fun r member => good r (List.mem_append_left _ member)) (by omega)
      have here := good record (List.mem_append_right _ List.mem_cons_self)
      have months : ∀ r ∈ before, r.HasMonth := fun r member =>
        (good r (List.mem_append_left _ member)).month
      refine ⟨_, after.store months here, fun rest => ?_⟩
      rw [List.append_assoc, List.singleton_append, reads, after.readRecords_cons months,
        if_neg (not_not.mpr here.month), if_neg (by omega), if_neg (not_not.mpr here.satellite)]
      exact if_pos here.complete

end Loop

/-! ## Courses -/

/-- No record but the last one can lack lines. -/
def CompleteButLast (records : List Record) : Prop :=
  ∀ record ∈ records.dropLast, record.Complete

/-- What can happen to the loop over the records of a file. -/
inductive Course (records : List Record) : Prop
  /-- Every record is stored. -/
  | full (good : ∀ record ∈ records, record.Good)
      (fits : (sets records).length ≤ ephemArraySize)
  /-- The last record is cut off by the end of the file. -/
  | cutOff (before : List Record) (record : Record) (split : records = before ++ [record])
      (good : ∀ record ∈ before, record.Good) (month : record.HasMonth)
      (satellite : record.HasSatellite) (incomplete : ¬ record.Complete)
      (fits : (sets records).length ≤ ephemArraySize)
  /-- A record opens a set behind the end of the array. -/
  | tooMany (before : List Record) (record : Record) (rest : List Record)
      (split : records = before ++ record :: rest) (good : ∀ record ∈ before, record.Good)
      (month : record.HasMonth) (fits : (sets before).length ≤ ephemArraySize)
      (full : ephemArraySize < (sets (before ++ [record])).length)
  /-- A record has a number out of range. -/
  | outOfRange (before : List Record) (record : Record) (rest : List Record)
      (split : records = before ++ record :: rest) (good : ∀ record ∈ before, record.Good)
      (fits : (sets before).length ≤ ephemArraySize)
      (bad : record.HasMonth → (sets (before ++ [record])).length ≤ ephemArraySize ∧
        ¬ record.HasSatellite)

/-- **The records that are read have their numbers in range**: each in front of which at most
`ephemArraySize` sets are opened has a month, and each that lies in one of these sets has a
satellite. -/
def InRange (records : List Record) : Prop :=
  ∀ before record rest, records = before ++ record :: rest →
    (sets before).length ≤ ephemArraySize →
      record.HasMonth ∧
        ((sets (before ++ [record])).length ≤ ephemArraySize → record.HasSatellite)

section Courses

variable {records : List Record}

theorem course_of_completeButLast (complete : CompleteButLast records) : Course records := by
  induction records using List.reverseRecOn with
  | nil =>
      refine Course.full (fun record member => absurd member List.not_mem_nil) ?_
      rw [sets_nil]
      decide
  | append_singleton before record ih =>
      have earlier : ∀ r ∈ before, r.Complete := by
        intro r member
        exact complete r (by rwa [List.dropLast_concat])
      have monotone := (sets_length_concat before record).1
      cases ih fun r member => earlier r (List.mem_of_mem_dropLast member) with
      | full good fits =>
          by_cases month : record.HasMonth
          · by_cases below : ((sets (before ++ [record])).length : Int) ≤ ephemArraySize
            · by_cases satellite : record.HasSatellite
              · by_cases lines : record.Complete
                · refine Course.full (fun r member => ?_) below
                  rcases List.mem_append.mp member with old | new
                  · exact good r old
                  · obtain rfl := List.mem_singleton.mp new
                    exact ⟨month, satellite, lines⟩
                · exact Course.cutOff before record rfl good month satellite lines below
              · exact Course.outOfRange before record [] rfl good fits
                  fun _ => ⟨below, satellite⟩
            · exact Course.tooMany before record [] rfl good month fits (by omega)
          · exact Course.outOfRange before record [] rfl good fits
              fun some_month => absurd some_month month
      | cutOff before' record' split good month satellite incomplete fits =>
          exact absurd (earlier record' (by rw [split]; simp)) incomplete
      | tooMany before' record' rest split good month fits full =>
          refine Course.tooMany before' record' (rest ++ [record]) ?_ good month fits full
          rw [split, List.append_assoc, List.cons_append]
      | outOfRange before' record' rest split good fits bad =>
          refine Course.outOfRange before' record' (rest ++ [record]) ?_ good fits bad
          rw [split, List.append_assoc, List.cons_append]

end Courses

end Navisim.Rinex

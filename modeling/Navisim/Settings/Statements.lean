import Navisim.Settings.Current

/-!
# The statement of `updateDB`

`updateDB` puts the value and the key between double quotes into the text of a statement.  What
the database makes of the text is a parameter (`Updates`); whether the value is then read back is
settled by `updateDB_stores_iff`.
-/

namespace Navisim.Settings

/-! ## What is read in a statement -/

/-- What may stand behind the last quote: the end of the statement, or a comment that goes on to
the end of the text. -/
def Ending (text : Text) : Prop :=
  text = [';'] ∨ ∃ comment ∈ behind " --".toList text, '\n' ∉ comment ∧ Text.nul ∉ comment

instance (text : Text) : Decidable (Ending text) :=
  inferInstanceAs (Decidable (_ ∨ ∃ comment ∈ _, _))

/-- The statement is an update of the rows with the key.  A text ends at the next quote, and what
stands behind it is read on as a part of the statement. -/
def Reads (statement value key : Text) : Prop :=
  Literal value ∧ Literal key ∧
    ∃ ending, Ending ending ∧ statement = updateSet ++ value ++ updateWhere ++ key ++ '"' :: ending

/-- What is documented of `execSQL`: an update changes the rows that its condition selects. -/
def Updates (execSQL : Text → Table → Option Table) : Prop :=
  ∀ statement value key table, Reads statement value key →
    execSQL statement table = some (table.update value key)

/-- The value and the key of an update. -/
def readStatement (statement : Text) : Option (Text × Text) := do
  let text ← behind updateSet statement
  let value := quoted text
  let text ← behind updateWhere value.2
  let key := quoted text
  let ending ← behind ['"'] key.2
  if Literal value.1 ∧ Literal key.1 ∧ Ending ending then some (value.1, key.1) else none

/-- A database that knows updates only. -/
def execUpdate (statement : Text) (table : Table) : Option Table :=
  (readStatement statement).map fun (value, key) => table.update value key

namespace Platform

variable {D : Type} (p : Platform D)

/-- The same library on a database. -/
def withDatabase (execSQL : Text → Table → Option Table) : Platform D :=
  { p with execSQL := execSQL }

/-- Behind `updateDB`, exactly the value is read under the key, and under every other key what was
read there before. -/
def Stores (value key : Text) (s : App D) : Prop :=
  ∃ s', p.updateDB value key s = .ok s' ∧
    s'.table.selectData key = List.replicate (s.table.selectData key).length value ∧
    ∀ other ≠ key, s'.table.selectData other = s.table.selectData other

end Platform

section Statements

variable {statement value key value' key' pre text rest : Text}

theorem behind_eq_some : behind pre text = some rest ↔ text = pre ++ rest := by
  constructor
  · intro read
    induction pre generalizing text with
    | nil => exact Option.some.inj read
    | cons c pre ih =>
        cases text with
        | nil => cases read
        | cons d text =>
            rw [behind, Option.ite_none_right_eq_some] at read
            rcases read with ⟨rfl, read⟩
            rw [ih read, List.cons_append]
  · rintro rfl
    exact behind_append pre rest

theorem quoted_fst_append_snd (text : Text) : (quoted text).1 ++ (quoted text).2 = text :=
  List.takeWhile_append_dropWhile

/-- Without a quote in them, the value and the key are read as they are. -/
theorem reads_updateStatement (value' : Literal value) (key' : Literal key) :
    Reads (updateStatement value key) value key :=
  ⟨value', key', [';'], Or.inl rfl, rfl⟩

/-- The database that knows updates only reads exactly the updates. -/
theorem readStatement_eq_some :
    readStatement statement = some (value, key) ↔ Reads statement value key := by
  constructor
  · intro read
    simp only [readStatement, Option.bind_eq_bind, Option.bind_eq_some_iff, behind_eq_some,
      Option.ite_none_right_eq_some, Option.some.injEq, Prod.mk.injEq] at read
    obtain ⟨tail, rfl, text, first, ending, second, ⟨value', key', ended⟩, rfl, rfl⟩ := read
    refine ⟨value', key', ending, ended, ?_⟩
    calc
      updateSet ++ tail = updateSet ++ ((quoted tail).1 ++ (updateWhere ++ text)) := by
        rw [← first, quoted_fst_append_snd]
      _ = updateSet ++ ((quoted tail).1 ++ (updateWhere ++
          ((quoted text).1 ++ '"' :: ending))) := by
        rw [← List.singleton_append (l := ending), ← second, quoted_fst_append_snd]
      _ = updateSet ++ (quoted tail).1 ++ updateWhere ++ (quoted text).1 ++ '"' :: ending := by
        simp only [List.append_assoc]
  · rintro ⟨value', key', ending, ended, rfl⟩
    have last : quoted (key ++ '"' :: ending) = (key, '"' :: ending) := quoted_append key'.1 rfl
    have middle : quoted (value ++ (updateWhere ++ (key ++ '"' :: ending))) =
        (value, updateWhere ++ (key ++ '"' :: ending)) := quoted_append value'.1 rfl
    rw [readStatement, List.append_assoc, List.append_assoc, List.append_assoc, behind_append,
      Option.bind_eq_bind, Option.bind_some, middle]
    dsimp only
    rw [behind_append, Option.bind_some, last]
    exact if_pos ⟨value', key', ended⟩

theorem execUpdate_updates : Updates execUpdate := by
  intro statement value key table reads
  rw [execUpdate, readStatement_eq_some.mpr reads]
  rfl

end Statements

/-! ## What is read in the table -/

section Tables

variable (table : Table) {value key other : Text}

/-- Get after set. -/
theorem selectData_update_self : (table.update value key).selectData key =
    List.replicate (table.selectData key).length value := by
  induction table with
  | nil => rfl
  | cons row table ih =>
      by_cases same : row.1 = key
      · simpa [Table.update, Table.selectData, same, List.replicate_succ] using ih
      · simpa [Table.update, Table.selectData, same] using ih

/-- The other keys keep what they have. -/
theorem selectData_update_other (different : other ≠ key) :
    (table.update value key).selectData other = table.selectData other := by
  induction table with
  | nil => rfl
  | cons row table ih =>
      by_cases same : row.1 = key
      · simpa [Table.update, Table.selectData, same, different.symm] using ih
      · by_cases selected : row.1 = other
        · simpa [Table.update, Table.selectData, selected, different] using ih
        · simpa [Table.update, Table.selectData, same, selected] using ih

end Tables

/-! ## When the value is stored -/

section Stored

variable {D : Type} {p : Platform D} {s : App D} {value key value' key' : Text}

/-- **What an update stores.**  If the statement is read as an update of some key, the value is
stored if that is the value and the key; and else only if nothing is to be changed. -/
theorem stores_iff_of_reads (updates : Updates p.execSQL)
    (reads : Reads (updateStatement value key) value' key')
    (present : s.table.selectData key ≠ []) :
    p.Stores value key s ↔ (value' = value ∧ key' = key) ∨ (key' ≠ key ∧
      (∀ text ∈ s.table.selectData key, text = value) ∧
      ∀ text ∈ s.table.selectData key', text = value') := by
  have done : p.updateDB value key s = .ok { s with table := s.table.update value' key' } := by
    rw [Platform.updateDB, updates _ _ _ _ reads]
  constructor
  · rintro ⟨s', done', stored, frame⟩
    rw [done] at done'
    cases done'
    dsimp only at stored frame
    by_cases same : key' = key
    · subst same
      rw [selectData_update_self, List.replicate_right_inj] at stored
      · exact Or.inl ⟨stored, rfl⟩
      · exact List.length_pos_iff.mpr present |>.ne'
    · have frame' := frame key' same
      rw [selectData_update_self] at frame'
      rw [selectData_update_other _ (Ne.symm same), List.eq_replicate_iff] at stored
      exact Or.inr ⟨same, stored.2, (List.eq_replicate_iff.mp frame'.symm).2⟩
  · rintro (⟨rfl, rfl⟩ | ⟨different, stored, kept⟩)
    · exact ⟨_, done, selectData_update_self _, fun other => selectData_update_other _⟩
    · refine ⟨_, done, ?_, fun other _ => ?_⟩
      · rw [selectData_update_other _ different.symm]
        exact List.eq_replicate_iff.mpr ⟨rfl, stored⟩
      · by_cases same : other = key'
        · subst same
          rw [selectData_update_self]
          exact (List.eq_replicate_iff.mpr ⟨rfl, kept⟩).symm
        · exact selectData_update_other _ same

/-- **When `updateDB` stores the value**, on every database that works as documented: if the value
and the key are literals.  The one other case is that of a statement that is read as an update of
another key, whose rows have its text already, while the key has the value already. -/
theorem updateDB_stores_iff (p : Platform D) (s : App D) (value key : Text)
    (present : s.table.selectData key ≠ []) :
    (∀ execSQL, Updates execSQL → (p.withDatabase execSQL).Stores value key s) ↔
      (Literal value ∧ Literal key) ∨ ∃ value' key',
        Reads (updateStatement value key) value' key' ∧ key' ≠ key ∧
        (∀ text ∈ s.table.selectData key, text = value) ∧
        ∀ text ∈ s.table.selectData key', text = value' := by
  constructor
  · intro stores
    have stored := stores execUpdate execUpdate_updates
    cases read : readStatement (updateStatement value key) with
    | none =>
        rcases stored with ⟨s', done, -⟩
        rw [Platform.updateDB] at done
        simp [Platform.withDatabase, execUpdate, read] at done
    | some pair =>
        rcases pair with ⟨value', key'⟩
        have reads := readStatement_eq_some.mp read
        rcases (stores_iff_of_reads execUpdate_updates reads present).mp stored with
          ⟨rfl, rfl⟩ | altered
        · exact Or.inl ⟨reads.1, reads.2.1⟩
        · exact Or.inr ⟨value', key', reads, altered⟩
  · intro condition execSQL updates
    rcases condition with ⟨literal, literal'⟩ | ⟨value', key', reads, altered⟩
    · exact (stores_iff_of_reads updates (reads_updateStatement literal literal') present).mpr
        (Or.inl ⟨rfl, rfl⟩)
    · exact (stores_iff_of_reads updates reads present).mpr (Or.inr altered)

/-! ### A fresh app -/

/-- What a fresh app has. -/
def freshApp : App ℚ where
  statics := decimals.initial
  table := rows "circle.csv".toList "triumphv3.txt".toList "30.286502".toList
    "120.032669".toList "100.0".toList "6".toList "brdc3540.14n".toList

/-- A path without a quote. -/
theorem updateDB_stores_iff_path :
    Updates execUpdate ∧
      (decimals.withDatabase execUpdate).Stores "/storage/track.csv".toList csvKey freshApp :=
  ⟨execUpdate_updates, (updateDB_stores_iff decimals freshApp "/storage/track.csv".toList csvKey
    (by decide)).mpr (Or.inl (by decide)) execUpdate execUpdate_updates⟩

/-- The path of a file whose name has quotes. -/
def quotingPath : Text := "/storage/x\" WHERE key = \"txt\" --.csv".toList

/-- **The path is not stored**, on no database that works as documented: what stands behind the
first quote is read as a part of the statement, and a part of the path goes to the other file. -/
theorem quotingPath_not_stored :
    decimals.start [] = some freshApp ∧ freshApp.table.selectData csvKey ≠ [] ∧
      Updates execUpdate ∧ ∀ execSQL, Updates execSQL →
        (decimals.withDatabase execSQL).updateDB quotingPath csvKey freshApp = .ok
          { freshApp with
            table := rows "circle.csv".toList "/storage/x".toList "30.286502".toList
              "120.032669".toList "100.0".toList "6".toList "brdc3540.14n".toList } ∧
        ¬ (decimals.withDatabase execSQL).Stores quotingPath csvKey freshApp := by
  have reads : Reads (updateStatement quotingPath csvKey) "/storage/x".toList txtKey :=
    readStatement_eq_some.mp (by decide +kernel)
  refine ⟨by decide +kernel, by decide, execUpdate_updates, fun execSQL updates => ⟨?_, ?_⟩⟩
  · have done := updates _ _ _ freshApp.table reads
    rw [Platform.updateDB, Platform.withDatabase]
    dsimp only
    rw [done]
    rfl
  · intro stores
    rcases (stores_iff_of_reads updates reads (by decide)).mp stores with
      ⟨-, same⟩ | ⟨-, stored, -⟩
    · exact absurd same (by decide)
    · exact absurd (stored "circle.csv".toList (by decide)) (by decide)

end Stored

end Navisim.Settings

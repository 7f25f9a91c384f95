import Navisim.Settings.App

/-!
# Current settings

`Choice` is what the user has last saved or picked.  The settings are current when
`generateSimData` asks for it and the table has the values of the fields.  `Kept` is what actions
preserve that choose no value anew but the time and the button: saving puts the coordinates and
the trajectory into the table at most, picking puts a path only there, and a start forgets the
button.
-/

namespace Navisim.Settings

/-! ## What the user has chosen -/

/-- The values that were last saved or picked. -/
structure Choice where
  csv : Text
  txt : Text
  trajectory : Text
  lat : Text
  lon : Text
  hgt : Text
  time : Text
  checkSection : Int
  deriving DecidableEq

def Choice.withFile (c : Choice) : FileKind → Text → Choice
  | .csv, path => { c with csv := path }
  | .txt, path => { c with txt := path }
  | .trajectory, path => { c with trajectory := path }

/-- The file that was last picked. -/
def Choice.file (c : Choice) : FileKind → Text
  | .csv => c.csv
  | .txt => c.txt
  | .trajectory => c.trajectory

def Choice.withFields (c : Choice) (fields : Fields) : Choice :=
  let c := { c with
    time := fields.time
    trajectory := fields.trajectory
    checkSection := fields.radio.checkSection }
  match fields.radio with
  | .coor => { c with lat := fields.lat, lon := fields.lon, hgt := fields.hgt }
  | _ => c

/-- A text that SQLite takes as it is between double quotes: it holds no quote and is not the name
of a column. -/
def Literal (text : Text) : Prop :=
  '"' ∉ text ∧ Text.nul ∉ text ∧
    text.map Char.toLower ∉ ["id".toList, "key".toList, "value".toList, "rowid".toList,
      "oid".toList, "_rowid_".toList]

instance (text : Text) : Decidable (Literal text) :=
  inferInstanceAs (Decidable (_ ∧ _ ∧ _))

/-- The texts that `Save` puts into statements. -/
def Fields.texts (fields : Fields) : List Text :=
  match fields.radio with
  | .coor => [fields.time, fields.trajectory, fields.lat, fields.lon, fields.hgt]
  | .csv | .txt => [fields.time, fields.trajectory]

namespace Platform

variable {D : Type} (p : Platform D)

/-- The texts of an action that go into statements are literals. -/
def LiteralTexts (action : Action) : Prop :=
  match action with
  | .save fields => (p.parseInt fields.time).isSome → ∀ text ∈ fields.texts, Literal text
  | .pick kind dataString => ∀ message, kind.path dataString = some (some message) →
      Literal message
  | .restart => True

/-- What a fresh app has. -/
def initialChoice : Choice where
  csv := p.initial.CSV
  txt := p.initial.TXT
  trajectory := p.initial.trajectory
  lat := p.valueOf p.initial.Lat
  lon := p.valueOf p.initial.Lon
  hgt := p.valueOf p.initial.Hgt
  time := p.valueOfInt p.initial.Time
  checkSection := p.initial.checkSection

/-- What is chosen by an action; fields with a time that is no number are not saved. -/
def choose (action : Action) (c : Choice) : Choice :=
  match action with
  | .save fields => if (p.parseInt fields.time).isSome then c.withFields fields else c
  | .pick kind dataString =>
      match kind.path dataString with
      | some (some message) => c.withFile kind message
      | _ => c
  | .restart => c

/-- What is chosen after the first `n` actions. -/
def choice (actions : Nat → Action) : Nat → Choice
  | 0 => p.initialChoice
  | n + 1 => p.choose (actions n) (choice actions n)

/-- The input of a choice: a file, or the coordinates. -/
def input (c : Choice) : Option Text :=
  if c.checkSection = 0 then some c.csv
  else if c.checkSection = 1 then some c.txt
  else if c.checkSection = 2 then do
    let lat ← p.parseDouble c.lat
    let lon ← p.parseDouble c.lon
    let hgt ← p.parseDouble c.hgt
    some (p.valueOf lat ++ ',' :: (p.valueOf lon ++ ',' :: p.valueOf hgt))
  else none

/-- The request for a choice. -/
def request (c : Choice) : Option Request := do
  let time ← p.parseInt c.time
  let pathFile ← p.input c
  some { pathFile := pathFile, trajectory := c.trajectory, flag := c.checkSection, time := time }

/-- The table has one value for every key, which is that of the static field. -/
structure InSync (s : App D) : Prop where
  file : ∀ kind : FileKind, s.table.selectData kind.key = [kind.field s.statics]
  lat : ∃ text, s.table.selectData latKey = [text] ∧ p.parseDouble text = some s.statics.Lat
  lon : ∃ text, s.table.selectData lonKey = [text] ∧ p.parseDouble text = some s.statics.Lon
  hgt : ∃ text, s.table.selectData hgtKey = [text] ∧ p.parseDouble text = some s.statics.Hgt
  time : ∃ text, s.table.selectData timeKey = [text] ∧ p.parseInt text = some s.statics.Time

/-- The settings are those that were chosen. -/
structure Current (s : App D) (c : Choice) : Prop where
  used : p.generateSimData s.statics = p.request c
  inSync : p.InSync s

/-- What an action may choose without a value getting out of date. -/
def Keeps (s : App D) : Action → Prop
  | .save fields =>
      if (p.parseInt fields.time).isSome then
        fields.trajectory = s.statics.trajectory ∧
          (fields.radio = .coor → p.parseDouble fields.lat = some s.statics.Lat ∧
            p.parseDouble fields.lon = some s.statics.Lon ∧
            p.parseDouble fields.hgt = some s.statics.Hgt)
      -- The exception ends the process.
      else s.statics.checkSection = 0
  | .pick kind dataString =>
      match kind.path dataString with
      | some (some message) => message = kind.field s.statics
      | some none => True
      | none => s.statics.checkSection = 0
  | .restart => s.statics.checkSection = 0

/-- What is documented of Java and the database. -/
structure Documented : Prop where
  parseDouble_valueOf : ∀ x ∈ [p.initial.Lat, p.initial.Lon, p.initial.Hgt],
    p.parseDouble (p.valueOf x) = some x
  parseInt_valueOfInt : p.parseInt (p.valueOfInt p.initial.Time) = some p.initial.Time
  literal_valueOfInt : ∀ n ∈ [1, 2, 3], Literal (p.valueOfInt n)
  execSQL_update : ∀ value key table, Literal value → Literal key →
    p.execSQL (updateStatement value key) table = some (table.update value key)

end Platform

/-! ## The rows -/

/-- The rows that a fresh app inserts. -/
def rows (csv txt lat lon hgt time trajectory : Text) : Table :=
  [(csvKey, csv), (txtKey, txt), (latKey, lat), (lonKey, lon), (hgtKey, hgt), (timeKey, time),
    (trajectoryKey, trajectory)]

section Rows

variable (csv txt lat lon hgt time trajectory value : Text)

theorem select_csv :
    (rows csv txt lat lon hgt time trajectory).selectData csvKey = [csv] := rfl

theorem select_txt :
    (rows csv txt lat lon hgt time trajectory).selectData txtKey = [txt] := rfl

theorem select_lat :
    (rows csv txt lat lon hgt time trajectory).selectData latKey = [lat] := rfl

theorem select_lon :
    (rows csv txt lat lon hgt time trajectory).selectData lonKey = [lon] := rfl

theorem select_hgt :
    (rows csv txt lat lon hgt time trajectory).selectData hgtKey = [hgt] := rfl

theorem select_time :
    (rows csv txt lat lon hgt time trajectory).selectData timeKey = [time] := rfl

theorem select_trajectory :
    (rows csv txt lat lon hgt time trajectory).selectData trajectoryKey = [trajectory] := rfl

theorem select_file (kind : FileKind) :
    (rows csv txt lat lon hgt time trajectory).selectData kind.key =
      [match kind with | .csv => csv | .txt => txt | .trajectory => trajectory] := by
  cases kind <;> rfl

theorem update_time : (rows csv txt lat lon hgt time trajectory).update value timeKey =
    rows csv txt lat lon hgt value trajectory := rfl

theorem update_trajectory : (rows csv txt lat lon hgt time trajectory).update value trajectoryKey =
    rows csv txt lat lon hgt time value := rfl

theorem update_file (kind : FileKind) :
    (rows csv txt lat lon hgt time trajectory).update value kind.key =
      match kind with
      | .csv => rows value txt lat lon hgt time trajectory
      | .txt => rows csv value lat lon hgt time trajectory
      | .trajectory => rows csv txt lat lon hgt time value := by
  cases kind <;> rfl

end Rows

section Steps

variable {D : Type} {p : Platform D} {s s' : App D} {c c' : Choice}

/-! ## Steps -/

/-- What runs of kept values have: the rows of a fresh app, which hold the fields, and the fields
hold the choice. -/
structure Kept (p : Platform D) (s : App D) (c : Choice) : Prop where
  table : ∃ lat lon hgt time, s.table =
      rows s.statics.CSV s.statics.TXT lat lon hgt time s.statics.trajectory ∧
    p.parseDouble lat = some s.statics.Lat ∧ p.parseDouble lon = some s.statics.Lon ∧
    p.parseDouble hgt = some s.statics.Hgt ∧ p.parseInt time = some s.statics.Time
  /-- The trajectory is no other key. -/
  ownKey : s.statics.trajectory = trajectoryKey
  file : ∀ kind : FileKind, kind.field s.statics = c.file kind
  lat : p.parseDouble c.lat = some s.statics.Lat
  lon : p.parseDouble c.lon = some s.statics.Lon
  hgt : p.parseDouble c.hgt = some s.statics.Hgt
  time : p.parseInt c.time = some s.statics.Time
  checkSection : c.checkSection = s.statics.checkSection

/-- A request has the section and the trajectory of its choice. -/
theorem request_eq_some {request : Request} (asked : p.request c = some request) :
    request.flag = c.checkSection ∧ request.trajectory = c.trajectory := by
  unfold Platform.request at asked
  simp only [Option.bind_eq_bind, Option.bind_eq_some_iff] at asked
  obtain ⟨time, -, pathFile, -, same⟩ := asked
  cases same
  exact ⟨rfl, rfl⟩

theorem Kept.current (kept : Kept p s c) : p.Current s c := by
  obtain ⟨⟨lat, lon, hgt, time, table, lat', lon', hgt', time'⟩, -, file, clat, clon, chgt, ctime,
    checkSection⟩ := kept
  have csv : s.statics.CSV = c.csv := file .csv
  have txt : s.statics.TXT = c.txt := file .txt
  have trajectory : s.statics.trajectory = c.trajectory := file .trajectory
  constructor
  · have input : p.input c = Motion.Setting.pathFile {
        checkSection := s.statics.checkSection
        CSV := s.statics.CSV
        TXT := s.statics.TXT
        Lat := p.valueOf s.statics.Lat
        Lon := p.valueOf s.statics.Lon
        Hgt := p.valueOf s.statics.Hgt } := by
      rw [Platform.input, clat, clon, chgt, ← csv, ← txt, checkSection]
      rfl
    rw [Platform.generateSimData, Platform.request, ctime, input, ← trajectory, checkSection]
    cases Motion.Setting.pathFile _ <;> rfl
  · refine ⟨fun kind => ?_, ⟨lat, ?_, lat'⟩, ⟨lon, ?_, lon'⟩, ⟨hgt, ?_, hgt'⟩, ⟨time, ?_, time'⟩⟩
    · rw [table, select_file]
      cases kind <;> rfl
    · rw [table, select_lat]
    · rw [table, select_lon]
    · rw [table, select_hgt]
    · rw [table, select_time]

theorem loadOrInsert_of_select {key value text : Text} {rest : List Text}
    {store : Text → Statics D → Option (Statics D)} {statics : Statics D} {table : Table}
    (select : table.selectData key = text :: rest) :
    loadOrInsert key value store { statics := statics, table := table } =
      (store text statics).map fun statics => { statics := statics, table := table } := by
  rw [loadOrInsert, select]

/-- A start takes the fields from the rows, but not the button. -/
theorem start_rows {csv txt trajectory lat lon hgt time : Text} {x y z : D} {n : Int}
    (lat' : p.parseDouble lat = some x) (lon' : p.parseDouble lon = some y)
    (hgt' : p.parseDouble hgt = some z) (time' : p.parseInt time = some n) :
    p.start (rows csv txt lat lon hgt time trajectory) = some {
      statics := {
        CSV := csv
        TXT := txt
        trajectory := trajectory
        Lat := x
        Lon := y
        Hgt := z
        Time := n
        checkSection := 0 }
      table := rows csv txt lat lon hgt time trajectory } := by
  have first : p.initial.checkSection = 0 := rfl
  rw [Platform.start, Platform.insertDataFirst, loadOrInsert_of_select (select_csv ..)]
  simp only [Option.map_some, Option.bind_eq_bind, Option.bind_some,
    loadOrInsert_of_select (select_txt ..), loadOrInsert_of_select (select_lat ..),
    loadOrInsert_of_select (select_lon ..), loadOrInsert_of_select (select_hgt ..),
    loadOrInsert_of_select (select_time ..), loadOrInsert_of_select (select_trajectory ..),
    Platform.parsed, lat', lon', hgt', time', first]

/-- A fresh app inserts the rows. -/
theorem kept_start (documented : p.Documented) :
    ∃ s, p.start [] = some s ∧ Kept p s p.initialChoice := by
  have lat := documented.parseDouble_valueOf p.initial.Lat (by simp)
  have lon := documented.parseDouble_valueOf p.initial.Lon (by simp)
  have hgt := documented.parseDouble_valueOf p.initial.Hgt (by simp)
  have time := documented.parseInt_valueOfInt
  refine ⟨{ statics := p.initial, table := rows _ _ _ _ _ _ _ }, rfl, ?_⟩
  refine ⟨⟨_, _, _, _, rfl, lat, lon, hgt, time⟩, rfl, fun kind => ?_, lat, lon, hgt, time, rfl⟩
  cases kind <;> rfl

/-- The request of fields with one of the three buttons. -/
theorem generateSimData_eq_some {statics : Statics D} {radio : Radio}
    (button : statics.checkSection = radio.checkSection) :
    ∃ request, p.generateSimData statics = some request ∧ request.flag = statics.checkSection ∧
      request.trajectory = statics.trajectory := by
  unfold Platform.generateSimData Motion.Setting.pathFile
  rw [button]
  cases radio <;> exact ⟨_, rfl, rfl, rfl⟩

/-- Fields that are used for a choice have its section and its trajectory. -/
theorem fields_of_used {statics : Statics D} {radio : Radio}
    (button : statics.checkSection = radio.checkSection)
    (used : p.generateSimData statics = p.request c) :
    statics.checkSection = c.checkSection ∧ statics.trajectory = c.trajectory := by
  obtain ⟨request, asked, flag, trajectory⟩ := generateSimData_eq_some (p := p) button
  rw [asked] at used
  obtain ⟨flag', trajectory'⟩ := request_eq_some used.symm
  exact ⟨flag.symm.trans flag', trajectory.symm.trans trajectory'⟩

/-! ### Restarts -/

/-- The end of the process keeps everything but the button. -/
theorem Kept.start (kept : Kept p s c) :
    p.start s.table = some { s with statics := { s.statics with checkSection := 0 } } := by
  obtain ⟨lat, lon, hgt, time, table, lat', lon', hgt', time'⟩ := kept.table
  rw [table, start_rows lat' lon' hgt' time']

theorem Kept.start_first (kept : Kept p s c) (first : s.statics.checkSection = 0) :
    p.start s.table = some s := by
  rw [kept.start, ← first]

/-- Behind a restart, the settings are only current if the first button was checked. -/
theorem Kept.first_of_start (kept : Kept p s c) (restarted : p.start s.table = some s')
    (current : p.Current s' c) : s.statics.checkSection = 0 := by
  rw [kept.start] at restarted
  cases restarted
  have used := current.used
  have button : ({ s.statics with checkSection := 0 } : Statics D).checkSection =
      Radio.csv.checkSection := rfl
  have first := (fields_of_used button used).1
  rw [← kept.checkSection, ← first]

/-! ### Picking -/

theorem updateDB_of_literal (documented : p.Documented) {value key : Text}
    (value' : Literal value) (key' : Literal key) (s : App D) :
    p.updateDB value key s = .ok { s with table := s.table.update value key } := by
  rw [Platform.updateDB, documented.execSQL_update value key s.table value' key']

theorem literal_key (kind : FileKind) : Literal kind.key := by
  cases kind <;> decide

/-- Picking the file that the field has. -/
theorem Kept.pick (kept : Kept p s c) (kind : FileKind) :
    s.table.update (kind.field s.statics) kind.key = s.table ∧
      c.withFile kind (kind.field s.statics) = c := by
  obtain ⟨lat, lon, hgt, time, table, -⟩ := kept.table
  have file := kept.file kind
  rw [table, update_file]
  cases kind with
  | csv => exact ⟨rfl, by rw [file]; rfl⟩
  | txt => exact ⟨rfl, by rw [file]; rfl⟩
  | trajectory => exact ⟨rfl, by rw [file]; rfl⟩

/-- A path that is picked is only in the table. -/
theorem Kept.eq_of_pick (kept : Kept p s c) {kind : FileKind} {message : Text}
    (current : p.Current { s with table := s.table.update message kind.key } c') :
    message = kind.field s.statics := by
  obtain ⟨lat, lon, hgt, time, table, -⟩ := kept.table
  have stored := current.inSync.file kind
  dsimp only at stored
  rw [table, update_file] at stored
  cases kind with
  | csv => exact List.singleton_inj.mp stored
  | txt => exact List.singleton_inj.mp stored
  | trajectory => exact List.singleton_inj.mp stored

/-! ### Saving -/

/-- The table after `Save`. -/
def savedTable (p : Platform D) (fields : Fields) (table : Table) : Table :=
  let table := (table.update fields.time timeKey).update trajectoryKey fields.trajectory
  match fields.radio with
  | .coor => (((table.update fields.lat latKey).update fields.lon lonKey).update fields.hgt
      hgtKey).update (p.valueOfInt 3) checkSectionKey
  | .csv => table.update (p.valueOfInt 1) checkSectionKey
  | .txt => table.update (p.valueOfInt 2) checkSectionKey

theorem save_of_literal (documented : p.Documented) {fields : Fields} {time : Int}
    (literal : ∀ text ∈ fields.texts, Literal text) (number : p.parseInt fields.time = some time)
    (s : App D) :
    p.save fields s = .ok {
      statics := { s.statics with Time := time, checkSection := fields.radio.checkSection }
      table := savedTable p fields s.table } := by
  obtain ⟨time', trajectory⟩ : Literal fields.time ∧ Literal fields.trajectory := by
    constructor <;>
    · apply literal
      unfold Fields.texts
      split <;> simp
  have coordinates : fields.radio = .coor →
      Literal fields.lat ∧ Literal fields.lon ∧ Literal fields.hgt := by
    intro radio
    refine ⟨?_, ?_, ?_⟩ <;>
    · apply literal
      simp [Fields.texts, radio]
  have keys : Literal timeKey ∧ Literal trajectoryKey ∧ Literal latKey ∧ Literal lonKey ∧
      Literal hgtKey ∧ Literal checkSectionKey := by
    decide
  obtain ⟨timeKey', trajectoryKey', latKey', lonKey', hgtKey', sectionKey'⟩ := keys
  have one := documented.literal_valueOfInt 1 (by simp)
  have two := documented.literal_valueOfInt 2 (by simp)
  have three := documented.literal_valueOfInt 3 (by simp)
  rw [Platform.save, number]
  dsimp only
  rw [updateDB_of_literal documented time' timeKey']
  dsimp only [bind, Except.bind]
  rw [updateDB_of_literal documented trajectoryKey' trajectory]
  dsimp only
  unfold Platform.saveSection savedTable
  cases radio : fields.radio with
  | coor =>
      obtain ⟨lat, lon, hgt⟩ := coordinates radio
      dsimp only [bind, Except.bind]
      rw [updateDB_of_literal documented lat latKey']
      dsimp only
      rw [updateDB_of_literal documented lon lonKey']
      dsimp only
      rw [updateDB_of_literal documented hgt hgtKey']
      dsimp only
      rw [updateDB_of_literal documented three sectionKey']
  | csv => exact updateDB_of_literal documented one sectionKey' _
  | txt => exact updateDB_of_literal documented two sectionKey' _

/-- What `Save` makes of the rows, when the trajectory is that of the fields. -/
theorem savedTable_rows {fields : Fields} {csv txt lat lon hgt time : Text}
    (trajectory : fields.trajectory = trajectoryKey) :
    savedTable p fields (rows csv txt lat lon hgt time trajectoryKey) =
      match fields.radio with
      | .coor => rows csv txt fields.lat fields.lon fields.hgt fields.time trajectoryKey
      | _ => rows csv txt lat lon hgt fields.time trajectoryKey := by
  unfold savedTable
  dsimp only
  rw [trajectory, update_time, update_trajectory]
  cases fields.radio <;> rfl

/-- What is saved with every button. -/
theorem withFields_saved (c : Choice) (fields : Fields) :
    (c.withFields fields).csv = c.csv ∧ (c.withFields fields).txt = c.txt ∧
      (c.withFields fields).trajectory = fields.trajectory ∧
      (c.withFields fields).time = fields.time ∧
      (c.withFields fields).checkSection = fields.radio.checkSection := by
  unfold Choice.withFields
  cases fields.radio <;> exact ⟨rfl, rfl, rfl, rfl, rfl⟩

/-- Saving the values that the fields have, and any time and button. -/
theorem Kept.save (kept : Kept p s c) {fields : Fields} {time : Int}
    (number : p.parseInt fields.time = some time)
    (trajectory : fields.trajectory = s.statics.trajectory)
    (coordinates : fields.radio = .coor → p.parseDouble fields.lat = some s.statics.Lat ∧
      p.parseDouble fields.lon = some s.statics.Lon ∧
      p.parseDouble fields.hgt = some s.statics.Hgt) :
    Kept p {
      statics := { s.statics with Time := time, checkSection := fields.radio.checkSection }
      table := savedTable p fields s.table } (c.withFields fields) := by
  obtain ⟨lat, lon, hgt, time', table, lat', lon', hgt', -⟩ := kept.table
  obtain ⟨csv, txt, chosen, saved, button⟩ := withFields_saved c fields
  have key := kept.ownKey
  have place : p.parseDouble (c.withFields fields).lat = some s.statics.Lat ∧
      p.parseDouble (c.withFields fields).lon = some s.statics.Lon ∧
      p.parseDouble (c.withFields fields).hgt = some s.statics.Hgt := by
    unfold Choice.withFields
    cases radio : fields.radio with
    | coor => exact coordinates radio
    | csv => exact ⟨kept.lat, kept.lon, kept.hgt⟩
    | txt => exact ⟨kept.lat, kept.lon, kept.hgt⟩
  refine ⟨?_, key, fun kind => ?_, place.1, place.2.1, place.2.2, by rw [saved, number], button⟩
  · dsimp only
    rw [table, key, savedTable_rows (trajectory.trans key)]
    cases radio : fields.radio with
    | coor =>
        obtain ⟨x, y, z⟩ := coordinates radio
        exact ⟨_, _, _, _, rfl, x, y, z, number⟩
    | csv => exact ⟨_, _, _, _, rfl, lat', lon', hgt', number⟩
    | txt => exact ⟨_, _, _, _, rfl, lat', lon', hgt', number⟩
  · cases kind with
    | csv => exact (kept.file .csv).trans csv.symm
    | txt => exact (kept.file .txt).trans txt.symm
    | trajectory => exact trajectory.symm.trans chosen.symm

/-- What is saved has to be what the fields have. -/
theorem Kept.eq_of_save (kept : Kept p s c) {fields : Fields} {time : Int}
    (current : p.Current {
      statics := { s.statics with Time := time, checkSection := fields.radio.checkSection }
      table := savedTable p fields s.table } (c.withFields fields)) :
    fields.trajectory = s.statics.trajectory ∧
      (fields.radio = .coor → p.parseDouble fields.lat = some s.statics.Lat ∧
        p.parseDouble fields.lon = some s.statics.Lon ∧
        p.parseDouble fields.hgt = some s.statics.Hgt) := by
  have button : ({ s.statics with Time := time, checkSection := fields.radio.checkSection } :
      Statics D).checkSection = fields.radio.checkSection := rfl
  have used := (fields_of_used button current.used).2
  have chosen := (withFields_saved c fields).2.2.1
  have trajectory : fields.trajectory = s.statics.trajectory := chosen.symm.trans used.symm
  refine ⟨trajectory, fun radio => ?_⟩
  obtain ⟨lat, lon, hgt, time', table, -⟩ := kept.table
  have key := kept.ownKey
  have rest : savedTable p fields
      (rows s.statics.CSV s.statics.TXT lat lon hgt time' trajectoryKey) = _ :=
    savedTable_rows (trajectory.trans key)
  rw [radio] at rest
  obtain ⟨-, ⟨x, selectx, x'⟩, ⟨y, selecty, y'⟩, ⟨z, selectz, z'⟩, -⟩ := current.inSync
  dsimp only at selectx selecty selectz x' y' z'
  rw [table, key, rest] at selectx selecty selectz
  obtain rfl := List.singleton_inj.mp selectx
  obtain rfl := List.singleton_inj.mp selecty
  obtain rfl := List.singleton_inj.mp selectz
  exact ⟨x', y', z'⟩

end Steps

end Navisim.Settings

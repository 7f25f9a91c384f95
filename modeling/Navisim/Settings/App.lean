import Navisim.Motion.Readers

/-!
# The settings of the app

`Setting` and `SqlController`: the settings are static fields, from which `generateSimData` takes
its request, and rows of a table, from which a start of the app takes the fields.  Saving and
picking write some of both.  The Java library and the database are a parameter; an exception that
nothing catches ends the process, and the app starts again.
-/

namespace Navisim.Settings

open Motion

/-- A Java string. -/
abbrev Text := List Char

/-! ## The table -/

/-- The rows of the table `setting`, as pairs of a key and a value. -/
abbrev Table := List (Text × Text)

/-- The values under a key, in the order of the rows. -/
def Table.selectData (table : Table) (key : Text) : List Text :=
  (table.filter fun row => row.1 = key).map Prod.snd

def Table.insert (table : Table) (key value : Text) : Table :=
  table ++ [(key, value)]

/-- Every row with the key gets the value. -/
def Table.update (table : Table) (value key : Text) : Table :=
  table.map fun row => if row.1 = key then (row.1, value) else row

def csvKey : Text := "csv".toList
def txtKey : Text := "txt".toList
def latKey : Text := "lat".toList
def lonKey : Text := "lon".toList
def hgtKey : Text := "hgt".toList
def timeKey : Text := "time".toList
def checkSectionKey : Text := "check_section".toList

/-- `TRAJECTORY` -/
def trajectoryKey : Text := "brdc3540.14n".toList

def updateSet : Text := "UPDATE setting SET value = \"".toList
def updateWhere : Text := "\" WHERE key = \"".toList
def updateEnd : Text := "\";".toList

/-- The statement that `updateDB` makes of its arguments. -/
def updateStatement (value key : Text) : Text :=
  updateSet ++ value ++ updateWhere ++ key ++ updateEnd

/-! ## The static fields -/

/-- The static fields of `Setting`; `D` is the type of the `double`s. -/
structure Statics (D : Type) where
  CSV : Text
  TXT : Text
  trajectory : Text
  Lat : D
  Lon : D
  Hgt : D
  Time : Int
  /-- 0: CSV, 1: TXT, 2: coordinates. -/
  checkSection : Int
  deriving DecidableEq

/-- What the code uses of Java and of the database. -/
structure Platform (D : Type) where
  /-- The `double` of a number in the source. -/
  double : ℚ → D
  /-- `Integer.parseInt`; `none` is an exception, as in the next ones. -/
  parseInt : Text → Option Int
  /-- `String.valueOf(int)` -/
  valueOfInt : Int → Text
  parseDouble : Text → Option D
  /-- `String.valueOf(double)` -/
  valueOf : D → Text
  execSQL : Text → Table → Option Table

section Lookup

variable {D : Type}

/-- A running app. -/
structure App (D : Type) where
  statics : Statics D
  table : Table
  deriving DecidableEq

/-- One of the seven cases of `insertDataFirst`: the first value under the key goes into a field,
or the value of the field into a new row. -/
def loadOrInsert (key value : Text) (store : Text → Statics D → Option (Statics D)) (s : App D) :
    Option (App D) :=
  match s.table.selectData key with
  | [] => some { s with table := s.table.insert key value }
  | text :: _ => (store text s.statics).map fun statics => { s with statics := statics }

/-! ## What is picked -/

/-- `substring(beginIndex)`; `none` is an exception. -/
def substring (text : Text) (beginIndex : Nat) : Option Text :=
  if beginIndex ≤ text.length then some (text.drop beginIndex) else none

/-- `message.substring(message.lastIndexOf("."))`; without a dot the index is -1, which is an
exception. -/
def extension : Text → Option Text
  | [] => none
  | c :: text =>
      match extension text with
      | some ext => some ext
      | none => if c = '.' then some (c :: text) else none

/-- The three files, by their request codes. -/
inductive FileKind
  | csv
  | txt
  | trajectory
  deriving DecidableEq, Repr

def FileKind.suffix : FileKind → Text
  | csv => ".csv".toList
  | txt => ".txt".toList
  | trajectory => ".14n".toList

def FileKind.key : FileKind → Text
  | csv => csvKey
  | txt => txtKey
  | trajectory => trajectoryKey

/-- The field of a file. -/
def FileKind.field : FileKind → Statics D → Text
  | csv => Statics.CSV
  | txt => Statics.TXT
  | trajectory => Statics.trajectory

/-- What `onActivityResult` makes of the data string: an exception, a file that is refused, or the
path that is taken. -/
def FileKind.path (kind : FileKind) (dataString : Text) : Option (Option Text) := do
  let message ← substring dataString 7
  let ext ← extension message
  if ext = kind.suffix then some (some message) else some none

/-! ## What is saved -/

/-- The radio buttons. -/
inductive Radio
  | coor
  | csv
  | txt
  deriving DecidableEq, Repr

/-- The `checkSection` of a button. -/
def Radio.checkSection : Radio → Int
  | coor => 2
  | csv => 0
  | txt => 1

/-- The texts of the widgets that `Save` reads, and the button that is checked. -/
structure Fields where
  time : Text
  trajectory : Text
  lat : Text
  lon : Text
  hgt : Text
  radio : Radio
  deriving DecidableEq

end Lookup

/-- What the user does. -/
inductive Action
  | save (fields : Fields)
  | pick (kind : FileKind) (dataString : Text)
  | restart
  deriving DecidableEq

/-- What `generateSimData` gives to `generateData`. -/
structure Request where
  pathFile : Text
  trajectory : Text
  flag : Int
  time : Int
  deriving DecidableEq, Repr

namespace Platform

variable {D : Type} (p : Platform D)

/-- The static fields of a new process. -/
def initial : Statics D where
  CSV := "circle.csv".toList
  TXT := "triumphv3.txt".toList
  trajectory := "brdc3540.14n".toList
  Lat := p.double 30.286502
  Lon := p.double 120.032669
  Hgt := p.double 100
  Time := 6
  checkSection := 0

/-- A text goes into a field of numbers. -/
def parsed {α : Type} (parse : Text → Option α) (set : Statics D → α → Statics D) (text : Text)
    (statics : Statics D) : Option (Statics D) :=
  (parse text).map (set statics)

def insertDataFirst (s : App D) : Option (App D) := do
  let s ← loadOrInsert csvKey s.statics.CSV
    (fun text statics => some { statics with CSV := text }) s
  let s ← loadOrInsert txtKey s.statics.TXT
    (fun text statics => some { statics with TXT := text }) s
  let s ← loadOrInsert latKey (p.valueOf s.statics.Lat)
    (parsed p.parseDouble fun statics x => { statics with Lat := x }) s
  let s ← loadOrInsert lonKey (p.valueOf s.statics.Lon)
    (parsed p.parseDouble fun statics x => { statics with Lon := x }) s
  let s ← loadOrInsert hgtKey (p.valueOf s.statics.Hgt)
    (parsed p.parseDouble fun statics x => { statics with Hgt := x }) s
  let s ← loadOrInsert timeKey (p.valueOfInt s.statics.Time)
    (parsed p.parseInt fun statics n => { statics with Time := n }) s
  loadOrInsert trajectoryKey s.statics.trajectory
    (fun text statics => some { statics with trajectory := text }) s

/-- `MainActivity.onCreate` in a new process; `none` if the app cannot start. -/
def start (table : Table) : Option (App D) :=
  p.insertDataFirst { statics := p.initial, table := table }

/-- An exception leaves the table as it is. -/
def updateDB (value key : Text) (s : App D) : Except Table (App D) :=
  match p.execSQL (updateStatement value key) s.table with
  | some table => .ok { s with table := table }
  | none => .error s.table

/-- The coordinates are only saved with their button. -/
def saveSection (fields : Fields) (s : App D) : Except Table (App D) :=
  let s := { s with statics := { s.statics with checkSection := fields.radio.checkSection } }
  match fields.radio with
  | .coor => do
      let s ← p.updateDB fields.lat latKey s
      let s ← p.updateDB fields.lon lonKey s
      let s ← p.updateDB fields.hgt hgtKey s
      p.updateDB (p.valueOfInt 3) checkSectionKey s
  | .csv => p.updateDB (p.valueOfInt 1) checkSectionKey s
  | .txt => p.updateDB (p.valueOfInt 2) checkSectionKey s

def save (fields : Fields) (s : App D) : Except Table (App D) :=
  match p.parseInt fields.time with
  | none => .error s.table
  | some time => do
      let s := { s with statics := { s.statics with Time := time } }
      let s ← p.updateDB fields.time timeKey s
      -- The key stands in the place of the value.
      let s ← p.updateDB trajectoryKey fields.trajectory s
      p.saveSection fields s

def onActivityResult (kind : FileKind) (dataString : Text) (s : App D) : Except Table (App D) :=
  match kind.path dataString with
  | none => .error s.table
  | some none => .ok s
  | some (some message) => p.updateDB message kind.key s

/-- What an action leads to. -/
def act (action : Action) (s : App D) : Except Table (App D) :=
  match action with
  | .save fields => p.save fields s
  | .pick kind dataString => p.onActivityResult kind dataString s
  | .restart => .error s.table

/-- After the end of the process the app starts again. -/
def step (action : Action) (s : App D) : Option (App D) :=
  match p.act action s with
  | .ok s => some s
  | .error table => p.start table

/-- The app after the first `n` actions, from a fresh database. -/
def after (actions : Nat → Action) : Nat → Option (App D)
  | 0 => p.start []
  | n + 1 => (after actions n).bind (p.step (actions n))

def generateSimData (statics : Statics D) : Option Request :=
  let setting : Motion.Setting := {
    checkSection := statics.checkSection
    CSV := statics.CSV
    TXT := statics.TXT
    Lat := p.valueOf statics.Lat
    Lon := p.valueOf statics.Lon
    Hgt := p.valueOf statics.Hgt }
  setting.pathFile.map fun pathFile => {
    pathFile := pathFile
    trajectory := statics.trajectory
    flag := statics.checkSection
    time := statics.Time }

end Platform

end Navisim.Settings

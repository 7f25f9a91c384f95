import Navisim.Lib.Text
import Navisim.Loop.Allocate

/-!
# Receiver positions

How the positions of the receiver come into the program: `readUserMotion`,
`readUserMotionInLLH` and `readNmeaGGA` read them from files, and `runCore3` takes static
coordinates from the text that `generateSimData` makes of the settings.  The type of the positions
is a parameter, with the two ways to make one.
-/

namespace Navisim.Motion

open Text Loop

/-- `MAX_CHAR` -/
def maxChar : Nat := 100
def userMotionSize : Nat := 3000
def wayPointSize : Nat := userMotionSize / 10

/-- How positions are made. -/
structure Frame (P : Type*) where
  /-- From Cartesian coordinates. -/
  ecef : Number × Number × Number → P
  /-- From latitude, longitude and height. -/
  llh2xyz : Number × Number × Number → P

/-- What a reader finds in its local variables. -/
structure Locals where
  str : List Char
  /-- The variables that `sscanf` is given, in the order of the format. -/
  vars : Nat → Number
  numd : Int

/-- The variables whose directives matched are assigned. -/
def assign (values : List Number) (vars : Nat → Number) : Nat → Number :=
  fun k => values.getD k (vars k)

variable {P : Type*} (frame : Frame P)

/-! ## Motion in Cartesian coordinates -/

/-- The loop over the lines `t,x,y,z`. -/
def readMotion : List (List Char) → Nat → (Nat → Number) → (Nat → P) → (Nat → P) × Nat
  | [], numd, _, xyz => (xyz, numd)
  | str :: rest, numd, vars, xyz =>
      if numd ≥ userMotionSize then (xyz, numd)
      else if isEof str then (xyz, numd)
      else
        let vars := assign (scanNumbers (.literal ',') 4 (cString str)) vars
        readMotion rest (numd + 1) vars
          (Function.update xyz numd (frame.ecef (vars 1, vars 2, vars 3)))

/-- The track and what is returned; `file` is `none` if it cannot be opened. -/
def readUserMotion (locals : Locals) (xyz : Nat → P) (file : Option (List Char)) :
    (Nat → P) × Int :=
  match file with
  | none => (xyz, -1)
  | some file =>
      let (xyz, numd) :=
        readMotion frame (lines maxChar locals.str file) 0 locals.vars xyz
      (xyz, numd)

/-! ## Way points -/

/-- The global variables of the way points, with whatever lies around the arrays; the times are of
type `T`. -/
structure WayPoints (P T : Type*) where
  xyzWayPoint : Int → P
  durationWayPoint : Int → T
  nWayPoint : Int

/-- The loop over the lines `x y z t`. -/
def readWayPoints : List (List Char) → Nat → (Nat → Number) → WayPoints P Number →
    WayPoints P Number × Nat
  | [], numd, _, w => (w, numd)
  | str :: rest, numd, vars, w =>
      if numd ≥ wayPointSize then (w, numd)
      else if isEof str then (w, numd)
      else
        let vars := assign (scanNumbers .blank 4 (cString str)) vars
        let llh := (vars 0 / r2d, vars 1 / r2d, vars 2 / r2d)
        readWayPoints rest (numd + 1) vars { w with
          xyzWayPoint := Function.update w.xyzWayPoint numd (frame.llh2xyz llh)
          durationWayPoint := Function.update w.durationWayPoint numd (vars 3 * 60) }

/-- The conversion of a `double` to an `int`, which is defined if the integer part fits. -/
def toInt : Number → Option Int
  | .finite x => if -2 ^ 31 ≤ trunc x ∧ trunc x < 2 ^ 31 then some (trunc x) else none
  | .infinite _ | .nan => none

/-- What is left of the way points, and what is returned, if it is defined.  Nothing is assigned
to the count if there is no first line. -/
def endWayPoints (w : WayPoints P Number) (numd : Int) : WayPoints P Number × Option Int :=
  ({ w with nWayPoint := numd }, toInt (w.durationWayPoint (numd - 1) * 10))

def readUserMotionInLLH (locals : Locals) (w : WayPoints P Number) (file : Option (List Char)) :
    WayPoints P Number × Option Int :=
  match file with
  | none => (w, some (-1))
  | some file =>
      match lines maxChar locals.str file with
      | [] => endWayPoints w locals.numd
      -- Skip first line
      | _ :: rest =>
          let (w, numd) := readWayPoints frame rest 0 locals.vars w
          endWayPoints w numd

/-! ## Sentences -/

/-- The geodetic position of a GGA sentence, in radian and metres, if the line is one; `none` if a
token is missing. -/
def readSentence (str : List Char) : Option (Option (Number × Number × Number)) := do
  let (token, s) ← strtok ',' str
  if (token.drop 3).take 3 ≠ ['G', 'G', 'A'] then
    return none
  let (_, s) ← strtok ',' s -- Date and time
  let (token, s) ← strtok ',' s -- Latitude
  let lat := atof (token.take 2) + atof (token.drop 2) / 60.0
  let (token, s) ← strtok ',' s -- North or south
  let lat := if token.head? = some 'S' then lat * -1.0 else lat
  let (token, s) ← strtok ',' s -- Longitude
  let lon := atof (token.take 3) + atof (token.drop 3) / 60.0
  let (token, s) ← strtok ',' s -- East or west
  let lon := if token.head? = some 'W' then lon * -1.0 else lon
  let (_, s) ← strtok ',' s -- GPS fix
  let (_, s) ← strtok ',' s -- Number of satellites
  let (_, s) ← strtok ',' s -- HDOP
  let (token, s) ← strtok ',' s -- Altitude above meas sea level
  let hgt := atof token
  let (_, s) ← strtok ',' s -- in meter
  let (token, _) ← strtok ',' s -- Geoid height above WGS84 ellipsoid
  let hgt := hgt + atof token
  return some (lat / r2d, lon / r2d, hgt)

/-- The loop over the lines. -/
def readSentences : List (List Char) → Nat → (Nat → P) → Option ((Nat → P) × Nat)
  | [], numd, xyz => some (xyz, numd)
  | str :: rest, numd, xyz =>
      match readSentence str with
      | none => none
      | some none => readSentences rest numd xyz
      | some (some llh) =>
          -- Convert geodetic position into ECEF coordinates
          let xyz := Function.update xyz numd (frame.llh2xyz llh)
          if numd + 1 ≥ userMotionSize then some (xyz, numd + 1)
          else readSentences rest (numd + 1) xyz

def readNmeaGGA (locals : Locals) (xyz : Nat → P) (file : Option (List Char)) :
    Option ((Nat → P) × Int) :=
  match file with
  | none => some (xyz, -1)
  | some file =>
      (readSentences frame (lines maxChar locals.str file) 0 xyz).map fun (xyz, numd) =>
        (xyz, (numd : Int))

/-! ## The settings -/

/-- The fields of `Setting` that say where the receiver is. -/
structure Setting where
  checkSection : Int
  CSV : List Char
  TXT : List Char
  Lat : List Char
  Lon : List Char
  Hgt : List Char

/-- The path that `generateSimData` gives to `generateData`. -/
def Setting.pathFile (setting : Setting) : Option (List Char) :=
  if setting.checkSection = 0 then some setting.CSV
  else if setting.checkSection = 1 then some setting.TXT
  else if setting.checkSection = 2 then
    some (setting.Lat ++ ',' :: (setting.Lon ++ ',' :: setting.Hgt))
  else none

/-- The positions that a run has, if they are defined. -/
structure Positions (P : Type*) where
  staticLocationMode : Bool
  xyz : Nat → P
  /-- What the reader has returned. -/
  points : Int

/-- The positions that `runCore3` takes from its path and its flag; `fopen` gives the content of a
file.  An empty path is no motion file. -/
def runCore3Positions (fopen : List Char → Option (List Char)) (locals : Locals) (xyz : Nat → P)
    (path : List Char) (flag : Int) : Option (Positions P) :=
  if flag = 2 then
    let coordinates := assign (scanNumbers (.literal ',') 3 (cString path)) locals.vars
    some {
      staticLocationMode := true
      xyz := Function.update xyz 0 (frame.ecef (coordinates 0, coordinates 1, coordinates 2))
      points := 0 }
  else if ¬ (flag = 0 ∨ flag = 1) then none
  else if cString path = [] then
    some { staticLocationMode := true, xyz := xyz, points := 0 }
  else if flag = 1 then
    (readNmeaGGA frame locals xyz (fopen path)).map fun (xyz, points) =>
      { staticLocationMode := false, xyz := xyz, points := points }
  else
    let (xyz, points) := readUserMotion frame locals xyz (fopen path)
    some { staticLocationMode := false, xyz := xyz, points := points }

/-- The position that the range computation is given for step `iumd`. -/
def Positions.position (positions : Positions P) (iumd : Nat) : P :=
  if !positions.staticLocationMode then positions.xyz iumd else positions.xyz 0

/-- The positions of the data that `generateSimData` asks for. -/
def generateSimData (fopen : List Char → Option (List Char)) (locals : Locals) (xyz : Nat → P)
    (setting : Setting) : Option (Positions P) :=
  setting.pathFile.bind fun path =>
    runCore3Positions frame fopen locals xyz path setting.checkSection

/-- Static coordinates hold for every step. -/
theorem position_of_static {positions : Positions P} (static : positions.staticLocationMode = true)
    (iumd : Nat) : positions.position iumd = positions.xyz 0 := by
  rw [Positions.position, static]
  rfl

section Sections

variable {frame} {fopen : List Char → Option (List Char)} {locals : Locals} {xyz : Nat → P}
  {setting : Setting} {iumd : Nat}

/-- With the second choice of the settings, sentences are read. -/
theorem generateSimData_sentences (chosen : setting.checkSection = 1)
    (path_ne : cString setting.TXT ≠ []) :
    generateSimData frame fopen locals xyz setting =
      (readNmeaGGA frame locals xyz (fopen setting.TXT)).map fun (xyz, points) =>
        { staticLocationMode := false, xyz := xyz, points := points } := by
  have path : setting.pathFile = some setting.TXT := by
    rw [Setting.pathFile, chosen, if_neg (by decide), if_pos rfl]
  rw [generateSimData, path, Option.bind_some, runCore3Positions, chosen, if_neg (by decide),
    if_neg (by decide), if_neg path_ne, if_pos rfl]

/-- With the third one, the coordinates become the position of every step. -/
theorem generateSimData_coordinates (chosen : setting.checkSection = 2) :
    ((generateSimData frame fopen locals xyz setting).map fun positions =>
        positions.position iumd) =
      let text := setting.Lat ++ ',' :: (setting.Lon ++ ',' :: setting.Hgt)
      let coordinates := assign (scanNumbers (.literal ',') 3 (cString text)) locals.vars
      some (frame.ecef (coordinates 0, coordinates 1, coordinates 2)) := by
  have path : setting.pathFile =
      some (setting.Lat ++ ',' :: (setting.Lon ++ ',' :: setting.Hgt)) := by
    rw [Setting.pathFile, chosen, if_neg (by decide), if_neg (by decide), if_pos rfl]
  rw [generateSimData, path, Option.bind_some, runCore3Positions, chosen, if_pos rfl,
    Option.map_some, position_of_static rfl]
  dsimp only
  rw [Function.update_self]

end Sections

end Navisim.Motion

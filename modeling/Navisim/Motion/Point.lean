import Mathlib.Analysis.SpecialFunctions.Trigonometric.Basic
import Navisim.Motion.Lines

/-!
# Geodetic points

A geodetic point enters the program as a GGA sentence, as a line of way points, or as the
coordinates of the settings.  `Entry` is such an entry with everything around it, and
`Entry.handed` the position that comes of it; `handed_iff` says which entries are converted to the
Cartesian position of the point.
-/

namespace Navisim.Motion

open Text Loop

/-! ## Geodetic to Cartesian coordinates -/

/-- `WGS84_RADIUS` -/
def wgs84Radius : ℚ := 6378137.0

/-- `WGS84_ECCENTRICITY` -/
def wgs84Eccentricity : ℚ := 0.0818191908426

noncomputable def llh2xyz (llh : ℝ × ℝ × ℝ) : ℝ × ℝ × ℝ :=
  let a : ℝ := wgs84Radius
  let e : ℝ := wgs84Eccentricity
  let e2 := e * e
  let clat := Real.cos llh.1
  let slat := Real.sin llh.1
  let clon := Real.cos llh.2.1
  let slon := Real.sin llh.2.1
  let d := e * slat
  let n := a / √(1.0 - d * d)
  let nph := n + llh.2.2
  let tmp := nph * clat
  (tmp * clon, tmp * slon, ((1.0 - e2) * n + llh.2.2) * slat)

/-- Three numbers of a text. -/
noncomputable def cast (x : ℚ × ℚ × ℚ) : ℝ × ℝ × ℝ :=
  (x.1, x.2.1, x.2.2)

/-- Three numbers, if they are finite. -/
noncomputable def reals : Number × Number × Number → Option (ℝ × ℝ × ℝ)
  | (.finite x, .finite y, .finite z) => some (x, y, z)
  | _ => none

/-- The positions of the program, if they are finite. -/
noncomputable def wgs84 : Frame (Option (ℝ × ℝ × ℝ)) where
  ecef := reals
  llh2xyz llh := (reals llh).map llh2xyz

section Geometry

variable {lat lon h h' : ℝ}

/-- `e2` -/
noncomputable def eccentricitySq : ℝ :=
  wgs84Eccentricity * wgs84Eccentricity

/-- `n`, the radius of curvature in the prime vertical. -/
noncomputable def curvature (lat : ℝ) : ℝ :=
  wgs84Radius / √(1.0 - wgs84Eccentricity * Real.sin lat * (wgs84Eccentricity * Real.sin lat))

theorem eccentricitySq_range : 0 ≤ eccentricitySq ∧ eccentricitySq < 0.0067 := by
  norm_num [eccentricitySq, wgs84Eccentricity]

/-- The curvature is at least that of the equator. -/
theorem le_curvature (lat : ℝ) : 6378137 ≤ curvature lat := by
  obtain ⟨nonneg, small⟩ := eccentricitySq_range
  have square : wgs84Eccentricity * Real.sin lat * (wgs84Eccentricity * Real.sin lat) =
      eccentricitySq * Real.sin lat ^ 2 := by
    rw [eccentricitySq]
    ring
  have bound : eccentricitySq * Real.sin lat ^ 2 ≤ eccentricitySq * 1 :=
    mul_le_mul_of_nonneg_left (Real.sin_sq_le_one lat) nonneg
  have lower : 0 ≤ eccentricitySq * Real.sin lat ^ 2 := mul_nonneg nonneg (sq_nonneg _)
  have positive : 0 < √(1.0 - eccentricitySq * Real.sin lat ^ 2) :=
    Real.sqrt_pos.mpr (by norm_num at *; linarith)
  have at_most_one : √(1.0 - eccentricitySq * Real.sin lat ^ 2) ≤ 1 :=
    Real.sqrt_le_one.mpr (by norm_num; linarith)
  have radius : (wgs84Radius : ℝ) = 6378137 := by norm_num [wgs84Radius]
  rw [curvature, square, radius, le_div_iff₀ positive]
  linarith

/-- The components of a position. -/
theorem llh2xyz_eq (lat lon h : ℝ) :
    llh2xyz (lat, lon, h) = ((curvature lat + h) * Real.cos lat * Real.cos lon,
      (curvature lat + h) * Real.cos lat * Real.sin lon,
      ((1 - eccentricitySq) * curvature lat + h) * Real.sin lat) := by
  have one : (1.0 : ℝ) = 1 := by norm_num
  rw [llh2xyz, curvature, eccentricitySq, one]

/-- Two heights above one place are two positions. -/
theorem llh2xyz_height (same : llh2xyz (lat, lon, h) = llh2xyz (lat, lon, h')) : h = h' := by
  rw [llh2xyz_eq, llh2xyz_eq, Prod.mk.injEq, Prod.mk.injEq] at same
  obtain ⟨x, y, z⟩ := same
  have dx : (h - h') * Real.cos lat * Real.cos lon = 0 := by linear_combination x
  have dy : (h - h') * Real.cos lat * Real.sin lon = 0 := by linear_combination y
  have dz : (h - h') * Real.sin lat = 0 := by linear_combination z
  -- the direction of the height is a unit vector
  have unit : (h - h') ^ 2 = ((h - h') * Real.cos lat * Real.cos lon) ^ 2 +
      ((h - h') * Real.cos lat * Real.sin lon) ^ 2 + ((h - h') * Real.sin lat) ^ 2 := by
    linear_combination -(h - h') ^ 2 * Real.sin_sq_add_cos_sq lat -
      ((h - h') * Real.cos lat) ^ 2 * Real.sin_sq_add_cos_sq lon
  rw [dx, dy, dz] at unit
  have zero : h - h' = 0 := by
    apply (pow_eq_zero_iff two_ne_zero).mp
    linarith
  linarith

/-- The distance from the axis. -/
theorem llh2xyz_axis {x y z : ℝ} (same : llh2xyz (lat, lon, h) = (x, y, z)) :
    ((curvature lat + h) * Real.cos lat) ^ 2 = x ^ 2 + y ^ 2 := by
  rw [llh2xyz_eq, Prod.mk.injEq, Prod.mk.injEq] at same
  rw [← same.1, ← same.2.1]
  linear_combination -((curvature lat + h) * Real.cos lat) ^ 2 * Real.sin_sq_add_cos_sq lon

/-- The flattening changes little. -/
theorem flattening_range (lat : ℝ) :
    99 / 100 ≤ 1 - eccentricitySq * Real.sin lat ∧
      1 - eccentricitySq * Real.sin lat ≤ 10067 / 10000 := by
  obtain ⟨nonneg, small⟩ := eccentricitySq_range
  have upper := mul_le_mul_of_nonneg_left (Real.sin_le_one lat) nonneg
  have lower := mul_le_mul_of_nonneg_left (Real.neg_one_le_sin lat) nonneg
  norm_num at small
  constructor <;> linarith

/-- Angles in degrees and a height are not the Cartesian coordinates of a point, unless this lies
thousands of kilometres below the ellipsoid. -/
theorem llh2xyz_ne {x y : ℝ} (x_range : |x| ≤ 90) (y_range : |y| ≤ 180) (high : -3000000 ≤ h) :
    llh2xyz (lat, lon, h) ≠ (x, y, h) := by
  intro same
  have axis := llh2xyz_axis same
  rw [llh2xyz_eq, Prod.mk.injEq, Prod.mk.injEq] at same
  obtain ⟨-, -, third⟩ := same
  have radius := le_curvature lat
  obtain ⟨atLeast, atMost⟩ := flattening_range lat
  have circle := Real.sin_sq_add_cos_sq lat
  generalize curvature lat = n at *
  generalize Real.sin lat = s at *
  generalize Real.cos lat = c at *
  generalize eccentricitySq = e2 at *
  -- the distance from the axis is small
  have small_x : x ^ 2 ≤ 90 ^ 2 :=
    sq_le_sq' (neg_le_of_abs_le x_range) (le_of_abs_le x_range)
  have small_y : y ^ 2 ≤ 180 ^ 2 :=
    sq_le_sq' (neg_le_of_abs_le y_range) (le_of_abs_le y_range)
  -- so the point is near the axis, and by its height south of the equator
  have height : (n + h) * (1 - s) = n * (1 - e2 * s) := by linear_combination -third
  have product : (n + h) * (n * (1 - e2 * s)) * (1 + s) = ((n + h) * c) ^ 2 := by
    rw [← height]
    linear_combination -(n + h) ^ 2 * circle
  have centre : 3378137 ≤ n + h := by linarith
  have polar : 6000000 ≤ n * (1 - e2 * s) := by
    have bound := mul_le_mul radius atLeast (by norm_num) (by linarith)
    linarith
  have both : 3378137 * 6000000 ≤ (n + h) * (n * (1 - e2 * s)) :=
    mul_le_mul centre polar (by norm_num) (by linarith)
  have south : 1 + s ≤ 1 / 100000 := by
    by_contra north
    have bound := mul_le_mul both (not_le.mp north).le (by norm_num) (by linarith)
    linarith
  -- there the height is negative, and large
  have opposite : n * (1 - e2 * s) ≤ n * (10067 / 10000) :=
    mul_le_mul_of_nonneg_left atMost (by linarith)
  have inward : (n + h) * (199999 / 100000) ≤ (n + h) * (1 - s) :=
    mul_le_mul_of_nonneg_left (by linarith) (by linarith)
  linarith

end Geometry

/-! ## Entries -/

/-- Latitude and longitude in degrees, and a height in metres. -/
structure GeodeticPoint where
  lat : ℚ
  lon : ℚ
  hgt : ℚ
  lat_range : |lat| ≤ 90
  lon_range : |lon| ≤ 180

namespace GeodeticPoint

variable (p : GeodeticPoint)

def degrees : ℚ × ℚ × ℚ :=
  (p.lat, p.lon, p.hgt)

/-- The Cartesian position. -/
noncomputable def ecef : ℝ × ℝ × ℝ :=
  llh2xyz (cast (p.lat / r2d, p.lon / r2d, p.hgt))

end GeodeticPoint

/-- A point in a file of sentences. -/
structure GgaEntry (p : GeodeticPoint) where
  path : List Char
  path_ne : cString path ≠ []
  before : List NmeaLine
  sentence : GgaSentence
  after : List NmeaLine
  writes : sentence.point = p.degrees
  fits : ∀ l ∈ before ++ NmeaLine.gga sentence :: after, l.text.length < maxChar
  room : (track before).length < userMotionSize

/-- A point in a file of way points, with a heading; behind the point anything may follow. -/
structure WayPointEntry (p : GeodeticPoint) where
  heading : List Char
  isLine : IsLine maxChar heading
  before : List WayPointLine
  line : WayPointLine
  after : List Char
  writes : line.point = p.degrees
  fits_before : ∀ l ∈ before, l.text.length < maxChar
  fits : line.text.length < maxChar
  room : before.length < wayPointSize

/-- A point in the settings. -/
structure CoordinatesEntry (p : GeodeticPoint) where
  lat : Numeral
  lon : Numeral
  hgt : Numeral
  writes : (lat.value, lon.value, hgt.value) = p.degrees

/-- The ways in which a point enters. -/
inductive Entry (p : GeodeticPoint)
  | gga (entry : GgaEntry p)
  | wayPoint (entry : WayPointEntry p)
  | coordinates (entry : CoordinatesEntry p)

/-- What the run finds in its memory. -/
structure Memory where
  locals : Locals
  xyz : Nat → Option (ℝ × ℝ × ℝ)
  wayPoints : WayPoints (Option (ℝ × ℝ × ℝ)) Number

section Handed

variable {p : GeodeticPoint} (m : Memory)

def GgaEntry.file (entry : GgaEntry p) : List Char :=
  ((entry.before ++ NmeaLine.gga entry.sentence :: entry.after).map NmeaLine.text).flatten

/-- The position for the step of the sentence. -/
noncomputable def GgaEntry.handed (entry : GgaEntry p) : Option (ℝ × ℝ × ℝ) :=
  let setting :=
    { checkSection := 1, CSV := [], TXT := entry.path, Lat := [], Lon := [], Hgt := [] }
  (generateSimData wgs84 (fun _ => some entry.file) m.locals m.xyz setting).bind fun positions =>
    positions.position (track entry.before).length

def WayPointEntry.file (entry : WayPointEntry p) : List Char :=
  entry.heading ++ ((entry.before.map WayPointLine.text).flatten ++
    (entry.line.text ++ entry.after))

/-- The way point of the line. -/
noncomputable def WayPointEntry.handed (entry : WayPointEntry p) : Option (ℝ × ℝ × ℝ) :=
  (readUserMotionInLLH wgs84 m.locals m.wayPoints (some entry.file)).1.xyzWayPoint
    entry.before.length

def CoordinatesEntry.setting (entry : CoordinatesEntry p) : Setting where
  checkSection := 2
  CSV := []
  TXT := []
  Lat := entry.lat.text
  Lon := entry.lon.text
  Hgt := entry.hgt.text

/-- The position for any step. -/
noncomputable def CoordinatesEntry.handed (entry : CoordinatesEntry p) (iumd : Nat) :
    Option (ℝ × ℝ × ℝ) :=
  (generateSimData wgs84 (fun _ => none) m.locals m.xyz entry.setting).bind fun positions =>
    positions.position iumd

/-- The position that is handed to the range computation. -/
noncomputable def Entry.handed : Entry p → Option (ℝ × ℝ × ℝ)
  | .gga entry => entry.handed m
  | .wayPoint entry => entry.handed m
  | .coordinates entry => entry.handed m 0

/-- The entry is one that the program converts rightly. -/
def Entry.Converted : Entry p → Prop
  | .gga _ => True
  | .wayPoint _ => p.hgt = 0
  | .coordinates _ => p.hgt < -3000000 ∧ cast p.degrees = p.ecef

variable {m}

/-- A sentence is converted. -/
theorem GgaEntry.handed_eq (entry : GgaEntry p) : entry.handed m = some p.ecef := by
  obtain ⟨xyz', n, read, stored⟩ := readNmeaGGA_lines wgs84 entry.fits m.locals m.xyz
  have place : (track (entry.before ++ NmeaLine.gga entry.sentence :: entry.after))[
      (track entry.before).length]? = some entry.sentence.point := by
    rw [track_append, track_gga, List.getElem?_append_right le_rfl, Nat.sub_self]
    rfl
  have here := stored _ _ place entry.room
  rw [entry.writes] at here
  rw [GgaEntry.handed, generateSimData_sentences rfl entry.path_ne]
  simp only [GgaEntry.file, read, Option.map_some, Option.bind_some]
  exact here

/-- A line of way points is converted with its height divided by `R2D`. -/
theorem WayPointEntry.handed_eq (entry : WayPointEntry p) :
    entry.handed m = some (llh2xyz (cast (p.lat / r2d, p.lon / r2d, p.hgt / r2d))) := by
  have read := readUserMotionInLLH_line wgs84 entry.isLine entry.fits_before entry.line
    entry.fits entry.room m.locals m.wayPoints entry.after
  rw [entry.writes] at read
  exact read

theorem WayPointEntry.right_iff (entry : WayPointEntry p) :
    entry.handed m = some p.ecef ↔ p.hgt = 0 := by
  rw [entry.handed_eq, Option.some.injEq]
  constructor
  · intro same
    have height : ((p.hgt / r2d : ℚ) : ℝ) = p.hgt := llh2xyz_height same
    have scaled : p.hgt / r2d = p.hgt := by exact_mod_cast height
    rw [r2d, div_eq_iff (by norm_num)] at scaled
    linarith
  · intro zero
    rw [GeodeticPoint.ecef, zero, zero_div]

/-- Three numbers with commas in between are scanned. -/
theorem scanNumbers_coordinates (lat lon hgt : Numeral) :
    scanNumbers (.literal ',') 3 (lat.text ++ ',' :: (lon.text ++ ',' :: hgt.text)) =
      [.finite lat.value, .finite lon.value, .finite hgt.value] := by
  have comma (rest : List Char) : EndsNumber (',' :: rest) := by
    intro c member
    cases member
    decide
  have last : scanNumbers (.literal ',') 1 hgt.text = [.finite hgt.value] := by
    have read := scanNumbers_numeral (.literal ',') 0 hgt endsNumber_nil
    rwa [List.append_nil] at read
  rw [scanNumbers_numeral _ _ _ (comma _), Between.skip, if_pos rfl]
  dsimp only
  rw [scanNumbers_numeral _ _ _ (comma _), Between.skip, if_pos rfl]
  dsimp only
  rw [last]

/-- The coordinates of the settings become the position as they are. -/
theorem CoordinatesEntry.handed_eq (entry : CoordinatesEntry p) (iumd : Nat) :
    entry.handed m iumd = some (cast p.degrees) := by
  have plain : ∀ c ∈ entry.lat.text ++ ',' :: (entry.lon.text ++ ',' :: entry.hgt.text),
      decide (c ≠ nul) = true := by
    have number {n : Numeral} {c : Char} (inside : c ∈ n.text) : c ≠ nul :=
      (plain_of_numeral (Numeral.mem_text inside)).2.1
    intro c member
    rw [decide_eq_true_iff]
    simp only [List.mem_append, List.mem_cons] at member
    rcases member with lat | rfl | lon | rfl | hgt
    · exact number lat
    · decide
    · exact number lon
    · decide
    · exact number hgt
  have whole : cString (entry.lat.text ++ ',' :: (entry.lon.text ++ ',' :: entry.hgt.text)) =
      entry.lat.text ++ ',' :: (entry.lon.text ++ ',' :: entry.hgt.text) :=
    List.takeWhile_eq_self_iff.mpr plain
  obtain ⟨positions, found, here⟩ := Option.map_eq_some_iff.mp
    (generateSimData_coordinates (show entry.setting.checkSection = 2 from rfl) :
      (generateSimData wgs84 (fun _ => none) m.locals m.xyz entry.setting).map
        (fun positions => positions.position iumd) = _)
  rw [CoordinatesEntry.handed, found, Option.bind_some, here]
  dsimp only [CoordinatesEntry.setting]
  rw [whole, scanNumbers_coordinates, ← entry.writes]
  rfl

theorem CoordinatesEntry.right_iff (entry : CoordinatesEntry p) (iumd : Nat) :
    entry.handed m iumd = some p.ecef ↔ p.hgt < -3000000 ∧ cast p.degrees = p.ecef := by
  rw [entry.handed_eq, Option.some.injEq]
  refine ⟨fun same => ⟨?_, same⟩, And.right⟩
  by_contra high
  have range {x : ℚ} {bound : Nat} (inside : |x| ≤ bound) : |(x : ℝ)| ≤ bound := by
    exact_mod_cast inside
  have height : (-3000000 : ℝ) ≤ p.hgt := by exact_mod_cast not_lt.mp high
  exact llh2xyz_ne (@range p.lat 90 p.lat_range) (@range p.lon 180 p.lon_range) height same.symm

end Handed

/-- **Which points are handed over rightly.**  A point arrives as its Cartesian position exactly if
it enters as a sentence, or as a line of way points and its height is 0, or as coordinates that
happen to be the Cartesian ones, which only points far below the ellipsoid have.  So no point
arrives as the same position whichever way it enters. -/
theorem handed_iff (p : GeodeticPoint) (m : Memory) :
    (∀ entry : Entry p, entry.handed m = some p.ecef ↔ entry.Converted) ∧
      ∀ (sentence : GgaEntry p) (line : WayPointEntry p) (coordinates : CoordinatesEntry p),
        ¬ (sentence.handed m = line.handed m ∧
          sentence.handed m = coordinates.handed m 0) := by
  constructor
  · intro entry
    cases entry with
    | gga entry => exact iff_of_true entry.handed_eq trivial
    | wayPoint entry => exact entry.right_iff
    | coordinates entry => exact entry.right_iff 0
  · intro sentence line coordinates both
    rcases both with ⟨first, second⟩
    rw [sentence.handed_eq] at first second
    have ground := line.right_iff.mp first.symm
    have deep := (coordinates.right_iff 0).mp second.symm
    rw [ground] at deep
    exact absurd deep.1 (by norm_num)

/-- A point on the ground of Hanoi, 15 m above the ellipsoid. -/
def hanoi : GeodeticPoint where
  lat := 21.03
  lon := 105.85
  hgt := 15
  lat_range := by norm_num [abs_le]
  lon_range := by norm_num [abs_le]

def hanoiLat : Numeral where
  negative := false
  whole := ['2', '1']
  point := true
  fraction := ['0', '3']
  digits := by simp
  whole_ne := List.cons_ne_nil _ _
  fraction_eq := by simp

def hanoiLon : Numeral where
  negative := false
  whole := ['1', '0', '5']
  point := true
  fraction := ['8', '5']
  digits := by simp
  whole_ne := List.cons_ne_nil _ _
  fraction_eq := by simp

def hanoiHgt : Numeral :=
  digitsNumeral ['1', '5'] (by simp) (List.cons_ne_nil _ _)

theorem hanoi_written : (hanoiLat.value, hanoiLon.value, hanoiHgt.value) = hanoi.degrees := by
  decide +kernel

def oneBlank : Gap where
  text := [' ']
  blank := by simp

/-- The line `21.03 105.85 15 15` under an empty heading. -/
def hanoiLine : WayPointEntry hanoi where
  heading := ['\n']
  isLine := ⟨⟨[], rfl, List.not_mem_nil, List.not_mem_nil⟩, by decide⟩
  before := []
  line := {
    lat := hanoiLat
    lon := hanoiLon
    hgt := hanoiHgt
    time := hanoiHgt
    gap₁ := oneBlank
    gap₂ := oneBlank
    gap₃ := oneBlank
    gap₁_ne := List.cons_ne_nil _ _
    gap₂_ne := List.cons_ne_nil _ _
    gap₃_ne := List.cons_ne_nil _ _
    trailer := { text := [], blank := by simp } }
  after := []
  writes := hanoi_written
  fits_before := by simp
  fits := by decide
  room := by decide

/-- The settings 21.03, 105.85 and 15. -/
def hanoiSettings : CoordinatesEntry hanoi where
  lat := hanoiLat
  lon := hanoiLon
  hgt := hanoiHgt
  writes := hanoi_written

def clearMemory : Memory where
  locals := { str := [], vars := fun _ => 0, numd := 0 }
  xyz _ := some (0, 0, 0)
  wayPoints := {
    xyzWayPoint := fun _ => some (0, 0, 0)
    durationWayPoint := fun _ => 0
    nWayPoint := 0 }

/-- **A point that arrives wrongly**: as a line of way points its height is divided by `R2D`, and as
coordinates it is put near the centre of the Earth. -/
theorem hanoi_misplaced :
    (Entry.wayPoint hanoiLine).handed clearMemory ≠ some hanoi.ecef ∧
      (Entry.coordinates hanoiSettings).handed clearMemory ≠ some hanoi.ecef := by
  constructor
  · intro same
    have ground := hanoiLine.right_iff.mp same
    exact absurd ground (by decide +kernel)
  · intro same
    have deep := (hanoiSettings.right_iff 0).mp same
    exact absurd deep.1 (by decide +kernel)

end Navisim.Motion

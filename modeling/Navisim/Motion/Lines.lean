import Navisim.Motion.Readers

/-!
# The lines of the motion files

What GGA sentences and lines of way points look like, and what the readers make of them: a
sentence gives its position in radian and metres (`readSentence_gga`), a line of way points is
scanned number by number (`scanNumbers_wayPoint`).  Over whole files, each line has its place in
the track (`readSentences_lines`, `readWayPoints_append`).
-/

namespace Navisim.Motion

open Text Loop

/-! ## Fields -/

/-- A character that may stand in a line. -/
def Plain (c : Char) : Prop :=
  c ≠ nul ∧ c ≠ '\n'

/-- A field of a sentence, with something in it. -/
structure Field where
  text : List Char
  text_ne : text ≠ []
  plain : ∀ c ∈ text, c ≠ ',' ∧ Plain c

/-- Fields with a comma behind each. -/
def joined (fields : List Field) (rest : List Char) : List Char :=
  fields.foldr (fun field s => field.text ++ ',' :: s) rest

theorem plain_of_isDigit {c : Char} (digit : c.isDigit = true) : c ≠ ',' ∧ Plain c := by
  refine ⟨?_, ?_, ?_⟩ <;> rintro rfl <;> exact absurd digit (by decide)

theorem plain_of_numeral {c : Char} (number : c.isDigit = true ∨ c = '.' ∨ c = '-') :
    c ≠ ',' ∧ Plain c := by
  rcases number with digit | rfl | rfl
  · exact plain_of_isDigit digit
  · exact ⟨by decide, by decide, by decide⟩
  · exact ⟨by decide, by decide, by decide⟩

def numberField (n : Numeral) : Field where
  text := n.text
  text_ne := by
    obtain ⟨d, s, first, -⟩ := n.unsigned_head []
    rw [List.append_nil] at first
    unfold Numeral.text
    split
    · exact List.cons_ne_nil _ _
    · rw [first]
      exact List.cons_ne_nil _ _
  plain _ member := plain_of_numeral (Numeral.mem_text member)

/-- A letter that says in which hemisphere a point is. -/
def letterField (c : Char) (plain : c ≠ ',' ∧ Plain c) : Field where
  text := [c]
  text_ne := List.cons_ne_nil _ _
  plain _ member := List.mem_singleton.mp member ▸ plain

/-- An angle as whole degrees of a fixed width, and minutes. -/
structure Angle (width : Nat) where
  degrees : List Char
  minutes : Numeral
  length : degrees.length = width
  digits : ∀ c ∈ degrees, c.isDigit = true

namespace Angle

variable {width : Nat} (angle : Angle width)

def value : ℚ :=
  decimal.ofDigits angle.degrees + angle.minutes.magnitude / 60

def field : Field where
  text := angle.degrees ++ angle.minutes.unsigned
  text_ne := by
    obtain ⟨d, s, first, -⟩ := angle.minutes.unsigned_head []
    rw [List.append_nil] at first
    rw [first]
    exact List.append_ne_nil_of_right_ne_nil _ (List.cons_ne_nil _ _)
  plain c member := by
    rcases List.mem_append.mp member with degrees | minutes
    · exact plain_of_isDigit (angle.digits c degrees)
    · exact plain_of_numeral ((Numeral.mem_unsigned minutes).imp_right Or.inl)

end Angle

/-! ## Sentences -/

/-- A GGA sentence with a fix: none of the fields up to the height of the geoid is empty. -/
structure GgaSentence where
  talker : List Char
  talker_length : talker.length = 3
  talker_plain : ∀ c ∈ talker, c ≠ ',' ∧ Plain c
  time : Field
  lat : Angle 2
  south : Bool
  lon : Angle 3
  west : Bool
  fix : Field
  satellites : Field
  hdop : Field
  altitude : Numeral
  unit : Field
  geoid : Numeral
  /-- Unit, age, station and checksum. -/
  trailer : List Char
  trailer_plain : ∀ c ∈ trailer, Plain c

/-- A sentence of another kind. -/
structure OtherSentence where
  talker : List Char
  talker_length : talker.length = 3
  kind : List Char
  kind_length : kind.length = 3
  other : kind ≠ ['G', 'G', 'A']
  plain : ∀ c ∈ talker ++ kind, c ≠ ',' ∧ Plain c
  trailer : List Char
  trailer_plain : ∀ c ∈ trailer, Plain c

namespace GgaSentence

variable (s : GgaSentence)

def header : Field where
  text := s.talker ++ ['G', 'G', 'A']
  text_ne := List.append_ne_nil_of_right_ne_nil _ (List.cons_ne_nil _ _)
  plain c member := by
    rcases List.mem_append.mp member with talker | kind
    · exact s.talker_plain c talker
    · have letters : ∀ c ∈ ['G', 'G', 'A'], c ≠ ',' ∧ c ≠ nul ∧ c ≠ '\n' := by
        simp [nul]
      exact letters c kind

def northSouth : Field :=
  letterField (if s.south then 'S' else 'N') (by split <;> exact ⟨by decide, by decide, by decide⟩)

def eastWest : Field :=
  letterField (if s.west then 'W' else 'E') (by split <;> exact ⟨by decide, by decide, by decide⟩)

def fields : List Field :=
  [s.header, s.time, s.lat.field, s.northSouth, s.lon.field, s.eastWest, s.fix, s.satellites,
    s.hdop, numberField s.altitude, s.unit, numberField s.geoid]

def line : List Char :=
  joined s.fields (s.trailer ++ ['\n'])

/-- Latitude and longitude in degrees, and the height above the ellipsoid. -/
def point : ℚ × ℚ × ℚ :=
  (if s.south then -s.lat.value else s.lat.value,
    if s.west then -s.lon.value else s.lon.value,
    s.altitude.value + s.geoid.value)

end GgaSentence

namespace OtherSentence

variable (s : OtherSentence)

def header : Field where
  text := s.talker ++ s.kind
  text_ne := by
    apply List.append_ne_nil_of_right_ne_nil _
    intro empty
    have length := s.kind_length
    rw [empty] at length
    cases length
  plain := s.plain

def line : List Char :=
  joined [s.header] (s.trailer ++ ['\n'])

end OtherSentence

/-- A line of a file of sentences. -/
inductive NmeaLine
  | gga (sentence : GgaSentence)
  | other (sentence : OtherSentence)

def NmeaLine.text : NmeaLine → List Char
  | .gga sentence => sentence.line
  | .other sentence => sentence.line

/-- The points of a file. -/
def track (ls : List NmeaLine) : List (ℚ × ℚ × ℚ) :=
  ls.filterMap fun
    | .gga sentence => some sentence.point
    | .other _ => none

theorem track_append (ls more : List NmeaLine) : track (ls ++ more) = track ls ++ track more :=
  List.filterMap_append

theorem track_gga (s : GgaSentence) (ls : List NmeaLine) :
    track (NmeaLine.gga s :: ls) = s.point :: track ls := rfl

/-! ## Reading a sentence -/

section Sentence

variable {rest : List Char}

theorem strtok_field (field : Field) (rest : List Char) :
    strtok ',' (field.text ++ ',' :: rest) = some (field.text ++ nul :: rest, rest) :=
  have inside : ∀ c ∈ field.text, c ≠ ',' ∧ c ≠ nul := fun c member =>
    ⟨(field.plain c member).1, (field.plain c member).2.1⟩
  strtok_append field.text_ne inside (by decide)

theorem endsNumber_nul (rest : List Char) : EndsNumber (nul :: rest) := by
  intro c member
  cases member
  decide

theorem atof_numberField (n : Numeral) (rest : List Char) :
    atof ((numberField n).text ++ nul :: rest) = .finite n.value := by
  rw [atof, show (numberField n).text = n.text from rfl, strtod_numeral n (endsNumber_nul rest)]

/-- A row of digits as a numeral. -/
def digitsNumeral (digits : List Char) (all : ∀ c ∈ digits, c.isDigit = true)
    (some_digit : digits ≠ []) : Numeral where
  negative := false
  whole := digits
  point := false
  fraction := []
  digits := by rwa [List.append_nil]
  whole_ne := some_digit
  fraction_eq _ := rfl

theorem atof_digits {digits : List Char} (all : ∀ c ∈ digits, c.isDigit = true)
    (some_digit : digits ≠ []) : atof digits = .finite (decimal.ofDigits digits) := by
  have read := strtod_unsigned (digitsNumeral digits all some_digit) endsNumber_nil
  simp only [Numeral.unsigned, Numeral.magnitude, digitsNumeral, Bool.false_eq_true, if_false,
    List.append_nil, List.length_nil, pow_zero, div_one] at read
  rw [atof, read]

/-- Degrees and minutes are taken apart and put together. -/
theorem atof_angle {width : Nat} (angle : Angle width) (wide : 0 < width) (rest : List Char) :
    atof ((angle.field.text ++ nul :: rest).take width) +
      atof ((angle.field.text ++ nul :: rest).drop width) / 60.0 = .finite angle.value := by
  have some_digit : angle.degrees ≠ [] := by
    intro empty
    have length := angle.length
    rw [empty, List.length_nil] at length
    omega
  have split : angle.field.text ++ nul :: rest =
      angle.degrees ++ (angle.minutes.unsigned ++ nul :: rest) := List.append_assoc ..
  have minutes : atof (angle.minutes.unsigned ++ nul :: rest) =
      .finite angle.minutes.magnitude := by
    rw [atof, strtod_unsigned _ (endsNumber_nul rest)]
  have sixty : (60.0 : Number) = .finite 60 := congrArg Number.finite (by norm_num)
  rw [split, List.take_left' angle.length, List.drop_left' angle.length,
    atof_digits angle.digits some_digit, minutes, sixty, Number.div_finite _ (by norm_num)]
  rfl

/-- The type of a sentence is behind the talker. -/
theorem drop_header {talker kind : List Char} (talker_length : talker.length = 3)
    (kind_length : kind.length = 3) (rest : List Char) :
    ((talker ++ kind ++ rest).drop 3).take 3 = kind := by
  rw [List.append_assoc, List.drop_left' talker_length, List.take_left' kind_length]

theorem joined_append (fields : List Field) (rest more : List Char) :
    joined fields rest ++ more = joined fields (rest ++ more) := by
  induction fields with
  | nil => rfl
  | cons field fields ih =>
      change (field.text ++ ',' :: joined fields rest) ++ more = _
      rw [List.append_assoc, List.cons_append, ih]
      rfl

theorem strtok_joined (field : Field) (fields : List Field) (rest : List Char) :
    strtok ',' (joined (field :: fields) rest) =
      some (field.text ++ nul :: joined fields rest, joined fields rest) :=
  strtok_field field _

/-- The letter of a hemisphere gives the sign. -/
theorem signed_value (negated : Bool) (letter other : Char) (distinct : other ≠ letter)
    (plain : (if negated then letter else other) ≠ ',' ∧ Plain (if negated then letter else other))
    (rest : List Char) (value : ℚ) :
    (if ((letterField (if negated then letter else other) plain).text ++ nul :: rest).head? =
        some letter then Number.finite value * -1.0 else .finite value) =
      .finite (if negated then -value else value) := by
  have head : ((letterField (if negated then letter else other) plain).text ++ nul :: rest).head? =
      some (if negated then letter else other) := rfl
  rw [head]
  cases negated with
  | true =>
      rw [if_pos rfl, if_pos rfl, if_pos rfl]
      exact congrArg Number.finite (by norm_num : value * -1.0 = -value)
  | false =>
      have differs : ¬ some other = some letter := fun same => distinct (Option.some.inj same)
      simp only [Bool.false_eq_true, if_false, differs]

/-- A point with its angles in radian, and the height in metres. -/
def inRadian (point : ℚ × ℚ × ℚ) : Number × Number × Number :=
  (.finite (point.1 / r2d), .finite (point.2.1 / r2d), .finite point.2.2)

theorem r2d_ne : r2d ≠ 0 := by
  norm_num [r2d]

/-- **A GGA sentence** gives its position. -/
theorem readSentence_gga (s : GgaSentence) {str : List Char} (holds : HoldsString s.line str) :
    readSentence str = some (some (inRadian s.point)) := by
  obtain ⟨behind, rfl⟩ := holds
  have kind (rest : List Char) :
      ¬ ((s.header.text ++ rest).drop 3).take 3 ≠ ['G', 'G', 'A'] :=
    not_not.mpr (drop_header s.talker_length rfl rest)
  rw [GgaSentence.line, joined_append, GgaSentence.fields, readSentence]
  simp only [strtok_joined, Option.bind_eq_bind, Option.bind_some, if_neg (kind _), pure,
    atof_angle _ (show 0 < 2 by decide), atof_angle _ (show 0 < 3 by decide), atof_numberField,
    GgaSentence.northSouth, GgaSentence.eastWest, signed_value _ 'S' 'N' (by decide),
    signed_value _ 'W' 'E' (by decide), Number.div_finite _ r2d_ne, Number.add_finite,
    GgaSentence.point, inRadian]

/-- Another sentence gives none. -/
theorem readSentence_other (s : OtherSentence) {str : List Char} (holds : HoldsString s.line str) :
    readSentence str = some none := by
  obtain ⟨behind, rfl⟩ := holds
  have kind (rest : List Char) : ((s.header.text ++ rest).drop 3).take 3 ≠ ['G', 'G', 'A'] := by
    rw [OtherSentence.header, drop_header s.talker_length s.kind_length]
    exact s.other
  rw [OtherSentence.line, joined_append, readSentence]
  simp only [strtok_joined, Option.bind_eq_bind, Option.bind_some, if_pos (kind _), pure]

end Sentence

/-! ## Reading a file of sentences -/

theorem isLine_of_plain {body : List Char} (plain : ∀ c ∈ body, Plain c)
    (fits : (body ++ ['\n']).length < maxChar) : IsLine maxChar (body ++ ['\n']) :=
  ⟨⟨body, rfl, fun inside => (plain _ inside).2 rfl, fun inside => (plain _ inside).1 rfl⟩, fits⟩

theorem joined_plain (fields : List Field) {rest : List Char} (plain : ∀ c ∈ rest, Plain c) :
    ∀ c ∈ joined fields rest, Plain c := by
  induction fields with
  | nil => exact plain
  | cons field fields ih =>
      intro c member
      rcases List.mem_append.mp member with inside | behind
      · exact (field.plain c inside).2
      · rcases List.mem_cons.mp behind with rfl | later
        · exact ⟨by decide, by decide⟩
        · exact ih c later

theorem NmeaLine.isLine (l : NmeaLine) (fits : l.text.length < maxChar) :
    IsLine maxChar l.text := by
  cases l with
  | gga s =>
      rw [NmeaLine.text, GgaSentence.line, ← joined_append] at fits ⊢
      exact isLine_of_plain (joined_plain _ s.trailer_plain) fits
  | other s =>
      rw [NmeaLine.text, OtherSentence.line, ← joined_append] at fits ⊢
      exact isLine_of_plain (joined_plain _ s.trailer_plain) fits

section Sentences

variable {P : Type*} (frame : Frame P) {ls : List NmeaLine} {arrays : List (List Char)}

/-- **A file of sentences**: the points of the track are stored from `numd` on, as long as there
is room. -/
theorem readSentences_lines
    (holds : List.Forall₂ HoldsString (ls.map NmeaLine.text) arrays) (numd : Nat) (xyz : Nat → P) :
    ∃ xyz' n, readSentences frame arrays numd xyz = some (xyz', n) ∧
      (∀ k < numd, xyz' k = xyz k) ∧
      ∀ k point, (track ls)[k]? = some point → numd + k < userMotionSize →
        xyz' (numd + k) = frame.llh2xyz (inRadian point) := by
  induction ls generalizing arrays numd xyz with
  | nil =>
      cases holds
      exact ⟨xyz, numd, rfl, fun _ _ => rfl, by rintro k point ⟨⟩⟩
  | cons l ls ih =>
      cases holds with
      | cons first others =>
          cases l with
          | other s =>
              rw [readSentences, readSentence_other s first]
              exact ih others numd xyz
          | gga s =>
              obtain ⟨xyz', n, read, kept, stored⟩ := ih others (numd + 1)
                (Function.update xyz numd (frame.llh2xyz (inRadian s.point)))
              rw [readSentences, readSentence_gga s first, track_gga]
              dsimp only
              split
              · rename_i full
                refine ⟨_, _, rfl, fun k below => ?_, fun k point found room => ?_⟩
                · exact Function.update_of_ne (Nat.ne_of_lt below) _ _
                · obtain rfl : k = 0 := by omega
                  cases found
                  exact Function.update_self ..
              · refine ⟨xyz', n, read, fun k below => ?_, fun k point found room => ?_⟩
                · rw [kept k (by omega), Function.update_of_ne (Nat.ne_of_lt below)]
                · cases k with
                  | zero =>
                      cases found
                      rw [Nat.add_zero, kept numd (by omega), Function.update_self]
                  | succ k =>
                      rw [← stored k point found (by omega)]
                      exact congrArg xyz' (by omega)

/-- The points of a file that can be opened. -/
theorem readNmeaGGA_lines (fits : ∀ l ∈ ls, l.text.length < maxChar) (locals : Locals)
    (xyz : Nat → P) :
    ∃ xyz' n, readNmeaGGA frame locals xyz (some (ls.map NmeaLine.text).flatten) =
        some (xyz', n) ∧
      ∀ k point, (track ls)[k]? = some point → k < userMotionSize →
        xyz' k = frame.llh2xyz (inRadian point) := by
  have areLines : ∀ line ∈ ls.map NmeaLine.text, IsLine maxChar line := by
    intro line member
    obtain ⟨l, inside, rfl⟩ := List.mem_map.mp member
    exact l.isLine (fits l inside)
  obtain ⟨xyz', n, read, -, stored⟩ :=
    readSentences_lines frame (lines_flatten areLines locals.str) 0 xyz
  refine ⟨xyz', n, ?_, fun k point found room => ?_⟩
  · rw [readNmeaGGA, read]
    rfl
  · have place := stored k point found (by omega)
    rwa [Nat.zero_add] at place

end Sentences

/-! ## Lines of way points -/

/-- Blanks inside a line. -/
structure Gap where
  text : List Char
  blank : ∀ c ∈ text, c = ' ' ∨ c = '\t' ∨ c = '\r'

/-- Four numbers: latitude and longitude in degrees, height, and the minutes since the start. -/
structure WayPointLine where
  lat : Numeral
  lon : Numeral
  hgt : Numeral
  time : Numeral
  gap₁ : Gap
  gap₂ : Gap
  gap₃ : Gap
  gap₁_ne : gap₁.text ≠ []
  gap₂_ne : gap₂.text ≠ []
  gap₃_ne : gap₃.text ≠ []
  trailer : Gap

namespace WayPointLine

variable (l : WayPointLine)

def body : List Char :=
  l.lat.text ++ (l.gap₁.text ++ (l.lon.text ++ (l.gap₂.text ++ (l.hgt.text ++ (l.gap₃.text ++
    (l.time.text ++ l.trailer.text))))))

def text : List Char :=
  l.body ++ ['\n']

def point : ℚ × ℚ × ℚ :=
  (l.lat.value, l.lon.value, l.hgt.value)

end WayPointLine

section Scan

variable {rest : List Char}

theorem Gap.isSpace (gap : Gap) {c : Char} (member : c ∈ gap.text) : isSpace c = true := by
  rcases gap.blank c member with rfl | rfl | rfl <;> decide

theorem Gap.plain (gap : Gap) {c : Char} (member : c ∈ gap.text) : Plain c := by
  rcases gap.blank c member with rfl | rfl | rfl <;> exact ⟨by decide, by decide⟩

theorem endsNumber_of_isSpace {c : Char} (space : isSpace c = true) (rest : List Char) :
    EndsNumber (c :: rest) := by
  intro d member
  cases member
  constructor
  · by_contra digit
    rw [not_isSpace_of_isDigit (Bool.of_not_eq_false digit)] at space
    exact Bool.false_ne_true space
  · have solid : ∀ d ∈ ['.', 'e', 'E', 'x', 'X'], isSpace d = false := by
      simp [isSpace]
    intro mark
    rw [solid c mark] at space
    exact Bool.false_ne_true space

theorem Gap.endsNumber (gap : Gap) {more : List Char} (ends : EndsNumber more) :
    EndsNumber (gap.text ++ more) := by
  cases shape : gap.text with
  | nil => exact ends
  | cons c text =>
      exact endsNumber_of_isSpace (gap.isSpace (by rw [shape]; exact List.mem_cons_self)) _

theorem Gap.endsNumber_of_ne (gap : Gap) (some_blank : gap.text ≠ []) (more : List Char) :
    EndsNumber (gap.text ++ more) := by
  obtain ⟨c, text, shape⟩ := List.exists_cons_of_ne_nil some_blank
  rw [shape]
  exact endsNumber_of_isSpace (gap.isSpace (by rw [shape]; exact List.mem_cons_self)) _

/-- A number with blanks behind it is scanned. -/
theorem scanNumbers_gap (k : Nat) (n : Numeral) (gap : Gap)
    (ends : EndsNumber (gap.text ++ rest)) :
    scanNumbers .blank (k + 1) (n.text ++ (gap.text ++ rest)) =
      .finite n.value :: scanNumbers .blank k rest := by
  rw [scanNumbers_numeral _ _ _ ends, Between.skip]
  dsimp only
  rw [List.dropWhile_append_of_pos fun c member => gap.isSpace member, scanNumbers_dropWhile]

/-- **A line of way points** is scanned number by number. -/
theorem scanNumbers_wayPoint (l : WayPointLine) :
    scanNumbers .blank 4 l.text =
      [.finite l.lat.value, .finite l.lon.value, .finite l.hgt.value, .finite l.time.value] := by
  have last : EndsNumber (l.trailer.text ++ ['\n']) :=
    l.trailer.endsNumber (endsNumber_of_isSpace (by decide) [])
  rw [WayPointLine.text, WayPointLine.body]
  simp only [List.append_assoc]
  rw [scanNumbers_gap _ _ _ (l.gap₁.endsNumber_of_ne l.gap₁_ne _),
    scanNumbers_gap _ _ _ (l.gap₂.endsNumber_of_ne l.gap₂_ne _),
    scanNumbers_gap _ _ _ (l.gap₃.endsNumber_of_ne l.gap₃_ne _),
    scanNumbers_gap _ _ _ last]
  rfl

theorem WayPointLine.isLine (l : WayPointLine) (fits : l.text.length < maxChar) :
    IsLine maxChar l.text := by
  refine isLine_of_plain (fun c member => ?_) fits
  have number {n : Numeral} (inside : c ∈ n.text) : Plain c :=
    (plain_of_numeral (Numeral.mem_text inside)).2
  simp only [WayPointLine.body, List.mem_append] at member
  rcases member with lat | gap | lon | gap | hgt | gap | time | gap
  · exact number lat
  · exact l.gap₁.plain gap
  · exact number lon
  · exact l.gap₂.plain gap
  · exact number hgt
  · exact l.gap₃.plain gap
  · exact number time
  · exact l.trailer.plain gap

/-- What the reader of way points finds in a line. -/
theorem WayPointLine.scanned (l : WayPointLine) {str : List Char}
    (fits : l.text.length < maxChar) (holds : HoldsString l.text str) :
    isEof str = false ∧
      scanNumbers .blank 4 (cString str) =
        [.finite l.lat.value, .finite l.lon.value, .finite l.hgt.value, .finite l.time.value] := by
  have numbers := scanNumbers_wayPoint l
  rw [isEof, (l.isLine fits).cString holds]
  refine ⟨Bool.eq_false_iff.mpr fun blank => ?_, numbers⟩
  rw [scanNumbers_of_isSpace blank] at numbers
  cases numbers

end Scan

/-! ## Reading a file of way points -/

section WayPoints

variable {P : Type*} (frame : Frame P) {arrays : List (List Char)} {str : List Char} {numd : Nat}

/-- The reader goes on behind the way points that it has stored. -/
theorem readWayPoints_before (arrays : List (List Char)) (numd : Nat) (vars : Nat → Number)
    (w : WayPoints P Number) {k : Int} (below : k < numd) :
    (readWayPoints frame arrays numd vars w).1.xyzWayPoint k = w.xyzWayPoint k := by
  induction arrays generalizing numd vars w with
  | nil => rfl
  | cons str rest ih =>
      rw [readWayPoints]
      split
      · rfl
      split
      · rfl
      · dsimp only
        rw [ih (numd + 1) _ _ (by omega)]
        exact Function.update_of_ne (by omega) _ _

/-- The three numbers of a line divided by `R2D`, the height as well. -/
def scaled (point : ℚ × ℚ × ℚ) : Number × Number × Number :=
  (.finite (point.1 / r2d), .finite (point.2.1 / r2d), .finite (point.2.2 / r2d))

/-- A line is stored with its three numbers divided. -/
theorem readWayPoints_line (l : WayPointLine) (fits : l.text.length < maxChar)
    (holds : HoldsString l.text str) (room : numd < wayPointSize) (vars : Nat → Number)
    (w : WayPoints P Number) :
    readWayPoints frame (str :: arrays) numd vars w =
      readWayPoints frame arrays (numd + 1)
        (assign [.finite l.lat.value, .finite l.lon.value, .finite l.hgt.value,
          .finite l.time.value] vars) { w with
          xyzWayPoint := Function.update w.xyzWayPoint numd (frame.llh2xyz (scaled l.point))
          durationWayPoint :=
            Function.update w.durationWayPoint numd (.finite (l.time.value * 60)) } := by
  obtain ⟨some_number, numbers⟩ := l.scanned fits holds
  rw [readWayPoints, if_neg (not_le.mpr room), some_number, if_neg Bool.false_ne_true, numbers]
  simp only [assign, List.getD_cons_zero, List.getD_cons_succ, Number.div_finite _ r2d_ne]
  rfl

/-- **A file of way points**: a line has its place behind those before it. -/
theorem readWayPoints_append {before : List WayPointLine}
    (fits : ∀ l ∈ before, l.text.length < maxChar)
    (holds : List.Forall₂ HoldsString (before.map WayPointLine.text) arrays) (l : WayPointLine)
    (fits_here : l.text.length < maxChar) (here : HoldsString l.text str)
    (room : numd + before.length < wayPointSize) (vars : Nat → Number) (w : WayPoints P Number)
    (more : List (List Char)) :
    (readWayPoints frame (arrays ++ str :: more) numd vars w).1.xyzWayPoint
        (numd + before.length : Nat) = frame.llh2xyz (scaled l.point) := by
  induction before generalizing arrays numd vars w with
  | nil =>
      cases holds
      rw [List.length_nil, Nat.add_zero] at room ⊢
      rw [List.nil_append, readWayPoints_line frame l fits_here here room,
        readWayPoints_before frame _ _ _ _ (by omega)]
      exact Function.update_self ..
  | cons first before ih =>
      cases holds with
      | cons holds_first others =>
          rw [List.length_cons] at room
          have room_first : numd < wayPointSize := by omega
          have room_here : numd + 1 + before.length < wayPointSize := by omega
          have place : numd + (before.length + 1) = numd + 1 + before.length := by omega
          rw [List.cons_append, List.length_cons, place,
            readWayPoints_line frame first (fits first List.mem_cons_self) holds_first room_first]
          exact ih (fun l member => fits l (List.mem_cons_of_mem _ member)) others room_here _ _

/-- The way point of a line behind a heading and other lines. -/
theorem readUserMotionInLLH_line {heading : List Char} (isLine : IsLine maxChar heading)
    {before : List WayPointLine} (fits : ∀ l ∈ before, l.text.length < maxChar) (l : WayPointLine)
    (fits_here : l.text.length < maxChar) (room : before.length < wayPointSize)
    (locals : Locals) (w : WayPoints P Number) (after : List Char) :
    (readUserMotionInLLH frame locals w (some (heading ++ ((before.map WayPointLine.text).flatten ++
        (l.text ++ after))))).1.xyzWayPoint before.length = frame.llh2xyz (scaled l.point) := by
  have areLines : ∀ line ∈ heading :: before.map WayPointLine.text, IsLine maxChar line := by
    intro line member
    rcases List.mem_cons.mp member with rfl | inside
    · exact isLine
    · obtain ⟨l', inside', rfl⟩ := List.mem_map.mp inside
      exact l'.isLine (fits l' inside')
  have whole : ((heading :: before.map WayPointLine.text).flatten ++ (l.text ++ after)).length ≤
      ((heading :: before.map WayPointLine.text).flatten ++ (l.text ++ after)).length := le_rfl
  obtain ⟨arrays, array', n, read, holds, enough⟩ := readLines_flatten areLines whole locals.str
  have positive := List.length_pos_of_ne_nil (l.isLine fits_here).ne_nil
  rw [List.length_append] at enough
  obtain ⟨n, rfl⟩ := Nat.exists_eq_succ_of_ne_zero (show n ≠ 0 by omega)
  obtain ⟨behind, got⟩ := (l.isLine fits_here).fgets array' after
  rw [readLines, got, List.flatten_cons, List.append_assoc] at read
  cases holds with
  | cons holds_heading others =>
      rename_i first arrays
      have place := readWayPoints_append frame fits others l fits_here ⟨behind, rfl⟩
        (show 0 + before.length < wayPointSize by omega) locals.vars w
        (readLines maxChar n (l.text ++ nul :: behind) after)
      rw [Nat.zero_add] at place
      rw [readUserMotionInLLH, lines, read]
      exact place

end WayPoints

end Navisim.Motion

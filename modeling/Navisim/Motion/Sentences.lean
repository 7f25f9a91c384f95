import Navisim.Lib.TextLines
import Navisim.Lib.Tokens
import Navisim.Motion.Lines

/-!
# Sentences with empty fields

What `readNmeaGGA` makes of a GGA sentence in which fields may be empty, and of any other line.
The tokens of a sentence are its fields only as long as none of them is empty; behind an empty
field every later value is taken from the column of another one.
-/

namespace Navisim.Motion

open Text Loop

/-! ## Tokens of a sentence -/

/-- The position that the reader makes of the twelve tokens from the header to the height of the
geoid. -/
def tokenPosition (ts : List (Nat × List Char)) : Number × Number × Number :=
  let token := fun k => (ts.getD k (0, [])).2
  let lat := atof ((token 2).take 2) + atof ((token 2).drop 2) / 60.0
  let lat := if (token 3).head? = some 'S' then lat * -1.0 else lat
  let lon := atof ((token 4).take 3) + atof ((token 4).drop 3) / 60.0
  let lon := if (token 5).head? = some 'W' then lon * -1.0 else lon
  (lat / r2d, lon / r2d, atof (token 9) + atof (token 11))

/-- The first token of the text says that it is a GGA sentence. -/
def SaysGga (str : List Char) : Prop :=
  ∃ token rest, strtok ',' str = some (token, rest) ∧ (token.drop 3).take 3 = ['G', 'G', 'A']

/-- The text has a first token, which says something else. -/
def SaysOther (str : List Char) : Prop :=
  ∃ token rest, strtok ',' str = some (token, rest) ∧ (token.drop 3).take 3 ≠ ['G', 'G', 'A']

section Tokens

variable {str : List Char}

theorem map_tokens_succ {α : Type*} (f : List (Nat × List Char) → α) (n column : Nat)
    (s : List Char) :
    (tokens ',' (n + 1) column s).map f = (strtok ',' s).bind fun found =>
      (tokens ',' n (column + (s.takeWhile (· = ',')).length + 1) found.2).map fun more =>
        f ((column + (s.takeWhile (· = ',')).length, found.1) :: more) := by
  rw [tokens]
  cases strtok ',' s with
  | none => rfl
  | some found =>
      rw [Option.bind_some, Option.bind_some, Option.map_map]
      rfl

/-- **The reader takes the tokens one after the other**, whatever columns they stand in. -/
theorem readSentence_eq_tokens (gga : SaysGga str) :
    readSentence str = (tokens ',' 12 0 str).map fun ts => some (tokenPosition ts) := by
  obtain ⟨token, rest, first, kind⟩ := gga
  rw [readSentence, map_tokens_succ, first, Option.bind_eq_bind, Option.bind_some,
    Option.bind_some]
  dsimp only
  rw [if_neg (not_not.mpr kind)]
  -- From here on, the two sides take the same tokens.
  iterate 11
    rw [map_tokens_succ]
    refine Option.bind_congr ?_
    rintro ⟨token, rest⟩ -
    dsimp only
  rfl

theorem SaysGga.not_saysOther (gga : SaysGga str) : ¬ SaysOther str := by
  rintro ⟨token', rest', first', other⟩
  obtain ⟨token, rest, first, kind⟩ := gga
  rw [first] at first'
  cases first'
  exact other kind

/-- Nothing is made of a line if and only if its first token says so. -/
theorem readSentence_eq_none_iff : readSentence str = some none ↔ SaysOther str := by
  cases first : strtok ',' str with
  | none =>
      refine iff_of_false (fun read => ?_) ?_
      · rw [readSentence, first] at read
        cases read
      · rintro ⟨token, rest, found, -⟩
        rw [first] at found
        cases found
  | some found =>
      rcases found with ⟨token, rest⟩
      by_cases kind : (token.drop 3).take 3 = ['G', 'G', 'A']
      · refine iff_of_false (fun read => ?_) ?_
        · rw [readSentence_eq_tokens ⟨token, rest, first, kind⟩, Option.map_eq_some_iff] at read
          rcases read with ⟨ts, -, same⟩
          cases same
        · exact SaysGga.not_saysOther ⟨token, rest, first, kind⟩
      · refine iff_of_true ?_ ⟨token, rest, first, kind⟩
        rw [readSentence, first, Option.bind_eq_bind, Option.bind_some]
        dsimp only
        rw [if_pos kind]
        rfl

end Tokens

/-! ## Sentences -/

/-- A GGA sentence of which any field behind the header may be empty. -/
structure GgaRecord where
  talker : List Char
  talker_length : talker.length = 3
  talker_plain : ∀ c ∈ talker, c ≠ ',' ∧ Plain c
  time : Option Field
  lat : Option (Angle 2)
  south : Option Bool
  lon : Option (Angle 3)
  west : Option Bool
  fix : Option Field
  satellites : Option Field
  hdop : Option Field
  altitude : Option Numeral
  unit : Option Field
  geoid : Option Numeral
  /-- Unit, age, station and checksum. -/
  trailer : List Char
  trailer_plain : ∀ c ∈ trailer, Plain c

def northSouth (south : Bool) : Field :=
  letterField (if south then 'S' else 'N') (by split <;> exact ⟨by decide, by decide, by decide⟩)

def eastWest (west : Bool) : Field :=
  letterField (if west then 'W' else 'E') (by split <;> exact ⟨by decide, by decide, by decide⟩)

/-- What a field is in the line. -/
def fieldText : Option Field → List Char
  | none => []
  | some field => field.text

namespace GgaRecord

variable (r : GgaRecord)

def header : Field where
  text := r.talker ++ ['G', 'G', 'A']
  text_ne := List.append_ne_nil_of_right_ne_nil _ (List.cons_ne_nil _ _)
  plain c member := by
    rcases List.mem_append.mp member with talker | kind
    · exact r.talker_plain c talker
    · have letters : ∀ c ∈ ['G', 'G', 'A'], c ≠ ',' ∧ c ≠ nul ∧ c ≠ '\n' := by
        simp [nul]
      exact letters c kind

/-- The columns from the header to the height of the geoid. -/
def columns : List (Option Field) :=
  [some r.header, r.time, r.lat.map Angle.field, r.south.map northSouth, r.lon.map Angle.field,
    r.west.map eastWest, r.fix, r.satellites, r.hdop, r.altitude.map numberField, r.unit,
    r.geoid.map numberField]

def line : List Char :=
  spread ',' (r.columns.map fieldText) (r.trailer ++ ['\n'])

/-- The position, if none of the six fields that give it is empty. -/
def point : Option (ℚ × ℚ × ℚ) := do
  let lat ← r.lat
  let south ← r.south
  let lon ← r.lon
  let west ← r.west
  let altitude ← r.altitude
  let geoid ← r.geoid
  return (if south then -lat.value else lat.value, if west then -lon.value else lon.value,
    altitude.value + geoid.value)

/-- No column up to the height of the geoid is empty. -/
def Complete : Prop :=
  ∀ column ∈ r.columns, column.isSome

variable {r}

/-- A complete sentence is one with a fix. -/
theorem Complete.sentence (complete : r.Complete) :
    ∃ s : GgaSentence, r.line = s.line ∧ r.point = some s.point := by
  simp only [Complete, columns, List.forall_mem_cons, Option.isSome_map] at complete
  simp only [Option.isSome_iff_exists] at complete
  rcases complete with ⟨-, ⟨time, time_eq⟩, ⟨lat, lat_eq⟩, ⟨south, south_eq⟩, ⟨lon, lon_eq⟩,
    ⟨west, west_eq⟩, ⟨fix, fix_eq⟩, ⟨satellites, satellites_eq⟩, ⟨hdop, hdop_eq⟩,
    ⟨altitude, altitude_eq⟩, ⟨unit, unit_eq⟩, ⟨geoid, geoid_eq⟩, -⟩
  refine ⟨⟨r.talker, r.talker_length, r.talker_plain, time, lat, south, lon, west, fix, satellites,
    hdop, altitude, unit, geoid, r.trailer, r.trailer_plain⟩, ?_, ?_⟩
  · rw [line, columns, time_eq, lat_eq, south_eq, lon_eq, west_eq, fix_eq, satellites_eq, hdop_eq,
      altitude_eq, unit_eq, geoid_eq]
    rfl
  · rw [point, lat_eq, south_eq, lon_eq, west_eq, altitude_eq, geoid_eq]
    rfl

theorem fieldText_isField (column : Option Field) : IsField ',' (fieldText column) := by
  intro c member
  cases column with
  | none => cases member
  | some field => exact ⟨(field.plain c member).1, (field.plain c member).2.1⟩

theorem fieldText_ne_nil_iff {column : Option Field} :
    fieldText column ≠ [] ↔ column.isSome = true := by
  cases column with
  | none => simp [fieldText]
  | some field => simp [fieldText, field.text_ne]

theorem columns_areFields (r : GgaRecord) :
    ∀ field ∈ r.columns.map fieldText, IsField ',' field := by
  intro field member
  rcases List.mem_map.mp member with ⟨column, -, rfl⟩
  exact fieldText_isField column

/-- The tokens of a complete sentence stand in their own columns. -/
theorem tokens_of_complete (complete : r.Complete) (rest : List Char) :
    ∃ ts, tokens ',' 12 0 (spread ',' (r.columns.map fieldText) rest) = some ts ∧
      ∀ k < 12, ts[k]?.map Prod.fst = some k := by
  have filled : ∀ field ∈ r.columns.map fieldText, IsField ',' field ∧ field ≠ [] := by
    intro field member
    refine ⟨r.columns_areFields field member, ?_⟩
    rcases List.mem_map.mp member with ⟨column, inside, rfl⟩
    exact fieldText_ne_nil_iff.mpr (complete column inside)
  obtain ⟨ts, found, -, columns⟩ := tokens_of_ne_nil filled (by decide) 0 rest
  refine ⟨ts, found, fun k below => ?_⟩
  rw [columns k below, Nat.zero_add]

/-- If the height of the geoid is taken from its own column, the sentence is complete. -/
theorem complete_of_tokens {rest : List Char} {ts : List (Nat × List Char)}
    (found : tokens ',' 12 0 (spread ',' (r.columns.map fieldText) rest) = some ts)
    (last : ts[11]?.map Prod.fst = some 11) : r.Complete := by
  intro column inside
  have length : (r.columns.map fieldText).length = 12 := rfl
  rcases Option.map_eq_some_iff.mp last with ⟨⟨place, token⟩, here, rfl⟩
  have filled := ne_nil_of_tokens (k := 11) r.columns_areFields (by decide) found here
  rw [List.take_of_length_le (by rw [length])] at filled
  exact fieldText_ne_nil_iff.mp (filled _ (List.mem_map_of_mem inside))

theorem spread_append (fields : List (List Char)) (rest more : List Char) :
    spread ',' fields rest ++ more = spread ',' fields (rest ++ more) := by
  induction fields with
  | nil => rfl
  | cons field fields ih =>
      rw [spread_cons, spread_cons, List.append_assoc, List.cons_append, ih]

theorem line_append (r : GgaRecord) (behind : List Char) :
    r.line ++ behind = spread ',' (r.columns.map fieldText) (r.trailer ++ ['\n'] ++ behind) :=
  spread_append _ _ _

/-- The header is the first token. -/
theorem saysGga (r : GgaRecord) (behind : List Char) : SaysGga (r.line ++ behind) := by
  let rest := spread ',' (r.columns.tail.map fieldText) (r.trailer ++ ['\n'] ++ behind)
  have first : strtok ',' (r.line ++ behind) = some (r.header.text ++ nul :: rest, rest) := by
    rw [line_append]
    exact strtok_field r.header rest
  exact ⟨_, _, first, drop_header r.talker_length rfl _⟩

theorem isLine (r : GgaRecord) (fits : r.line.length < maxChar) : IsLine maxChar r.line := by
  have ending : r.line = spread ',' (r.columns.map fieldText) r.trailer ++ ['\n'] :=
    (spread_append _ _ _).symm
  rw [ending] at fits ⊢
  refine isLine_of_plain ?_ fits
  generalize r.columns = columns
  induction columns with
  | nil => exact r.trailer_plain
  | cons column columns ih =>
      intro c member
      rw [List.map_cons, spread_cons] at member
      rcases List.mem_append.mp member with inside | behind
      · cases column with
        | none => cases inside
        | some field => exact (field.plain c inside).2
      · rcases List.mem_cons.mp behind with rfl | later
        · exact ⟨by decide, by decide⟩
        · exact ih c later

end GgaRecord

/-! ## The loop -/

section Loop

variable {P : Type*} {frame : Frame P} {str : List Char} {arrays more : List (List Char)}
  {numd n : Nat} {xyz xyz' : Nat → P}

/-- The count never goes back. -/
theorem le_of_readSentences (read : readSentences frame arrays numd xyz = some (xyz', n)) :
    numd ≤ n := by
  induction arrays generalizing numd xyz with
  | nil =>
      cases read
      exact le_rfl
  | cons str rest ih =>
      rw [readSentences] at read
      split at read
      · cases read
      · exact ih read
      · dsimp only at read
        split at read
        · cases read
          exact Nat.le_succ numd
        · exact (Nat.le_succ numd).trans (ih read)

/-- The loop goes on behind what it has read, as long as there is room. -/
theorem readSentences_append (read : readSentences frame arrays numd xyz = some (xyz', n))
    (start : numd < userMotionSize) :
    readSentences frame (arrays ++ more) numd xyz =
      if n < userMotionSize then readSentences frame more n xyz' else some (xyz', n) := by
  induction arrays generalizing numd xyz with
  | nil =>
      cases read
      rw [if_pos start]
      rfl
  | cons str rest ih =>
      rw [List.cons_append, readSentences]
      rw [readSentences] at read
      split at read
      · cases read
      · exact ih read start
      · dsimp only at read ⊢
        split at read
        · rename_i full
          cases read
          rw [if_pos full, if_neg (by omega)]
        · rename_i room
          rw [if_neg room]
          exact ih read (by omega)

/-- **Nothing changes** if and only if every text that is read has a first token, which is not that
of a GGA sentence. -/
theorem readSentences_same_iff :
    readSentences frame arrays numd xyz = some (xyz, numd) ↔ ∀ str ∈ arrays, SaysOther str := by
  induction arrays with
  | nil => exact iff_of_true rfl (by rintro str ⟨⟩)
  | cons str rest ih =>
      rw [List.forall_mem_cons, ← ih, ← readSentence_eq_none_iff, readSentences]
      cases made : readSentence str with
      | none => simp
      | some result =>
          cases result with
          | none => simp
          | some llh =>
              refine iff_of_false (fun read => ?_) (by simp)
              dsimp only at read
              split at read
              · have count := congrArg Prod.snd (Option.some.inj read)
                exact absurd count (Nat.succ_ne_self numd)
              · exact absurd (le_of_readSentences read) (Nat.not_succ_le_self numd)

end Loop

/-! ## Lines of a file -/

section Lines

variable {P : Type*}

/-- What `fgets` leaves in the array, at the end of a file. -/
def leftover (locals : Locals) (file : List Char) : List Char :=
  (lines maxChar locals.str file).getLastD locals.str

/-- The fields that make a position are taken from their own columns. -/
def OwnColumns (str : List Char) : Prop :=
  ∃ ts, tokens ',' 12 0 str = some ts ∧ ∀ k ∈ [2, 3, 4, 5, 9, 11], ts[k]?.map Prod.fst = some k

/-- A GGA sentence behind a file gives exactly its position, each field from its own column, or
nothing. -/
structure SentenceRead (frame : Frame P) (locals : Locals) (xyz : Nat → P) (before : List Char)
    (track : Nat → P) (n : Nat) (r : GgaRecord) : Prop where
  appended : ∀ point, r.point = some point →
    readNmeaGGA frame locals xyz (some (before ++ r.line)) =
        some (Function.update track n (frame.llh2xyz (inRadian point)), (n : Int) + 1) ∧
      OwnColumns (overlay (leftover locals before) r.line)
  unchanged : r.point = none →
    readNmeaGGA frame locals xyz (some (before ++ r.line)) = some (track, (n : Int))

variable {frame : Frame P} {locals : Locals} {xyz track : Nat → P} {before line : List Char}
  {n : Nat}

theorem readNmeaGGA_eq_some_iff {file : List Char} :
    readNmeaGGA frame locals xyz (some file) = some (track, (n : Int)) ↔
      readSentences frame (lines maxChar locals.str file) 0 xyz = some (track, n) := by
  constructor
  · intro read
    rcases Option.map_eq_some_iff.mp read with ⟨⟨track', n'⟩, found, same⟩
    obtain ⟨rfl, count⟩ := Prod.mk.inj same
    rw [found, Int.ofNat_inj.mp count]
  · intro found
    rw [readNmeaGGA, found]
    rfl

/-- The reader goes on behind a file that leaves no line open. -/
theorem readNmeaGGA_append_iff (ends : EndsLine before)
    (reached : readNmeaGGA frame locals xyz (some before) = some (track, (n : Int)))
    {track' : Nat → P} {n' : Nat} :
    readNmeaGGA frame locals xyz (some (before ++ line)) = some (track', (n' : Int)) ↔
      (if n < userMotionSize then
        readSentences frame (buffers (leftover locals before) (pieces maxChar line)) n track
      else some (track, n)) = some (track', n') := by
  have split : lines maxChar locals.str (before ++ line) = lines maxChar locals.str before ++
      buffers (leftover locals before) (pieces maxChar line) := by
    rw [leftover, lines_eq_buffers, lines_eq_buffers,
      pieces_append_text (by decide) ends, buffers_append]
  rw [readNmeaGGA_eq_some_iff] at reached ⊢
  rw [split, readSentences_append reached (by decide)]

/-- The array that a sentence is read into. -/
theorem buffers_sentence {r : GgaRecord} (fits : r.line.length < maxChar) (array : List Char) :
    buffers array (pieces maxChar r.line) = [overlay array r.line] := by
  have isPiece := (r.isLine fits).isPiece []
  have cut := pieces_append (by decide) isPiece
  rw [List.append_nil, pieces_nil] at cut
  rw [cut]
  rfl

/-- A complete sentence gives its position. -/
theorem readSentences_complete (frame : Frame P) {r : GgaRecord} (complete : r.Complete)
    (array : List Char) (n : Nat) (track : Nat → P) :
    ∃ point, r.point = some point ∧ readSentences frame [overlay array r.line] n track =
      some (Function.update track n (frame.llh2xyz (inRadian point)), n + 1) := by
  obtain ⟨s, line, point⟩ := complete.sentence
  refine ⟨s.point, point, ?_⟩
  have holds : HoldsString s.line (overlay array r.line) := by
    rw [line]
    exact ⟨_, rfl⟩
  rw [readSentences, readSentence_gga s holds]
  dsimp only
  split <;> rfl

/-- The reader goes on behind the file with the array that the sentence is read into. -/
theorem readNmeaGGA_sentence_iff (ends : EndsLine before)
    (reached : readNmeaGGA frame locals xyz (some before) = some (track, (n : Int)))
    {r : GgaRecord} (fits : r.line.length < maxChar) {track' : Nat → P} {n' : Nat} :
    readNmeaGGA frame locals xyz (some (before ++ r.line)) = some (track', (n' : Int)) ↔
      (if n < userMotionSize then
        readSentences frame [overlay (leftover locals before) r.line] n track
      else some (track, n)) = some (track', n') := by
  rw [readNmeaGGA_append_iff ends reached, buffers_sentence fits]

/-- A sentence that is read as it should be, with room for it, is complete. -/
theorem SentenceRead.complete (ends : EndsLine before)
    (reached : readNmeaGGA frame locals xyz (some before) = some (track, (n : Int)))
    {r : GgaRecord} (fits : r.line.length < maxChar) (room : n < userMotionSize)
    (read : SentenceRead frame locals xyz before track n r) : r.Complete := by
  cases given : r.point with
  | none =>
      -- The sentence is taken for one with a position, or there is no result.
      have unchanged := (readNmeaGGA_sentence_iff ends reached fits).mp (read.unchanged given)
      rw [if_pos room] at unchanged
      have same := readSentences_same_iff.mp unchanged
      exact absurd (same _ List.mem_cons_self) (r.saysGga _).not_saysOther
  | some point =>
      obtain ⟨ts, found, columns⟩ := (read.appended point given).2
      rw [overlay, r.line_append] at found
      exact r.complete_of_tokens found (columns 11 (by decide))

/-- A complete sentence is read as it should be, if there is room for it. -/
theorem GgaRecord.Complete.read (ends : EndsLine before)
    (reached : readNmeaGGA frame locals xyz (some before) = some (track, (n : Int)))
    {r : GgaRecord} (fits : r.line.length < maxChar) (room : n < userMotionSize)
    (complete : r.Complete) : SentenceRead frame locals xyz before track n r := by
  obtain ⟨point, given, result⟩ :=
    readSentences_complete frame complete (leftover locals before) n track
  have columns : OwnColumns (overlay (leftover locals before) r.line) := by
    rw [OwnColumns, overlay, r.line_append]
    obtain ⟨ts, found, places⟩ := r.tokens_of_complete complete _
    refine ⟨ts, found, ?_⟩
    intro k member
    apply places k
    fin_cases member <;> decide
  refine ⟨fun point' given' => ?_, fun none_given => ?_⟩
  · obtain rfl : point = point' := Option.some.inj (given.symm.trans given')
    have step : (if n < userMotionSize then
          readSentences frame [overlay (leftover locals before) r.line] n track
        else some (track, n)) =
          some (Function.update track n (frame.llh2xyz (inRadian point)), n + 1) := by
      rw [if_pos room]
      exact result
    exact ⟨(readNmeaGGA_sentence_iff ends reached fits).mpr step, columns⟩
  · rw [given] at none_given
    cases none_given

/-- Without room, only a sentence without a position is read as it should be. -/
theorem sentenceRead_full_iff (ends : EndsLine before)
    (reached : readNmeaGGA frame locals xyz (some before) = some (track, (n : Int)))
    {r : GgaRecord} (fits : r.line.length < maxChar) (full : ¬ n < userMotionSize) :
    SentenceRead frame locals xyz before track n r ↔ r.point = none := by
  constructor
  · intro read
    by_contra given
    obtain ⟨point, given⟩ := Option.ne_none_iff_exists'.mp given
    have appended := (read.appended point given).1
    have same := (readNmeaGGA_sentence_iff ends reached fits).mp appended
    rw [if_neg full] at same
    have count : n = n + 1 := congrArg Prod.snd (Option.some.inj same)
    omega
  · intro none_given
    refine ⟨fun point given => ?_, fun _ => ?_⟩
    · rw [none_given] at given
      cases given
    · rw [readNmeaGGA_sentence_iff ends reached fits, if_neg full]

/-- **A GGA sentence** is read as it should be if and only if no column up to the height of the
geoid is empty, and there is room; without room, only if it gives no position. -/
theorem sentenceRead_iff (ends : EndsLine before)
    (reached : readNmeaGGA frame locals xyz (some before) = some (track, (n : Int)))
    {r : GgaRecord} (fits : r.line.length < maxChar) :
    SentenceRead frame locals xyz before track n r ↔
      if n < userMotionSize then r.Complete else r.point = none := by
  by_cases room : n < userMotionSize
  · rw [if_pos room]
    exact ⟨fun read => read.complete ends reached fits room,
      fun complete => complete.read ends reached fits room⟩
  · rw [if_neg room]
    exact sentenceRead_full_iff ends reached fits room

/-- **A line of any kind** leaves the track as it is if and only if each piece of it, where it lies
in the array, has a first token, which is not that of a GGA sentence, or there is no room. -/
theorem otherLine_iff (ends : EndsLine before)
    (reached : readNmeaGGA frame locals xyz (some before) = some (track, (n : Int))) :
    readNmeaGGA frame locals xyz (some (before ++ line)) = some (track, (n : Int)) ↔
      (n < userMotionSize →
        ∀ str ∈ buffers (leftover locals before) (pieces maxChar line), SaysOther str) := by
  rw [readNmeaGGA_append_iff ends reached]
  split
  · rename_i room
    rw [readSentences_same_iff]
    exact ⟨fun same _ => same, fun same => same room⟩
  · rename_i full
    exact iff_of_true rfl fun room => absurd room full

/-- **Lines of a file of sentences.**  Behind any file that has been read, a GGA sentence and any
other line are read as they should be exactly under these conditions. -/
theorem readNmeaGGA_lines_iff (ends : EndsLine before)
    (reached : readNmeaGGA frame locals xyz (some before) = some (track, (n : Int))) :
    (∀ r : GgaRecord, r.line.length < maxChar →
      (SentenceRead frame locals xyz before track n r ↔
        if n < userMotionSize then r.Complete else r.point = none)) ∧
    ∀ line : List Char,
      readNmeaGGA frame locals xyz (some (before ++ line)) = some (track, (n : Int)) ↔
        (n < userMotionSize →
          ∀ str ∈ buffers (leftover locals before) (pieces maxChar line), SaysOther str) :=
  ⟨fun _ fits => sentenceRead_iff ends reached fits, fun _ => otherLine_iff ends reached⟩

end Lines

/-! ## With and without a fix -/

/-- A field that holds a row of digits. -/
def digitsField (digits : List Char) (all : ∀ c ∈ digits, c.isDigit = true)
    (some_digit : digits ≠ []) : Field :=
  numberField (digitsNumeral digits all some_digit)

def meters : Field :=
  letterField 'M' ⟨by decide, by decide, by decide⟩

/-- A receiver that has not found its position. -/
def withoutFix : GgaRecord where
  talker := ['$', 'G', 'P']
  talker_length := rfl
  talker_plain := by simp [Plain, nul]
  time := some (digitsField ['1', '2', '3', '5', '1', '9'] (by simp) (List.cons_ne_nil _ _))
  lat := none
  south := none
  lon := none
  west := none
  fix := some (digitsField ['0'] (by simp) (List.cons_ne_nil _ _))
  satellites := some (digitsField ['0', '0'] (by simp) (List.cons_ne_nil _ _))
  hdop := none
  altitude := none
  unit := some meters
  geoid := none
  trailer := ['M', ',', ',', '*', '6', '6', '\r']
  trailer_plain := by simp [Plain, nul]

/-- The same receiver with a position. -/
def withFix : GgaRecord :=
  { withoutFix with
    lat := some ⟨['2', '1'], digitsNumeral ['0', '0'] (by simp) (List.cons_ne_nil _ _), rfl,
      by simp⟩
    south := some false
    lon := some ⟨['1', '0', '5'], digitsNumeral ['5', '1'] (by simp) (List.cons_ne_nil _ _), rfl,
      by simp⟩
    west := some false
    hdop := some (digitsField ['1'] (by simp) (List.cons_ne_nil _ _))
    altitude := some (digitsNumeral ['1', '9'] (by simp) (List.cons_ne_nil _ _))
    geoid := some (digitsNumeral ['2', '8'] (by simp) (List.cons_ne_nil _ _)) }

/-- Without a fix, the reader runs out of tokens. -/
theorem sentenceRead_withoutFix :
    ¬ SentenceRead ⟨id, id⟩ ⟨[], fun _ => 0, 0⟩ (fun _ => (0, 0, 0)) [] (fun _ => (0, 0, 0)) 0
      withoutFix := by
  intro read
  have lost : (readNmeaGGA (P := Number × Number × Number) ⟨id, id⟩ ⟨[], fun _ => 0, 0⟩
      (fun _ => (0, 0, 0)) (some ([] ++ withoutFix.line))).isNone = true := by
    decide +kernel
  rw [read.unchanged rfl] at lost
  cases lost

theorem readNmeaGGA_lines_iff_withFix :
    SentenceRead ⟨id, id⟩ ⟨[], fun _ => 0, 0⟩ (fun _ => (0, 0, 0)) [] (fun _ => (0, 0, 0)) 0
      withFix :=
  ((readNmeaGGA_lines_iff (P := Number × Number × Number) (by rintro c ⟨⟩) rfl).1 withFix
    (by decide +kernel)).mpr
    (by simp [GgaRecord.Complete, GgaRecord.columns, withFix, withoutFix, userMotionSize])

end Navisim.Motion

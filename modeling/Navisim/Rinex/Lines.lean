import Navisim.Rinex.Limits

/-!
# The lines of a RINEX file

One buffer takes all lines, and numbers are taken from columns of it that a short line does not
reach.  What is there then is left from the lines before (`lineOnly_iff`).
-/

namespace Navisim.Rinex

open Text
open Motion (maxChar)

/-- What is taken from the lines that are read, with what they are read as, in order. -/
def Scan.reads (sqrt : ℚ → ℚ) : List (List Char) → Scan → List (Place × Taken)
  | [], _ => []
  | str :: rest, s =>
      match s.place with
      | none => []
      | some place =>
          (place, taken place str) ::
            match s.step sqrt (taken place str) with
            | none => []
            | some s => Scan.reads sqrt rest s

def File.reads (sqrt : ℚ → ℚ) (eph : Int → Nat → Ephem ℚ) (ionoutc : IonoUtc ℚ)
    (str file : List Char) : List (Place × Taken) :=
  (start eph ionoutc).reads sqrt (lines maxChar str file)

/-- Two files that differ in one earlier line give the same numbers from a line that is read as
`place` in both. -/
def LineOnly (place : Place) (line : List Char) : Prop :=
  ∀ (sqrt : ℚ → ℚ) (eph : Int → Nat → Ephem ℚ) (ionoutc : IonoUtc ℚ) (str file file' : List Char)
    (before : List (List Char)) (earlier earlier' : List Char)
    (between rest : List (List Char)) (values values' : Taken),
    pieces maxChar file = before ++ earlier :: (between ++ line :: rest) →
    pieces maxChar file' = before ++ earlier' :: (between ++ line :: rest) →
    (File.reads sqrt eph ionoutc str file)[before.length + 1 + between.length]? =
      some (place, values) →
    (File.reads sqrt eph ionoutc str file')[before.length + 1 + between.length]? =
      some (place, values') →
    values = values'

/-- The last column from which something is taken. -/
def lastColumn : Place → Nat
  | .header => 60
  | .record line => if line = 5 then 41 else if line < 7 then 60 else 0

section Columns

variable {line array array' : List Char} {pos n : Nat}

theorem number_overlay (inside : pos ≤ line.length) (n : Nat) (array array' : List Char) :
    number (overlay array line) pos n = number (overlay array' line) pos n := by
  rw [number, number, strncpy_overlay inside]

theorem integer_overlay (inside : pos ≤ line.length) (n : Nat) (array array' : List Char) :
    integer (overlay array line) pos n = integer (overlay array' line) pos n := by
  rw [integer, integer, strncpy_overlay inside]

theorem twoDigits_overlay (inside : pos ≤ line.length) (array array' : List Char) :
    twoDigits (overlay array line) pos = twoDigits (overlay array' line) pos :=
  Subtype.ext (integer_overlay inside 2 array array')

theorem tenths_overlay (inside : 18 ≤ line.length) (array array' : List Char) :
    tenths (overlay array line) = tenths (overlay array' line) :=
  Subtype.ext (congrArg (fun s : List Char => (atof (s.take 2)).toRat)
    (strncpy_overlay inside 4 array array'))

theorem header_overlay (inside : 60 ≤ line.length) (array array' : List Char) :
    header (overlay array line) = header (overlay array' line) := by
  have label : ∀ literal, nul ∉ literal →
      startsWith literal ((overlay array line).drop 60) =
        startsWith literal ((overlay array' line).drop 60) :=
    fun literal no_nul => startsWith_overlay no_nul inside array array'
  have column : ∀ pos n, pos ≤ 60 →
      number (overlay array line) pos n = number (overlay array' line) pos n :=
    fun pos n below => number_overlay (below.trans inside) n array array'
  have digits : ∀ pos n, pos ≤ 60 →
      integer (overlay array line) pos n = integer (overlay array' line) pos n :=
    fun pos n below => integer_overlay (below.trans inside) n array array'
  unfold header
  rw [label _ (by decide), label _ (by decide), label _ (by decide), label _ (by decide),
    label _ (by decide)]
  simp only [column _ _ (show 2 ≤ 60 by decide), column _ _ (show 14 ≤ 60 by decide),
    column _ _ (show 26 ≤ 60 by decide), column _ _ (show 38 ≤ 60 by decide),
    column _ _ (show 3 ≤ 60 by decide), column _ _ (show 22 ≤ 60 by decide),
    digits _ _ (show 41 ≤ 60 by decide), digits _ _ (show 50 ≤ 60 by decide),
    digits _ _ (show 0 ≤ 60 by decide)]

/-- The wide columns of a line that reaches the last one. -/
theorem lineValues_overlay (k : Nat) (inside : lastColumn (.record k) ≤ line.length)
    (array array' : List Char) :
    lineValues k (overlay array line) = lineValues k (overlay array' line) := by
  match k with
  | 0 | 1 | 2 | 3 | 4 | 6 =>
      have column : ∀ pos n, pos ≤ 60 →
          number (overlay array line) pos n = number (overlay array' line) pos n :=
        fun pos n below => number_overlay (below.trans inside) n array array'
      unfold lineValues
      simp only [column _ _ (show 3 ≤ 60 by decide), column _ _ (show 22 ≤ 60 by decide),
        column _ _ (show 41 ≤ 60 by decide), column _ _ le_rfl]
  | 5 =>
      have column : ∀ pos n, pos ≤ 41 →
          number (overlay array line) pos n = number (overlay array' line) pos n :=
        fun pos n below => number_overlay (below.trans inside) n array array'
      unfold lineValues
      simp only [column _ _ (show 3 ≤ 41 by decide), column _ _ (show 22 ≤ 41 by decide),
        column _ _ le_rfl]
  | _ + 7 => rfl

/-- **A line that reaches the last column** from which something is taken makes all numbers. -/
theorem taken_overlay (place : Place) (inside : lastColumn place ≤ line.length)
    (array array' : List Char) :
    taken place (overlay array line) = taken place (overlay array' line) := by
  match place with
  | .header => rw [taken, taken, header_overlay inside array array']
  | .record 0 =>
      have reach : ∀ pos, pos ≤ 60 → pos ≤ line.length := fun pos below => below.trans inside
      have digits : ∀ pos, pos ≤ 60 →
          twoDigits (overlay array line) pos = twoDigits (overlay array' line) pos :=
        fun pos below => twoDigits_overlay (reach pos below) array array'
      rw [taken, taken, clockRecord, clockRecord, lineValues_overlay 0 inside array array',
        tenths_overlay (reach 18 (by decide)) array array']
      simp only [digits 0 (by decide), digits 3 (by decide), digits 6 (by decide),
        digits 9 (by decide), digits 12 (by decide), digits 15 (by decide)]
  | .record (k + 1) =>
      rw [taken, taken, lineValues_overlay (k + 1) inside array array']

end Columns

section Reads

variable {sqrt : ℚ → ℚ} {s : Scan} {place : Place} {values : Taken} {line : List Char}

theorem Scan.reads_taken (strs : List (List Char)) {i : Nat}
    (read : (s.reads sqrt strs)[i]? = some (place, values)) :
    ∃ str, strs[i]? = some str ∧ values = taken place str := by
  induction strs generalizing s i with
  | nil => cases read
  | cons str rest ih =>
      rw [reads] at read
      cases here : s.place with
      | none =>
          rw [here] at read
          cases read
      | some place' =>
          rw [here] at read
          dsimp only at read
          cases i with
          | zero =>
              obtain ⟨rfl, rfl⟩ := Prod.mk.inj (Option.some.inj read)
              exact ⟨str, rfl, rfl⟩
          | succ i =>
              rw [List.getElem?_cons_succ] at read
              split at read
              · cases read
              · exact ih read

/-- Each array holds its piece over some other array. -/
theorem buffers_getElem? (array : List Char) (parts : List (List Char)) (i : Nat) :
    ∃ array', (buffers array parts)[i]? = parts[i]?.map (overlay array') := by
  induction parts generalizing array i with
  | nil => exact ⟨array, rfl⟩
  | cons piece rest ih =>
      cases i with
      | zero => exact ⟨array, rfl⟩
      | succ i => exact ih (overlay array piece) i

/-- A line of a file is read from an array that holds it. -/
theorem reads_overlay {eph : Int → Nat → Ephem ℚ} {ionoutc : IonoUtc ℚ} {str file : List Char}
    {before rest : List (List Char)} (split : pieces maxChar file = before ++ line :: rest)
    (read : (File.reads sqrt eph ionoutc str file)[before.length]? = some (place, values)) :
    ∃ array, values = taken place (overlay array line) := by
  obtain ⟨buffer, here, rfl⟩ := Scan.reads_taken _ read
  obtain ⟨array, held⟩ := buffers_getElem? str (pieces maxChar file) before.length
  rw [lines_eq_buffers, held, split, List.getElem?_append_right le_rfl, Nat.sub_self] at here
  exact ⟨array, by rw [← Option.some.inj here]⟩

theorem lineOnly_of_lastColumn (inside : lastColumn place ≤ line.length) : LineOnly place line := by
  intro sqrt eph ionoutc str file file' before earlier earlier' between rest values values' split
    split' read read'
  have length : ∀ other : List Char, before.length + 1 + between.length =
      (before ++ other :: between).length := by
    intro other
    rw [List.length_append, List.length_cons]
    omega
  rw [← List.cons_append, ← List.append_assoc] at split split'
  rw [length earlier] at read
  rw [length earlier'] at read'
  obtain ⟨array, rfl⟩ := reads_overlay split read
  obtain ⟨array', rfl⟩ := reads_overlay split' read'
  exact taken_overlay place inside array array'

end Reads

/-! ## Short lines -/

/-- A line that has a digit in column 41 and in column 60, and is a good first line of a
record. -/
def fillLine (d : Char) : List Char :=
  "01 20 01 01 00 00  0.0".toList ++ List.replicate 19 ' ' ++ d :: List.replicate 18 ' ' ++
    [d, '\n']

section Short

variable {sqrt : ℚ → ℚ} {s : Scan} {place : Place} {line : List Char} {d : Char} {k : Nat}

theorem fillLine_isLine (digit : d = '1' ∨ d = '2') : IsLine maxChar (fillLine d) := by
  rcases digit with rfl | rfl
  · exact ⟨⟨(fillLine '1').dropLast, by decide, by decide, by decide⟩, by decide⟩
  · exact ⟨⟨(fillLine '2').dropLast, by decide, by decide, by decide⟩, by decide⟩

theorem fillLine_drop (d : Char) (array : List Char) :
    (overlay array (fillLine d)).drop 60 = [d, '\n'] ++ nul :: array.drop 63 ∧
      (overlay array (fillLine d)).drop 41 =
        d :: List.replicate 18 ' ' ++ [d, '\n'] ++ nul :: array.drop 63 := by
  constructor <;> rfl

theorem clockRecord_fillLine (d : Char) (array : List Char) :
    (clockRecord (overlay array (fillLine d))).HasMonth ∧
      (clockRecord (overlay array (fillLine d))).HasSatellite := by
  have one : atoi ['0', '1'] = 1 := by decide
  have month : (clockRecord (overlay array (fillLine d))).m.1 = 1 := one
  have prn : (clockRecord (overlay array (fillLine d))).prn.1 = 1 := one
  rw [Record.HasMonth, Record.HasSatellite, month, prn]
  decide

/-- The first record of a file opens no set, and its orbit lines follow. -/
theorem step_first (sqrt : ℚ → ℚ) {record : Record} (memory : Int → Nat → Ephem ℚ)
    (fresh : s.reader = Reader.start memory) (month : record.HasMonth)
    (satellite : record.HasSatellite) :
    ∃ s', s.step sqrt (.clock record) = some s' ∧ s'.place = some (.record 1) := by
  have index := (((Reader.after_start sqrt memory).checkTime (by simp) record).2 [] record []
    (sets_singleton record)).1
  rw [Scan.step, Record.date2gps_t month, fresh]
  simp only [Option.bind_eq_bind, Option.bind_some, Option.pure_def]
  rw [index, if_neg (by decide), if_pos (Record.sv_range.mpr satellite)]
  exact ⟨_, rfl, rfl⟩

theorem reads_head (here : s.place = some place) (str : List Char) (rest : List (List Char)) :
    (s.reads sqrt (str :: rest))[0]? = some (place, taken place str) := by
  rw [Scan.reads, here]
  rfl

theorem reads_cons {s' : Scan} {str : List Char} {rest : List (List Char)}
    (here : s.place = some place) (next : s.step sqrt (taken place str) = some s') :
    s.reads sqrt (str :: rest) = (place, taken place str) :: s'.reads sqrt rest := by
  rw [Scan.reads, here]
  dsimp only
  rw [next]

/-- Orbit lines are read up to the end of the record. -/
theorem reads_orbits (sqrt : ℚ → ℚ) (strs : List (List Char)) (str : List Char)
    (rest : List (List Char))
    (here : s.place = some (.record (k + 1))) (orbit : k < 7) (few : k + 1 + strs.length ≤ 8) :
    (s.reads sqrt (strs ++ str :: rest))[strs.length]? =
      some (.record ((k + 1 + strs.length) % 8),
        taken (.record ((k + 1 + strs.length) % 8)) str) := by
  induction strs generalizing s k with
  | nil =>
      rw [List.length_nil, Nat.add_zero, Nat.mod_eq_of_lt (by omega)]
      exact reads_head here str rest
  | cons first strs ih =>
      rw [List.length_cons] at few
      have next : s.step sqrt (taken (.record (k + 1)) first) = some { s with
          place := some (.record (if k + 1 = 7 then 0 else k + 1 + 1))
          reader := s.reader.update s.sv
            (storeLine sqrt s.t s.g (lineValues (k + 1) first) (k + 1)) } := rfl
      rw [List.cons_append, reads_cons here next, List.length_cons, List.getElem?_cons_succ,
        show k + 1 + (strs.length + 1) = k + 1 + 1 + strs.length by omega]
      by_cases last : k = 6
      · obtain rfl : strs = [] := List.eq_nil_of_length_eq_zero (by omega)
        subst last
        exact reads_head rfl str rest
      · rw [if_neg (by omega)]
        exact ih rfl (by omega) (by omega)

/-- The end of a header, `n + 1` full lines, the last one with another digit, and a line. -/
def shortFile (n : Nat) (d : Char) (line : List Char) : List Char :=
  endOfHeader ++ ((List.replicate n (fillLine '1')).flatten ++ (fillLine d ++ line))

theorem endOfHeader_isLine : IsLine maxChar endOfHeader :=
  ⟨⟨endOfHeader.dropLast, by decide, by decide, by decide⟩, by decide⟩

theorem header_endOfHeader (array : List Char) :
    header (overlay array endOfHeader) = .endOfHeader :=
  if_pos rfl

theorem shortFile_pieces (n : Nat) (digit : d = '1' ∨ d = '2') (isPiece : IsPiece maxChar line []) :
    pieces maxChar (shortFile n d line) =
      (endOfHeader :: List.replicate n (fillLine '1')) ++ fillLine d :: ([] ++ line :: []) := by
  have room : 2 ≤ maxChar := by decide
  have last := pieces_append room isPiece
  rw [List.append_nil, pieces_nil] at last
  rw [shortFile, pieces_append room (endOfHeader_isLine.isPiece _), List.cons_append]
  congr 1
  induction n with
  | zero =>
      rw [List.replicate_zero, List.flatten_nil, List.nil_append,
        pieces_append room ((fillLine_isLine digit).isPiece _), last]
      rfl
  | succ n ih =>
      rw [List.replicate_succ, List.flatten_cons, List.append_assoc,
        pieces_append room ((fillLine_isLine (Or.inl rfl)).isPiece _), ih]
      rfl

/-- **The line behind full lines** lies over the last one of them. -/
theorem shortFile_reads (sqrt : ℚ → ℚ) (eph : Int → Nat → Ephem ℚ) (ionoutc : IonoUtc ℚ)
    (str : List Char) {n : Nat} (few : n < 8) (digit : d = '1' ∨ d = '2')
    (isPiece : IsPiece maxChar line []) :
    ∃ array, (File.reads sqrt eph ionoutc str (shortFile n d line))[n + 2]? =
      some (.record ((n + 1) % 8),
        taken (.record ((n + 1) % 8)) (overlay (overlay array (fillLine d)) line)) := by
  rw [File.reads, lines_eq_buffers, shortFile_pieces n digit isPiece, List.cons_append, buffers]
  generalize top : overlay str endOfHeader = b
  rw [buffers_append, buffers]
  have full : ∃ d' array strs, buffers b (List.replicate n (fillLine '1')) ++
      overlay ((buffers b (List.replicate n (fillLine '1'))).getLastD b) (fillLine d) ::
        buffers (overlay ((buffers b (List.replicate n (fillLine '1'))).getLastD b) (fillLine d))
          ([] ++ line :: []) =
      overlay array (fillLine d') :: (strs ++ overlay (overlay ((buffers b
        (List.replicate n (fillLine '1'))).getLastD b) (fillLine d)) line :: []) ∧
      strs.length = n := by
    cases n with
    | zero => exact ⟨d, b, [], rfl, rfl⟩
    | succ n =>
        rw [List.replicate_succ, buffers, List.getLastD_cons]
        refine ⟨'1', b, buffers (overlay b (fillLine '1')) (List.replicate n (fillLine '1')) ++
          [overlay ((buffers (overlay b (fillLine '1')) (List.replicate n (fillLine '1'))).getLastD
            (overlay b (fillLine '1'))) (fillLine d)], ?_, ?_⟩
        · rw [List.append_assoc]
          rfl
        · rw [List.length_append, buffers_length, List.length_replicate]
          rfl
  rcases full with ⟨d', array, strs, same, length⟩
  rw [same]
  refine ⟨(buffers b (List.replicate n (fillLine '1'))).getLastD b, ?_⟩
  generalize (buffers b (List.replicate n (fillLine '1'))).getLastD b = array'
  obtain ⟨month, satellite⟩ := clockRecord_fillLine d' array
  obtain ⟨s, step, here⟩ := step_first sqrt (s := (File.start eph ionoutc).endHeader)
    (clearFlags eph) rfl month satellite
  have read := reads_orbits sqrt strs (overlay (overlay array' (fillLine d)) line) []
    here (by decide) (by omega)
  rw [length, Nat.add_comm 1 n] at read
  have first : (File.start eph ionoutc).step sqrt (taken .header b) =
      some (File.start eph ionoutc).endHeader := by
    rw [← top, taken, header_endOfHeader]
    rfl
  rw [reads_cons rfl first, List.getElem?_cons_succ, reads_cons rfl step,
    List.getElem?_cons_succ, read]

/-- A line that ends in front of the last column finds there what the full line before has. -/
theorem number_fillLine (numbers : k < 7) (short : line.length < lastColumn (.record k))
    (array : List Char) :
    number (overlay (overlay array (fillLine '1')) line) (lastColumn (.record k)) 19 = 1 ∧
      number (overlay (overlay array (fillLine '2')) line) (lastColumn (.record k)) 19 = 2 := by
  obtain ⟨one, one'⟩ := fillLine_drop '1' array
  obtain ⟨two, two'⟩ := fillLine_drop '2' array
  by_cases five : k = 5
  · subst five
    rw [number, number, drop_overlay short, drop_overlay short, lastColumn, if_pos rfl, one', two']
    exact (by decide +kernel :
      (atof (replaceExpDesignator ('1' :: List.replicate 18 ' '))).toRat = 1 ∧
        (atof (replaceExpDesignator ('2' :: List.replicate 18 ' '))).toRat = 2)
  · rw [number, number, drop_overlay short, drop_overlay short, lastColumn, if_neg five,
      if_pos numbers, one, two]
    exact (by decide +kernel : (atof (replaceExpDesignator ['1', '\n'])).toRat = 1 ∧
      (atof (replaceExpDesignator ['2', '\n'])).toRat = 2)

/-- The number in the last column goes into the record. -/
theorem trunc_number_of_lineValues {str str' : List Char} (numbers : k < 7)
    (same : lineValues k str = lineValues k str') :
    (trunc (number str (lastColumn (.record k)) 19) : Int) =
      trunc (number str' (lastColumn (.record k)) 19) := by
  match k with
  | 0 => exact congrArg (fun v : Ephem ℚ => trunc v.af2) same
  | 1 => exact congrArg (fun v : Ephem ℚ => trunc v.m0) same
  | 2 => exact congrArg (fun v : Ephem ℚ => trunc v.sqrta) same
  | 3 => exact congrArg (fun v : Ephem ℚ => trunc v.cis) same
  | 4 => exact congrArg (fun v : Ephem ℚ => trunc v.omgdot) same
  | 5 => exact congrArg (fun v : Ephem ℚ => v.toe.week) same
  | 6 => exact congrArg (fun v : Ephem ℚ => v.iodc) same
  | k + 7 => omega

theorem lineValues_of_taken {str str' : List Char}
    (same : taken (.record k) str = taken (.record k) str') :
    lineValues k str = lineValues k str' := by
  cases k with
  | zero => exact congrArg Record.values (Taken.clock.inj same)
  | succ k => exact (Taken.orbit.inj same).2

theorem lastColumn_of_lineOnly_record (only : LineOnly (.record k) line)
    (isPiece : IsPiece maxChar line []) : lastColumn (.record k) ≤ line.length := by
  by_contra short
  have numbers : k < 7 := by
    by_contra beyond
    rw [lastColumn, if_neg (by omega), if_neg beyond] at short
    omega
  obtain ⟨n, few, place⟩ : ∃ n < 8, (n + 1) % 8 = k := by
    cases k with
    | zero => exact ⟨7, by decide, rfl⟩
    | succ k => exact ⟨k, by omega, Nat.mod_eq_of_lt (by omega)⟩
  obtain ⟨array, read⟩ := shortFile_reads id (fun _ _ => blank) noIonoUtc [] few
    (Or.inl rfl : '1' = '1' ∨ '1' = '2') isPiece
  obtain ⟨array', read'⟩ := shortFile_reads id (fun _ _ => blank) noIonoUtc [] few
    (Or.inr rfl : '2' = '1' ∨ '2' = '2') isPiece
  rw [place] at read read'
  have index : (endOfHeader :: List.replicate n (fillLine '1')).length + 1 +
      ([] : List (List Char)).length = n + 2 := by
    rw [List.length_cons, List.length_replicate]
    rfl
  have same := only id (fun _ _ => blank) noIonoUtc [] _ _ _ _ _ [] [] _ _
    (shortFile_pieces n (Or.inl rfl) isPiece) (shortFile_pieces n (Or.inr rfl) isPiece)
    (by rw [index]; exact read) (by rw [index]; exact read')
  have numbers' := trunc_number_of_lineValues numbers (lineValues_of_taken same)
  rw [(number_fillLine numbers (by omega) array).1,
    (number_fillLine numbers (by omega) array').2] at numbers'
  exact absurd numbers' (by decide +kernel)

/-- A header line that is not read as the end of the header. -/
theorem step_header (sqrt : ℚ → ℚ) {str : List Char} (here : s.place = some .header)
    (other : header str ≠ .endOfHeader) :
    ∃ s', s.step sqrt (taken .header str) = some s' ∧ s'.place = some .header := by
  rw [taken, Scan.step, if_neg other]
  exact ⟨_, rfl, (Header.store_place _ s).trans here⟩

/-- A header line with a label. -/
def labelLine (label : List Char) : List Char :=
  List.replicate 60 ' ' ++ label ++ ['\n']

theorem labelLine_reads (sqrt : ℚ → ℚ) (eph : Int → Nat → Ephem ℚ) (ionoutc : IonoUtc ℚ)
    (str : List Char) {label : List Char} (isLine : IsLine maxChar (labelLine label))
    (isPiece : IsPiece maxChar line [])
    (other : header (overlay str (labelLine label)) ≠ .endOfHeader) :
    pieces maxChar (labelLine label ++ line) = [] ++ labelLine label :: ([] ++ line :: []) ∧
      (File.reads sqrt eph ionoutc str (labelLine label ++ line))[1]? = some (.header,
        taken .header (overlay (overlay str (labelLine label)) line)) := by
  have room : 2 ≤ maxChar := by decide
  have last := pieces_append room isPiece
  rw [List.append_nil, pieces_nil] at last
  have split : pieces maxChar (labelLine label ++ line) = [labelLine label, line] := by
    rw [pieces_append room (isLine.isPiece _), last]
  refine ⟨split, ?_⟩
  obtain ⟨s', step, here⟩ := step_header sqrt (s := File.start eph ionoutc) rfl other
  rw [File.reads, lines_eq_buffers, split, buffers, reads_cons rfl step, List.getElem?_cons_succ]
  exact reads_head here _ _

theorem lastColumn_of_lineOnly_header (only : LineOnly .header line)
    (isPiece : IsPiece maxChar line []) : lastColumn .header ≤ line.length := by
  by_contra short
  have isLine : ∀ label ∈ ["ION BETA".toList, "COMMENT".toList],
      IsLine maxChar (labelLine label) := by
    intro label member
    rcases List.mem_pair.mp member with rfl | rfl
    · exact ⟨⟨_, rfl, by decide, by decide⟩, by decide⟩
    · exact ⟨⟨_, rfl, by decide, by decide⟩, by decide⟩
  obtain ⟨split, read⟩ := labelLine_reads id (fun _ _ => blank) noIonoUtc []
    (isLine "ION BETA".toList (by simp)) isPiece (by decide +kernel)
  obtain ⟨split', read'⟩ := labelLine_reads id (fun _ _ => blank) noIonoUtc []
    (isLine "COMMENT".toList (by simp)) isPiece (by decide +kernel)
  have same := Taken.header.inj
    (only id (fun _ _ => blank) noIonoUtc [] _ _ [] _ _ [] [] _ _ split split' read read')
  have behind : line.length < 60 := Nat.not_le.mp short
  rw [header, header, drop_overlay behind, drop_overlay behind, if_neg (by decide),
    if_neg (by decide), if_pos (by decide), if_neg (by decide), if_neg (by decide),
    if_neg (by decide), if_neg (by decide), if_neg (by decide)] at same
  cases same

end Short

/-- **The numbers of a line are its own**, whatever the lines before it are, exactly if the line
reaches the last column from which something is taken: column 60, column 41 in the fifth orbit
line of a record, and any in the seventh. -/
theorem lineOnly_iff (place : Place) {line : List Char} (isPiece : IsPiece maxChar line []) :
    LineOnly place line ↔ lastColumn place ≤ line.length := by
  refine ⟨fun only => ?_, lineOnly_of_lastColumn⟩
  cases place with
  | header => exact lastColumn_of_lineOnly_header only isPiece
  | record line => exact lastColumn_of_lineOnly_record only isPiece

theorem orbitLine_lineOnly : LineOnly (.record 1) orbitLine :=
  (lineOnly_iff (.record 1) ⟨by decide, by decide⟩).mpr (by decide)

/-- An orbit line without its last two numbers takes them from the line before. -/
theorem trimmed_orbitLine_not_lineOnly :
    ¬ LineOnly (.record 1) "    0.100000000000D+01 0.100000000000D+01\n".toList := by
  intro only
  exact absurd (lastColumn_of_lineOnly_record only ⟨by decide, by decide⟩) (by decide)

end Navisim.Rinex

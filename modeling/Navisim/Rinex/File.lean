import Navisim.Lib.Columns
import Navisim.Motion.Readers
import Navisim.Rinex.Read

/-!
# The text of a RINEX file

`readRinexNavAll` line by line.  What a line is read as is its place; a place and a line make the
numbers that are taken from it, and nothing else of a line reaches the variables.

The ephemeris blocks are those of the model over records: the lines behind the header make
records of eight lines, and reading the lines is reading the records (`readRinexNavAll_records`).
-/

namespace Navisim.Rinex

open Text
open Motion (maxChar)

/-! ## Columns -/

def replaceExpDesignator (str : List Char) : List Char :=
  str.map fun c => if c = 'D' then 'E' else c

/-- The floating-point number in `n` columns from `pos` on; infinities and NaN are not told from 0
here. -/
def number (str : List Char) (pos n : Nat) : ℚ :=
  (atof (replaceExpDesignator (strncpy n (str.drop pos)))).toRat

/-- The integer in `n` columns from `pos` on. -/
def integer (str : List Char) (pos n : Nat) : Int :=
  atoi (strncpy n (str.drop pos))

/-- What is taken from a header line. -/
inductive Header
  | endOfHeader
  | ionAlpha (alpha0 alpha1 alpha2 alpha3 : ℚ)
  | ionBeta (beta0 beta1 beta2 beta3 : ℚ)
  | deltaUtc (A0 A1 : ℚ) (tot wnt : Int)
  | leapSeconds (dtls : Int)
  | other
  deriving DecidableEq

def header (str : List Char) : Header :=
  if startsWith "END OF HEADER".toList (str.drop 60) then .endOfHeader
  else if startsWith "ION ALPHA".toList (str.drop 60) then
    .ionAlpha (number str 2 12) (number str 14 12) (number str 26 12) (number str 38 12)
  else if startsWith "ION BETA".toList (str.drop 60) then
    .ionBeta (number str 2 12) (number str 14 12) (number str 26 12) (number str 38 12)
  else if startsWith "DELTA-UTC".toList (str.drop 60) then
    .deltaUtc (number str 3 19) (number str 22 19) (integer str 41 9) (integer str 50 9)
  else if startsWith "LEAP SECONDS".toList (str.drop 60) then
    .leapSeconds (integer str 0 6)
  else .other

/-- The two characters in the columns from `pos` on. -/
def twoDigits (str : List Char) (pos : Nat) : TwoDigits :=
  ⟨integer str pos 2, atoi_two (strncpy_length 2 _)⟩

/-- Four characters are copied, and cut after the second. -/
def tenths (str : List Char) : Tenths :=
  ⟨(atof ((strncpy 4 (str.drop 18)).take 2)).toRat, by
    obtain ⟨n, value⟩ := atof_two (List.length_take_le 2 (strncpy 4 (str.drop 18)))
    exact ⟨n, by rw [value, Number.toRat_finite]⟩⟩

/-- No numbers. -/
def blank : Ephem ℚ :=
  { vflg := 0, t := ⟨0, 0, 0, 0, 0, 0⟩, toc := ⟨0, 0⟩, toe := ⟨0, 0⟩, iodc := 0, iode := 0,
    deltan := 0, cuc := 0, cus := 0, cic := 0, cis := 0, crc := 0, crs := 0, ecc := 0,
    sqrta := 0, m0 := 0, omg0 := 0, inc0 := 0, aop := 0, omgdot := 0, idot := 0, af0 := 0,
    af1 := 0, af2 := 0, tgd := 0, svhlth := 0, codeL2 := 0, n := 0, sq1e2 := 0, A := 0,
    omgkdot := 0 }

/-- The numbers in the wide columns of line `line` of a record. -/
def lineValues (line : Nat) (str : List Char) : Ephem ℚ :=
  match line with
  -- SV CLK
  | 0 => { blank with
      af0 := number str 22 19
      af1 := number str 41 19
      af2 := number str 60 19 }
  -- BROADCAST ORBIT - 1
  | 1 => { blank with
      iode := trunc (number str 3 19)
      crs := number str 22 19
      deltan := number str 41 19
      m0 := number str 60 19 }
  -- BROADCAST ORBIT - 2
  | 2 => { blank with
      cuc := number str 3 19
      ecc := number str 22 19
      cus := number str 41 19
      sqrta := number str 60 19 }
  -- BROADCAST ORBIT - 3
  | 3 => { blank with
      toe := ⟨0, number str 3 19⟩
      cic := number str 22 19
      omg0 := number str 41 19
      cis := number str 60 19 }
  -- BROADCAST ORBIT - 4
  | 4 => { blank with
      inc0 := number str 3 19
      crc := number str 22 19
      aop := number str 41 19
      omgdot := number str 60 19 }
  -- BROADCAST ORBIT - 5
  | 5 => { blank with
      idot := number str 3 19
      codeL2 := trunc (number str 22 19)
      toe := ⟨trunc (number str 41 19), 0⟩ }
  -- BROADCAST ORBIT - 6
  | 6 => { blank with
      svhlth := trunc (number str 22 19)
      tgd := number str 41 19
      iodc := trunc (number str 60 19) }
  -- BROADCAST ORBIT - 7
  | _ => blank

/-! ## Places -/

/-- What a line is read as. -/
inductive Place
  | header
  /-- Line `line` of a record, counted from 0. -/
  | record (line : Nat)
  deriving DecidableEq

/-- What is taken from a line. -/
inductive Taken
  | header (h : Header)
  /-- The first line of a record, as a record of one line. -/
  | clock (record : Record)
  | orbit (line : Nat) (values : Ephem ℚ)

/-- PRN, EPOCH and SV CLK -/
def clockRecord (str : List Char) : Record where
  prn := twoDigits str 0
  y := twoDigits str 3
  m := twoDigits str 6
  d := twoDigits str 9
  hh := twoDigits str 12
  mm := twoDigits str 15
  sec := tenths str
  values := lineValues 0 str
  orbits := 0

def taken : Place → List Char → Taken
  | .header, str => .header (header str)
  | .record 0, str => .clock (clockRecord str)
  | .record (line + 1), str => .orbit (line + 1) (lineValues (line + 1) str)

/-- The variables of the reader between two lines. -/
structure Scan where
  /-- What the next line is read as, if the loop goes on. -/
  place : Option Place
  ionoutc : IonoUtc ℚ
  flags : Nat
  reader : Reader
  t : DateTime
  g : GpsTime ℚ
  sv : Nat

/-- A header line. -/
def Header.store (h : Header) (s : Scan) : Scan :=
  match h with
  | .endOfHeader | .other => s
  | .ionAlpha alpha0 alpha1 alpha2 alpha3 =>
      { s with
        ionoutc := { s.ionoutc with
          alpha0 := alpha0, alpha1 := alpha1, alpha2 := alpha2, alpha3 := alpha3 }
        flags := s.flags ||| 0x1 }
  | .ionBeta beta0 beta1 beta2 beta3 =>
      { s with
        ionoutc := { s.ionoutc with
          beta0 := beta0, beta1 := beta1, beta2 := beta2, beta3 := beta3 }
        flags := s.flags ||| 0x1 <<< 1 }
  | .deltaUtc A0 A1 tot wnt =>
      { s with
        ionoutc := { s.ionoutc with A0 := A0, A1 := A1, tot := tot, wnt := wnt }
        flags := if tot.tmod 4096 = 0 then s.flags ||| 0x1 <<< 2 else s.flags }
  | .leapSeconds dtls =>
      { s with
        ionoutc := { s.ionoutc with dtls := dtls }
        flags := s.flags ||| 0x1 <<< 3 }

/-- The loop over the header lines is left. -/
def Scan.endHeader (s : Scan) : Scan :=
  { s with
    place := some (.record 0)
    -- Read all Iono/UTC lines
    ionoutc := { s.ionoutc with vflg := if s.flags = 0xF then 1 else 0 } }

/-- What a line does with the numbers taken from it.  It is undefined where the month lies outside
the table of days, or an entry outside the array is written. -/
def Scan.step (sqrt : ℚ → ℚ) (s : Scan) : Taken → Option Scan
  | .header h => if h = .endOfHeader then some s.endHeader else some (h.store s)
  | .clock record => do
      let g ← date2gps record.t
      let reader := s.reader.checkTime g
      if reader.ieph ≥ ephemArraySize then
        return { s with place := none, reader := reader }
      if 0 ≤ record.sv ∧ record.sv < maxSat then
        return { s with
          place := some (.record 1)
          reader := reader.update record.sv.toNat (storeLine sqrt record.t g record.values 0)
          t := record.t
          g := g
          sv := record.sv.toNat }
      else none
  | .orbit line values => some { s with
      place := some (.record (if line = 7 then 0 else line + 1))
      reader := s.reader.update s.sv (storeLine sqrt s.t s.g values line) }

/-- The loops over the lines, each in the array that `fgets` leaves. -/
def Scan.read (sqrt : ℚ → ℚ) : List (List Char) → Scan → Option Scan
  | [], s => some s
  | str :: rest, s =>
      match s.place with
      | none => some s
      | some place => (s.step sqrt (taken place str)).bind (Scan.read sqrt rest)

namespace File

/-- The variables in front of the first line. -/
def start (eph : Int → Nat → Ephem ℚ) (ionoutc : IonoUtc ℚ) : Scan where
  place := some .header
  ionoutc := ionoutc
  flags := 0x0
  reader := { eph := clearFlags eph, g0 := { week := -1, sec := 0 }, ieph := 0 }
  t := ⟨0, 0, 0, 0, 0, 0⟩
  g := { week := -1, sec := 0 }
  sv := 0

/-- The array, the ionosphere record, and the number of sets of ephemerides.  `str` is what the
line buffer holds at first, and `file` is `none` if it cannot be opened. -/
def readRinexNavAll (sqrt : ℚ → ℚ) (eph : Int → Nat → Ephem ℚ) (ionoutc : IonoUtc ℚ)
    (str : List Char) (file : Option (List Char)) :
    Option ((Int → Nat → Ephem ℚ) × IonoUtc ℚ × Int) :=
  match file with
  | none => some (eph, ionoutc, -1)
  | some file => do
      let s ← (start eph ionoutc).read sqrt (lines maxChar str file)
      let s := if s.place = some .header then s.endHeader else s
      return (s.reader.eph, s.ionoutc,
        if s.reader.g0.week ≥ 0 then s.reader.ieph + 1 else s.reader.ieph)

end File

/-! ## Records -/

/-- The numbers of the wide columns of a record. -/
def recordValues (str : Nat → List Char) : Ephem ℚ :=
  { blank with
    af0 := number (str 0) 22 19
    af1 := number (str 0) 41 19
    af2 := number (str 0) 60 19
    iode := trunc (number (str 1) 3 19)
    crs := number (str 1) 22 19
    deltan := number (str 1) 41 19
    m0 := number (str 1) 60 19
    cuc := number (str 2) 3 19
    ecc := number (str 2) 22 19
    cus := number (str 2) 41 19
    sqrta := number (str 2) 60 19
    toe := ⟨trunc (number (str 5) 41 19), number (str 3) 3 19⟩
    cic := number (str 3) 22 19
    omg0 := number (str 3) 41 19
    cis := number (str 3) 60 19
    inc0 := number (str 4) 3 19
    crc := number (str 4) 22 19
    aop := number (str 4) 41 19
    omgdot := number (str 4) 60 19
    idot := number (str 5) 3 19
    codeL2 := trunc (number (str 5) 22 19)
    svhlth := trunc (number (str 6) 22 19)
    tgd := number (str 6) 41 19
    iodc := trunc (number (str 6) 60 19) }

/-- The record that starts with the line `str`; `orbits` are the lines behind it. -/
def recordOf (str : List Char) (orbits : List (List Char)) : Record :=
  { clockRecord str with
    values := recordValues fun line => (str :: orbits).getD line []
    orbits := orbits.length }

/-- The records in the lines behind the header: eight lines each, less those behind the end of
the file. -/
def recordsOf : List (List Char) → List Record
  | [] => []
  | str :: rest => recordOf str (rest.take 7) :: recordsOf (rest.drop 7)
termination_by lines => lines.length
decreasing_by
  rw [List.length_drop, List.length_cons]
  omega

/-- The lines behind the header. -/
def behindHeader (lines : List (List Char)) : List (List Char) :=
  (lines.dropWhile fun str => header str ≠ .endOfHeader).tail

/-- The records of a file. -/
def records (str file : List Char) : List Record :=
  recordsOf (behindHeader (lines maxChar str file))

section Refinement

variable {sqrt : ℚ → ℚ} {t : DateTime} {g : GpsTime ℚ} {str : List Char} {s : Scan}

/-- A line stores what the record it belongs to has in its columns. -/
theorem storeLine_recordOf (orbits : List (List Char)) (line : Nat) :
    storeLine sqrt t g (recordOf str orbits).values line =
      storeLine sqrt t g (lineValues line ((str :: orbits).getD line [])) line := by
  funext eph
  match line with
  | 0 | 1 | 2 | 3 | 4 | 5 | 6 | 7 => rfl
  | _ + 8 => rfl

theorem update_update (reader : Reader) (sv : Nat) (f f' : Ephem ℚ → Ephem ℚ) :
    (reader.update sv f).update sv f' = reader.update sv (f' ∘ f) := by
  simp only [Reader.update, Reader.mk.injEq, and_true]
  funext k i
  split <;> rfl

/-- **The orbit lines**: the lines of a record that are left in the file are stored, and if none
is missing, the next record follows. -/
theorem read_orbits (reader : Reader) (values : Ephem ℚ) {line : Nat} (bound : line ≤ 7)
    (first : line ≠ 0) (strs : List (List Char))
    (same : ∀ k < strs.length, line + k ≤ 7 → storeLine sqrt s.t s.g values (line + k) =
      storeLine sqrt s.t s.g (lineValues (line + k) (strs.getD k [])) (line + k))
    (place : s.place = some (.record line))
    (stored : s.reader = reader.update s.sv (storeLines sqrt s.t s.g values line)) :
    s.read sqrt strs =
      if strs.length + line < 8 then
        some { s with
          place := some (.record (line + strs.length))
          reader := reader.update s.sv (storeLines sqrt s.t s.g values (line + strs.length)) }
      else Scan.read sqrt (strs.drop (8 - line)) { s with
        place := some (.record 0)
        reader := reader.update s.sv (storeLines sqrt s.t s.g values 8) } := by
  induction strs generalizing s line with
  | nil =>
      rw [List.length_nil, Nat.add_zero, if_pos (by omega), ← stored, ← place]
      rfl
  | cons str rest ih =>
      obtain ⟨line, rfl⟩ := Nat.exists_eq_succ_of_ne_zero first
      have here : storeLine sqrt s.t s.g values (line + 1) =
          storeLine sqrt s.t s.g (lineValues (line + 1) str) (line + 1) :=
        same 0 (Nat.succ_pos _) (by omega)
      have next : s.reader.update s.sv
            (storeLine sqrt s.t s.g (lineValues (line + 1) str) (line + 1)) =
          reader.update s.sv (storeLines sqrt s.t s.g values (line + 2)) := by
        rw [stored, update_update, ← here]
        rfl
      rw [Scan.read, place]
      simp only [taken, Scan.step, Option.bind_some, next]
      by_cases last : line = 6
      · subst last
        rw [if_pos rfl, if_neg (by rw [List.length_cons]; omega)]
        rfl
      · rw [if_neg (by omega), ih (by omega : line + 2 ≤ 7) (by omega) _ rfl rfl]
        · have count : rest.length + (line + 2) < 8 ↔ (str :: rest).length + (line + 1) < 8 := by
            rw [List.length_cons]
            omega
          have left : rest.drop (8 - (line + 2)) = (str :: rest).drop (8 - (line + 1)) := by
            rw [show 8 - (line + 1) = 8 - (line + 2) + 1 by omega, List.drop_succ_cons]
          have sum : line + 2 + rest.length = line + 1 + (str :: rest).length := by
            rw [List.length_cons]
            omega
          simp only [count, left, sum]
        · intro k inside below
          have shifted := same (k + 1) (by rw [List.length_cons]; omega) (by omega)
          rw [show line + 1 + (k + 1) = line + 2 + k by omega] at shifted
          exact shifted

/-- **The ephemeris blocks**: reading the lines is reading the records. -/
theorem read_records (strs : List (List Char)) (place : s.place = some (.record 0)) :
    (s.read sqrt strs).map Scan.reader = readRecords sqrt (recordsOf strs) s.reader := by
  induction strs using recordsOf.induct generalizing s with
  | case1 => 
      rw [recordsOf]
      rfl
  | case2 str rest ih =>
      have time : (recordOf str (rest.take 7)).t = (clockRecord str).t := rfl
      have satellite : (recordOf str (rest.take 7)).sv = (clockRecord str).sv := rfl
      have count : (recordOf str (rest.take 7)).orbits = min 7 rest.length := List.length_take
      rw [recordsOf, readRecords, Scan.read, place]
      simp only [taken, Scan.step, time, satellite, count]
      cases date2gps (clockRecord str).t with
      | none => rfl
      | some g =>
          simp only [Option.bind_eq_bind, Option.bind_some, Option.pure_def]
          split
          · cases rest <;> rfl
          split
          · rw [Option.bind_some, read_orbits (s.reader.checkTime g)
              (recordOf str (rest.take 7)).values (by decide : 1 ≤ 7) (by decide) rest ?_ rfl ?_]
            · by_cases short : rest.length < 7
              · have all : min 7 rest.length = rest.length := by omega
                rw [if_pos (by omega), all, if_pos short, Nat.add_comm 1]
                rfl
              · have all : min 7 rest.length = 7 := by omega
                rw [if_neg (by omega), all, if_neg (by decide), ih rfl]
            · intro k inside below
              have column : (str :: rest.take 7).getD (1 + k) [] = rest.getD k [] := by
                rw [Nat.add_comm, List.getD_cons_succ, List.getD_eq_getElem?_getD,
                  List.getElem?_take_of_lt (by omega), ← List.getD_eq_getElem?_getD]
              rw [storeLine_recordOf, column]
            · dsimp only
              rw [show storeLines sqrt (clockRecord str).t g (recordOf str (rest.take 7)).values 1 =
                storeLine sqrt (clockRecord str).t g (recordOf str (rest.take 7)).values 0 from rfl,
                storeLine_recordOf]
              rfl
          · rfl

theorem Header.store_place (h : Header) (s : Scan) : (h.store s).place = s.place := by
  cases h <;> rfl

theorem Header.store_reader (h : Header) (s : Scan) : (h.store s).reader = s.reader := by
  cases h <;> rfl

/-- The header lines touch neither the array nor the loop variables of the ephemeris blocks. -/
theorem read_header (sqrt : ℚ → ℚ) {s : Scan} (strs : List (List Char))
    (place : s.place = some .header) :
    (s.read sqrt strs).map Scan.reader =
      readRecords sqrt (recordsOf (behindHeader strs)) s.reader := by
  induction strs generalizing s with
  | nil =>
      rw [behindHeader, List.dropWhile_nil, List.tail_nil, recordsOf]
      rfl
  | cons str rest ih =>
      rw [Scan.read, place, behindHeader, List.dropWhile_cons]
      simp only [taken, Scan.step]
      by_cases last : header str = .endOfHeader
      · rw [if_pos last, if_neg (by simpa using last), Option.bind_some, List.tail_cons,
          read_records rest rfl]
        rfl
      · rw [if_neg last, if_pos (by simpa using last), Option.bind_some,
          ih ((Header.store_place _ _).trans place), Header.store_reader]
        rfl

/-- **The lines of a file**: the table that is read from the text, and the number of sets, are
those that are read from its records. -/
theorem readRinexNavAll_records (sqrt : ℚ → ℚ) (eph : Int → Nat → Ephem ℚ) (ionoutc : IonoUtc ℚ)
    (str file : List Char) :
    (File.readRinexNavAll sqrt eph ionoutc str (some file)).map (fun out => (out.1, out.2.2)) =
      readRinexNavAll sqrt eph (some (records str file)) := by
  have blocks : ((File.start eph ionoutc).read sqrt (lines maxChar str file)).map Scan.reader = _ :=
    read_header sqrt (lines maxChar str file) rfl
  simp only [File.readRinexNavAll, readRinexNavAll, Option.bind_eq_bind, Option.pure_def]
  rw [records, show ({ eph := clearFlags eph, g0 := { week := -1, sec := 0 }, ieph := 0 } :
    Reader) = (File.start eph ionoutc).reader from rfl, ← blocks]
  cases (File.start eph ionoutc).read sqrt (lines maxChar str file) with
  | none => rfl
  | some s =>
      simp only [Option.bind_some, Option.map_some]
      split <;> rfl

end Refinement

end Navisim.Rinex

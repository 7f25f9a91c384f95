import Mathlib.Data.List.DropRight
import Mathlib.Data.Nat.Digits.Lemmas
import Mathlib.Tactic
import Navisim.Lib.Number

/-!
# Text input

The functions of C that read text: `fgets`, `strtok`, `strtod` and `atof`, and `sscanf` with
directives for numbers.  A string is the array it lies in, from its first character on, and ends
at the first NUL; behind it the array goes on.  Numbers are decimal or hexadecimal, and exact, or
they are an infinity or NaN by name; a directive of `sscanf` takes the longest one, as `strtod`
does.

A numeral is read back (`strtod_numeral`), and the lines of a file are its lines if they fit into
the array (`readLines_lines`).
-/

namespace Navisim.Text

def nul : Char := Char.ofNat 0

/-- The characters of a string. -/
def cString (s : List Char) : List Char :=
  s.takeWhile (· ≠ nul)

/-! ## Lines -/

/-- The rest of a line, but not more than `n` characters, and what follows. -/
def splitLine : Nat → List Char → List Char × List Char
  | 0, file => ([], file)
  | _ + 1, [] => ([], [])
  | n + 1, c :: rest =>
      if c = '\n' then ([c], rest)
      else
        let (line, rest) := splitLine n rest
        (c :: line, rest)

/-- The array of `size` characters that `fgets` leaves, and the rest of the file. -/
def fgets (size : Nat) (array file : List Char) : Option (List Char × List Char) :=
  if file = [] then none
  else
    let (line, rest) := splitLine (size - 1) file
    some (line ++ nul :: array.drop (line.length + 1), rest)

/-- The arrays that `fgets` leaves until the end of the file, in at most `n` calls. -/
def readLines (size : Nat) : Nat → List Char → List Char → List (List Char)
  | 0, _, _ => []
  | n + 1, array, file =>
      match fgets size array file with
      | none => []
      | some (array, rest) => array :: readLines size n array rest

/-- The arrays that `fgets` leaves in a loop: no call comes back empty-handed. -/
def lines (size : Nat) (array file : List Char) : List (List Char) :=
  readLines size file.length array file

/-! ## Tokens -/

/-- The next token, with what lies behind it, and the place where the search goes on. -/
def strtok (delim : Char) (s : List Char) : Option (List Char × List Char) :=
  let s := s.dropWhile (· = delim)
  let token := s.takeWhile fun c => c ≠ delim ∧ c ≠ nul
  if token = [] then none
  else
    match s.drop token.length with
    | [] => some (s, [])
    | c :: rest => if c = nul then some (s, c :: rest) else some (token ++ nul :: rest, rest)

/-! ## Numbers -/

/-- `isspace` -/
def isSpace (c : Char) : Bool :=
  c = ' ' ∨ 9 ≤ c.toNat ∧ c.toNat ≤ 13

/-- An optional sign. -/
def takeSign : List Char → Bool × List Char
  | '-' :: rest => (true, rest)
  | '+' :: rest => (false, rest)
  | s => (false, s)

/-- How numbers are written. -/
structure Radix where
  base : Nat
  isDigit : Char → Bool
  /-- The letter in front of an exponent. -/
  isMark : Char → Bool
  /-- What the exponent is a power of. -/
  scale : Nat

def decimal : Radix where
  base := 10
  isDigit := Char.isDigit
  isMark c := c = 'e' ∨ c = 'E'
  scale := 10

/-- `isxdigit` -/
def isHexDigit (c : Char) : Bool :=
  c.isDigit ∨ 'a' ≤ c ∧ c ≤ 'f' ∨ 'A' ≤ c ∧ c ≤ 'F'

def hexadecimal : Radix where
  base := 16
  isDigit := isHexDigit
  isMark c := c = 'p' ∨ c = 'P'
  scale := 2

def digitValue (c : Char) : Nat :=
  if c.isDigit then c.toNat - '0'.toNat else 10 + (c.toLower.toNat - 'a'.toNat)

namespace Radix

variable (r : Radix)

/-- What a row of digits stands for. -/
def ofDigits (digits : List Char) : Nat :=
  Nat.ofDigits r.base (digits.reverse.map digitValue)

/-- The digits behind a point. -/
def takeFraction : List Char → List Char × List Char
  | '.' :: rest => (rest.takeWhile r.isDigit, rest.dropWhile r.isDigit)
  | s => ([], s)

/-- An optional exponent, which has at least one digit, and decimal ones. -/
def takeExponent : List Char → Int × List Char
  | [] => (0, [])
  | c :: rest =>
      if r.isMark c then
        let (negative, s) := takeSign rest
        let digits := s.takeWhile Char.isDigit
        if digits = [] then (0, c :: rest)
        else
          (if negative then -(decimal.ofDigits digits : Int) else decimal.ofDigits digits,
            s.dropWhile Char.isDigit)
      else (0, c :: rest)

/-- Digits with an optional point and an optional exponent, and what is behind them. -/
def takeNumber (s : List Char) : Option (ℚ × List Char) :=
  let whole := s.takeWhile r.isDigit
  let (fraction, s) := r.takeFraction (s.dropWhile r.isDigit)
  if whole ++ fraction = [] then none
  else
    let (exponent, s) := r.takeExponent s
    some (r.ofDigits (whole ++ fraction) / r.base ^ fraction.length * (r.scale : ℚ) ^ exponent, s)

end Radix

/-- A hexadecimal number, behind what marks it as one. -/
def takeHexadecimal : List Char → Option (ℚ × List Char)
  | '0' :: c :: rest => if c = 'x' ∨ c = 'X' then hexadecimal.takeNumber rest else none
  | _ => none

/-- What is behind a word, in small letters or capitals. -/
def takeWord (word s : List Char) : Option (List Char) :=
  if (s.take word.length).map Char.toLower = word then some (s.drop word.length) else none

/-- What is behind the optional payload of NaN. -/
def skipPayload : List Char → List Char
  | '(' :: rest =>
      match rest.dropWhile fun c => c.isAlphanum ∨ c = '_' with
      | ')' :: behind => behind
      | _ => '(' :: rest
  | s => s

/-- An infinity or NaN. -/
def takeNamed (s : List Char) : Option (Number × List Char) :=
  match takeWord "infinity".toList s with
  | some rest => some (.infinite false, rest)
  | none =>
      match takeWord "inf".toList s with
      | some rest => some (.infinite false, rest)
      | none => (takeWord "nan".toList s).map fun rest => (.nan, skipPayload rest)

/-- The number at the start of a string, and what is behind it. -/
def strtod (s : List Char) : Option (Number × List Char) :=
  let (negative, s) := takeSign (s.dropWhile isSpace)
  let magnitude : Option (Number × List Char) :=
    match takeHexadecimal s <|> decimal.takeNumber s with
    | some (x, rest) => some (.finite x, rest)
    | none => takeNamed s
  magnitude.map fun (value, rest) => (if negative then -value else value, rest)

def atof (s : List Char) : Number :=
  match strtod s with
  | some (value, _) => value
  | none => 0

/-- What stands between two directives of a format. -/
inductive Between
  | blank
  | literal (c : Char)

/-- The rest of a string that matches. -/
def Between.skip : Between → List Char → Option (List Char)
  | .blank, s => some (s.dropWhile isSpace)
  | .literal c, d :: rest => if d = c then some rest else none
  | .literal _, [] => none

/-- The values of `n` directives `%lf` with `sep` in between, as far as they match. -/
def scanNumbers (sep : Between) : Nat → List Char → List Number
  | 0, _ => []
  | n + 1, s =>
      match strtod s with
      | none => []
      | some (value, rest) =>
          match sep.skip rest with
          | none => [value]
          | some rest => value :: scanNumbers sep n rest

/-- `sscanf` returns `EOF`: the string ends before the first value. -/
def isEof (s : List Char) : Bool :=
  (cString s).all isSpace

/-! ## Numerals -/

/-- A decimal number as it is written: a sign, digits, and perhaps a point and more digits. -/
structure Numeral where
  negative : Bool
  whole : List Char
  point : Bool
  fraction : List Char
  digits : ∀ c ∈ whole ++ fraction, c.isDigit = true
  whole_ne : whole ≠ []
  fraction_eq : point = false → fraction = []

namespace Numeral

variable (n : Numeral)

/-- The characters without the sign. -/
def unsigned : List Char :=
  n.whole ++ if n.point then '.' :: n.fraction else []

def text : List Char :=
  if n.negative then '-' :: n.unsigned else n.unsigned

def magnitude : ℚ :=
  decimal.ofDigits (n.whole ++ n.fraction) / 10 ^ n.fraction.length

def value : ℚ :=
  if n.negative then -n.magnitude else n.magnitude

end Numeral

/-- What is behind a number does not go on with it. -/
def EndsNumber (rest : List Char) : Prop :=
  ∀ c ∈ rest.head?, c.isDigit = false ∧ c ∉ ['.', 'e', 'E', 'x', 'X']

theorem endsNumber_nil : EndsNumber [] := by
  intro c member
  cases member

section Digits

theorem takeWhile_append_of_head {p : Char → Bool} {s rest : List Char} (all : ∀ c ∈ s, p c = true)
    (stops : ∀ c ∈ rest.head?, p c = false) : (s ++ rest).takeWhile p = s := by
  rw [List.takeWhile_append_of_pos all]
  cases rest with
  | nil => simp
  | cons c rest =>
      rw [List.takeWhile_cons, stops c rfl]
      simp

theorem dropWhile_append_of_head {p : Char → Bool} {s rest : List Char} (all : ∀ c ∈ s, p c = true)
    (stops : ∀ c ∈ rest.head?, p c = false) : (s ++ rest).dropWhile p = rest := by
  rw [List.dropWhile_append_of_pos all]
  cases rest with
  | nil => rfl
  | cons c rest => rw [List.dropWhile_cons, stops c rfl, if_neg Bool.false_ne_true]

theorem dropWhile_of_head {p : Char → Bool} {s : List Char}
    (stops : ∀ c ∈ s.head?, p c = false) : s.dropWhile p = s := by
  simpa using dropWhile_append_of_head (s := []) (by simp) stops

theorem takeSign_of_head {s : List Char} (unsigned : ∀ c ∈ s.head?, c ≠ '-' ∧ c ≠ '+') :
    takeSign s = (false, s) := by
  unfold takeSign
  split
  · exact absurd rfl (unsigned '-' rfl).1
  · exact absurd rfl (unsigned '+' rfl).2
  · rfl

theorem isDigit_toNat {c : Char} (digit : c.isDigit = true) : 48 ≤ c.toNat ∧ c.toNat ≤ 57 := by
  simpa [Char.isDigit, UInt32.le_iff_toNat_le] using digit

theorem not_isSpace_of_isDigit {c : Char} (digit : c.isDigit = true) : isSpace c = false := by
  have range := isDigit_toNat digit
  have blank : c ≠ ' ' := by
    intro same
    subst same
    exact absurd digit (by decide)
  simp only [isSpace, blank, false_or, decide_eq_false_iff_not]
  omega

end Digits

section Numerals

variable {n : Numeral} {rest : List Char}

theorem Numeral.whole_digits (n : Numeral) : ∀ c ∈ n.whole, c.isDigit = true :=
  fun c member => n.digits c (List.mem_append_left _ member)

theorem Numeral.fraction_digits (n : Numeral) : ∀ c ∈ n.fraction, c.isDigit = true :=
  fun c member => n.digits c (List.mem_append_right _ member)

theorem Numeral.mem_unsigned {n : Numeral} {c : Char} (member : c ∈ n.unsigned) :
    c.isDigit = true ∨ c = '.' := by
  rcases List.mem_append.mp member with whole | behind
  · exact Or.inl (n.whole_digits c whole)
  · split at behind
    · rcases List.mem_cons.mp behind with point | fraction
      · exact Or.inr point
      · exact Or.inl (n.fraction_digits c fraction)
    · cases behind

theorem Numeral.mem_text {n : Numeral} {c : Char} (member : c ∈ n.text) :
    c.isDigit = true ∨ c = '.' ∨ c = '-' := by
  unfold Numeral.text at member
  split at member
  · rcases List.mem_cons.mp member with sign | inside
    · exact Or.inr (Or.inr sign)
    · exact (mem_unsigned inside).imp_right Or.inl
  · exact (mem_unsigned member).imp_right Or.inl

/-- The digits of a numeral come first. -/
theorem Numeral.unsigned_head (n : Numeral) (rest : List Char) :
    ∃ d s, n.unsigned ++ rest = d :: s ∧ d.isDigit = true := by
  obtain ⟨d, whole, first⟩ := List.exists_cons_of_ne_nil n.whole_ne
  have digit : d.isDigit = true := n.whole_digits d (by rw [first]; exact List.mem_cons_self)
  rw [Numeral.unsigned, first]
  exact ⟨d, _, rfl, digit⟩

/-- Neither blanks nor a sign are in front of the digits. -/
theorem Numeral.unsigned_start (n : Numeral) (rest : List Char) :
    (∀ c ∈ (n.unsigned ++ rest).head?, isSpace c = false) ∧
      ∀ c ∈ (n.unsigned ++ rest).head?, c ≠ '-' ∧ c ≠ '+' := by
  obtain ⟨d, s, first, digit⟩ := n.unsigned_head rest
  rw [first]
  constructor
  · intro c member
    cases member
    exact not_isSpace_of_isDigit digit
  · intro c member
    cases member
    constructor <;> rintro rfl <;> exact absurd digit (by decide)

/-- The sign of a numeral is taken off. -/
theorem Numeral.takeSign_text (n : Numeral) (rest : List Char) :
    takeSign ((n.text ++ rest).dropWhile isSpace) = (n.negative, n.unsigned ++ rest) := by
  obtain ⟨blank, signed⟩ := n.unsigned_start rest
  unfold Numeral.text
  cases n.negative with
  | true => rfl
  | false =>
      change takeSign ((n.unsigned ++ rest).dropWhile isSpace) = _
      rw [dropWhile_of_head blank, takeSign_of_head signed]

/-- The digits of a numeral, and what is behind it. -/
theorem Numeral.split_unsigned (n : Numeral) (ends : EndsNumber rest) :
    (n.unsigned ++ rest).takeWhile Char.isDigit = n.whole ∧
      decimal.takeFraction ((n.unsigned ++ rest).dropWhile Char.isDigit) =
        (n.fraction, rest) := by
  have digit : ∀ c ∈ rest.head?, c.isDigit = false := fun c first => (ends c first).1
  unfold Numeral.unsigned
  cases pointed : n.point with
  | true =>
      have stops : ∀ c ∈ ('.' :: (n.fraction ++ rest)).head?, c.isDigit = false := by
        intro c member
        cases member
        rfl
      simp only [if_true, List.append_assoc, List.cons_append]
      refine ⟨takeWhile_append_of_head n.whole_digits stops, ?_⟩
      rw [dropWhile_append_of_head n.whole_digits stops, Radix.takeFraction]
      exact Prod.ext (takeWhile_append_of_head n.fraction_digits digit)
        (dropWhile_append_of_head n.fraction_digits digit)
  | false =>
      simp only [Bool.false_eq_true, if_false, List.append_nil]
      refine ⟨takeWhile_append_of_head n.whole_digits digit, ?_⟩
      rw [dropWhile_append_of_head n.whole_digits digit, n.fraction_eq pointed]
      unfold Radix.takeFraction
      split
      · exact absurd (by simp) (ends '.' rfl).2
      · rfl

theorem takeExponent_of_endsNumber (ends : EndsNumber rest) :
    decimal.takeExponent rest = (0, rest) := by
  cases rest with
  | nil => rfl
  | cons c rest =>
      have other := (ends c rfl).2
      have unmarked : ¬ decimal.isMark c = true := by
        simp only [List.mem_cons, not_or] at other
        simp only [decimal, decide_eq_true_iff, not_or]
        exact ⟨other.2.1, other.2.2.1⟩
      rw [Radix.takeExponent, if_neg unmarked]

/-- A numeral is read as a decimal number. -/
theorem takeNumber_numeral (n : Numeral) (ends : EndsNumber rest) :
    decimal.takeNumber (n.unsigned ++ rest) = some (n.magnitude, rest) := by
  obtain ⟨whole, fraction⟩ := n.split_unsigned ends
  have some_digit : n.whole ++ n.fraction ≠ [] :=
    fun empty => n.whole_ne (List.append_eq_nil_iff.mp empty).1
  have digits : decimal.isDigit = Char.isDigit := rfl
  unfold Radix.takeNumber
  simp only [digits, whole, fraction, if_neg some_digit, takeExponent_of_endsNumber ends,
    zpow_zero, mul_one]
  rfl

/-- No numeral is marked as hexadecimal. -/
theorem takeHexadecimal_numeral (n : Numeral) (ends : EndsNumber rest) :
    takeHexadecimal (n.unsigned ++ rest) = none := by
  have unmarked : ∀ d c s, n.unsigned ++ rest = d :: c :: s → ¬ (c = 'x' ∨ c = 'X') := by
    intro d c s same
    obtain ⟨digit, behind, first, -⟩ := n.unsigned_head []
    rw [List.append_nil] at first
    rw [first, List.cons_append, List.cons.injEq] at same
    cases behind with
    | nil =>
        have other := (ends c (by rw [show rest = c :: s from same.2]; rfl)).2
        rintro (rfl | rfl) <;> exact other (by decide)
    | cons c' behind =>
        have inside : c ∈ n.unsigned := by
          rw [first, ← (List.cons.inj same.2).1]
          simp
        rintro (rfl | rfl) <;> exact absurd (Numeral.mem_unsigned inside) (by decide)
  unfold takeHexadecimal
  split
  · rename_i c s same
    rw [if_neg (unmarked _ _ _ same)]
  · rfl

/-- **A numeral is read back**, from wherever it is written. -/
theorem strtod_numeral (n : Numeral) (ends : EndsNumber rest) :
    strtod (n.text ++ rest) = some (.finite n.value, rest) := by
  unfold strtod Numeral.value
  rw [n.takeSign_text]
  dsimp only
  rw [takeHexadecimal_numeral n ends, takeNumber_numeral n ends]
  cases n.negative <;> rfl

/-- A numeral without its sign is read, too. -/
theorem strtod_unsigned (n : Numeral) (ends : EndsNumber rest) :
    strtod (n.unsigned ++ rest) = some (.finite n.magnitude, rest) :=
  strtod_numeral { n with negative := false } ends

/-- Blanks in front of a number are skipped. -/
theorem strtod_dropWhile (s : List Char) : strtod (s.dropWhile isSpace) = strtod s := by
  have twice : (s.dropWhile isSpace).dropWhile isSpace = s.dropWhile isSpace :=
    List.dropWhile_idempotent ..
  unfold strtod
  rw [twice]

/-- Blanks in front of the values make no difference. -/
theorem scanNumbers_dropWhile (sep : Between) (k : Nat) (s : List Char) :
    scanNumbers sep k (s.dropWhile isSpace) = scanNumbers sep k s := by
  cases k with
  | zero => rfl
  | succ k => rw [scanNumbers, scanNumbers, strtod_dropWhile]

/-- There is no number among blanks. -/
theorem scanNumbers_of_isSpace {s : List Char} (blank : s.all isSpace = true) (sep : Between)
    (k : Nat) : scanNumbers sep k s = [] := by
  have empty : s.dropWhile isSpace = [] :=
    List.dropWhile_eq_nil_iff.mpr (List.all_eq_true.mp blank)
  cases k with
  | zero => rfl
  | succ k =>
      rw [← scanNumbers_dropWhile, empty]
      rfl

/-- A numeral gives the next value. -/
theorem scanNumbers_numeral (sep : Between) (k : Nat) (n : Numeral) (ends : EndsNumber rest) :
    scanNumbers sep (k + 1) (n.text ++ rest) =
      match sep.skip rest with
      | none => [.finite n.value]
      | some rest => .finite n.value :: scanNumbers sep k rest := by
  rw [scanNumbers, strtod_numeral n ends]

end Numerals

/-! ## The lines of a file -/

/-- A line that fits into an array. -/
structure IsLine (size : Nat) (line : List Char) : Prop where
  newline : ∃ body, line = body ++ ['\n'] ∧ '\n' ∉ body ∧ nul ∉ body
  fits : line.length < size

/-- The array holds a string, whatever is behind it. -/
def HoldsString (line array : List Char) : Prop :=
  ∃ behind, array = line ++ nul :: behind

section Lines

variable {size n : Nat} {line array rest body : List Char}

theorem splitLine_line (no_newline : '\n' ∉ body) (fits : body.length < n) :
    splitLine n (body ++ '\n' :: rest) = (body ++ ['\n'], rest) := by
  induction body generalizing n with
  | nil =>
      obtain ⟨m, rfl⟩ := Nat.exists_eq_succ_of_ne_zero (Nat.ne_of_gt fits)
      rfl
  | cons c body ih =>
      obtain ⟨m, rfl⟩ := Nat.exists_eq_succ_of_ne_zero (Nat.ne_of_gt (Nat.zero_lt_of_lt fits))
      obtain ⟨other, behind⟩ := not_or.mp (List.mem_cons.not.mp no_newline)
      rw [List.length_cons] at fits
      rw [List.cons_append, splitLine, if_neg (Ne.symm other), ih behind (by omega)]
      rfl

theorem IsLine.ne_nil (isLine : IsLine size line) : line ≠ [] := by
  obtain ⟨body, rfl, -, -⟩ := isLine.newline
  simp

/-- A line is read as it is. -/
theorem IsLine.fgets (isLine : IsLine size line) (array rest : List Char) :
    ∃ behind, fgets size array (line ++ rest) = some (line ++ nul :: behind, rest) := by
  obtain ⟨body, rfl, no_newline, -⟩ := isLine.newline
  have fits := isLine.fits
  rw [List.length_append, List.length_singleton] at fits
  have split : splitLine (size - 1) (body ++ '\n' :: rest) = (body ++ ['\n'], rest) :=
    splitLine_line no_newline (by omega)
  refine ⟨array.drop ((body ++ ['\n']).length + 1), ?_⟩
  rw [Text.fgets, if_neg (by simp), List.append_assoc, List.singleton_append, split]

theorem IsLine.cString (isLine : IsLine size line) (holds : HoldsString line array) :
    cString array = line := by
  obtain ⟨body, rfl, -, no_nul⟩ := isLine.newline
  obtain ⟨behind, rfl⟩ := holds
  have inside : ∀ c ∈ body ++ ['\n'], decide (c ≠ nul) = true := by
    intro c member
    rw [decide_eq_true_iff]
    intro same
    subst same
    rcases List.mem_append.mp member with inside | last
    · exact no_nul inside
    · exact absurd (List.mem_singleton.mp last) (by decide)
  exact takeWhile_append_of_head inside (by rintro c ⟨⟩; exact decide_eq_false (by simp))

/-- **The lines of a file**, one in each array, and those of what follows them. -/
theorem readLines_flatten {ls : List (List Char)} (areLines : ∀ line ∈ ls, IsLine size line)
    (enough : (ls.flatten ++ rest).length ≤ n) (array : List Char) :
    ∃ arrays array' n', readLines size n array (ls.flatten ++ rest) =
        arrays ++ readLines size n' array' rest ∧
      List.Forall₂ HoldsString ls arrays ∧ rest.length ≤ n' := by
  induction ls generalizing n array with
  | nil => exact ⟨[], array, n, rfl, List.Forall₂.nil, enough⟩
  | cons line ls ih =>
      have isLine := areLines line List.mem_cons_self
      have positive := List.length_pos_of_ne_nil isLine.ne_nil
      rw [List.flatten_cons, List.append_assoc, List.length_append] at enough
      obtain ⟨n, rfl⟩ := Nat.exists_eq_succ_of_ne_zero (show n ≠ 0 by omega)
      obtain ⟨behind, read⟩ := isLine.fgets array (ls.flatten ++ rest)
      obtain ⟨arrays, array', n', more, holds, left⟩ :=
        ih (fun line member => areLines line (List.mem_cons_of_mem _ member))
          (show (ls.flatten ++ rest).length ≤ n by omega) (line ++ nul :: behind)
      refine ⟨(line ++ nul :: behind) :: arrays, array', n', ?_, ?_, left⟩
      · rw [List.flatten_cons, List.append_assoc, readLines, read]
        exact congrArg _ more
      · exact List.Forall₂.cons ⟨behind, rfl⟩ holds

theorem lines_flatten {ls : List (List Char)} (areLines : ∀ line ∈ ls, IsLine size line)
    (array : List Char) : List.Forall₂ HoldsString ls (lines size array ls.flatten) := by
  have length : (ls.flatten ++ []).length ≤ ls.flatten.length := by rw [List.append_nil]
  obtain ⟨arrays, array', n', read, holds, -⟩ := readLines_flatten areLines length array
  have none_left : readLines size n' array' [] = [] := by cases n' <;> rfl
  rw [List.append_nil, none_left, List.append_nil] at read
  rw [lines, read]
  exact holds

end Lines

/-! ## The tokens of a line -/

/-- A token that ends at a delimiter is found, and the search goes on behind it. -/
theorem strtok_append {delim : Char} {token rest : List Char} (some_char : token ≠ [])
    (inside : ∀ c ∈ token, c ≠ delim ∧ c ≠ nul) (separate : delim ≠ nul) :
    strtok delim (token ++ delim :: rest) = some (token ++ nul :: rest, rest) := by
  have start : (token ++ delim :: rest).dropWhile (· = delim) = token ++ delim :: rest := by
    apply dropWhile_of_head
    intro c first
    obtain ⟨d, s, rfl⟩ := List.exists_cons_of_ne_nil some_char
    cases first
    exact decide_eq_false (inside c List.mem_cons_self).1
  have taken : (token ++ delim :: rest).takeWhile (fun c => c ≠ delim ∧ c ≠ nul) = token := by
    apply takeWhile_append_of_head (fun c member => decide_eq_true (inside c member))
    intro c member
    cases member
    simp
  rw [strtok]
  simp only [start, taken, if_neg some_char, List.drop_left, if_neg separate]

end Navisim.Text

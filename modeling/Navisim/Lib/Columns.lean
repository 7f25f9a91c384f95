import Navisim.Lib.Text

/-!
# Text in columns

The functions of C with which a program takes numbers from fixed columns of a line: `strncpy`,
`strncmp` with a literal, `atoi` and `atof`.  A string is the array it lies in, as for the other
functions that read text.

A few characters make small numbers (`atoi_two`, `atof_two`).  The lines of a file are cut where
`fgets` cuts them (`pieces`), and each piece lies in the array over the one before
(`lines_eq_buffers`).
-/

namespace Navisim.Text

/-! ## Columns -/

/-- The string of `n` characters that `strncpy` copies, with a NUL behind them. -/
def strncpy (n : Nat) (s : List Char) : List Char :=
  cString (s.take n)

/-- `strncmp` finds a literal. -/
def startsWith (literal s : List Char) : Bool :=
  s.take literal.length = literal

/-- The number at the start of a string; overflow is not known. -/
def atoi (s : List Char) : Int :=
  let (negative, s) := takeSign (s.dropWhile isSpace)
  let value : Int := decimal.ofDigits (s.takeWhile Char.isDigit)
  if negative then -value else value

section Small

variable {s : List Char}

theorem cString_length (s : List Char) : (cString s).length ≤ s.length :=
  (List.takeWhile_prefix _).length_le

theorem strncpy_length (n : Nat) (s : List Char) : (strncpy n s).length ≤ n :=
  (cString_length _).trans (List.length_take_le n s)

theorem takeSign_length (s : List Char) :
    (takeSign s).2.length ≤ s.length ∧
      ((takeSign s).1 = true → (takeSign s).2.length + 1 ≤ s.length) := by
  unfold takeSign
  split
  · exact ⟨Nat.le_succ _, fun _ => le_rfl⟩
  · exact ⟨Nat.le_succ _, fun signed => absurd signed Bool.false_ne_true⟩
  · exact ⟨le_rfl, fun signed => absurd signed Bool.false_ne_true⟩

theorem ofDigits_lt {digits : List Char} (all : ∀ c ∈ digits, c.isDigit = true) :
    decimal.ofDigits digits < 10 ^ digits.length := by
  have below : ∀ d ∈ digits.reverse.map digitValue, d < 10 := by
    intro d member
    obtain ⟨c, inside, rfl⟩ := List.mem_map.mp member
    have digit := all c (List.mem_reverse.mp inside)
    have range := isDigit_toNat digit
    have zero : '0'.toNat = 48 := rfl
    rw [digitValue, if_pos digit]
    omega
  have bound := Nat.ofDigits_lt_base_pow_length (by decide : 1 < 10) below
  rwa [List.length_map, List.length_reverse] at bound

theorem ofDigits_takeWhile_lt {n : Nat} (short : s.length ≤ n) :
    decimal.ofDigits (s.takeWhile Char.isDigit) < 10 ^ n := by
  have length : (s.takeWhile Char.isDigit).length ≤ n :=
    (List.takeWhile_prefix _).length_le.trans short
  refine (ofDigits_lt fun c member => List.mem_takeWhile_imp member).trans_le ?_
  exact Nat.pow_le_pow_right (by decide) length

/-- Two characters make a number between -9 and 99. -/
theorem atoi_two (short : s.length ≤ 2) : -9 ≤ atoi s ∧ atoi s ≤ 99 := by
  have blanks : (s.dropWhile isSpace).length ≤ 2 :=
    (List.dropWhile_suffix _).length_le.trans short
  obtain ⟨unsigned, signed⟩ := takeSign_length (s.dropWhile isSpace)
  unfold atoi
  dsimp only
  split
  · rename_i negative
    have bound := ofDigits_takeWhile_lt (n := 1) (s := (takeSign (s.dropWhile isSpace)).2) (by
      have := signed negative
      omega)
    omega
  · have bound := ofDigits_takeWhile_lt (n := 2) (s := (takeSign (s.dropWhile isSpace)).2)
      (by omega)
    omega

/-- An exponent takes two characters at least. -/
theorem takeExponent_short (r : Radix) (short : s.length ≤ 1) : (r.takeExponent s).1 = 0 := by
  cases s with
  | nil => rfl
  | cons c rest =>
      obtain rfl : rest = [] := List.eq_nil_of_length_eq_zero (by simpa using short)
      rw [Radix.takeExponent]
      split <;> rfl

theorem takeFraction_length (r : Radix) (s : List Char) :
    (r.takeFraction s).1.length + (r.takeFraction s).2.length ≤ s.length ∧
      ((r.takeFraction s).1 ≠ [] →
        (r.takeFraction s).1.length + (r.takeFraction s).2.length + 1 ≤ s.length) := by
  unfold Radix.takeFraction
  split
  · rename_i rest
    have parts := congrArg List.length
      (List.takeWhile_append_dropWhile (p := r.isDigit) (l := rest))
    rw [List.length_append] at parts
    rw [List.length_cons]
    dsimp only
    exact ⟨by omega, fun _ => by omega⟩
  · exact ⟨by simp, fun ne => absurd rfl ne⟩

theorem takeNumber_two (short : s.length ≤ 2) {x : ℚ} {rest : List Char}
    (taken : decimal.takeNumber s = some (x, rest)) : ∃ n : Nat, x = n / 10 := by
  have parts := congrArg List.length
    (List.takeWhile_append_dropWhile (p := decimal.isDigit) (l := s))
  rw [List.length_append] at parts
  obtain ⟨behind, pointed⟩ := takeFraction_length decimal (s.dropWhile decimal.isDigit)
  unfold Radix.takeNumber at taken
  generalize decimal.takeFraction (s.dropWhile decimal.isDigit) = point at behind pointed taken
  rcases point with ⟨fraction, rest'⟩
  dsimp only at behind pointed taken
  by_cases none_left : s.takeWhile decimal.isDigit ++ fraction = []
  · rw [if_pos none_left] at taken
    cases taken
  · rw [if_neg none_left, Option.some.injEq, Prod.mk.injEq] at taken
    -- A point and a digit leave no room for an exponent, nor does a digit without them.
    have room : rest'.length ≤ 1 ∧ fraction.length ≤ 1 := by
      by_cases whole : fraction = []
      · subst whole
        rw [List.append_nil] at none_left
        have := List.length_pos_of_ne_nil none_left
        rw [List.length_nil]
        omega
      · have := pointed whole
        have := List.length_pos_of_ne_nil whole
        omega
    rw [takeExponent_short decimal room.1, zpow_zero, mul_one] at taken
    rw [← taken.1]
    generalize decimal.ofDigits (s.takeWhile decimal.isDigit ++ fraction) = m
    have base : (decimal.base : ℚ) = 10 := rfl
    rw [base]
    rcases Nat.le_one_iff_eq_zero_or_eq_one.mp room.2 with zero | one
    · rw [zero]
      refine ⟨m * 10, ?_⟩
      push_cast
      norm_num
    · exact ⟨m, by rw [one, pow_one]⟩

/-- Two characters are not hexadecimal. -/
theorem takeHexadecimal_two (short : s.length ≤ 2) : takeHexadecimal s = none := by
  unfold takeHexadecimal
  split
  · rename_i c rest
    obtain rfl : rest = [] := List.eq_nil_of_length_eq_zero (by simpa using short)
    split <;> rfl
  · rfl

/-- A word takes all its letters. -/
theorem takeWord_short {word : List Char} (short : s.length < word.length) :
    takeWord word s = none := by
  rw [takeWord, if_neg]
  intro same
  have length := congrArg List.length same
  rw [List.length_map, List.length_take] at length
  omega

/-- Two characters make a number of whole tenths. -/
theorem atof_two (short : s.length ≤ 2) : ∃ n : Int, atof s = .finite (n / 10) := by
  have blanks : (s.dropWhile isSpace).length ≤ 2 :=
    (List.dropWhile_suffix _).length_le.trans short
  have unsigned := (takeSign_length (s.dropWhile isSpace)).1
  unfold atof strtod
  generalize takeSign (s.dropWhile isSpace) = signed at unsigned ⊢
  rcases signed with ⟨negative, s'⟩
  have short' : s'.length ≤ 2 := unsigned.trans blanks
  have unnamed : takeNamed s' = none := by
    have three : s'.length < 3 := by omega
    rw [takeNamed, takeWord_short (three.trans (by decide)),
      takeWord_short (three.trans_eq (by decide)), takeWord_short (three.trans_eq (by decide))]
    rfl
  dsimp only
  rw [takeHexadecimal_two short', unnamed]
  cases taken : decimal.takeNumber s' with
  | none => exact ⟨0, by norm_num; rfl⟩
  | some number =>
      obtain ⟨n, tenths⟩ := takeNumber_two short' taken
      cases negative with
      | false => exact ⟨n, by rw [Int.cast_natCast, ← tenths]; rfl⟩
      | true =>
          refine ⟨-n, ?_⟩
          rw [Int.cast_neg, Int.cast_natCast, neg_div, ← tenths]
          rfl

end Small

/-! ## Pieces -/

/-- The pieces of a file that `fgets` puts into the array one after the other, in at most `fuel`
calls. -/
def splitLines (size : Nat) : Nat → List Char → List (List Char)
  | 0, _ => []
  | fuel + 1, file =>
      if file = [] then []
      else (splitLine (size - 1) file).1 :: splitLines size fuel (splitLine (size - 1) file).2

/-- The lines of a file, and where a line does not fit into the array, its parts. -/
def pieces (size : Nat) (file : List Char) : List (List Char) :=
  splitLines size file.length file

/-- A piece in the array, with a NUL behind it, over what was there. -/
def overlay (array piece : List Char) : List Char :=
  piece ++ nul :: array.drop (piece.length + 1)

/-- The arrays that hold the pieces one after the other. -/
def buffers : List Char → List (List Char) → List (List Char)
  | _, [] => []
  | array, piece :: rest => overlay array piece :: buffers (overlay array piece) rest

/-- What `fgets` takes from a file at once: a line, or as much of it as fits, or what is left. -/
structure IsPiece (size : Nat) (piece rest : List Char) : Prop where
  ne_nil : piece ≠ []
  split : splitLine (size - 1) (piece ++ rest) = (piece, rest)

section Pieces

variable {size fuel : Nat} {array file piece rest body : List Char}

theorem splitLine_append (n : Nat) (file : List Char) :
    (splitLine n file).1 ++ (splitLine n file).2 = file := by
  fun_induction splitLine n file with
  | case1 file => rfl
  | case2 n => rfl
  | case3 n rest => rfl
  | case4 n c rest other line behind split ih =>
      rw [split] at ih
      exact congrArg (c :: ·) ih

theorem splitLine_ne_nil {n : Nat} (some_room : 0 < n) (some_char : file ≠ []) :
    (splitLine n file).1 ≠ [] := by
  obtain ⟨n, rfl⟩ := Nat.exists_eq_succ_of_ne_zero some_room.ne'
  obtain ⟨c, rest, rfl⟩ := List.exists_cons_of_ne_nil some_char
  rw [splitLine]
  split <;> simp

/-- More calls than characters find no more pieces. -/
theorem splitLines_enough (room : 2 ≤ size) (enough : file.length ≤ fuel) :
    splitLines size fuel file = pieces size file := by
  unfold pieces
  induction fuel using Nat.strong_induction_on generalizing file with
  | _ fuel ih =>
      cases fuel with
      | zero =>
          obtain rfl : file = [] := List.eq_nil_of_length_eq_zero (by omega)
          rfl
      | succ fuel =>
          by_cases empty : file = []
          · subst empty
            rfl
          · obtain ⟨m, length⟩ := Nat.exists_eq_succ_of_ne_zero
              (List.length_pos_of_ne_nil empty).ne'
            have whole := congrArg List.length (splitLine_append (size - 1) file)
            have some_char := List.length_pos_of_ne_nil
              (splitLine_ne_nil (n := size - 1) (by omega) empty)
            rw [List.length_append] at whole
            rw [length, splitLines, splitLines, if_neg empty, if_neg empty]
            rw [ih fuel (by omega) (by omega)]
            rcases Nat.lt_or_ge m (fuel + 1) with less | more
            · rw [ih m less (by omega)]
            · omega

/-- **A piece after the other.** -/
theorem pieces_append (room : 2 ≤ size) (isPiece : IsPiece size piece rest) :
    pieces size (piece ++ rest) = piece :: pieces size rest := by
  have some_char := List.length_pos_of_ne_nil isPiece.ne_nil
  have some_file : piece ++ rest ≠ [] := fun empty =>
    isPiece.ne_nil (List.append_eq_nil_iff.mp empty).1
  obtain ⟨m, length⟩ := Nat.exists_eq_succ_of_ne_zero (List.length_pos_of_ne_nil some_file).ne'
  rw [pieces, length, splitLines, if_neg some_file, isPiece.split]
  rw [List.length_append] at length
  rw [splitLines_enough room (by dsimp only; omega)]

theorem pieces_nil (size : Nat) : pieces size [] = [] := rfl

theorem IsLine.isPiece (isLine : IsLine size piece) (rest : List Char) :
    IsPiece size piece rest := by
  refine ⟨isLine.ne_nil, ?_⟩
  rcases isLine.newline with ⟨body, rfl, no_newline, -⟩
  have fits := isLine.fits
  rw [List.length_append, List.length_singleton] at fits
  rw [List.append_assoc, List.singleton_append]
  exact splitLine_line no_newline (by omega)

/-- **The arrays that `fgets` leaves** hold the pieces, each over what was there before. -/
theorem lines_eq_buffers (size : Nat) (array file : List Char) :
    lines size array file = buffers array (pieces size file) := by
  unfold lines pieces
  generalize file.length = fuel
  induction fuel generalizing array file with
  | zero => rfl
  | succ fuel ih =>
      rw [readLines, fgets, splitLines]
      by_cases empty : file = []
      · rw [if_pos empty, if_pos empty]
        rfl
      · rw [if_neg empty, if_neg empty, buffers, ← ih]
        rfl

theorem buffers_append (array : List Char) (before : List (List Char)) (rest : List (List Char)) :
    buffers array (before ++ rest) =
      buffers array before ++ buffers ((buffers array before).getLastD array) rest := by
  induction before generalizing array with
  | nil => rfl
  | cons piece before ih =>
      rw [List.cons_append, buffers, buffers, ih, List.getLastD_cons]
      rfl

theorem buffers_length (array : List Char) (parts : List (List Char)) :
    (buffers array parts).length = parts.length := by
  induction parts generalizing array with
  | nil => rfl
  | cons piece rest ih => rw [buffers, List.length_cons, List.length_cons, ih]

/-- A string that starts before the end of a piece ends with it. -/
theorem strncpy_overlay {pos : Nat} (inside : pos ≤ piece.length) (n : Nat)
    (array array' : List Char) :
    strncpy n ((overlay array piece).drop pos) = strncpy n ((overlay array' piece).drop pos) := by
  have string : ∀ behind, strncpy n ((piece ++ nul :: behind).drop pos) =
      strncpy n (piece.drop pos) := by
    intro behind
    rw [List.drop_append_of_le_length inside]
    generalize piece.drop pos = s
    rw [strncpy, strncpy, List.take_append]
    generalize n - s.length = m
    rcases Nat.eq_zero_or_pos m with rfl | positive
    · rw [List.take_zero, List.append_nil]
    · obtain ⟨m, rfl⟩ := Nat.exists_eq_succ_of_ne_zero positive.ne'
      rw [List.take_succ_cons, cString, cString, List.takeWhile_append]
      split
      · rename_i whole
        rw [List.takeWhile_cons, if_neg (by simp), List.append_nil]
        exact ((List.takeWhile_prefix _).eq_of_length whole).symm
      · rfl
  rw [overlay, overlay, string, string]

/-- A literal is found inside a piece only if the piece has it. -/
theorem startsWith_overlay {literal : List Char} (no_nul : nul ∉ literal) {pos : Nat}
    (inside : pos ≤ piece.length) (array array' : List Char) :
    startsWith literal ((overlay array piece).drop pos) =
      startsWith literal ((overlay array' piece).drop pos) := by
  have string : ∀ behind, startsWith literal ((piece ++ nul :: behind).drop pos) =
      decide ((piece.drop pos).take literal.length = literal) := by
    intro behind
    rw [List.drop_append_of_le_length inside]
    generalize piece.drop pos = s
    rw [startsWith, List.take_append]
    rcases Nat.eq_zero_or_pos (literal.length - s.length) with zero | positive
    · rw [zero, List.take_zero, List.append_nil]
    · -- The NUL is not part of the literal, and the piece is too short.
      obtain ⟨m, more⟩ := Nat.exists_eq_succ_of_ne_zero positive.ne'
      rw [more, List.take_succ_cons]
      apply decide_eq_decide.mpr
      refine iff_of_false (fun same => no_nul ?_) fun same => ?_
      · rw [← same]
        exact List.mem_append_right _ List.mem_cons_self
      · have length := congrArg List.length same
        rw [List.length_take] at length
        omega
  rw [overlay, overlay, string, string]

/-- Behind a piece and its NUL, the array is as it was. -/
theorem drop_overlay {pos : Nat} (behind : piece.length < pos) (array : List Char) :
    (overlay array piece).drop pos = array.drop pos := by
  obtain ⟨more, rfl⟩ := Nat.exists_eq_add_of_lt behind
  rw [overlay, show piece.length + more + 1 = piece.length + (more + 1) by omega, ← List.drop_drop,
    List.drop_left, List.drop_succ_cons, List.drop_drop]
  congr 1
  omega

end Pieces

end Navisim.Text

import Navisim.Lib.Columns

/-!
# Lines and pieces

The lines of a text against the pieces that `fgets` delivers of it.  Where the lines fit into the
array, the pieces are the lines (`pieces_of_fits`), and only there (`take_pieces_iff`).  A text
that ends with a newline does not touch the pieces of what follows it (`pieces_append_text`).
-/

namespace Navisim.Text

/-- The lines of a text, each with its newline; the last one may be without. -/
def textLines : List Char → List (List Char)
  | [] => []
  | c :: rest =>
      if c = '\n' then [c] :: textLines rest
      else
        match textLines rest with
        | [] => [[c]]
        | line :: more => (c :: line) :: more

/-- No line of the text is left open. -/
def EndsLine (text : List Char) : Prop :=
  ∀ c ∈ text.getLast?, c = '\n'

variable {size n : Nat} {file line piece : List Char} {before more : List (List Char)}

/-! ## Lines -/

theorem textLines_flatten (file : List Char) : (textLines file).flatten = file := by
  induction file with
  | nil => rfl
  | cons c rest ih =>
      rw [textLines]
      split
      · rw [List.flatten_cons, ih, List.singleton_append]
      · cases lines : textLines rest with
        | nil =>
            rw [lines] at ih
            rw [← ih]
            rfl
        | cons line more =>
            rw [lines] at ih
            rw [← ih]
            rfl

/-- The lines behind the first one are those of the text behind it. -/
theorem textLines_tail (lines : textLines file = line :: more) :
    textLines more.flatten = more := by
  induction file generalizing line with
  | nil => cases lines
  | cons c rest ih =>
      rw [textLines] at lines
      split at lines
      · cases lines
        rw [textLines_flatten]
      · cases others : textLines rest with
        | nil =>
            rw [others] at lines
            cases lines
            rfl
        | cons line' more' =>
            rw [others] at lines
            cases lines
            exact ih others

theorem ne_nil_of_textLines (lines : textLines file = line :: more) : line ≠ [] := by
  cases file with
  | nil => cases lines
  | cons c rest =>
      rw [textLines] at lines
      split at lines
      · cases lines
        exact List.cons_ne_nil _ _
      · split at lines
        · cases lines
          exact List.cons_ne_nil _ _
        · cases lines
          exact List.cons_ne_nil _ _

/-- A call of `fgets` stays in the first line. -/
theorem splitLine_of_textLines (lines : textLines file = line :: more) (n : Nat) :
    splitLine n file = (line.take n, line.drop n ++ more.flatten) := by
  have whole : line ++ more.flatten = file := by
    rw [← List.flatten_cons, ← lines, textLines_flatten]
  induction file generalizing line n with
  | nil => cases lines
  | cons c rest ih =>
      cases n with
      | zero => rw [splitLine, List.take_zero, List.drop_zero, whole]
      | succ n =>
          rw [textLines] at lines
          rw [splitLine]
          split at lines
          · rename_i newline
            cases lines
            rw [if_pos newline, textLines_flatten, List.take_succ_cons, List.take_nil,
              List.drop_succ_cons, List.drop_nil, List.nil_append]
          · rename_i other
            rw [if_neg other]
            cases others : textLines rest with
            | nil =>
                rw [others] at lines
                cases lines
                have empty : rest = [] := by rw [← textLines_flatten rest, others, List.flatten_nil]
                subst empty
                cases n <;> rfl
            | cons line' more' =>
                rw [others] at lines
                cases lines
                rw [ih others n (List.cons.inj whole).2]
                rfl

/-! ## Pieces -/

theorem splitLine_length (n : Nat) (file : List Char) : (splitLine n file).1.length ≤ n := by
  fun_induction splitLine n file with
  | case1 file => exact le_rfl
  | case2 n => exact Nat.zero_le _
  | case3 n rest => exact Nat.succ_le_succ (Nat.zero_le n)
  | case4 n c rest other line behind split ih =>
      rw [split] at ih
      exact Nat.succ_le_succ ih

/-- A piece fits into the array. -/
theorem length_of_mem_pieces (room : 0 < size) (member : piece ∈ pieces size file) :
    piece.length < size := by
  unfold pieces at member
  generalize file.length = fuel at member
  induction fuel generalizing file with
  | zero => cases member
  | succ fuel ih =>
      rw [splitLines] at member
      split at member
      · cases member
      · rcases List.mem_cons.mp member with rfl | later
        · exact Nat.lt_of_le_of_lt (splitLine_length _ _) (by omega)
        · exact ih later

/-- The first piece is what fits of the first line. -/
theorem pieces_of_textLines (room : 2 ≤ size) (lines : textLines file = line :: more) :
    pieces size file =
      line.take (size - 1) :: pieces size (line.drop (size - 1) ++ more.flatten) := by
  have split := splitLine_of_textLines lines (size - 1)
  have whole : line.take (size - 1) ++ (line.drop (size - 1) ++ more.flatten) = file := by
    rw [← List.append_assoc, List.take_append_drop, ← List.flatten_cons, ← lines,
      textLines_flatten]
  have some_char : line.take (size - 1) ≠ [] := by
    intro empty
    rcases List.take_eq_nil_iff.mp empty with zero | none_left
    · omega
    · exact ne_nil_of_textLines lines none_left
  have isPiece : IsPiece size (line.take (size - 1)) (line.drop (size - 1) ++ more.flatten) :=
    ⟨some_char, by rw [whole, split]⟩
  rw [← pieces_append room isPiece, whole]

/-- **Lines that fit are pieces**, and what follows them is cut on its own. -/
theorem pieces_of_fits (room : 2 ≤ size) (lines : textLines file = before ++ more)
    (fits : ∀ line ∈ before, line.length < size) :
    pieces size file = before ++ pieces size more.flatten ∧ textLines more.flatten = more := by
  induction before generalizing file with
  | nil =>
      rw [List.nil_append] at lines ⊢
      rw [← lines, textLines_flatten]
      exact ⟨rfl, rfl⟩
  | cons line before ih =>
      have here := fits line List.mem_cons_self
      rw [List.cons_append] at lines ⊢
      rcases ih (textLines_tail lines) fun line member => fits line (List.mem_cons_of_mem _ member)
        with ⟨others, rest⟩
      refine ⟨?_, rest⟩
      rw [pieces_of_textLines room lines, List.take_of_length_le (by omega),
        List.drop_of_length_le (by omega), List.nil_append, others]

/-- **The pieces are the lines** as far as these fit into the array, and no farther. -/
theorem take_pieces_iff (room : 2 ≤ size) (file : List Char) (n : Nat) :
    (pieces size file).take n = (textLines file).take n ↔
      ∀ line ∈ (textLines file).take n, line.length < size := by
  refine ⟨fun same line member => ?_, fun fits => ?_⟩
  · rw [← same] at member
    exact length_of_mem_pieces (by omega) (List.mem_of_mem_take member)
  · rcases pieces_of_fits room (List.take_append_drop n (textLines file)).symm fits with
      ⟨cut, others⟩
    have length := List.length_take_le n (textLines file)
    rw [cut, List.take_append, List.take_take, min_self]
    rcases Nat.lt_or_ge (textLines file).length n with short | long
    · -- All lines are taken: nothing is left to be cut.
      rw [List.drop_of_length_le short.le, List.flatten_nil, pieces_nil, List.take_nil,
        List.append_nil]
    · rw [List.length_take, Nat.min_eq_left long, Nat.sub_self, List.take_zero, List.append_nil]

/-- The piece behind lines that fit is the start of the next line. -/
theorem pieces_getElem_of_fits (room : 2 ≤ size)
    (fits : ∀ line ∈ (textLines file).take n, line.length < size)
    (here : (textLines file)[n]? = some line) :
    (pieces size file)[n]? = some (line.take (size - 1)) := by
  have inside : n < (textLines file).length := (List.getElem?_eq_some_iff.mp here).1
  have next : (textLines file).drop n = line :: (textLines file).drop (n + 1) := by
    rw [List.drop_eq_getElem_cons inside, (List.getElem?_eq_some_iff.mp here).2]
  have lines :
      textLines file = (textLines file).take n ++ line :: (textLines file).drop (n + 1) := by
    rw [← next, List.take_append_drop]
  rcases pieces_of_fits room lines fits with ⟨cut, others⟩
  have length : ((textLines file).take n).length = n := List.length_take_of_le inside.le
  rw [cut, List.getElem?_append_right length.le, length, Nat.sub_self,
    pieces_of_textLines room others]
  rfl

/-! ## Texts one behind the other -/

theorem EndsLine.tail {c : Char} {rest : List Char} (ends : EndsLine (c :: rest)) :
    EndsLine rest := by
  intro d last
  cases rest with
  | nil => cases last
  | cons e rest => exact ends d (by rwa [List.getLast?_cons_cons])

/-- A call of `fgets` does not go beyond a text that ends with a newline. -/
theorem splitLine_append_text {text : List Char} (ends : EndsLine text) (some_char : text ≠ [])
    (n : Nat) (rest : List Char) :
    splitLine n (text ++ rest) = ((splitLine n text).1, (splitLine n text).2 ++ rest) ∧
      EndsLine (splitLine n text).2 := by
  induction text generalizing n with
  | nil => exact absurd rfl some_char
  | cons c text ih =>
      cases n with
      | zero => exact ⟨rfl, ends⟩
      | succ n =>
          rw [List.cons_append, splitLine, splitLine]
          by_cases newline : c = '\n'
          · rw [if_pos newline, if_pos newline]
            exact ⟨rfl, ends.tail⟩
          · rw [if_neg newline, if_neg newline]
            have more : text ≠ [] := by
              rintro rfl
              exact newline (ends c rfl)
            rcases ih ends.tail more n with ⟨same, behind⟩
            rw [same]
            exact ⟨rfl, behind⟩

/-- **Two texts** are cut into pieces on their own, if the first one leaves no line open. -/
theorem pieces_append_text {text : List Char} (room : 2 ≤ size) (ends : EndsLine text)
    (rest : List Char) : pieces size (text ++ rest) = pieces size text ++ pieces size rest := by
  induction length : text.length using Nat.strong_induction_on generalizing text with
  | _ length' ih =>
      by_cases empty : text = []
      · rw [empty]
        rfl
      · rcases splitLine_append_text ends empty (size - 1) rest with ⟨same, behind⟩
        have whole := splitLine_append (size - 1) text
        have some_char : (splitLine (size - 1) text).1 ≠ [] := splitLine_ne_nil (by omega) empty
        have positive := List.length_pos_of_ne_nil some_char
        have total := congrArg List.length whole
        rw [List.length_append] at total
        have short : IsPiece size (splitLine (size - 1) text).1 (splitLine (size - 1) text).2 :=
          ⟨some_char, by rw [whole]⟩
        have long : IsPiece size (splitLine (size - 1) text).1
            ((splitLine (size - 1) text).2 ++ rest) := by
          refine ⟨some_char, ?_⟩
          rw [← List.append_assoc, whole, same]
        have cut := pieces_append room short
        have cut' := pieces_append room long
        rw [whole] at cut
        rw [← List.append_assoc, whole] at cut'
        rw [cut, cut', ih _ (by omega) behind rfl]
        rfl

/-! ## Strings in the array -/

/-- Behind the NUL, nothing belongs to the string. -/
theorem cString_overlay (array piece : List Char) :
    cString (overlay array piece) = cString piece := by
  rw [overlay, cString, cString, List.takeWhile_append]
  split
  · rename_i whole
    rw [List.takeWhile_cons, if_neg (by simp), List.append_nil]
    exact ((List.takeWhile_prefix _).eq_of_length whole).symm
  · rfl

theorem isEof_overlay (array piece : List Char) : isEof (overlay array piece) = isEof piece := by
  rw [isEof, isEof, cString_overlay]

end Navisim.Text

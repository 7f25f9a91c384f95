import Navisim.Lib.Text

/-!
# Tokens and columns

`strtok` takes adjacent separators for one, so a token need not stand in the column that its number
suggests.  The tokens of a line are listed with their columns; a token stands in the column of its
number only if no field before it is empty (`ne_nil_of_tokens`, `tokens_of_ne_nil`).
-/

namespace Navisim.Text

/-- The next tokens, each with its column: the number of separators in front of it. -/
def tokens (delim : Char) : Nat → Nat → List Char → Option (List (Nat × List Char))
  | 0, _, _ => some []
  | n + 1, column, s =>
      (strtok delim s).bind fun (token, rest) =>
        (tokens delim n (column + (s.takeWhile (· = delim)).length + 1) rest).map
          ((column + (s.takeWhile (· = delim)).length, token) :: ·)

/-- Fields, which may be empty, with a separator behind each. -/
def spread (delim : Char) (fields : List (List Char)) (rest : List Char) : List Char :=
  fields.foldr (fun field s => field ++ delim :: s) rest

/-- A field has neither separators nor NULs. -/
def IsField (delim : Char) (field : List Char) : Prop :=
  ∀ c ∈ field, c ≠ delim ∧ c ≠ nul

variable {delim c : Char} {n column k place : Nat} {s field rest t : List Char}
  {fields : List (List Char)} {ts : List (Nat × List Char)}

theorem spread_cons (delim : Char) (field : List Char) (fields : List (List Char))
    (rest : List Char) :
    spread delim (field :: fields) rest = field ++ delim :: spread delim fields rest := rfl

theorem strtok_delim (delim : Char) (s : List Char) :
    strtok delim (delim :: s) = strtok delim s := by
  rw [strtok, strtok, List.dropWhile_cons, if_pos (decide_eq_true rfl)]

/-- A separator in front is passed, and counts. -/
theorem tokens_delim (delim : Char) (n column : Nat) (s : List Char) :
    tokens delim (n + 1) column (delim :: s) = tokens delim (n + 1) (column + 1) s := by
  rw [tokens, tokens, strtok_delim, List.takeWhile_cons, if_pos (decide_eq_true rfl),
    List.length_cons, show column + ((s.takeWhile (· = delim)).length + 1) =
      column + 1 + (s.takeWhile (· = delim)).length by omega]

/-- A field with something in it is the next token, in its own column. -/
theorem tokens_field (isField : IsField delim field) (some_char : field ≠ [])
    (separate : delim ≠ nul) (n column : Nat) (rest : List Char) :
    tokens delim (n + 1) column (field ++ delim :: rest) =
      (tokens delim n (column + 1) rest).map ((column, field ++ nul :: rest) :: ·) := by
  have none_passed : (field ++ delim :: rest).takeWhile (· = delim) = [] := by
    obtain ⟨c, field, rfl⟩ := List.exists_cons_of_ne_nil some_char
    rw [List.cons_append, List.takeWhile_cons,
      if_neg (by simpa using (isField c List.mem_cons_self).1)]
  rw [tokens, strtok_append some_char isField separate, none_passed, List.length_nil,
    Nat.add_zero, Option.bind_some]

/-- No token stands before the column of its number. -/
theorem le_of_tokens (found : tokens delim n column s = some ts) (here : ts[k]? = some (place, t)) :
    column + k ≤ place := by
  induction n generalizing column s ts k with
  | zero =>
      cases found
      cases here
  | succ n ih =>
      rw [tokens, Option.bind_eq_some_iff] at found
      rcases found with ⟨⟨token, rest⟩, -, found⟩
      rw [Option.map_eq_some_iff] at found
      rcases found with ⟨more, found, rfl⟩
      cases k with
      | zero =>
          cases here
          omega
      | succ k =>
          have later := ih found here
          omega

/-- **Fields with something in them** are the tokens, in their own columns. -/
theorem tokens_of_ne_nil (areFields : ∀ field ∈ fields, IsField delim field ∧ field ≠ [])
    (separate : delim ≠ nul) (column : Nat) (rest : List Char) :
    ∃ ts, tokens delim fields.length column (spread delim fields rest) = some ts ∧
      ts.length = fields.length ∧ ∀ k < fields.length, ts[k]?.map Prod.fst = some (column + k) := by
  induction fields generalizing column with
  | nil => exact ⟨[], rfl, rfl, fun k below => absurd below (Nat.not_lt_zero k)⟩
  | cons field fields ih =>
      rcases areFields field List.mem_cons_self with ⟨isField, some_char⟩
      obtain ⟨ts, found, length, columns⟩ :=
        ih (fun field member => areFields field (List.mem_cons_of_mem _ member)) (column + 1)
      refine ⟨(column, field ++ nul :: spread delim fields rest) :: ts, ?_, ?_, ?_⟩
      · rw [spread_cons, List.length_cons, tokens_field isField some_char separate, found]
        rfl
      · rw [List.length_cons, length, List.length_cons]
      · intro k below
        cases k with
        | zero => rfl
        | succ k =>
            rw [List.length_cons] at below
            rw [List.getElem?_cons_succ, columns k (by omega)]
            congr 1
            omega

/-- **A token in the column of its number** has no empty field before it. -/
theorem ne_nil_of_tokens (areFields : ∀ field ∈ fields, IsField delim field)
    (separate : delim ≠ nul) (found : tokens delim n column (spread delim fields rest) = some ts)
    (here : ts[k]? = some (column + k, t)) :
    ∀ field ∈ fields.take (k + 1), field ≠ [] := by
  induction fields generalizing n column ts k with
  | nil =>
      intro field member
      cases member
  | cons first fields ih =>
      have isField := areFields first List.mem_cons_self
      cases n with
      | zero =>
          cases found
          cases here
      | succ n =>
          rw [spread_cons] at found
          by_cases empty : first = []
          · -- The separator is passed, so every token stands farther behind.
            rw [empty, List.nil_append, tokens_delim] at found
            have later := le_of_tokens found here
            omega
          · rw [tokens_field isField empty separate, Option.map_eq_some_iff] at found
            rcases found with ⟨more, found, rfl⟩
            intro field member
            rw [List.take_succ_cons] at member
            rcases List.mem_cons.mp member with rfl | inside
            · exact empty
            · cases k with
              | zero => cases inside
              | succ k =>
                  rw [List.getElem?_cons_succ, show column + (k + 1) = column + 1 + k by omega]
                    at here
                  exact ih (fun field member => areFields field (List.mem_cons_of_mem _ member))
                    found here field inside

end Navisim.Text

import Navisim.Settings.Kept

/-!
# How long the settings are current

Which actions leave the settings current (`Kept.step`, `Kept.keeps`), and from them what holds for
runs (`settings_current_iff`).
-/

namespace Navisim.Settings

section Steps

variable {D : Type} {p : Platform D} {s s' : App D} {c : Choice}

/-! ## Actions -/

/-- **An action that keeps the values** leaves the settings current. -/
theorem Kept.step (documented : p.Documented) {action : Action} (literal : p.LiteralTexts action)
    (kept : Kept p s c) (keeps : p.Keeps s action) :
    ∃ s', p.step action s = some s' ∧ Kept p s' (p.choose action c) := by
  cases action with
  | save fields =>
      cases number : p.parseInt fields.time with
      | none =>
          simp only [Platform.Keeps, number, Option.isSome_none, Bool.false_eq_true, if_false]
            at keeps
          simp only [Platform.step, Platform.act, Platform.save, Platform.choose, number,
            Option.isSome_none, Bool.false_eq_true, if_false]
          exact ⟨s, kept.start_first keeps, kept⟩
      | some time =>
          have texts := literal (by rw [number]; rfl)
          simp only [Platform.Keeps, number, Option.isSome_some, if_true] at keeps
          simp only [Platform.step, Platform.act, save_of_literal documented texts number,
            Platform.choose, number, Option.isSome_some, if_true]
          exact ⟨_, rfl, kept.save number keeps.1 keeps.2⟩
  | pick kind dataString =>
      simp only [Platform.Keeps] at keeps
      simp only [Platform.step, Platform.act, Platform.onActivityResult, Platform.choose]
      rcases path : kind.path dataString with _ | _ | message
      · rw [path] at keeps
        exact ⟨s, kept.start_first keeps, kept⟩
      · exact ⟨s, rfl, kept⟩
      · rw [path] at keeps
        obtain ⟨table, same⟩ := kept.pick kind
        subst keeps
        dsimp only
        rw [updateDB_of_literal documented (literal _ path) (literal_key kind), table, same]
        exact ⟨s, rfl, kept⟩
  | restart => exact ⟨s, kept.start_first keeps, kept⟩

/-- An action after which the settings are current keeps the values. -/
theorem Kept.keeps (documented : p.Documented) {action : Action} (literal : p.LiteralTexts action)
    (kept : Kept p s c) (stepped : p.step action s = some s')
    (current : p.Current s' (p.choose action c)) : p.Keeps s action := by
  cases action with
  | save fields =>
      cases number : p.parseInt fields.time with
      | none =>
          simp only [Platform.step, Platform.act, Platform.save, number] at stepped
          simp only [Platform.choose, number, Option.isSome_none, Bool.false_eq_true, if_false]
            at current
          simp only [Platform.Keeps, number, Option.isSome_none, Bool.false_eq_true, if_false]
          exact kept.first_of_start stepped current
      | some time =>
          have texts := literal (by rw [number]; rfl)
          simp only [Platform.step, Platform.act, save_of_literal documented texts number,
            Option.some.injEq] at stepped
          simp only [Platform.choose, number, Option.isSome_some, if_true] at current
          simp only [Platform.Keeps, number, Option.isSome_some, if_true]
          subst stepped
          exact kept.eq_of_save current
  | pick kind dataString =>
      simp only [Platform.step, Platform.act, Platform.onActivityResult] at stepped
      simp only [Platform.choose] at current
      simp only [Platform.Keeps]
      rcases path : kind.path dataString with _ | _ | message
      · rw [path] at stepped current
        exact kept.first_of_start stepped current
      · trivial
      · rw [path] at stepped current
        dsimp only at stepped current ⊢
        rw [updateDB_of_literal documented (literal _ path) (literal_key kind)] at stepped
        cases stepped
        exact kept.eq_of_pick current
  | restart => exact kept.first_of_start stepped current

/-! ## Runs -/

/-- In a run of actions that keep the values, the settings are kept. -/
theorem after_kept (documented : p.Documented) {actions : Nat → Action} {n : Nat}
    (literal : ∀ k < n, p.LiteralTexts (actions k))
    (keeps : ∀ k < n, ∃ s, p.after actions k = some s ∧ p.Keeps s (actions k)) :
    ∃ s, p.after actions n = some s ∧ Kept p s (p.choice actions n) := by
  induction n with
  | zero => exact kept_start documented
  | succ n ih =>
      obtain ⟨s, reached, kept⟩ := ih (fun k below => literal k (by omega))
        (fun k below => keeps k (by omega))
      obtain ⟨s', reached', keeps'⟩ := keeps n (by omega)
      rw [reached] at reached'
      cases reached'
      obtain ⟨next, stepped, kept'⟩ := kept.step documented (literal n (by omega)) keeps'
      exact ⟨next, by rw [Platform.after, reached, Option.bind_some, stepped], kept'⟩

/-- **How long the settings are current**, in every run of actions whose texts are literals where
they go into statements: as long as every action keeps the values, that is, saves the trajectory
and the coordinates that the fields have, picks the path that the field has, and does not end the
process when another button than the first was checked. -/
theorem settings_current_iff (documented : p.Documented) (actions : Nat → Action) (N : Nat)
    (literal : ∀ n < N, p.LiteralTexts (actions n)) :
    (∀ n ≤ N, ∃ s, p.after actions n = some s ∧ p.Current s (p.choice actions n)) ↔
      ∀ n < N, ∃ s, p.after actions n = some s ∧ p.Keeps s (actions n) := by
  constructor
  · intro current n
    induction n using Nat.strong_induction_on with
    | _ n ih =>
        intro below
        have literal' : ∀ k < n, p.LiteralTexts (actions k) := fun k before => literal k (by omega)
        obtain ⟨s, reached, kept⟩ := after_kept documented literal'
          (fun k before => ih k before (by omega))
        obtain ⟨s', reached', current'⟩ := current (n + 1) below
        rw [Platform.after, reached, Option.bind_some] at reached'
        exact ⟨s, reached, kept.keeps documented (literal n below) reached' current'⟩
  · intro keeps n bound
    have literal' : ∀ k < n, p.LiteralTexts (actions k) := fun k below => literal k (by omega)
    obtain ⟨s, reached, kept⟩ := after_kept documented literal'
      (fun k below => keeps k (by omega))
    exact ⟨s, reached, kept.current⟩

end Steps

/-! ## A platform -/

/-- What is behind a prefix. -/
def behind : Text → Text → Option Text
  | [], text => some text
  | _ :: _, [] => none
  | c :: pre, d :: text => if c = d then behind pre text else none

theorem behind_append (pre text : Text) : behind pre (pre ++ text) = some text := by
  induction pre with
  | nil => rfl
  | cons c pre ih => rw [List.cons_append, behind, if_pos rfl, ih]

/-- A text up to the next quote, and what is left. -/
def quoted (text : Text) : Text × Text :=
  (text.takeWhile (· ≠ '"'), text.dropWhile (· ≠ '"'))

theorem quoted_append {text rest : Text} (plain : '"' ∉ text) (quote : rest.head? = some '"') :
    quoted (text ++ rest) = (text, rest) := by
  have all : ∀ c ∈ text, decide (c ≠ '"') = true := by
    intro c member
    rw [decide_eq_true_iff]
    intro same
    exact plain (same ▸ member)
  have stops : ∀ c ∈ rest.head?, decide (c ≠ '"') = false := by
    intro c member
    rw [quote] at member
    cases member
    rfl
  exact Prod.ext (Text.takeWhile_append_of_head all stops)
    (Text.dropWhile_append_of_head all stops)

/-- The value and the key of an update statement. -/
def readUpdate (statement : Text) : Option (Text × Text) := do
  let text ← behind updateSet statement
  let value := quoted text
  let text ← behind updateWhere value.2
  let key := quoted text
  if key.2 = updateEnd then some (value.1, key.1) else none

theorem readUpdate_updateStatement {value key : Text} (value' : Literal value)
    (key' : Literal key) : readUpdate (updateStatement value key) = some (value, key) := by
  have last : quoted (key ++ updateEnd) = (key, updateEnd) := quoted_append key'.1 rfl
  have middle : quoted (value ++ (updateWhere ++ (key ++ updateEnd))) =
      (value, updateWhere ++ (key ++ updateEnd)) := quoted_append value'.1 rfl
  rw [readUpdate, updateStatement, List.append_assoc, List.append_assoc, List.append_assoc,
    behind_append, Option.bind_eq_bind, Option.bind_some, middle]
  dsimp only
  rw [behind_append, Option.bind_some, last, if_pos rfl]

/-- Whole millionths, as they are printed. -/
def printDouble (x : ℚ) : Text :=
  let n := ⌊x * 1000000⌋.toNat
  let fraction := ((Nat.toDigits 10 (1000000 + n % 1000000)).drop 1).reverse
  let fraction := (fraction.dropWhile (· = '0')).reverse
  Nat.toDigits 10 (n / 1000000) ++ '.' :: if fraction = [] then ['0'] else fraction

/-- Decimals, and a database that knows the one statement. -/
def decimals : Platform ℚ where
  double := id
  parseInt text :=
    let (negative, digits) := Text.takeSign text
    if digits ≠ [] ∧ digits.all Char.isDigit then
      let value : Int := Text.decimal.ofDigits digits
      some (if negative then -value else value)
    else none
  valueOfInt n := if n < 0 then '-' :: Nat.toDigits 10 n.natAbs else Nat.toDigits 10 n.natAbs
  parseDouble text :=
    match Text.strtod text with
    | some (.finite x, []) => some x
    | _ => none
  valueOf := printDouble
  execSQL statement table := (readUpdate statement).map fun (value, key) => table.update value key

theorem decimals_documented : decimals.Documented := by
  refine ⟨by decide +kernel, by decide +kernel, by decide +kernel, ?_⟩
  intro value key table value' key'
  have read := readUpdate_updateStatement value' key'
  change (readUpdate (updateStatement value key)).map _ = _
  rw [read]
  rfl

/-- The time is saved, with the button for sentences. -/
def savedTime : Fields where
  time := "60".toList
  trajectory := "brdc3540.14n".toList
  lat := "30.286502".toList
  lon := "120.032669".toList
  hgt := "100.0".toList
  radio := .txt

theorem settings_current_iff_sample :
    ∃ s, decimals.after (fun _ => .save savedTime) 1 = some s ∧
      decimals.Current s (decimals.choice (fun _ => .save savedTime) 1) := by
  have literal : ∀ text ∈ savedTime.texts, Literal text := by decide +kernel
  refine (settings_current_iff decimals_documented (fun _ => .save savedTime) 1
    (fun _ _ _ => literal)).mpr (fun n below => ?_) 1 le_rfl
  obtain rfl : n = 0 := by omega
  refine ⟨_, rfl, ?_⟩
  unfold Platform.Keeps
  decide +kernel

/-- A file that is picked in a fresh app. -/
def pickedFile : Action :=
  .pick .csv "file:///storage/track.csv".toList

/-- **The file is picked, but not used**: the next data are generated from the old one. -/
theorem pickedFile_not_used :
    decimals.LiteralTexts pickedFile ∧
      ((decimals.after (fun _ => pickedFile) 1).bind fun s => decimals.generateSimData s.statics) =
        some {
          pathFile := "circle.csv".toList
          trajectory := "brdc3540.14n".toList
          flag := 0
          time := 6 } ∧
      (decimals.request (decimals.choice (fun _ => pickedFile) 1)).map Request.pathFile =
        some "/storage/track.csv".toList := by
  refine ⟨fun message taken => ?_, by decide +kernel⟩
  have path : FileKind.csv.path "file:///storage/track.csv".toList =
      some (some "/storage/track.csv".toList) := by
    decide
  rw [path] at taken
  cases taken
  decide

end Navisim.Settings

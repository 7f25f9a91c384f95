import Navisim.Lib.TextLines
import Navisim.Motion.Readers

/-!
# Leading lines

What the readers of motion files make of any file.  The lines that supply four numbers, up to the
first one that does not, are what the track should be made of; the readers go on up to the first
blank piece instead, and take the numbers that a piece lacks from the pieces before it.
-/

namespace Navisim.Motion

open Text Loop

/-! ## Numbers of a line -/

/-- The numbers at the start of a text. -/
def numbers (sep : Between) (text : List Char) : List Number :=
  scanNumbers sep 4 (cString text)

/-- The lines up to the first one without four numbers. -/
def leadingLines (sep : Between) (lines : List (List Char)) : List (List Char) :=
  lines.takeWhile fun line => (numbers sep line).length = 4

/-- The scan with number `k` starts where the line with this number starts, and finds the numbers
of the line. -/
structure FromOwnLine (sep : Between) (file : List Char) (k : Nat) : Prop where
  start : (pieces maxChar file).take k = (textLines file).take k
  numbers_eq : (pieces maxChar file)[k]?.map (numbers sep) = (textLines file)[k]?.map (numbers sep)

/-- The variables after the scans of some texts. -/
def known (sep : Between) (vars : Nat → Number) (texts : List (List Char)) : Nat → Number :=
  texts.foldl (fun vars text => assign (numbers sep text) vars) vars

/-- The pieces that are scanned: those up to the first blank one, as far as there is room. -/
def turns (room : Nat) (parts : List (List Char)) : List (List Char) :=
  (parts.takeWhile fun part => !isEof part).take room

section Numbers

variable {sep : Between} {file line text : List Char} {parts : List (List Char)}
  {vars : Nat → Number} {k n room : Nat}

/-- With four numbers, nothing is left of the variables from before. -/
theorem assign_of_four (four : (numbers sep text).length = 4) (inside : k < 4) :
    assign (numbers sep text) vars k = (numbers sep text).getD k 0 := by
  have below : k < (numbers sep text).length := by omega
  rw [assign, List.getD_eq_getElem _ _ below, List.getD_eq_getElem _ _ below]

/-- There is no number in a blank text. -/
theorem numbers_of_isEof (blank : isEof text = true) : numbers sep text = [] :=
  scanNumbers_of_isSpace blank sep 4

theorem not_isEof_of_four (four : (numbers sep text).length = 4) : isEof text = false := by
  rw [Bool.eq_false_iff]
  intro blank
  rw [numbers_of_isEof blank] at four
  cases four

theorem known_append (sep : Between) (vars : Nat → Number) (texts : List (List Char))
    (text : List Char) :
    known sep vars (texts ++ [text]) = assign (numbers sep text) (known sep vars texts) := by
  rw [known, List.foldl_append]
  rfl

/-- The variables behind a scan that has found four numbers. -/
theorem known_of_four {texts : List (List Char)} {i : Nat} (here : texts[k]? = some text)
    (four : (numbers sep text).length = 4) (inside : i < 4) :
    known sep vars (texts.take (k + 1)) i = (numbers sep text).getD i 0 := by
  rw [List.take_add_one, here, Option.toList_some, known_append, assign_of_four four inside]

/-! ## The pieces that are scanned -/

theorem turns_getElem? (before : k < (turns room parts).length) :
    (turns room parts)[k]? = parts[k]? := by
  have isPrefix : turns room parts <+: parts :=
    (List.take_prefix _ _).trans (List.takeWhile_prefix _)
  obtain ⟨behind, whole⟩ := isPrefix
  conv_rhs => rw [← whole, List.getElem?_append_left before]

theorem turns_length_le : (turns room parts).length ≤ room :=
  List.length_take_le _ _

/-- Pieces that are not blank are scanned one after the other; the number of turns is theirs if
and only if what is behind them is blank, or there is no room. -/
theorem turns_length_eq_iff
    (filled : ∀ k < n, ∃ part, parts[k]? = some part ∧ isEof part = false) (fits : n ≤ room) :
    (turns room parts).length = n ↔ (n < room → ∀ part ∈ parts[n]?, isEof part = true) := by
  induction n generalizing parts room with
  | zero =>
      cases room with
      | zero => simp [turns]
      | succ room =>
          cases parts with
          | nil => simp [turns]
          | cons part rest =>
              cases blank : isEof part with
              | true => simp [turns, blank]
              | false => simp [turns, blank]
  | succ n ih =>
      obtain ⟨room, rfl⟩ := Nat.exists_eq_succ_of_ne_zero (show room ≠ 0 by omega)
      obtain ⟨part, first, some_char⟩ := filled 0 (Nat.succ_pos n)
      cases parts with
      | nil => cases first
      | cons first_part rest =>
          cases first
          have others : (turns room rest).length = n ↔
              (n < room → ∀ part ∈ rest[n]?, isEof part = true) :=
            ih (fun k below => filled (k + 1) (Nat.succ_lt_succ below)) (by omega)
          have length :
              (turns (room + 1) (part :: rest)).length = (turns room rest).length + 1 := by
            simp [turns, some_char]
          rw [length, Nat.succ_lt_succ_iff, List.getElem?_cons_succ, Nat.succ_inj, others]

end Numbers

/-! ## Own lines -/

section OwnLines

variable {sep : Between} {file line : List Char} {k n room : Nat}

theorem room_maxChar : 2 ≤ maxChar := by decide

/-- A line is scanned from its start if those before it fit into the array, and gives its numbers
if they are in the part of it that does. -/
theorem fromOwnLine_iff (here : (textLines file)[k]? = some line) :
    FromOwnLine sep file k ↔
      (∀ line ∈ (textLines file).take k, line.length < maxChar) ∧
        numbers sep (line.take (maxChar - 1)) = numbers sep line := by
  constructor
  · intro own
    have fits := (take_pieces_iff room_maxChar file k).mp own.start
    have same := own.numbers_eq
    rw [pieces_getElem_of_fits room_maxChar fits here, here] at same
    exact ⟨fits, Option.some.inj same⟩
  · intro ⟨fits, same⟩
    refine ⟨(take_pieces_iff room_maxChar file k).mpr fits, ?_⟩
    rw [pieces_getElem_of_fits room_maxChar fits here, here, Option.map_some, Option.map_some, same]

/-- What is true of a line is true of those before it. -/
theorem FromOwnLine.of_le (own : FromOwnLine sep file n) (before : k ≤ n) :
    FromOwnLine sep file k := by
  rcases Nat.lt_or_eq_of_le before with less | rfl
  · have start : (pieces maxChar file).take (k + 1) = (textLines file).take (k + 1) := by
      have same := congrArg (List.take (k + 1)) own.start
      rwa [List.take_take, List.take_take, Nat.min_eq_left (show k + 1 ≤ n from less)] at same
    refine ⟨?_, ?_⟩
    · have same := congrArg (List.take k) start
      rwa [List.take_take, List.take_take, Nat.min_eq_left (Nat.le_succ k)] at same
    · have same := congrArg (fun l => l[k]?) start
      simp only [List.getElem?_take_of_succ] at same
      rw [same]
  · exact own

theorem four_of_mem_leadingLines {lines : List (List Char)}
    (member : line ∈ leadingLines sep lines) : (numbers sep line).length = 4 := by
  have four := List.mem_takeWhile_imp member
  rwa [decide_eq_true_iff] at four

/-- Lines that follow the first `m` ones are scanned each from its own place if all but the last
fit, and the numbers of the last are in the part of it that does. -/
theorem forall_fromOwnLine_iff (sep : Between) {m : Nat} {lead : List (List Char)}
    (isPrefix : lead <+: (textLines file).drop m) :
    (∀ k < lead.length, FromOwnLine sep file (m + k)) ↔
      (lead ≠ [] → ∀ line ∈ (textLines file).take (m + lead.length - 1), line.length < maxChar) ∧
        ∀ line ∈ lead.getLast?, numbers sep (line.take (maxChar - 1)) = numbers sep line := by
  cases lead using List.reverseRecOn with
  | nil =>
      refine iff_of_true (fun k below => absurd below (Nat.not_lt_zero k)) ⟨?_, ?_⟩
      · intro none_left
        exact absurd rfl none_left
      · rintro line ⟨⟩
  | append_singleton before last _ =>
      have here : (textLines file)[m + before.length]? = some last := by
        obtain ⟨behind, whole⟩ := isPrefix
        rw [← List.getElem?_drop, ← whole, List.append_assoc, List.singleton_append,
          List.getElem?_append_right le_rfl, Nat.sub_self]
        rfl
      have length : (before ++ [last]).length = before.length + 1 := by simp
      rw [length, show m + (before.length + 1) - 1 = m + before.length by omega,
        List.getLast?_concat]
      constructor
      · intro own
        rcases (fromOwnLine_iff here).mp (own before.length (Nat.lt_succ_self _)) with ⟨fits, same⟩
        refine ⟨fun _ => fits, ?_⟩
        rintro line ⟨⟩
        exact same
      · intro ⟨fits, same⟩ k below
        have own : FromOwnLine sep file (m + before.length) :=
          (fromOwnLine_iff here).mpr ⟨fits (by simp), same last rfl⟩
        exact own.of_le (by omega)

section Lead

variable {m : Nat} {lead : List (List Char)} (isPrefix : lead <+: (textLines file).drop m)
  (four : ∀ line ∈ lead, (numbers sep line).length = 4)
include isPrefix four

/-- The piece that is scanned for a line with four numbers. -/
theorem FromOwnLine.piece (own : FromOwnLine sep file (m + k)) (here : lead[k]? = some line) :
    ∃ part, (pieces maxChar file)[m + k]? = some part ∧ numbers sep part = numbers sep line ∧
      (numbers sep part).length = 4 := by
  obtain ⟨below, rfl⟩ := List.getElem?_eq_some_iff.mp here
  have found := List.prefix_iff_getElem?.mp isPrefix k below
  rw [List.getElem?_drop] at found
  have same := own.numbers_eq
  rw [found] at same
  rcases Option.map_eq_some_iff.mp same with ⟨part, piece, equal⟩
  exact ⟨part, piece, equal, by rw [equal]; exact four _ (List.getElem_mem below)⟩

/-- Where all leading lines are scanned, these are all turns if and only if the piece behind them
is blank, or there is no room. -/
theorem turns_length_eq_lead_iff (room : Nat)
    (own : ∀ k < lead.length, FromOwnLine sep file (m + k)) (fits : lead.length ≤ room) :
    (turns room ((pieces maxChar file).drop m)).length = lead.length ↔
      (lead.length < room → ∀ part ∈ (pieces maxChar file)[m + lead.length]?,
        isEof part = true) := by
  rw [← List.getElem?_drop]
  apply turns_length_eq_iff _ fits
  intro k below
  obtain ⟨part, found, -, full⟩ :=
    (own k below).piece isPrefix four (List.getElem?_eq_getElem below)
  exact ⟨part, by rw [List.getElem?_drop, found], not_isEof_of_four full⟩

end Lead

end OwnLines

/-! ## The loop -/

/-- The loop that the two readers have in common, with what a turn stores. -/
def scanLoop {S : Type*} (sep : Between) (size : Nat) (store : Nat → (Nat → Number) → S → S) :
    List (List Char) → Nat → (Nat → Number) → S → S × Nat
  | [], numd, _, s => (s, numd)
  | str :: rest, numd, vars, s =>
      if numd ≥ size then (s, numd)
      else if isEof str then (s, numd)
      else
        let vars := assign (numbers sep str) vars
        scanLoop sep size store rest (numd + 1) vars (store numd vars s)

section Loop

variable {P S α : Type*}

theorem readMotion_eq (frame : Frame P) (arrays : List (List Char)) (numd : Nat)
    (vars : Nat → Number) (xyz : Nat → P) :
    readMotion frame arrays numd vars xyz = scanLoop (.literal ',') userMotionSize
      (fun numd vars xyz => Function.update xyz numd (frame.ecef (vars 1, vars 2, vars 3)))
      arrays numd vars xyz := by
  induction arrays generalizing numd vars xyz with
  | nil => rfl
  | cons str rest ih =>
      rw [readMotion, scanLoop, ih]
      rfl

/-- What a turn stores of a way point. -/
def storeWayPoint (frame : Frame P) (numd : Nat) (vars : Nat → Number) (w : WayPoints P Number) :
    WayPoints P Number :=
  { w with
    xyzWayPoint := Function.update w.xyzWayPoint numd
      (frame.llh2xyz (vars 0 / r2d, vars 1 / r2d, vars 2 / r2d))
    durationWayPoint := Function.update w.durationWayPoint numd (vars 3 * 60) }

theorem readWayPoints_eq (frame : Frame P) (arrays : List (List Char)) (numd : Nat)
    (vars : Nat → Number) (w : WayPoints P Number) :
    readWayPoints frame arrays numd vars w =
      scanLoop .blank wayPointSize (storeWayPoint frame) arrays numd vars w := by
  induction arrays generalizing numd vars w with
  | nil => rfl
  | cons str rest ih =>
      rw [readWayPoints, scanLoop, ih]
      rfl

theorem turns_blank {room : Nat} {part : List Char} {rest : List (List Char)}
    (blank : isEof part = true) : turns room (part :: rest) = [] := by
  rw [turns, List.takeWhile_cons, blank, if_neg (by decide), List.take_nil]

theorem turns_cons {room : Nat} {part : List Char} {rest : List (List Char)}
    (some_char : isEof part = false) :
    turns (room + 1) (part :: rest) = part :: turns room rest := by
  rw [turns, List.takeWhile_cons, some_char, if_pos (by decide), List.take_succ_cons]
  rfl

/-- **The loop** makes as many turns as there are pieces to scan, and in each one stores what the
variables hold then. -/
theorem scanLoop_spec (sep : Between) (size : Nat) (store : Nat → (Nat → Number) → S → S)
    (cell : S → Nat → α) (value : (Nat → Number) → α)
    (stores : ∀ k vars s j, cell (store k vars s) j = if j = k then value vars else cell s j)
    (array : List Char) (parts : List (List Char)) (numd : Nat) (vars : Nat → Number) (s : S) :
    let scanned := turns (size - numd) parts
    let result := scanLoop sep size store (buffers array parts) numd vars s
    result.2 = numd + scanned.length ∧
      (∀ k < scanned.length,
        cell result.1 (numd + k) = value (known sep vars (scanned.take (k + 1)))) ∧
      ∀ j, j < numd ∨ numd + scanned.length ≤ j → cell result.1 j = cell s j := by
  induction parts generalizing array numd vars s with
  | nil =>
      rw [turns, List.takeWhile_nil, List.take_nil]
      exact ⟨rfl, fun k below => absurd below (Nat.not_lt_zero k), fun _ _ => rfl⟩
  | cons part rest ih =>
      rw [buffers, scanLoop, isEof_overlay, numbers, cString_overlay, ← numbers]
      by_cases full : numd ≥ size
      · rw [if_pos full, Nat.sub_eq_zero_of_le full, turns, List.take_zero]
        exact ⟨rfl, fun k below => absurd below (Nat.not_lt_zero k), fun _ _ => rfl⟩
      · rw [if_neg full]
        cases blank : isEof part with
        | true =>
            rw [if_pos rfl, turns_blank blank]
            exact ⟨rfl, fun k below => absurd below (Nat.not_lt_zero k), fun _ _ => rfl⟩
        | false =>
            obtain ⟨room, left⟩ := Nat.exists_eq_succ_of_ne_zero (show size - numd ≠ 0 by omega)
            rw [if_neg Bool.false_ne_true, left, turns_cons blank]
            rcases ih (overlay array part) (numd + 1) (assign (numbers sep part) vars)
              (store numd (assign (numbers sep part) vars) s) with ⟨count, stored, kept⟩
            rw [show size - (numd + 1) = room by omega] at count stored kept
            dsimp only
            refine ⟨?_, ?_, ?_⟩
            · rw [count, List.length_cons]
              omega
            · intro k below
              cases k with
              | zero =>
                  change cell _ numd = _
                  rw [kept numd (Or.inl (Nat.lt_succ_self numd)), stores, if_pos rfl]
                  rfl
              | succ k =>
                  rw [List.length_cons] at below
                  rw [show numd + (k + 1) = numd + 1 + k by omega, stored k (by omega)]
                  rfl
            · intro j outside
              rw [List.length_cons] at outside
              rw [kept j (by omega), stores, if_neg (by omega)]

end Loop

/-! ## Motion in Cartesian coordinates -/

/-- The lines that a track of Cartesian coordinates should be made of. -/
def motionLines (file : List Char) : List (List Char) :=
  (leadingLines (.literal ',') (textLines file)).take userMotionSize

/-- The coordinates of a line `t,x,y,z`. -/
def coordinates (line : List Char) : Number × Number × Number :=
  let row := numbers (.literal ',') line
  (row.getD 1 0, row.getD 2 0, row.getD 3 0)

section Motion

variable {P : Type*}

/-- The track is made of the leading lines, of each from its own place, and of nothing else. -/
structure MotionRead (frame : Frame P) (xyz : Nat → P) (file : List Char)
    (result : (Nat → P) × Int) : Prop where
  returned : result.2 = (motionLines file).length
  own : ∀ k < (motionLines file).length, FromOwnLine (.literal ',') file k
  stored : ∀ k line, (motionLines file)[k]? = some line →
    result.1 k = frame.ecef (coordinates line)
  kept : ∀ k, (motionLines file).length ≤ k → result.1 k = xyz k

/-- The leading lines but the last fit into the array, the numbers of the last are in the part of
it that does, and what the next call of `fgets` delivers, if there is one, is blank. -/
structure MotionReadable (file : List Char) : Prop where
  fits : ∀ line ∈ (motionLines file).dropLast, line.length < maxChar
  last : ∀ line ∈ (motionLines file).getLast?,
    numbers (.literal ',') (line.take (maxChar - 1)) = numbers (.literal ',') line
  stop : (motionLines file).length < userMotionSize →
    ∀ part ∈ (pieces maxChar file)[(motionLines file).length]?, isEof part = true

variable {frame : Frame P} {locals : Locals} {xyz : Nat → P} {file : List Char}

/-- The result of the reader, in terms of the pieces that it scans. -/
theorem readUserMotion_spec (frame : Frame P) (locals : Locals) (xyz : Nat → P)
    (file : List Char) :
    let scanned := turns userMotionSize (pieces maxChar file)
    let result := readUserMotion frame locals xyz (some file)
    result.2 = scanned.length ∧
      (∀ k < scanned.length, result.1 k =
        let vars := known (.literal ',') locals.vars (scanned.take (k + 1))
        frame.ecef (vars 1, vars 2, vars 3)) ∧
      ∀ k, scanned.length ≤ k → result.1 k = xyz k := by
  have stores : ∀ (k : Nat) (vars : Nat → Number) (xyz : Nat → P) (j : Nat),
      Function.update xyz k (frame.ecef (vars 1, vars 2, vars 3)) j =
        if j = k then frame.ecef (vars 1, vars 2, vars 3) else xyz j := by
    intro k vars xyz j
    rw [Function.update_apply]
  rcases scanLoop_spec (.literal ',') userMotionSize _ (fun xyz k => xyz k)
    (fun vars => frame.ecef (vars 1, vars 2, vars 3)) stores locals.str (pieces maxChar file) 0
    locals.vars xyz with ⟨count, stored, kept⟩
  rw [Nat.sub_zero] at count stored kept
  simp only [Nat.zero_add] at count stored kept
  rw [readUserMotion, lines_eq_buffers, readMotion_eq]
  exact ⟨congrArg _ count, stored, fun k behind => kept k (Or.inr behind)⟩

theorem motionLines_isPrefix (file : List Char) : motionLines file <+: textLines file :=
  (List.take_prefix _ _).trans (List.takeWhile_prefix _)

theorem motionLines_length_le (file : List Char) : (motionLines file).length ≤ userMotionSize :=
  List.length_take_le _ _

theorem motionLines_dropLast (file : List Char) :
    (motionLines file).dropLast = (textLines file).take (0 + (motionLines file).length - 1) := by
  rw [List.dropLast_eq_take, Nat.zero_add]
  conv_lhs => rw [List.prefix_iff_eq_take.mp (motionLines_isPrefix file), List.take_take]
  rw [List.length_take_of_le (motionLines_isPrefix file).length_le,
    Nat.min_eq_left (Nat.sub_le _ _)]

/-- **Motion in Cartesian coordinates.**  The track is made of the leading lines if and only if
the file is readable. -/
theorem motionRead_iff (frame : Frame P) (locals : Locals) (xyz : Nat → P) (file : List Char) :
    MotionRead frame xyz file (readUserMotion frame locals xyz (some file)) ↔
      MotionReadable file := by
  rcases readUserMotion_spec frame locals xyz file with ⟨count, stored, kept⟩
  have isPrefix : motionLines file <+: (textLines file).drop 0 := motionLines_isPrefix file
  have four : ∀ line ∈ motionLines file, (numbers (.literal ',') line).length = 4 :=
    fun line member => four_of_mem_leadingLines (List.mem_of_mem_take member)
  have own_iff := forall_fromOwnLine_iff (.literal ',') isPrefix
  rw [← motionLines_dropLast] at own_iff
  have length_iff := fun own =>
    turns_length_eq_lead_iff isPrefix four userMotionSize own (motionLines_length_le file)
  simp only [Nat.zero_add, List.drop_zero] at own_iff length_iff
  constructor
  · intro read
    rcases own_iff.mp read.own with ⟨fits, same⟩
    refine ⟨?_, same, (length_iff read.own).mp ?_⟩
    · intro line member
      apply fits _ line member
      rintro empty
      rw [empty] at member
      cases member
    · exact Nat.cast_injective (count.symm.trans read.returned)
  · intro readable
    have own := own_iff.mpr ⟨fun _ => readable.fits, readable.last⟩
    have length := (length_iff own).mpr readable.stop
    rw [length] at count stored kept
    refine ⟨count, own, ?_, kept⟩
    intro k line here
    have below := (List.getElem?_eq_some_iff.mp here).1
    have place : FromOwnLine (.literal ',') file (0 + k) := by
      rw [Nat.zero_add]
      exact own k below
    obtain ⟨part, found, same, full⟩ := place.piece isPrefix four here
    have scanned : (turns userMotionSize (pieces maxChar file))[k]? = some part := by
      rw [turns_getElem? (by rw [length]; exact below), ← found, Nat.zero_add]
    rw [stored k below]
    simp only [known_of_four scanned full (show 1 < 4 by decide),
      known_of_four scanned full (show 2 < 4 by decide),
      known_of_four scanned full (show 3 < 4 by decide), same, coordinates]

/-- A line without numbers counts as well, and repeats the point before it. -/
theorem motionRead_stray :
    ¬ MotionRead ⟨id, id⟩ (fun _ => (0, 0, 0)) "0,1,2,3\nabc\n".toList
      (readUserMotion ⟨id, id⟩ ⟨[], fun _ => 0, 0⟩ (fun _ => (0, 0, 0))
        (some "0,1,2,3\nabc\n".toList)) := by
  intro read
  have lines : (motionLines "0,1,2,3\nabc\n".toList).length = 1 := by decide +kernel
  have returned := read.returned
  rw [lines] at returned
  exact absurd returned (by decide +kernel)

end Motion

/-! ## Way points -/

/-- The lines behind the first one that a list of way points should be made of. -/
def wayPointLines (file : List Char) : List (List Char) :=
  leadingLines .blank ((textLines file).drop 1)

/-- The angles and the height of a line `x y z t`, as the reader converts them. -/
def geodetic (line : List Char) : Number × Number × Number :=
  let row := numbers .blank line
  (row.getD 0 0 / r2d, row.getD 1 0 / r2d, row.getD 2 0 / r2d)

/-- The time of a line. -/
def minutes (line : List Char) : Number :=
  (numbers .blank line).getD 3 0

/-- The index at which the reader looks for the time of the last way point. -/
def durationIndex {P : Type*} (w : WayPoints P Number) : Int :=
  w.nWayPoint - 1

/-- The two error branches of `runCore_realTime` behind the reader. -/
def motionError (numd : Int) : Option String :=
  if numd = -1 then some "ERROR: Failed to open user motion / NMEA GGA file.\n"
  else if numd = 0 then some "ERROR: Failed to read user motion / NMEA GGA data.\n"
  else none

/-- The last time that is scanned. -/
def lastTime (texts : List (List Char)) : Option Number :=
  (texts.filterMap fun text => (numbers .blank text)[3]?).getLast?

/-- The way points are the leading lines behind the first line, each from its own place, and
without any the caller sees an error. -/
structure WayPointsRead {P : Type*} (frame : Frame P) (file : List Char)
    (result : WayPoints P Number × Option Int) : Prop where
  failed : wayPointLines file = [] →
    ∃ numd ≤ 0, result.2 = some numd ∧ (motionError numd).isSome
  count : wayPointLines file ≠ [] → result.1.nWayPoint = (wayPointLines file).length
  own : ∀ k < (wayPointLines file).length, FromOwnLine .blank file (1 + k)
  stored : ∀ (k : Nat) line, (wayPointLines file)[k]? = some line →
    result.1.xyzWayPoint k = frame.llh2xyz (geodetic line) ∧
      result.1.durationWayPoint k = minutes line * 60
  returned : ∀ line ∈ (wayPointLines file).getLast?,
    ∃ numd, toInt (minutes line * 60 * 10) = some numd ∧ result.2 = some numd
  inside : 0 ≤ durationIndex result.1 ∧ durationIndex result.1 < result.1.nWayPoint

/-- There are leading lines, not more than the arrays hold; the first line and all of them but the
last fit into the array, the numbers of the last are in the part of it that does, what the next
call of `fgets` delivers, if there is one, is blank, and ten times the last time is a number that
an `int` holds. -/
structure WayPointsReadable (file : List Char) : Prop where
  some_line : wayPointLines file ≠ []
  room : (wayPointLines file).length ≤ wayPointSize
  fits : ∀ line ∈ (textLines file).take (wayPointLines file).length, line.length < maxChar
  last : ∀ line ∈ (wayPointLines file).getLast?,
    numbers .blank (line.take (maxChar - 1)) = numbers .blank line
  stop : (wayPointLines file).length < wayPointSize →
    ∀ part ∈ (pieces maxChar file)[1 + (wayPointLines file).length]?, isEof part = true
  time : ∀ line ∈ (wayPointLines file).getLast?, ∃ t, minutes line = .finite t ∧
    -2 ^ 31 - 1 < t * 600 ∧ t * 600 < 2 ^ 31

/-- There are no leading lines, but among the pieces that the reader counts are some with four
numbers, and the last time is near zero. -/
def ErrsByChance (file : List Char) : Prop :=
  wayPointLines file = [] ∧
    ∃ t, .finite t ∈ lastTime (turns wayPointSize ((pieces maxChar file).drop 1)) ∧
      -2 < t * 600 ∧ t * 600 < 1

section WayPoints

variable {P : Type*} {frame : Frame P} {locals : Locals} {w : WayPoints P Number} {file : List Char}

theorem known_time (vars : Nat → Number) (texts : List (List Char)) :
    known .blank vars texts 3 = (lastTime texts).getD (vars 3) := by
  induction texts using List.reverseRecOn with
  | nil => rfl
  | append_singleton texts text ih =>
      rw [known_append, assign, ih]
      unfold lastTime
      rw [List.filterMap_append]
      rw [List.filterMap_cons, List.filterMap_nil, List.getD_eq_getElem?_getD]
      cases (numbers .blank text)[3]? with
      | none =>
          rw [List.append_nil]
          rfl
      | some t =>
          rw [List.getLast?_concat]
          rfl

theorem storeWayPoint_cell (k : Nat) (vars : Nat → Number) (w : WayPoints P Number) (j : Nat) :
    ((storeWayPoint frame k vars w).xyzWayPoint j,
        (storeWayPoint frame k vars w).durationWayPoint j) =
      if j = k then (frame.llh2xyz (vars 0 / r2d, vars 1 / r2d, vars 2 / r2d), vars 3 * 60)
      else (w.xyzWayPoint j, w.durationWayPoint j) := by
  unfold storeWayPoint
  dsimp only
  by_cases here : j = k
  · subst here
    rw [if_pos rfl, Function.update_self, Function.update_self]
  · have other : (j : Int) ≠ k := by exact_mod_cast here
    rw [if_neg here, Function.update_of_ne other, Function.update_of_ne other]

theorem motionError_nonpos {numd : Int} (error : (motionError numd).isSome) : numd ≤ 0 := by
  by_contra positive
  rw [motionError, if_neg (by omega), if_neg (by omega)] at error
  cases error

/-- The numbers that make the caller see an error. -/
theorem motionError_trunc_iff (x : ℚ) :
    (motionError (trunc x)).isSome ↔ -2 < x ∧ x < 1 := by
  have cases_iff : (motionError (trunc x)).isSome ↔ -1 ≤ trunc x ∧ trunc x < 1 := by
    unfold motionError
    split <;> rename_i first
    · simp [first]
    · split <;> rename_i second
      · simp [second]
      · simp only [Option.isSome_none, Bool.false_eq_true, false_iff]
        omega
  rw [cases_iff, le_trunc_iff (by norm_num), trunc_lt_iff (by norm_num)]
  norm_num

/-- Ten times a time of so many minutes is converted if the product fits. -/
theorem toInt_time_iff {y : Number} {n : Int} :
    toInt (y * 60 * 10) = some n ↔
      ∃ t, y = .finite t ∧ (-2 ^ 31 - 1 < t * 600 ∧ t * 600 < 2 ^ 31) ∧ trunc (t * 600) = n := by
  cases y with
  | finite t =>
      have product : Number.finite t * 60 * 10 = .finite (t * 600) :=
        congrArg Number.finite (by push_cast; ring)
      have range : (-2 ^ 31 ≤ trunc (t * 600) ∧ trunc (t * 600) < 2 ^ 31) ↔
          -2 ^ 31 - 1 < t * 600 ∧ t * 600 < 2 ^ 31 := by
        rw [le_trunc_iff (by norm_num), trunc_lt_iff (by norm_num)]
        norm_num
      rw [product, toInt]
      simp only [range, Option.ite_none_right_eq_some, Option.some.injEq, Number.finite.injEq,
        exists_eq_left']
  | infinite negative =>
      have undefined : toInt (.infinite negative * 60 * 10) = none := by cases negative <;> rfl
      simp [undefined]
  | nan =>
      have undefined : toInt (.nan * 60 * 10) = none := rfl
      simp [undefined]

/-- The result of the reader, in terms of the pieces that it scans. -/
theorem readUserMotionInLLH_spec (frame : Frame P) (locals : Locals) (w : WayPoints P Number)
    (some_char : file ≠ []) :
    let scanned := turns wayPointSize ((pieces maxChar file).drop 1)
    let result := readUserMotionInLLH frame locals w (some file)
    result.1.nWayPoint = scanned.length ∧
      (∀ k < scanned.length,
        let vars := known .blank locals.vars (scanned.take (k + 1))
        result.1.xyzWayPoint k = frame.llh2xyz (vars 0 / r2d, vars 1 / r2d, vars 2 / r2d) ∧
          result.1.durationWayPoint k = vars 3 * 60) ∧
      result.2 = toInt (result.1.durationWayPoint (durationIndex result.1) * 10) := by
  obtain ⟨line, more, lines⟩ : ∃ line more, textLines file = line :: more := by
    cases lines : textLines file with
    | nil => exact absurd (by rw [← textLines_flatten file, lines, List.flatten_nil]) some_char
    | cons line more => exact ⟨line, more, rfl⟩
  have cut := pieces_of_textLines room_maxChar lines
  generalize pieces maxChar (line.drop (maxChar - 1) ++ more.flatten) = parts at cut
  rcases scanLoop_spec .blank wayPointSize (storeWayPoint frame)
    (fun w k => (w.xyzWayPoint k, w.durationWayPoint k))
    (fun vars => (frame.llh2xyz (vars 0 / r2d, vars 1 / r2d, vars 2 / r2d), vars 3 * 60))
    storeWayPoint_cell (overlay locals.str (line.take (maxChar - 1))) parts 0 locals.vars w
    with ⟨count, stored, -⟩
  rw [Nat.sub_zero] at count stored
  simp only [Nat.zero_add] at count stored
  rw [readUserMotionInLLH, lines_eq_buffers, cut, buffers]
  simp only [readWayPoints_eq, List.drop_succ_cons, List.drop_zero]
  exact ⟨congrArg _ count, fun k below => Prod.ext_iff.mp (stored k below), rfl⟩

/-- What is returned behind some turns comes from the last time that the reader knows. -/
theorem readUserMotionInLLH_returns (frame : Frame P) (locals : Locals) (w : WayPoints P Number)
    (some_char : file ≠ [])
    (some_turn : turns wayPointSize ((pieces maxChar file).drop 1) ≠ []) :
    (readUserMotionInLLH frame locals w (some file)).2 =
      toInt ((lastTime (turns wayPointSize ((pieces maxChar file).drop 1))).getD (locals.vars 3) *
        60 * 10) := by
  rcases readUserMotionInLLH_spec frame locals w some_char with ⟨count, stored, returned⟩
  generalize turns wayPointSize ((pieces maxChar file).drop 1) = scanned at *
  have positive := List.length_pos_of_ne_nil some_turn
  have last : durationIndex (readUserMotionInLLH frame locals w (some file)).1 =
      (scanned.length - 1 : Nat) := by
    rw [durationIndex, count]
    omega
  rw [returned, last, (stored (scanned.length - 1) (by omega)).2, Nat.sub_add_cancel positive,
    List.take_length, known_time]

theorem wayPointLines_isPrefix (file : List Char) :
    wayPointLines file <+: (textLines file).drop 1 :=
  List.takeWhile_prefix _

theorem four_of_mem_wayPointLines :
    ∀ line ∈ wayPointLines file, (numbers .blank line).length = 4 :=
  fun _ member => four_of_mem_leadingLines member

theorem WayPointsReadable.some_char (readable : WayPointsReadable file) : file ≠ [] := by
  rintro rfl
  exact readable.some_line rfl

/-- Every way point is scanned from its own place. -/
theorem WayPointsReadable.own (readable : WayPointsReadable file) :
    ∀ k < (wayPointLines file).length, FromOwnLine .blank file (1 + k) := by
  apply (forall_fromOwnLine_iff .blank (wayPointLines_isPrefix file)).mpr
  rw [Nat.add_sub_cancel_left]
  exact ⟨fun _ => readable.fits, readable.last⟩

/-- There are as many turns as way points. -/
theorem WayPointsReadable.length (readable : WayPointsReadable file) :
    (turns wayPointSize ((pieces maxChar file).drop 1)).length = (wayPointLines file).length :=
  (turns_length_eq_lead_iff (wayPointLines_isPrefix file) four_of_mem_wayPointLines wayPointSize
    readable.own readable.room).mpr readable.stop

/-- Every way point is stored. -/
theorem WayPointsReadable.stored (readable : WayPointsReadable file) (frame : Frame P)
    (locals : Locals) (w : WayPoints P Number) (k : Nat) (line : List Char)
    (here : (wayPointLines file)[k]? = some line) :
    (readUserMotionInLLH frame locals w (some file)).1.xyzWayPoint k =
        frame.llh2xyz (geodetic line) ∧
      (readUserMotionInLLH frame locals w (some file)).1.durationWayPoint k =
        minutes line * 60 := by
  rcases readUserMotionInLLH_spec frame locals w readable.some_char with ⟨-, stored, -⟩
  rw [readable.length] at stored
  have below := (List.getElem?_eq_some_iff.mp here).1
  obtain ⟨part, found, same, full⟩ :=
    (readable.own k below).piece (wayPointLines_isPrefix file) four_of_mem_wayPointLines here
  have scanned : (turns wayPointSize ((pieces maxChar file).drop 1))[k]? = some part := by
    rw [turns_getElem? (by rw [readable.length]; exact below), List.getElem?_drop, found]
  have row := stored k below
  simp only [known_of_four scanned full (show 0 < 4 by decide),
    known_of_four scanned full (show 1 < 4 by decide),
    known_of_four scanned full (show 2 < 4 by decide),
    known_of_four scanned full (show 3 < 4 by decide), same] at row
  exact row

/-- The way points of a readable file are its leading lines. -/
theorem WayPointsReadable.read (readable : WayPointsReadable file) (locals : Locals)
    (w : WayPoints P Number) :
    WayPointsRead frame file (readUserMotionInLLH frame locals w (some file)) := by
  rcases readUserMotionInLLH_spec frame locals w readable.some_char with ⟨count, -, returned⟩
  rw [readable.length] at count
  have stored := readable.stored frame locals w
  have positive := List.length_pos_of_ne_nil readable.some_line
  have index : durationIndex (readUserMotionInLLH frame locals w (some file)).1 =
      ((wayPointLines file).length - 1 : Nat) := by
    rw [durationIndex, count]
    omega
  refine ⟨fun empty => absurd empty readable.some_line, fun _ => count, readable.own, stored,
    ?_, ?_⟩
  · intro line last
    obtain ⟨t, time, fits⟩ := readable.time line last
    have converted := toInt_time_iff.mpr ⟨t, time, fits, rfl⟩
    rw [List.getLast?_eq_getElem?] at last
    rw [returned, index, (stored _ line last).2]
    exact ⟨_, converted, converted⟩
  · rw [index, count]
    omega

/-- A file whose leading lines are read is readable. -/
theorem WayPointsRead.readable (some_char : file ≠ []) (some_line : wayPointLines file ≠ [])
    (read : WayPointsRead frame file (readUserMotionInLLH frame locals w (some file))) :
    WayPointsReadable file := by
  rcases readUserMotionInLLH_spec frame locals w some_char with ⟨count, -, -⟩
  have length : (turns wayPointSize ((pieces maxChar file).drop 1)).length =
      (wayPointLines file).length :=
    Nat.cast_injective (count.symm.trans (read.count some_line))
  have room : (wayPointLines file).length ≤ wayPointSize := by
    rw [← length]
    exact turns_length_le
  rcases (forall_fromOwnLine_iff .blank (wayPointLines_isPrefix file)).mp read.own with
    ⟨fits, same⟩
  rw [Nat.add_sub_cancel_left] at fits
  have stop := (turns_length_eq_lead_iff (wayPointLines_isPrefix file) four_of_mem_wayPointLines
    wayPointSize read.own room).mp length
  refine ⟨some_line, room, fits some_line, same, stop, fun line last => ?_⟩
  obtain ⟨numd, converted, -⟩ := read.returned line last
  obtain ⟨t, time, inside, -⟩ := toInt_time_iff.mp converted
  exact ⟨t, time, inside⟩

/-! ### An error by chance -/

/-- What makes the caller see an error, if no way point is there but some turn. -/
theorem motionError_returns_iff (frame : Frame P) (locals : Locals) (w : WayPoints P Number)
    (some_char : file ≠ []) (some_turn : turns wayPointSize ((pieces maxChar file).drop 1) ≠ []) :
    (∃ numd, (readUserMotionInLLH frame locals w (some file)).2 = some numd ∧
        (motionError numd).isSome) ↔
      ∃ t, (lastTime (turns wayPointSize ((pieces maxChar file).drop 1))).getD (locals.vars 3) =
        .finite t ∧ -2 < t * 600 ∧ t * 600 < 1 := by
  rw [readUserMotionInLLH_returns frame locals w some_char some_turn]
  constructor
  · intro ⟨numd, returned, error⟩
    obtain ⟨t, time, -, rfl⟩ := toInt_time_iff.mp returned
    exact ⟨t, time, (motionError_trunc_iff _).mp error⟩
  · intro ⟨t, time, near⟩
    have fits : -2 ^ 31 - 1 < t * 600 ∧ t * 600 < 2 ^ 31 := by
      constructor <;> linarith
    exact ⟨_, toInt_time_iff.mpr ⟨t, time, fits, rfl⟩, (motionError_trunc_iff _).mpr near⟩

/-- A last time near zero makes the caller see an error. -/
theorem ErrsByChance.read (chance : ErrsByChance file) (locals : Locals) (w : WayPoints P Number) :
    WayPointsRead frame file (readUserMotionInLLH frame locals w (some file)) := by
  rcases chance with ⟨empty, t, time, near⟩
  have some_turn : turns wayPointSize ((pieces maxChar file).drop 1) ≠ [] := by
    intro none_left
    rw [none_left] at time
    cases time
  have some_char : file ≠ [] := by
    rintro rfl
    exact some_turn rfl
  have positive := List.length_pos_of_ne_nil some_turn
  rcases readUserMotionInLLH_spec frame locals w some_char with ⟨count, -, -⟩
  have known : (lastTime (turns wayPointSize ((pieces maxChar file).drop 1))).getD
      (locals.vars 3) = .finite t := by
    rw [Option.mem_def.mp time, Option.getD_some]
  obtain ⟨numd, returned, error⟩ :=
    (motionError_returns_iff frame locals w some_char some_turn).mpr ⟨t, known, near⟩
  refine ⟨fun _ => ⟨numd, motionError_nonpos error, returned, error⟩,
    fun some_line => absurd empty some_line, ?_, ?_, ?_, ?_⟩
  · intro k below
    rw [empty] at below
    exact absurd below (Nat.not_lt_zero k)
  · intro k line here
    rw [empty] at here
    cases here
  · intro line last
    rw [empty] at last
    cases last
  · rw [durationIndex, count]
    omega

end WayPoints

end Navisim.Motion

import Navisim.Lib.Assignment
import Navisim.Loop.Blocks
import Navisim.Loop.RealTime
import Navisim.Rtcm.History

/-!
# Reads of unassigned memory

The arrays of `runCore_realTime` are local and start with whatever was there before.  Who assigns
what: the reception the flags of the satellites it stores, in the first set only; the loop the
positions of the steps that lie on the way; and nothing the flag of the ionosphere record.
`accesses` lists the assignments and the reads of a whole run, and `definite_accesses_iff` says
when each read comes behind an assignment.
-/

namespace Navisim.Loop

open Signal Rinex Assignment Rtcm

/-! ## What the reception assigns -/

/-- The index at which a message is stored. -/
def storedIndex (m : Message) : Option Int :=
  if Stores m then some ((getbitu m.1 (24 + 12) 6).toNat - 1) else none

/-- The index at which a frame is stored. -/
def storedSat (frame : List (BitVec 8) × Int) : Option Int :=
  storedIndex (toBuffer frame.1, frame.2)

/-- The entries of the first set that have been stored. -/
def storedSats (d : Delivery) : List Int :=
  d.frames.filterMap storedSat

section Stored

variable {sqrt : ℚ → ℚ} {d d' : Delivery} {m : Message}

theorem toBuffer_messageFrame {j : Nat} (inside : j < m.2.toNat + 3) :
    toBuffer (messageFrame m).1 j = m.1 j := by
  rw [toBuffer, messageFrame, List.getD_eq_getElem?_getD, List.getElem?_map,
    List.getElem?_range inside]
  rfl

/-- Only the first bytes of a message that is long enough matter. -/
theorem storedIndex_congr {buffer buffer' : Buffer} {len : Int}
    (same : 512 ≤ len * 8 → ∀ j < 10, buffer j = buffer' j) :
    storedIndex (buffer, len) = storedIndex (buffer', len) := by
  by_cases long : 512 ≤ len * 8
  · have bytes : buffer.first 10 = buffer'.first 10 := Buffer.first_congr (same long)
    have field (pos width : Nat) (inside : pos + width ≤ 8 * 10) :
        getbitu buffer pos width = getbitu buffer' pos width := by
      rw [← getbitu_first _ 10 inside, bytes, getbitu_first _ 10 inside]
    have stores : Stores (buffer, len) ↔ Stores (buffer', len) := by
      rw [Stores, Stores, field 24 12 (by decide), field (24 + 12) 6 (by decide)]
    simp only [storedIndex, stores, field (24 + 12) 6 (by decide)]
  · have passes (buffer : Buffer) : ¬ Stores (buffer, len) :=
      fun stores => long stores.2.1
    rw [storedIndex, if_neg (passes buffer), storedIndex, if_neg (passes buffer')]

/-- A frame is stored where its message was. -/
theorem storedSat_messageFrame (m : Message) : storedSat (messageFrame m) = storedIndex m :=
  storedIndex_congr fun long j inside => toBuffer_messageFrame (by
    change 512 ≤ m.2 * 8 at long
    omega)

/-- What a message does to the first set. -/
theorem decodeRtcm3_stored (sqrt : ℚ → ℚ) (eph : Table) (m : Message) :
    (decodeRtcm3 sqrt eph m.1 m.2).2.eph =
      match storedIndex m with
      | some sv => Function.update eph.eph sv (decodeEphem sqrt m.1)
      | none => eph.eph := by
  rw [decodeRtcm3_eq, storedIndex]
  by_cases stores : Stores m
  · rw [if_neg stores.whole, if_pos stores, if_pos stores]
  · rw [if_neg stores, if_neg stores]
    split <;> rfl

/-- Every entry that has been stored is valid. -/
def StoredValid (d : Delivery) : Prop :=
  ∀ sv ∈ storedSats d, (d.eph.eph sv).vflg = 1

theorem StoredValid.handMessage (valid : StoredValid d) (m : Message) :
    StoredValid (handMessage sqrt d m) := by
  have entries := decodeRtcm3_stored sqrt d.eph m
  intro sv member
  have frames : storedSats (Rtcm.handMessage sqrt d m) =
      storedSats d ++ (storedIndex m).toList := by
    change (d.frames ++ [messageFrame m]).filterMap storedSat = _
    rw [List.filterMap_append, ← storedSat_messageFrame]
    rfl
  change ((decodeRtcm3 sqrt d.eph m.1 m.2).2.eph sv).vflg = 1
  rw [frames, List.mem_append] at member
  cases stored : storedIndex m with
  | none =>
      rw [stored] at entries member
      rw [entries]
      exact valid sv (member.resolve_right (by simp))
  | some index =>
      rw [stored] at entries member
      rw [entries]
      dsimp only
      by_cases here : sv = index
      · rw [here, Function.update_self]
        rfl
      · rw [Function.update_of_ne here]
        refine valid sv (member.resolve_right fun new => here ?_)
        simpa using new

theorem StoredValid.handOver (valid : StoredValid d) (messages : List Message) :
    StoredValid (handOver sqrt messages d).1 := by
  induction messages generalizing d with
  | nil => exact valid
  | cons m rest ih =>
      rw [Rtcm.handOver]
      split
      · exact valid.handMessage m
      · exact ih (valid.handMessage m)

/-- **The reception** leaves every entry that it has stored valid. -/
theorem storedValid_getRtcm3Eph {eph : Table} {buff : Buffer} {lens : Nat → BitVec 32}
    {blocks : List (List (BitVec 8))} (received : getRtcm3Eph sqrt eph buff lens blocks = some d) :
    StoredValid d := by
  have fresh : StoredValid { nSV := 0, eph := eph, frames := [] } := by
    intro sv found
    cases found
  rw [getRtcm3Eph_eq, delivered] at received
  dsimp only at received
  split at received
  · cases received
    exact fresh.handOver _
  · cases received

end Stored

/-! ## The accesses of a run -/

/-- The cells of the local arrays, and the flag of the ionosphere record. -/
inductive Cell
  | vflg (i sv : Int)
  | xyz (iumd : Nat)
  | ionoVflg

/-- A search through a set reads the flags up to the entry that it finds. -/
def flagsUpTo (i : Int) (found : Option Nat) : List Cell :=
  match found with
  | some sv => (List.range (sv + 1)).map fun sv => .vflg i sv
  | none => (List.range maxSat).map fun sv => .vflg i sv

/-- The search for the first valid entry of a set. -/
def searchReads (eph : Int → Nat → Ephem ℚ) (i : Int) : List Cell :=
  flagsUpTo i (firstValid (eph i))

/-- The search for the current set, of which there is but one to look at. -/
def selectReads (eph : Int → Nat → Ephem ℚ) (g0 : GpsTime ℚ) : List Cell :=
  flagsUpTo 0 ((List.range maxSat).find? fun sv =>
    let dt := subGpsTime g0 (eph 0 sv).toc
    (eph 0 sv).vflg = 1 ∧ dt ≥ -secondsInHour ∧ dt < secondsInHour)

namespace Scenario

variable (sc : Scenario)

/-- An allocation is given a position, tests the flags of a set, and computes subframes and two
ranges for a satellite that gets a channel. -/
def allocationReads (ieph : Int) (grx : GpsTime ℚ) (iumd : Nat) (chan : Nat → Channel)
    (allocatedSat : Nat → Int) : List Cell :=
  .xyz iumd :: (List.range maxSat).flatMap fun sv =>
    let s := visitSats sc.orbits sc.lambda (sc.eph ieph) sc.ionoutc grx (sc.xyz iumd) sv
      { nsat := 0, chan := chan, allocatedSat := allocatedSat }
    .vflg ieph sv ::
      if checkSatVisibility sc.orbits (sc.eph ieph sv) grx (sc.xyz iumd) 0.0 = 1 ∧
          s.allocatedSat sv = -1 ∧ (freeChannel s.chan).isSome then
        [.ionoVflg, .ionoVflg, .ionoVflg]
      else []

/-- The first allocation. -/
def startReads : List Cell :=
  sc.allocationReads sc.ieph (incGpsTime sc.g0 0.0) 0
    (eachChannel (fun chan => { chan with prn := 0 }) sc.chan) (fun _ => -1)

/-- The block that follows `n` blocks. -/
def blockReads (n : Nat) : List Cell :=
  let s := sc.gen n
  -- Current pseudorange
  ((List.range maxChan).flatMap fun i =>
    if (s.chan i).prn > 0 then [.xyz (n + 1), .ionoVflg] else []) ++
  if sc.renews n then
    -- Refresh ephemeris and subframes
    searchReads sc.eph (s.ieph + 1) ++
    ((List.range maxChan).flatMap fun i =>
      if sc.nextIsDue s.ieph s.grx ∧ (sc.sampled n iqBuffSize i).prn ≠ 0 then [.ionoVflg]
      else []) ++
    -- Update channel allocation
    let s := beforeAllocation sc n
    sc.allocationReads s.ieph s.grx (n + 1) s.chan s.allocatedSat
  else []

end Scenario

namespace RealTimeInputs

variable (inputs : RealTimeInputs)

/-- A block assigns its position if it lies on the way. -/
def blockAccesses (sc : Scenario) (n : Nat) : List (Access Cell) :=
  (match segment inputs.motion.1 (0.1 * (n + 1 : Nat) : ℚ) with
    | some _ => [.assign (.xyz (n + 1))]
    | none => []) ++ (sc.blockReads n).map .read

/-- What happens behind the start-up. -/
def loopAccesses (numd : Int) (start : Started) : List (Access Cell) :=
  if ¬ inputs.allocated ∨ ¬ inputs.opened then []
  else
    let sc := inputs.scenario start
    sc.startReads.map .read ++ (List.range (numd - 1).toNat).flatMap (inputs.blockAccesses sc)

/-- What happens behind the reception.  The flag of the ionosphere record is not looked at first,
as `verb` is not set. -/
def startAccesses (numd : Int) (d : Delivery) : List (Access Cell) :=
  let eph := inputs.table d
  let g0 := firstTime (eph 0) inputs.memory.gmin
  (searchReads eph 0 ++ searchReads eph (neph - 1) ++ selectReads eph g0).map .read ++
    match realTimeStart inputs.now.t inputs.memory eph with
    | none => []
    | some start => inputs.loopAccesses numd start

/-- The assignments and reads of the run. -/
def accesses : List (Access Cell) :=
  match inputs.numd with
  | none => []
  | some numd =>
      match inputs.received with
      | none => [.stray]
      | some d =>
          ((storedSats d).map (Cell.vflg 0)).map .assign ++ inputs.startAccesses numd d

end RealTimeInputs

/-! ## When the reads are definite -/

section Reads

variable {inputs : RealTimeInputs} {d : Delivery} {numd : Int}

/-- A search looks at the first satellite, whatever it finds. -/
theorem flagsUpTo_cons (i : Int) (found : Option Nat) :
    ∃ rest, flagsUpTo i found = .vflg i 0 :: rest := by
  cases found with
  | none => exact ⟨_, rfl⟩
  | some sv =>
      rw [flagsUpTo, List.range_succ_eq_map]
      exact ⟨_, rfl⟩

/-- A valid flag of the first satellite ends the searches. -/
theorem firstValid_zero {eph : Nat → Ephem ℚ} (valid : (eph 0).vflg = 1) :
    firstValid eph = some 0 := by
  rw [firstValid, maxSat, List.range_succ_eq_map]
  exact List.find?_cons_of_pos (decide_eq_true valid)

theorem selectReads_zero {eph : Int → Nat → Ephem ℚ} (valid : (eph 0 0).vflg = 1) :
    selectReads eph (eph 0 0).toc = [.vflg 0 0] := by
  have current : decide ((eph 0 0).vflg = 1 ∧
      subGpsTime (eph 0 0).toc (eph 0 0).toc ≥ -secondsInHour ∧
      subGpsTime (eph 0 0).toc (eph 0 0).toc < secondsInHour) = true := by
    rw [decide_eq_true_iff, subGpsTime_eq, sub_self, seconds_eq.2.1]
    exact ⟨valid, by norm_num, by norm_num⟩
  rw [selectReads, maxSat, List.range_succ_eq_map, List.find?_cons]
  dsimp only
  rw [current]
  rfl

/-- Every time of the clock can be converted. -/
theorem requestOption_utc (now : UtcTime) : ∃ opt, requestOption now.t = some opt := by
  obtain ⟨first, last⟩ := now.month
  have month : ∃ days, daysBefore now.t.m = some days := by
    rw [daysBefore, if_pos first]
    exact ⟨_, List.getElem?_eq_getElem (show (now.t.m - 1).toNat < 12 by omega)⟩
  obtain ⟨days, found⟩ := month
  rw [requestOption, date2gps, found]
  exact ⟨_, rfl⟩

/-- What has been received is valid. -/
theorem storedValid_received (received : inputs.received = some d) : StoredValid d := by
  rw [RealTimeInputs.received] at received
  split at received
  · exact storedValid_getRtcm3Eph received
  · cases received
    intro sv found
    cases found

/-- The first read of the table is that of the first satellite's flag. -/
theorem accesses_first (motion : inputs.numd = some numd) (received : inputs.received = some d) :
    ∃ rest, inputs.accesses =
      ((storedSats d).map (Cell.vflg 0)).map .assign ++ .read (.vflg 0 0) :: rest := by
  obtain ⟨rest, first⟩ := flagsUpTo_cons 0 (firstValid (inputs.table d 0))
  rw [RealTimeInputs.accesses, motion, received]
  dsimp only
  rw [RealTimeInputs.startAccesses, searchReads, first]
  exact ⟨_, rfl⟩

/-- With the first satellite received, its flag is all that the start-up looks at. -/
theorem accesses_of_stored (motion : inputs.numd = some numd) (received : inputs.received = some d)
    (stored : 0 ∈ storedSats d) :
    ∃ start, inputs.accesses = ((storedSats d).map (Cell.vflg 0)).map .assign ++
      ([Cell.vflg 0 0, .vflg 0 0, .vflg 0 0].map .read ++ inputs.loopAccesses numd start) := by
  have valid : (inputs.table d 0 0).vflg = 1 := storedValid_received received 0 stored
  have found := firstValid_zero valid
  have search : searchReads (inputs.table d) 0 = [.vflg 0 0] := by
    rw [searchReads, found]
    rfl
  have first : firstTime (inputs.table d 0) inputs.memory.gmin = (inputs.table d 0 0).toc := by
    rw [firstTime, found]
  obtain ⟨opt, requested⟩ := requestOption_utc inputs.now
  rw [RealTimeInputs.accesses, motion, received]
  dsimp only
  rw [RealTimeInputs.startAccesses, first, show neph - 1 = 0 from rfl, search,
    selectReads_zero valid, realTimeStart_of_firstValid found requested]
  exact ⟨_, rfl⟩

/-- A run that gets as far as the first allocation gives it the first position. -/
theorem loopAccesses_cons (allocated : inputs.allocated = true) (opened : inputs.opened = true)
    (numd : Int) (start : Started) :
    ∃ rest, inputs.loopAccesses numd start = .read (.xyz 0) :: rest := by
  rw [RealTimeInputs.loopAccesses, allocated, opened]
  exact ⟨_, rfl⟩

end Reads

/-- **When only assigned state is read.**  For every motion file, every stream and every memory, the
flags, the positions and the ionosphere record are read only after they have been assigned, exactly
if the run stops at its motion file, or stops for want of a buffer or an output file after it has
received the first satellite. -/
theorem definite_accesses_iff (inputs : RealTimeInputs) :
    Definite ∅ inputs.accesses ↔ inputs.numd = none ∨ ∃ d, inputs.received = some d ∧
      0 ∈ storedSats d ∧ (inputs.allocated = false ∨ inputs.opened = false) := by
  rcases motion : inputs.numd with _ | numd
  · rw [RealTimeInputs.accesses, motion]
    exact iff_of_true trivial (Or.inl rfl)
  rcases received : inputs.received with _ | d
  · rw [RealTimeInputs.accesses, motion, received]
    apply iff_of_false id
    intro cause
    rcases cause with stops | ⟨d, none, -⟩
    · cases stops
    · cases none
  constructor
  · intro definite
    refine Or.inr ⟨d, rfl, ?_⟩
    have stored : 0 ∈ storedSats d := by
      obtain ⟨rest, first⟩ := accesses_first motion received
      rw [first] at definite
      rcases definite.read with known | assigned
      · cases known
      · simpa using assigned
    refine ⟨stored, ?_⟩
    by_contra both
    rw [not_or, Bool.not_eq_false, Bool.not_eq_false] at both
    obtain ⟨start, begins⟩ := accesses_of_stored motion received stored
    obtain ⟨rest, position⟩ := loopAccesses_cons both.1 both.2 numd start
    rw [begins, position, ← List.append_assoc] at definite
    rcases definite.read with known | assigned
    · cases known
    · simp at assigned
  · intro cause
    rcases cause with stops | ⟨d', same, stored, fails⟩
    · cases stops
    · cases same
      obtain ⟨start, begins⟩ := accesses_of_stored motion received stored
      have ends : inputs.loopAccesses numd start = [] := by
        rw [RealTimeInputs.loopAccesses, if_pos]
        rcases fails with allocated | opened
        · exact Or.inl (by rw [allocated]; exact Bool.false_ne_true)
        · exact Or.inr (by rw [opened]; exact Bool.false_ne_true)
      rw [begins, ends, List.append_nil]
      refine definite_append.mpr ⟨definite_assigns _, definite_reads.mpr fun cell member => ?_⟩
      have only : cell = .vflg 0 0 := by simpa using member
      rw [only]
      exact mem_assigned_assigns.mpr (Or.inr (List.mem_map_of_mem stored))

/-- One way point, to be reached after a minute, and a caster that does not answer. -/
def noCaster : RealTimeInputs where
  now := { t := halfPastTwo, month := by decide }
  umfile := some "heading\n21 105 10 1\n".toList
  frame := {
    ecef := fun x => (x.1.toRat, x.2.1.toRat, x.2.2.toRat)
    llh2xyz := fun x => (x.1.toRat, x.2.1.toRat, x.2.2.toRat) }
  locals := { str := [], vars := fun _ => 0, numd := 0 }
  wayPoints := { xyzWayPoint := fun _ => (0, 0, 0), durationWayPoint := fun _ => 0, nWayPoint := 0 }
  overflow := 0
  connected := false
  blocks := []
  sqrt := id
  buff _ := 0
  lens _ := 0
  nSV := 0
  allocated := true
  opened := true
  memory := unassigned
  eph _ _ := Nav.sampleEphem
  xyz _ := (0, 0, 0)
  orbits := overhead
  antPat _ := 1
  chan _ := idleChannel fun _ _ => 0
  gain _ := 0

/-- **Without a caster the flags are read as they are found**: the first access of the run is the
read of one that nothing has assigned. -/
theorem unassigned_flag_read : ¬ Definite ∅ noCaster.accesses ∧
    ∃ rest, noCaster.accesses = .read (.vflg 0 0) :: rest := by
  have motion : noCaster.numd = some 600 := by decide +kernel
  obtain ⟨rest, first⟩ := accesses_first motion (show noCaster.received = some _ from rfl)
  change noCaster.accesses = .read (.vflg 0 0) :: rest at first
  refine ⟨fun definite => ?_, rest, first⟩
  rw [first] at definite
  exact definite.1

end Navisim.Loop

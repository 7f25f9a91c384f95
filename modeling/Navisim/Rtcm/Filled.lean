import Mathlib.Data.Finset.Interval
import Navisim.Rtcm.Effect

/-!
# Is the table full when the loop stops?

The count that stops the receive loop is one of messages, and it goes on from call to call, while
it is compared with the number of satellites.  When a call stops for its count, the table is full
of its messages exactly if the count was zero before it and the first 32 ephemerides are for
different satellites (`filled_iff`).
-/

namespace Navisim.Rtcm

/-- The satellite of an ephemeris message. -/
def satellite (m : Message) : Nat :=
  messageField m.1 36 6

/-- The satellites of the ephemerides that are stored, in order. -/
def satellites (messages : List Message) : List Nat :=
  (messages.filter Stores).map satellite

/-- A message that is not truncated lets the count, which was `c` before, reach the number of
satellites. -/
def Reaches (c : Nat) (messages : List Message) : Prop :=
  ∃ before m after, messages = before ++ m :: after ∧ ¬ Truncated m ∧
    maxSat ≤ c + stored (before ++ [m])

/-- The count starts at zero, and the first ephemerides are for different satellites of the
table. -/
def FillsTable (c : Nat) (messages : List Message) : Prop :=
  c = 0 ∧ ((satellites messages).take maxSat).Nodup ∧ 0 ∉ (satellites messages).take maxSat

/-- Every entry of the first set comes from a message that the call has handed over. -/
def EphCall.Filled (sqrt : ℚ → ℚ) (call : EphCall) (d : Delivery) : Prop :=
  ∀ sat, 1 ≤ sat → sat ≤ maxSat →
    ∃ m ∈ call.messages.1.take d.frames.length, Stores m ∧ satellite m = sat ∧
      d.eph.eph ((sat : Int) - 1) = decodeEphem sqrt m.1

section Lists

variable {messages more : List Message} {m : Message}

theorem length_satellites (messages : List Message) :
    (satellites messages).length = stored messages := by
  rw [satellites, List.length_map, stored, List.countP_eq_length_filter]

theorem satellites_append (messages more : List Message) :
    satellites (messages ++ more) = satellites messages ++ satellites more := by
  rw [satellites, List.filter_append, List.map_append]
  rfl

theorem stored_append (messages more : List Message) :
    stored (messages ++ more) = stored messages + stored more :=
  List.countP_append ..

theorem stored_singleton_le (m : Message) : stored [m] ≤ 1 :=
  List.countP_le_length

theorem mem_satellites {sat : Nat} :
    sat ∈ satellites messages ↔ ∃ m ∈ messages, Stores m ∧ satellite m = sat := by
  rw [satellites, List.mem_map]
  constructor
  · intro stored
    rcases stored with ⟨m, member, same⟩
    obtain ⟨member, stores⟩ := List.mem_filter.mp member
    exact ⟨m, member, by simpa using stores, same⟩
  · intro stored
    rcases stored with ⟨m, member, stores, same⟩
    exact ⟨m, List.mem_filter.mpr ⟨member, by simpa using stores⟩, same⟩

theorem satellite_le (stores : Stores m) : satellite m ≤ maxSat :=
  (stores_iff.mp stores).2.2

/-- A list that has every satellite covers the table. -/
theorem table_subset {sats : List Nat} (all : ∀ sat, 1 ≤ sat → sat ≤ maxSat → sat ∈ sats) :
    Finset.Icc 1 maxSat ⊆ sats.toFinset := by
  intro sat member
  obtain ⟨lower, upper⟩ := Finset.mem_Icc.mp member
  exact List.mem_toFinset.mpr (all sat lower upper)

theorem maxSat_le_length {sats : List Nat} (all : ∀ sat, 1 ≤ sat → sat ≤ maxSat → sat ∈ sats) :
    maxSat ≤ sats.length := by
  have card := Finset.card_le_card (table_subset all)
  rw [Nat.card_Icc, Nat.add_sub_cancel] at card
  exact card.trans sats.toFinset_card_le

/-- **As many satellites as the table has** are all of them exactly if they are different ones of
it. -/
theorem all_satellites_iff {sats : List Nat} (length : sats.length = maxSat)
    (bound : ∀ sat ∈ sats, sat ≤ maxSat) :
    (∀ sat, 1 ≤ sat → sat ≤ maxSat → sat ∈ sats) ↔ sats.Nodup ∧ 0 ∉ sats := by
  have table : (Finset.Icc 1 maxSat).card = maxSat := by decide
  constructor
  · intro all
    have card : sats.toFinset.card ≤ maxSat := length ▸ sats.toFinset_card_le
    have same := Finset.eq_of_subset_of_card_le (table_subset all) (by omega)
    constructor
    · rw [← Multiset.coe_nodup, ← Multiset.toFinset_card_eq_card_iff_nodup]
      change sats.toFinset.card = sats.length
      rw [← same, table, length]
    · intro zero
      rw [← List.mem_toFinset, ← same] at zero
      exact absurd (Finset.mem_Icc.mp zero).1 (by decide)
  · intro both sat lower upper
    rcases both with ⟨different, known⟩
    have inside : sats.toFinset ⊆ Finset.Icc 1 maxSat := by
      intro sat member
      rw [List.mem_toFinset] at member
      have nonzero : sat ≠ 0 := fun zero => known (zero ▸ member)
      exact Finset.mem_Icc.mpr ⟨by omega, bound sat member⟩
    have card : sats.toFinset.card = maxSat := by
      rw [List.toFinset_card_of_nodup different, length]
    have same := Finset.eq_of_subset_of_card_le inside (by omega)
    rw [← List.mem_toFinset, same]
    exact Finset.mem_Icc.mpr ⟨lower, upper⟩

end Lists

/-! ## The messages up to the stop -/

section Stops

variable {sqrt : ℚ → ℚ} {d d' : Delivery} {messages before after : List Message} {c : Nat}

theorem foldl_handMessage_frames (messages : List Message) :
    (messages.foldl (handMessage sqrt) d).frames = d.frames ++ messages.map messageFrame := by
  induction messages generalizing d with
  | nil => exact (List.append_nil _).symm
  | cons m rest ih =>
      rw [List.foldl_cons, ih, List.map_cons]
      exact List.append_assoc ..

/-- The entry of a satellite is that of one of its messages. -/
theorem foldl_handMessage_eph {sat : Nat} (member : sat ∈ satellites messages) :
    ∃ m ∈ messages, Stores m ∧ satellite m = sat ∧
      (messages.foldl (handMessage sqrt) d).eph.eph ((sat : Int) - 1) = decodeEphem sqrt m.1 := by
  induction messages using List.reverseRecOn with
  | nil => exact absurd member (List.not_mem_nil)
  | append_singleton messages m ih =>
      have table := decodeRtcm3_table sqrt (messages.foldl (handMessage sqrt) d).eph m.1 m.2
      rw [List.foldl_append, List.foldl_cons, List.foldl_nil, handMessage]
      dsimp only
      rw [table]
      by_cases here : Stores m ∧ satellite m = sat
      · obtain ⟨stores, rfl⟩ := here
        refine ⟨m, by simp, stores, rfl, ?_⟩
        rw [if_pos stores]
        exact Function.update_self ..
      · have earlier : sat ∈ satellites messages := by
          rw [satellites_append, List.mem_append] at member
          rcases member with earlier | last
          · exact earlier
          · obtain ⟨m', only, stores, same⟩ := mem_satellites.mp last
            obtain rfl := List.mem_singleton.mp only
            exact absurd ⟨stores, same⟩ here
        obtain ⟨m', member', stores', same', entry⟩ := ih earlier
        refine ⟨m', by simp [member'], stores', same', ?_⟩
        rw [← entry]
        split
        · rename_i stores
          rw [Function.update_of_ne]
          intro place
          have sat' : satellite m = sat := by
            rw [satellite]
            omega
          exact here ⟨stores, sat'⟩
        · rfl

/-! ### Reaching the number of satellites -/

theorem not_reaches_nil : ¬ Reaches c [] := by
  intro reaches
  rcases reaches with ⟨before, m, after, split, -⟩
  exact absurd split (by simp)

/-- The number is reached at the first message, or later. -/
theorem Reaches.of_cons {m : Message} (reaches : Reaches c (m :: messages)) :
    (¬ Truncated m ∧ maxSat ≤ c + stored [m]) ∨ Reaches (c + stored [m]) messages := by
  rcases reaches with ⟨before, m', after, split, whole, reached⟩
  cases before with
  | nil =>
      obtain ⟨rfl, rfl⟩ := List.cons.inj split
      exact Or.inl ⟨whole, reached⟩
  | cons first before =>
      obtain ⟨rfl, rfl⟩ := List.cons.inj split
      refine Or.inr ⟨before, m', after, rfl, whole, ?_⟩
      rw [List.cons_append, stored_cons] at reached
      omega

/-- Once reached, the number stays reached. -/
theorem Reaches.append (reaches : Reaches c messages) (more : List Message) :
    Reaches c (messages ++ more) := by
  rcases reaches with ⟨before, m, after, rfl, whole, reached⟩
  exact ⟨before, m, after ++ more, by simp, whole, reached⟩

/-- The first message at which the count reaches the number of satellites. -/
structure StopsAt (c : Nat) (messages before : List Message) (m : Message)
    (after : List Message) : Prop where
  split : messages = before ++ m :: after
  whole : ¬ Truncated m
  reached : maxSat ≤ c + stored (before ++ [m])
  first : ¬ Reaches c before

/-- **Where a call stops**, and what it has left. -/
theorem handOver_cases (sqrt : ℚ → ℚ) (messages : List Message) (count : d.eph.nSV = c)
    (running : ¬ d.nSV ≥ maxSat) :
    (∃ before m after, StopsAt c messages before m after ∧
      ((before ++ [m]).foldl (handMessage sqrt) d).nSV ≥ maxSat ∧
      handOver sqrt messages d = ((before ++ [m]).foldl (handMessage sqrt) d, true)) ∨
    ¬ Reaches c messages ∧ ¬ (messages.foldl (handMessage sqrt) d).nSV ≥ maxSat ∧
      handOver sqrt messages d = (messages.foldl (handMessage sqrt) d, false) := by
  induction messages generalizing d c with
  | nil =>
      exact Or.inr ⟨not_reaches_nil, running, rfl⟩
  | cons m rest ih =>
      have count' : (handMessage sqrt d m).eph.nSV = ((c + stored [m] : Nat) : Int) := by
        rw [handMessage_count, count]
        push_cast
        rfl
      have stops := handMessage_stops sqrt d m
      rw [count'] at stops
      rw [handOver]
      by_cases stopped : (handMessage sqrt d m).nSV ≥ maxSat
      · obtain ⟨whole, reached⟩ := stops.mp stopped
        rw [if_pos stopped]
        exact Or.inl ⟨[], m, rest, ⟨rfl, whole, by exact_mod_cast reached, not_reaches_nil⟩,
          stopped, rfl⟩
      · have here : ¬ (¬ Truncated m ∧ maxSat ≤ c + stored [m]) := by
          intro both
          rcases both with ⟨whole, reached⟩
          exact stopped (stops.mpr ⟨whole, by exact_mod_cast reached⟩)
        rw [if_neg stopped]
        rcases ih count' stopped with
          ⟨before, m', after, at', later, handed⟩ | ⟨never, going, handed⟩
        · refine Or.inl ⟨m :: before, m', after, ⟨by rw [at'.split]; rfl, at'.whole, ?_, ?_⟩, later,
            handed⟩
          · have reached := at'.reached
            rw [List.cons_append, stored_cons]
            omega
          · exact fun reaches => reaches.of_cons.elim here at'.first
        · exact Or.inr ⟨fun reaches => reaches.of_cons.elim here never, going, handed⟩

/-- Before a call stops it has counted too little, or stored nothing. -/
theorem stored_of_not_reaches (never : ¬ Reaches c messages) :
    c + stored messages < maxSat ∨ stored messages = 0 := by
  induction messages using List.reverseRecOn with
  | nil => exact Or.inr rfl
  | append_singleton messages m ih =>
      have earlier : ¬ Reaches c messages := fun reaches => never (reaches.append [m])
      by_cases stores : Stores m
      · refine Or.inl (not_le.mp fun reached => ?_)
        exact never ⟨messages, m, [], rfl, stores.whole, reached⟩
      · have none : stored [m] = 0 := by
          rw [stored, List.countP_singleton, if_neg (by simpa)]
        rw [stored_append, none]
        exact ih earlier

/-- **How much a call has stored when it stops**: enough for the table only if the count started at
zero, and then just enough. -/
theorem StopsAt.stored {m : Message} (stops : StopsAt c messages before m after) :
    (c = 0 → stored (before ++ [m]) = maxSat) ∧ (c ≠ 0 → stored (before ++ [m]) < maxSat) := by
  have reached := stops.reached
  have last := stored_singleton_le m
  have early := stored_of_not_reaches stops.first
  rw [stored_append] at reached ⊢
  have positive : maxSat = 32 := rfl
  omega

end Stops

/-! ## Full tables -/

section Calls

variable {sqrt : ℚ → ℚ} {call : EphCall} {c : Nat}

/-- The entries are filled exactly by the satellites of the messages that were handed over. -/
theorem filled_of_stop {before after : List Message} {m : Message} {start : Delivery}
    (none : start.frames = []) (split : call.messages.1 = before ++ m :: after) :
    call.Filled sqrt ((before ++ [m]).foldl (handMessage sqrt) start) ↔
      ∀ sat, 1 ≤ sat → sat ≤ maxSat → sat ∈ satellites (before ++ [m]) := by
  have handed : call.messages.1.take
      ((before ++ [m]).foldl (handMessage sqrt) start).frames.length = before ++ [m] := by
    rw [foldl_handMessage_frames, none, List.nil_append, List.length_map, split,
      List.append_cons before m after, List.take_left]
  unfold EphCall.Filled
  rw [handed]
  refine forall_congr' fun sat => forall_congr' fun _ => forall_congr' fun _ => ?_
  constructor
  · intro filled
    rcases filled with ⟨m', member, stores, same, -⟩
    exact mem_satellites.mpr ⟨m', member, stores, same⟩
  · intro member
    exact foldl_handMessage_eph member

/-- **When a stop for the count means a full table**: the call finds a count of `c`. -/
theorem filled_iff (sqrt : ℚ → ℚ) (call : EphCall) (c : Nat) :
    (∀ d, call.run sqrt c = some d → d.nSV ≥ maxSat → call.Filled sqrt d) ↔
      (Reaches c call.messages.1 → FillsTable c call.messages.1) := by
  let start : Delivery := { nSV := 0, eph := { eph := call.eph, nSV := c }, frames := [] }
  have run : call.run sqrt c = delivered sqrt call.messages start :=
    getRtcm3Eph_eq sqrt _ call.buff call.lens call.blocks
  have running : ¬ start.nSV ≥ maxSat := by
    simp [start, maxSat]
  rcases handOver_cases (d := start) sqrt call.messages.1 rfl running with
    ⟨before, m, after, stops, count, handed⟩ | ⟨never, going, handed⟩
  · have result : call.run sqrt c = some ((before ++ [m]).foldl (handMessage sqrt) start) := by
      rw [run, delivered, handed]
      simp
    have reaches : Reaches c call.messages.1 :=
      ⟨before, m, after, stops.split, stops.whole, stops.reached⟩
    obtain ⟨fresh, later⟩ := stops.stored
    have length := length_satellites (before ++ [m])
    have bound : ∀ sat ∈ satellites (before ++ [m]), sat ≤ maxSat := by
      intro sat member
      obtain ⟨m', -, stores, rfl⟩ := mem_satellites.mp member
      exact satellite_le stores
    have filled : (∀ d, call.run sqrt c = some d → d.nSV ≥ maxSat → call.Filled sqrt d) ↔
        ∀ sat, 1 ≤ sat → sat ≤ maxSat → sat ∈ satellites (before ++ [m]) := by
      have start_frames : start.frames = [] := rfl
      rw [← filled_of_stop start_frames stops.split]
      constructor
      · intro all
        exact all _ result count
      · intro here d ran _
        obtain rfl := Option.some.inj (result.symm.trans ran)
        exact here
    rw [filled]
    by_cases zero : c = 0
    · have enough := fresh zero
      have first : (satellites call.messages.1).take maxSat = satellites (before ++ [m]) := by
        rw [stops.split, List.append_cons, satellites_append, List.take_left' (by omega)]
      rw [all_satellites_iff (by omega) bound, ← first]
      exact ⟨fun both _ => ⟨zero, both⟩, fun fills => (fills reaches).2⟩
    · have few := later zero
      refine iff_of_false (fun all => ?_) fun fills => zero (fills reaches).1
      have enough := maxSat_le_length all
      omega
  · refine iff_of_true (fun d ran enough => ?_) fun reaches => absurd reaches never
    rw [run, delivered, handed] at ran
    dsimp only at ran
    split at ran
    · obtain rfl := Option.some.inj ran
      exact absurd enough going
    · exact absurd ran (by simp)

end Calls

/-! ## Repeated messages -/

/-- The messages of satellite 1 leave the other entries. -/
theorem deliverFrame_blankMessage_eph (sqrt : ℚ → ℚ) (d : Delivery) :
    (deliverFrame sqrt d blankMessage).eph.eph 1 = d.eph.eph 1 := by
  have sat : messageField (toBuffer blankMessage) 36 6 = 1 := by decide
  unfold deliverFrame
  dsimp only
  split
  · rfl
  · rw [decodeRtcm3_table, sat]
    split
    · exact Function.update_of_ne (by decide) _ _
    · rfl

theorem deliver_replicate_eph (sqrt : ℚ → ℚ) (eph : Table) (n : Nat) :
    (deliver sqrt eph (List.replicate n blankMessage).flatten).eph.eph 1 = eph.eph 1 := by
  unfold deliver
  rw [split_replicate]
  dsimp only
  induction n with
  | zero => rfl
  | succ n ih =>
      rw [List.replicate_succ', List.foldl_append, List.foldl_cons, List.foldl_nil,
        deliverFrame_blankMessage_eph, ih]

/-- **A full count and an empty table**: 32 messages of satellite 1 end the first call of a
process, and no entry but that of satellite 1 has been filled. -/
theorem firstCall_not_filled :
    ∃ d, firstCall.run id 0 = some d ∧ d.nSV ≥ maxSat ∧ ¬ firstCall.Filled id d := by
  have received := firstCall_run id
  have count := (deliver_replicate id sampleTable.eph (n := 32) (by decide)).1
  have other := deliver_replicate_eph id { eph := sampleTable.eph, nSV := 0 } 32
  refine ⟨_, received, by rw [count]; decide, fun filled => ?_⟩
  obtain ⟨m, -, -, -, entry⟩ := filled 2 (by decide) (by decide)
  have place : ((2 : Nat) : Int) - 1 = 1 := rfl
  rw [place, other] at entry
  have flag : (0 : Int) = 1 := congrArg Ephem.vflg entry
  exact absurd flag (by decide)

end Navisim.Rtcm

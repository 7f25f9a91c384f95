import Navisim.Lib.Gold
import Navisim.Signal.Tracking

/-!
# The codes of the satellites

The two registers of `codegen` go through all their states but one before they come back, so
that the codes are products of two maximal sequences.  A code correlates with itself in 1023; with
a shift of itself, and with any other code at any shift, it does so in -65, -1 or 63
(`codegen_correlation`).
-/

namespace Navisim.Signal

open Gold BitCount

/-! ## Packed registers -/

/-- One shift of a register of ten places, as a number: bit `9 - j` stands for place `j`. -/
def shiftPacked (feed : Nat → Bool) (x : Nat) : Nat :=
  x / 2 + 2 ^ 9 * (feed x).toNat

/-- `r1[2]*r1[9]` -/
def feedG1 (x : Nat) : Bool :=
  x.testBit 7 ^^ x.testBit 0

/-- `r2[1]*r2[2]*r2[5]*r2[7]*r2[8]*r2[9]` -/
def feedG2 (x : Nat) : Bool :=
  x.testBit 8 ^^ x.testBit 7 ^^ x.testBit 4 ^^ x.testBit 2 ^^ x.testBit 1 ^^ x.testBit 0

/-- The register before turn `i`. -/
def packed (feed : Nat → Bool) : Nat → Nat
  | 0 => 1023
  | i + 1 => shiftPacked feed (packed feed i)

/-- One of the next `n` turns fills the register `x` with ones again. -/
def comesBack (feed : Nat → Bool) : (n x : Nat) → Bool
  | 0, _ => false
  | n + 1, x => shiftPacked feed x == 1023 || comesBack feed n (shiftPacked feed x)

/-- What `n` turns put out from the register `x`, the first one in the lowest bit. -/
def putOut (feed : Nat → Bool) : (x n : Nat) → Nat
  | _, 0 => 0
  | x, n + 1 => 2 * putOut feed (shiftPacked feed x) n + x % 2

section Packed

variable {feed : Nat → Bool} {x i k n : Nat} {r : Nat → Int}

/-- The number holds the register. -/
def Packs (x : Nat) (r : Nat → Int) : Prop :=
  ∀ j < 10, r j = signs x (9 - j)

theorem shiftPacked_lt (fits : x < 2 ^ 10) : shiftPacked feed x < 2 ^ 10 := by
  have bit := (feed x).toNat_le
  unfold shiftPacked
  omega

theorem packed_lt (feed : Nat → Bool) (i : Nat) : packed feed i < 2 ^ 10 := by
  induction i with
  | zero => exact (by decide : 1023 < 2 ^ 10)
  | succ i ih => exact shiftPacked_lt ih

theorem testBit_shiftPacked (fits : x < 2 ^ 10) :
    (shiftPacked feed x).testBit k = if k < 9 then x.testBit (k + 1) else
      (feed x).toNat.testBit (k - 9) := by
  rw [shiftPacked, Nat.add_comm, Nat.testBit_two_pow_mul_add _ (by omega), Nat.testBit_div_two]

/-- A shift of the register is a shift of the number. -/
theorem Packs.shift (fits : x < 2 ^ 10) (packs : Packs x r) {c : Int}
    (fed : c = if feed x then -1 else 1) :
    Packs (shiftPacked feed x) fun j => if j = 0 then c else r (j - 1) := by
  intro j inside
  dsimp only
  unfold signs
  rw [testBit_shiftPacked fits]
  by_cases first : j = 0
  · subst first
    rw [if_pos rfl, if_neg (show ¬ 9 - 0 < 9 by omega), fed]
    cases feed x <;> decide
  · have place : 9 - j + 1 = 9 - (j - 1) := by omega
    rw [if_neg first, if_pos (show 9 - j < 9 by omega), packs (j - 1) (by omega), place]
    rfl

/-- A packed register gives the sequence behind it. -/
theorem packed_testBit (inside : k < 10) :
    (packed feed i).testBit k = (packed feed (i + k)).testBit 0 := by
  induction k generalizing i with
  | zero => rfl
  | succ k ih =>
      have here := ih (i := i + 1) (by omega)
      rw [packed, testBit_shiftPacked (packed_lt feed i), if_pos (by omega)] at here
      rw [here, Nat.add_right_comm, Nat.add_assoc]

theorem packed_add (i n : Nat) : packed feed (i + n) = (shiftPacked feed)^[n] (packed feed i) := by
  induction n with
  | zero => rfl
  | succ n ih => rw [Function.iterate_succ_apply', ← ih]; rfl

theorem packed_ne_of_comesBack (never : comesBack feed n (packed feed i) = false) :
    ∀ d < n, packed feed (i + d + 1) ≠ 1023 := by
  induction n generalizing i with
  | zero => exact fun d below => absurd below (Nat.not_lt_zero d)
  | succ n ih =>
      rw [comesBack, Bool.or_eq_false_iff, beq_eq_false_iff_ne] at never
      intro d below
      cases d with
      | zero => exact never.1
      | succ d =>
          have rest := ih (i := i + 1) never.2 d (by omega)
          rwa [Nat.add_right_comm i 1 d] at rest

theorem testBit_putOut (below : i < n) :
    (putOut feed x n).testBit i = ((shiftPacked feed)^[i] x).testBit 0 := by
  induction n generalizing x i with
  | zero => omega
  | succ n ih =>
      rw [putOut]
      cases i with
      | zero =>
          rw [Function.iterate_zero_apply, Nat.testBit_zero, Nat.testBit_zero]
          congr 1
          simp only [eq_iff_iff]
          omega
      | succ i =>
          have rest : (2 * putOut feed (shiftPacked feed x) n + x % 2) / 2 =
              putOut feed (shiftPacked feed x) n := by omega
          rw [Nat.testBit_succ, rest, ih (by omega), Function.iterate_succ_apply]

theorem putOut_lt (feed : Nat → Bool) (x n : Nat) : putOut feed x n < 2 ^ n := by
  induction n generalizing x with
  | zero => exact Nat.one_pos
  | succ n ih =>
      have rest := ih (shiftPacked feed x)
      rw [putOut, pow_succ]
      omega

end Packed

/-! ## The sequences -/

/-- `g1` -/
def g1 (i : Nat) : ℤˣ :=
  signs (packed feedG1 i) 0

/-- `g2` -/
def g2 (i : Nat) : ℤˣ :=
  signs (packed feedG2 i) 0

theorem xor_sign (a b : Bool) :
    (if (a ^^ b) then -1 else 1 : ℤ) = (if a then -1 else 1) * (if b then -1 else 1) := by
  cases a <;> cases b <;> rfl

/-- The registers of `codegen` are those that the numbers hold. -/
theorem registers_packed (i : Nat) :
    Packs (packed feedG1 i) (registers i).1 ∧ Packs (packed feedG2 i) (registers i).2 := by
  have value : ∀ x k, ((signs x k : ℤˣ) : ℤ) = if x.testBit k then -1 else 1 := by
    intro x k
    unfold signs
    split <;> rfl
  induction i with
  | zero =>
      constructor <;>
      · intro j inside
        interval_cases j <;> decide
  | succ i ih =>
      rcases ih with ⟨first, second⟩
      constructor
      · refine first.shift (packed_lt _ i) ?_
        rw [first 2 (by omega), first 9 (by omega)]
        unfold feedG1
        simp only [value, xor_sign, Nat.reduceSub]
      · refine second.shift (packed_lt _ i) ?_
        rw [second 1 (by omega), second 2 (by omega), second 5 (by omega), second 7 (by omega),
          second 8 (by omega), second 9 (by omega)]
        unfold feedG2
        simp only [value, xor_sign, Nat.reduceSub]

/-- The sequences are what the last places put out. -/
theorem registers_last (i : Nat) : (registers i).1 9 = g1 i ∧ (registers i).2 9 = g2 i :=
  ⟨(registers_packed i).1 9 (by omega), (registers_packed i).2 9 (by omega)⟩

section Sequences

variable {feed : Nat → Bool} {s : Nat → ℤˣ} {taps : Finset ℕ}

theorem window_packed (same : ∀ i, s i = signs (packed feed i) 0) (i : Nat) (k : Fin 10) :
    window 10 s i k = signs (packed feed i) k := by
  rw [window, same, signs_eq_iff, packed_testBit k.isLt]

/-- The next sign is the one that is fed back. -/
theorem sign_fed (same : ∀ i, s i = signs (packed feed i) 0) (i : Nat) :
    s (i + 10) = if feed (packed feed i) then -1 else 1 := by
  have bit : (packed feed (i + 10)).testBit 0 = feed (packed feed i) := by
    have last : (packed feed (i + 1)).testBit 9 = (packed feed (i + 1 + 9)).testBit 0 :=
      packed_testBit (by omega)
    rw [packed, testBit_shiftPacked (packed_lt feed i), if_neg (by omega)] at last
    rw [show i + 10 = i + 1 + 9 by omega, ← last]
    cases feed (packed feed i) <;> rfl
  rw [same, signs, bit]

/-- Different numbers hold different registers. -/
theorem packed_eq_of_window (same : ∀ i, s i = signs (packed feed i) 0) {i j : Nat}
    (windows : window 10 s i = window 10 s j) : packed feed i = packed feed j := by
  apply Nat.eq_of_testBit_eq
  intro k
  by_cases inside : k < 10
  · have here := congrFun windows ⟨k, inside⟩
    rw [window_packed same, window_packed same] at here
    exact signs_eq_iff.mp here
  · have beyond : 2 ^ 10 ≤ 2 ^ k := Nat.pow_le_pow_right (by omega) (by omega)
    rw [Nat.testBit_lt_two_pow ((packed_lt feed i).trans_le beyond),
      Nat.testBit_lt_two_pow ((packed_lt feed j).trans_le beyond)]

/-- A register that comes back after 1023 turns and not before. -/
theorem maximal_of_packed (same : ∀ i, s i = signs (packed feed i) 0)
    (inside : ∀ k ∈ taps, k < 10) (recurrent : Recurrent 10 taps s)
    (closes : packed feed 1023 = 1023) (never : comesBack feed 1022 1023 = false) :
    Maximal 10 taps s where
  places := by omega
  inside := inside
  recurrent := recurrent
  closes := by
    funext k
    rw [window_packed same, window_packed same]
    exact congrArg (signs · k) closes
  returns d positive below windows := by
    obtain ⟨d, rfl⟩ := Nat.exists_eq_succ_of_ne_zero positive.ne'
    have away := packed_ne_of_comesBack (i := 0) never d (by omega)
    rw [Nat.zero_add] at away
    exact away (packed_eq_of_window same windows)

/-- The sequence from a place on, packed. -/
theorem signs_putOut (same : ∀ i, s i = signs (packed feed i) 0) {i n : Nat} (below : i < n) :
    signs (putOut feed 1023 n) i = s i := by
  have start : packed feed (0 + i) = _ := packed_add 0 i
  rw [Nat.zero_add] at start
  rw [same, signs_eq_iff, testBit_putOut below, start]
  rfl

end Sequences

theorem units_xor_sign (a b : Bool) :
    (if (a ^^ b) then -1 else 1 : ℤˣ) = (if a then -1 else 1) * (if b then -1 else 1) := by
  cases a <;> cases b <;> rfl

theorem recurrent_g1 : Recurrent 10 {7, 0} g1 := by
  intro i
  have places : ∀ k < 10, g1 (i + k) = signs (packed feedG1 i) k := fun k inside =>
    window_packed (s := g1) (fun _ => rfl) i ⟨k, inside⟩
  rw [sign_fed (s := g1) (fun _ => rfl), feedG1, Finset.prod_insert (by decide),
    Finset.prod_singleton, places 7 (by omega), places 0 (by omega)]
  simp only [units_xor_sign, signs]

theorem recurrent_g2 : Recurrent 10 {8, 7, 4, 2, 1, 0} g2 := by
  intro i
  have places : ∀ k < 10, g2 (i + k) = signs (packed feedG2 i) k := fun k inside =>
    window_packed (s := g2) (fun _ => rfl) i ⟨k, inside⟩
  rw [sign_fed (s := g2) (fun _ => rfl), feedG2, Finset.prod_insert (by decide),
    Finset.prod_insert (by decide), Finset.prod_insert (by decide),
    Finset.prod_insert (by decide), Finset.prod_insert (by decide), Finset.prod_singleton,
    places 8 (by omega), places 7 (by omega), places 4 (by omega), places 2 (by omega),
    places 1 (by omega), places 0 (by omega)]
  simp only [units_xor_sign, signs, mul_assoc]

theorem packed_closes :
    (packed feedG1 1023 = 1023 ∧ comesBack feedG1 1022 1023 = false) ∧
      (packed feedG2 1023 = 1023 ∧ comesBack feedG2 1022 1023 = false) := by
  decide +kernel

/-- **Both registers go through all their states but one.** -/
theorem maximal_g1 : Maximal 10 {7, 0} g1 :=
  maximal_of_packed (fun _ => rfl) (by decide) recurrent_g1 packed_closes.1.1 packed_closes.1.2

theorem maximal_g2 : Maximal 10 {8, 7, 4, 2, 1, 0} g2 :=
  maximal_of_packed (fun _ => rfl) (by decide) recurrent_g2 packed_closes.2.1 packed_closes.2.2

/-! ## The codes -/

/-- The number of places in which the two sequences differ, the second one shifted by `m`. -/
def differences (m : Nat) : Nat :=
  foldAll 1 10 (putOut feedG1 1023 1023 ^^^ (putOut feedG2 1023 2046 >>> m) % 2 ^ 1023)

theorem differences_cases : ∀ m < 1023,
    differences m = 480 ∨ differences m = 512 ∨ differences m = 544 := by
  decide +kernel

/-- The correlation of the two sequences. -/
theorem correlation_g1_g2 {m : Nat} (below : m < 1023) :
    correlation 1023 g1 g2 m = 63 ∨ correlation 1023 g1 g2 m = -1 ∨
      correlation 1023 g1 g2 m = -65 := by
  have packs : correlation 1023 g1 g2 m = 1023 - 2 * (differences m : ℤ) := by
    have folded := correlation_signs (N := 1023) (m := m) (j := 10) rfl (putOut_lt feedG1 1023 1023)
      (putOut feedG2 1023 2046)
    refine Eq.trans (Finset.sum_congr rfl fun i inside => ?_) folded
    have place := Finset.mem_range.mp inside
    rw [signs_putOut (s := g1) (fun _ => rfl) place,
      signs_putOut (s := g2) (fun _ => rfl) (show i + m < 2046 by omega)]
  rcases differences_cases m below with few | even | many
  · exact Or.inl (by rw [packs, few]; rfl)
  · exact Or.inr (Or.inl (by rw [packs, even]; rfl))
  · exact Or.inr (Or.inr (by rw [packs, many]; rfl))

/-- `CA_SEQ_LEN-delay[prn-1]` -/
def codeShift (prn : Int) : Nat :=
  caSeqLen - delay.getD (prn - 1).toNat 0

theorem delay_range : ∀ i < 32, 0 < delay.getD i 0 ∧ delay.getD i 0 < 1023 := by
  decide

theorem nodup_delay : delay.toList.Nodup := by
  decide

/-- No two satellites have the same delay. -/
theorem delay_injective : ∀ i < 32, ∀ j < 32, delay.getD i 0 = delay.getD j 0 → i = j := by
  have length : delay.toList.length = 32 := rfl
  intro i inside j inside' same
  rw [← length] at inside inside'
  rw [Array.getD_eq_getD_getElem?, Array.getD_eq_getD_getElem?, ← Array.getElem?_toList,
    ← Array.getElem?_toList, List.getElem?_eq_getElem inside, List.getElem?_eq_getElem inside']
    at same
  exact nodup_delay.getElem_inj_iff.mp same

/-- The signs of the code of a satellite. -/
def codeSigns (prn : Int) : Nat → ℤˣ :=
  code g1 g2 (codeShift prn)

/-- A chip as the channels send it. -/
theorem codegen_chip (ca : Int → Int) {prn : Int} (satellite : 1 ≤ prn ∧ prn ≤ 32) {i : Nat}
    (inside : i < 1023) :
    codegen ca prn i * 2 - 1 = -(codeSigns prn i : ℤˣ) := by
  have range := delay_range (prn - 1).toNat (by omega)
  have place : (codeShift prn + i) % 1023 = (codeShift prn + i) % (2 ^ 10 - 1) := rfl
  have product : (registers i).1 9 * (registers ((codeShift prn + i) % 1023)).2 9 =
      (codeSigns prn i : ℤˣ) := by
    rw [(registers_last i).1, (registers_last _).2, place, maximal_g2.mod, codeSigns, code,
      Nat.add_comm]
    rfl
  have value : codegen ca prn i =
      (1 - (registers i).1 9 * (registers ((codeShift prn + i) % 1023)).2 9).tdiv 2 := by
    unfold codegen
    rw [if_neg (by omega)]
    dsimp only
    rw [if_pos ⟨Int.natCast_nonneg i, by exact_mod_cast inside⟩, Int.toNat_natCast]
    rfl
  rw [value, product]
  rcases Int.units_eq_one_or (codeSigns prn i) with plus | minus
  · rw [plus]
    rfl
  · rw [minus]
    rfl

theorem codeSigns_mod (prn : Int) (i : Nat) : codeSigns prn (i % 1023) = codeSigns prn i := by
  have first : g1 (i % 1023) = g1 i := maximal_g1.mod i
  have second : g2 (i % 1023 + codeShift prn) = g2 (i + codeShift prn) := by
    have left : g2 ((i % 1023 + codeShift prn) % 1023) = g2 (i % 1023 + codeShift prn) :=
      maximal_g2.mod _
    have right : g2 ((i + codeShift prn) % 1023) = g2 (i + codeShift prn) := maximal_g2.mod _
    rw [← left, ← right, Nat.mod_add_mod]
  rw [codeSigns, code, code, first, second]

/-- The correlations of the signs. -/
theorem correlation_codeSigns {prn prn' : Int} (k : Nat) (satellite : 1 ≤ prn ∧ prn ≤ 32)
    (satellite' : 1 ≤ prn' ∧ prn' ≤ 32) :
    let r := correlation 1023 (codeSigns prn) (codeSigns prn') k
    (prn = prn' ∧ 1023 ∣ k ∧ r = 1023) ∨
      ¬ (prn = prn' ∧ 1023 ∣ k) ∧ (r = -65 ∨ r = -1 ∨ r = 63) := by
  have range := delay_range (prn - 1).toNat (by omega)
  have range' := delay_range (prn' - 1).toNat (by omega)
  have same : (1023 ∣ k ∧ 1023 ∣ k + codeShift prn' + (1023 - 1) * codeShift prn) ↔
      prn = prn' ∧ 1023 ∣ k := by
    unfold codeShift caSeqLen
    constructor
    · rintro ⟨still, whole⟩
      have index := delay_injective (prn - 1).toNat (by omega) (prn' - 1).toNat (by omega)
        (by omega)
      exact ⟨by omega, still⟩
    · rintro ⟨rfl, still⟩
      exact ⟨still, by omega⟩
  rcases correlation_cases maximal_g1 maximal_g2 (codeShift prn) (codeShift prn') k with
    ⟨still, whole, itself⟩ | ⟨moved, minusOne | ⟨m, below, cross⟩⟩
  · exact Or.inl ⟨(same.mp ⟨still, whole⟩).1, still, itself⟩
  · exact Or.inr ⟨fun both => moved (same.mpr both), Or.inr (Or.inl minusOne)⟩
  · refine Or.inr ⟨fun both => moved (same.mpr both), ?_⟩
    rcases correlation_g1_g2 below with high | middle | low
    · exact Or.inr (Or.inr (cross.trans high))
    · exact Or.inr (Or.inl (cross.trans middle))
    · exact Or.inl (cross.trans low)

/-- **The correlation of two codes** over a period: 1023 for a code with itself, and -65, -1 or
63 for a code with a shift of itself and for the codes of two satellites at any shift. -/
theorem codegen_correlation (ca ca' : Int → Int) {prn prn' : Int} (k : Nat)
    (satellite : 1 ≤ prn ∧ prn ≤ 32) (satellite' : 1 ≤ prn' ∧ prn' ≤ 32) :
    let r := ∑ i ∈ Finset.range 1023,
      (codegen ca prn i * 2 - 1) * (codegen ca' prn' ((i + k) % 1023 : Nat) * 2 - 1)
    (prn = prn' ∧ 1023 ∣ k → r = 1023) ∧
      (¬ (prn = prn' ∧ 1023 ∣ k) → r = -65 ∨ r = -1 ∨ r = 63) := by
  have sum : ∑ i ∈ Finset.range 1023,
      (codegen ca prn i * 2 - 1) * (codegen ca' prn' ((i + k) % 1023 : Nat) * 2 - 1) =
      correlation 1023 (codeSigns prn) (codeSigns prn') k := by
    refine Finset.sum_congr rfl fun i inside => ?_
    rw [codegen_chip ca satellite (Finset.mem_range.mp inside),
      codegen_chip ca' satellite' (Nat.mod_lt _ (by omega)), neg_mul_neg, ← Units.val_mul,
      codeSigns_mod]
  dsimp only
  rw [sum]
  rcases correlation_codeSigns k satellite satellite' with ⟨same, still, itself⟩ | ⟨moved, low⟩
  · exact ⟨fun _ => itself, fun other => absurd ⟨same, still⟩ other⟩
  · exact ⟨fun both => absurd both moved, fun _ => low⟩

/-- The codes of the satellites 1 and 2, three chips apart. -/
theorem codegen_correlation_two :
    let r := ∑ i ∈ Finset.range 1023,
      (codegen (fun _ => 0) 1 i * 2 - 1) * (codegen (fun _ => 0) 2 ((i + 3) % 1023 : Nat) * 2 - 1)
    ((1 : Int) = 2 ∧ 1023 ∣ 3 → r = 1023) ∧
      (¬ ((1 : Int) = 2 ∧ 1023 ∣ 3) → r = -65 ∨ r = -1 ∨ r = 63) :=
  codegen_correlation (fun _ => 0) (fun _ => 0) 3 (by decide) (by decide)

end Navisim.Signal

import Mathlib.Tactic
import Navisim.RealTime.Frames

/-!
# Lost wakeups of the real-time path

The generator stores `gps.ready` and `head` and signals without holding the mutex under which
the waiting thread tests them.  A signal sent between the test and the wait is lost
(`LosesWakeup`); the generator then fills the ring and blocks on `fifo_write_ready`, and no
thread is left to run (`stuck_of_losesWakeup`).

Nothing else can block the three threads: as long as no step loses a wakeup, every thread that
waits has the thread it waits for still in front of a signal (`Waits`), so no reachable state
is `Stuck` (`Inv.not_stuck`).
-/

namespace Navisim.RealTime

open Interleaving

/-! ## Blocked states -/

/-- The main thread waits, or joins the transmitter, which never returns. -/
def Sim.MainBlocked (s : Sim) : Prop :=
  s.main = .blocked ∨ ((s.main = .lock ∨ s.main = .relock) ∧ s.txLock ≠ none) ∨ s.main = .join

def Sim.GpsBlocked (s : Sim) : Prop :=
  s.gps = .blocked ∨ ((s.gps = .lock ∨ s.gps = .relock) ∧ s.gpsLock ≠ none)

def Sim.TxBlocked (s : Sim) : Prop :=
  s.tx = .blocked ∨ ((s.tx = .lock ∨ s.tx = .relock) ∧ s.gpsLock ≠ none)

/-- Every started thread is blocked, and the generator has blocks left. -/
def Sim.Stuck (s : Sim) : Prop :=
  s.MainBlocked ∧ s.GpsBlocked ∧ (s.tx = .unstarted ∨ s.TxBlocked)

/-- No deadlock: not every started thread is blocked, and the generator does not wait for the
transmitter while the transmitter waits for the generator. -/
def Sim.Live (s : Sim) : Prop :=
  ¬ s.Stuck ∧ ¬ (s.gps = .blocked ∧ s.tx = .blocked)

/-- The step sends a signal, with a further block to generate, while its waiter has already
decided to wait but is not blocked yet: the main thread has read `ready` as 0, or the
transmitter has found the queue empty with a value of `head` that is no longer current. -/
def LosesWakeup (numd : Nat) : Thread → Sim → Prop
  | .gps, s =>
      s.iumd + 1 < numd ∧
        ((s.gps = .signalReady ∧ s.main = .wait) ∨
          (s.gps = .signalRead ∧ s.head ≠ s.tail ∧
            (s.tx = .wait ∨ s.tx = .readTail s.tail)))
  | _, _ => False

instance (numd : Nat) : ∀ i s, Decidable (LosesWakeup numd i s)
  | .main, _ | .tx, _ => inferInstanceAs (Decidable False)
  | .gps, s =>
      inferInstanceAs (Decidable (s.iumd + 1 < numd ∧
        ((s.gps = .signalReady ∧ s.main = .wait) ∨
          (s.gps = .signalRead ∧ s.head ≠ s.tail ∧
            (s.tx = .wait ∨ s.tx = .readTail s.tail)))))

/-! ## The invariant -/

/-- The mutexes are held by the threads whose program counter says so. -/
structure Locks (s : Sim) : Prop where
  txLock : s.txLock = if s.main.holds then some .main else none
  gpsLock : s.gpsLock =
    if s.gps.holds then some .gps else if s.tx.holds then some .tx else none
  exclusive : s.gps.holds = true → s.tx.holds = false
  txUnstarted : s.tx = .unstarted ↔ s.main ≠ .join
  gpsUnstarted : s.gps = .unstarted ↔ s.main = .startGps

/-- The values of `head`: a multiple of `NUM_IQ_SAMPLES`, equal to `FIFO_LENGTH` only between
the two stores of the advance. -/
def HeadAt (head : Int) : GpsPc → Prop
  | .testHead => head = numIqSamples ∨ head = fifoLength
  | .loadWrap => head = fifoLength
  | .storeWrap h => head = fifoLength ∧ h = head
  | .readTail h | .storeHead h => h = head ∧ (head = 0 ∨ head = numIqSamples)
  | _ => head = 0 ∨ head = numIqSamples

/-- The values of `tail`: a position of the ring, except between the two stores of
`fifo_read`. -/
def TailAt (tail : Int) : TxPc → Prop
  | .readTail h => 0 ≤ h ∧ 0 ≤ tail ∧ tail < fifoLength
  | .fifoRemaining samples | .fifoCopyEnd samples _ | .fifoRestart samples _ =>
      samples ≤ samplesPerBuffer ∧ 0 ≤ tail ∧ tail < fifoLength
  | .fifoCopy _ left | .fifoLoad _ left =>
      left ≤ samplesPerBuffer ∧ 0 ≤ tail ∧ tail < fifoLength
  | .fifoStore _ left t => left ≤ samplesPerBuffer ∧ t = tail ∧ 0 ≤ tail ∧ tail < fifoLength
  | .fifoTest _ => 0 ≤ tail ∧ tail < fifoLength + samplesPerBuffer
  | .fifoLoadWrap _ => fifoLength ≤ tail ∧ tail < fifoLength + samplesPerBuffer
  | .fifoStoreWrap _ t =>
      t = tail ∧ fifoLength ≤ tail ∧ tail < fifoLength + samplesPerBuffer
  | _ => 0 ≤ tail ∧ tail < fifoLength

structure Positions (s : Sim) : Prop where
  head : HeadAt s.head s.gps
  tail : TailAt s.tail s.tx
  remaining : s.bufferSamplesRemaining ≤ samplesPerBuffer

/-- How far the start-up and the loop over `iumd` have come. -/
structure Progress (numd : Nat) (s : Sim) : Prop where
  iumd_pos : 1 ≤ s.iumd
  running : s.gps ≠ .unstarted → s.gps ≠ .finished → s.iumd < numd
  first : s.iumd = 1 → s.gps.stored = false → s.head = 0
  idle : s.tx = .unstarted → s.tail = 0
  early : s.ready = false →
    s.iumd = 1 ∧
      (s.gps = .unstarted ∨ s.gps = .readReady ∨ s.gps = .writeReady ∨ s.gps = .finished)
  initializing : s.gps = .writeReady ∨ s.gps = .signalReady → s.iumd = 1

/-- A thread that waits, or has decided to, is waiting for a signal still to come. -/
structure Waits (numd : Nat) (s : Sim) : Prop where
  /-- With at most one block to generate a missed `initialization_done` blocks nobody else. -/
  mainWaits : s.main = .wait ∨ s.main = .blocked →
    s.ready = false ∨ s.gps = .signalReady ∨ numd ≤ 2
  gpsWait : s.gps = .wait → numIqSamples ≤ getSampleLength s.head s.tail
  gpsBlocked : s.gps = .blocked →
    numIqSamples ≤ getSampleLength s.head s.tail ∨ s.tx.serving = true
  txWaits : s.gps ≠ .finished → (s.tx = .wait ∨ s.tx = .blocked ∨ s.tx = .readTail s.tail) →
    s.head = s.tail ∨
      (s.gps.stored = true ∧ getSampleLength s.head s.tail = numIqSamples)

structure Inv (numd : Nat) (s : Sim) : Prop extends
  Locks s, Positions s, Progress numd s, Waits numd s

theorem Inv.init (numd : Nat) : Inv numd Sim.init := by
  constructor <;> constructor <;>
    simp [Sim.init, MainPc.holds, GpsPc.holds, TxPc.holds, HeadAt, TailAt, fifoLength,
      numIqSamples, txSamplerate]

/-! ## The mutexes -/

section Locks

variable {numd : Nat} {s t : Sim}

theorem Locks.step_main (inv : Locks s) (step : stepMain numd s = some t) : Locks t := by
  rcases stepMain_cases step with ⟨pc, rfl⟩ | ⟨pc, rfl⟩ | frame
  · have unstarted := inv.gpsUnstarted.mpr pc
    have txLock := inv.txLock
    have gpsLock := inv.gpsLock
    have idle := inv.txUnstarted
    rcases forIumd_cases numd s.iumd with ⟨next, -⟩ | next <;> constructor <;>
      simp_all [MainPc.holds, GpsPc.holds]
  · have idle : s.tx = .unstarted := inv.txUnstarted.mpr (by simp [pc])
    have txLock := inv.txLock
    have gpsLock := inv.gpsLock
    have started := inv.gpsUnstarted
    constructor <;> simp_all [MainPc.holds, TxPc.holds]
  · have holds : t.gps.holds = s.gps.holds := frame.gps.map GpsPc.holds rfl
    refine ⟨?_, ?_, ?_, ?_, ?_⟩
    · rcases frame.txLock with ⟨lock, same⟩ | ⟨-, lock, -, after⟩ | ⟨lock, -, after⟩
      · rw [lock, same, inv.txLock]
      · rw [lock, after, if_pos rfl]
      · rw [lock, after]
        rfl
    · rw [frame.gpsLock, holds, frame.tx, inv.gpsLock]
    · rw [holds, frame.tx]
      exact inv.exclusive
    · rw [frame.tx, inv.txUnstarted]
      exact iff_of_true frame.here.2.2 frame.there.2
    · have started := mt inv.gpsUnstarted.mp frame.here.1
      rw [frame.gps.at_iff (by simp) (by simp)]
      exact iff_of_false started frame.there.1

theorem Locks.step_gps (inv : Locks s) (step : stepGps numd s = some t) : Locks t := by
  have frame := stepGps_frame step
  have holds : t.main.holds = s.main.holds := frame.main.map MainPc.holds rfl
  have holds' : t.tx.holds = s.tx.holds := frame.tx.map TxPc.holds rfl
  have gpsLock := inv.gpsLock
  refine ⟨?_, ?_, ?_, ?_, ?_⟩
  · rw [frame.txLock, holds, inv.txLock]
  · rcases frame.gpsLock with ⟨lock, same⟩ | ⟨-, lock, -, after⟩ | ⟨lock, before, after⟩
    · rw [lock, same, holds', gpsLock]
    · rw [lock, after, if_pos rfl]
    · rw [lock, after, holds', inv.exclusive before]
      rfl
  · intro after
    rw [holds']
    rcases frame.gpsLock with ⟨-, same⟩ | ⟨free, -, before, -⟩ | ⟨-, -, after'⟩
    · exact inv.exclusive (same ▸ after)
    · -- The mutex was free, so the transmitter did not hold it.
      rw [free, before] at gpsLock
      simpa using gpsLock
    · rw [after'] at after
      cases after
  · rw [frame.tx.at_iff (by simp) (by simp), inv.txUnstarted, ne_eq, ne_eq,
      frame.main.at_iff (by simp) (by simp)]
  · have started : s.main ≠ .startGps := mt inv.gpsUnstarted.mpr frame.here.1
    rw [frame.main.at_iff (by simp) (by simp)]
    exact iff_of_false frame.there started

theorem Locks.step_tx (inv : Locks s) (step : stepTx s = some t) : Locks t := by
  have frame := stepTx_frame step
  have holds : t.gps.holds = s.gps.holds := frame.gps.map GpsPc.holds rfl
  have gpsLock := inv.gpsLock
  refine ⟨?_, ?_, ?_, ?_, ?_⟩
  · rw [frame.txLock, frame.main, inv.txLock]
  · rcases frame.gpsLock with ⟨lock, same⟩ | ⟨free, lock, before, after⟩ | ⟨lock, before, after⟩
    · rw [lock, same, holds, gpsLock]
    · rw [free, before] at gpsLock
      have idle : s.gps.holds = false := by simpa using gpsLock
      rw [lock, after, holds, idle]
      rfl
    · have idle : s.gps.holds = false := by
        by_contra both
        rw [inv.exclusive (by simpa using both)] at before
        cases before
      rw [lock, after, holds, idle]
      rfl
  · intro both
    rw [holds] at both
    rcases frame.gpsLock with ⟨-, same⟩ | ⟨free, -, before, -⟩ | ⟨-, -, after⟩
    · rw [same]
      exact inv.exclusive both
    · rw [free, both] at gpsLock
      cases gpsLock
    · exact after
  · have join : s.main = .join := by
      by_contra notJoin
      exact frame.here (inv.txUnstarted.mpr notJoin)
    rw [frame.main]
    exact iff_of_false frame.there (not_not.mpr join)
  · rw [frame.gps.at_iff (by simp) (by simp), frame.main, inv.gpsUnstarted]

end Locks

/-! ## The positions -/

section Positions

variable {numd : Nat} {s t : Sim}

theorem HeadAt.nonneg {head : Int} {gps : GpsPc} (headAt : HeadAt head gps) : 0 ≤ head := by
  unfold HeadAt at headAt
  split at headAt <;> omega

theorem HeadAt.forIumd {head : Int} (rest : head = 0 ∨ head = numIqSamples) (numd iumd : Nat) :
    HeadAt head (forIumd numd iumd) := by
  rcases forIumd_cases numd iumd with ⟨next, -⟩ | next
  · rw [next]
    exact rest
  · rw [next]
    exact rest

theorem Positions.step_main (locks : Locks s) (inv : Positions s)
    (step : stepMain numd s = some t) : Positions t := by
  have headAt := inv.head
  have tailAt := inv.tail
  rcases stepMain_cases step with ⟨pc, rfl⟩ | ⟨pc, rfl⟩ | frame
  · rw [locks.gpsUnstarted.mpr pc] at headAt
    exact ⟨HeadAt.forIumd headAt numd s.iumd, tailAt, inv.remaining⟩
  · rw [locks.txUnstarted.mpr (by simp [pc])] at tailAt
    exact ⟨headAt, tailAt, inv.remaining⟩
  · have same : HeadAt s.head t.gps = HeadAt s.head s.gps := frame.gps.map (HeadAt s.head) rfl
    refine ⟨?_, ?_, ?_⟩
    · rw [frame.head, same]
      exact headAt
    · rw [frame.tail, frame.tx]
      exact tailAt
    · rw [frame.remaining]
      exact inv.remaining

theorem fifoLength_eq : fifoLength = 2 * numIqSamples := rfl

/-- The generator advances `head` in two stores. -/
theorem stepGps_head (headAt : HeadAt s.head s.gps) (step : stepGps numd s = some t) :
    HeadAt t.head t.gps := by
  have positive : 0 < numIqSamples := by decide
  have ring := fifoLength_eq
  rcases s with ⟨head, tail, ready, txMutex, gpsMutex, main, gps, iumd, tx, remaining⟩
  cases gps <;> simp only [stepGps, reduceCtorEq, Option.some.injEq] at step
  case signalRead =>
    subst step
    unfold Sim.signalFifoReadReady
    split <;> exact HeadAt.forIumd headAt numd (iumd + 1)
  case signalReady =>
    subst step
    unfold Sim.signalInitializationDone
    split <;> exact headAt
  all_goals
    (try split at step) <;> cases step <;> simp only [HeadAt, true_and, and_true] at headAt ⊢ <;>
      omega

theorem Positions.step_gps (inv : Positions s) (step : stepGps numd s = some t) :
    Positions t := by
  have frame := stepGps_frame step
  have same : TailAt s.tail t.tx = TailAt s.tail s.tx := frame.tx.map (TailAt s.tail) rfl
  refine ⟨stepGps_head inv.head step, ?_, ?_⟩
  · rw [frame.tail, same]
    exact inv.tail
  · rw [frame.remaining]
    exact inv.remaining

/-- The transmitter advances `tail` in two stores, by no more than a send buffer. -/
theorem stepTx_tailAt (nonneg : 0 ≤ s.head) (tailAt : TailAt s.tail s.tx)
    (bound : s.bufferSamplesRemaining ≤ samplesPerBuffer) (step : stepTx s = some t) :
    TailAt t.tail t.tx ∧ t.bufferSamplesRemaining ≤ samplesPerBuffer := by
  have room : samplesPerBuffer ≤ fifoLength := by decide
  rcases s with ⟨head, tail, ready, txMutex, gpsMutex, main, gps, iumd, tx, remaining⟩
  cases tx <;> simp only [stepTx, reduceCtorEq, Option.some.injEq] at step
  case signalWrite samples =>
    subst step
    unfold Sim.signalFifoWriteReady
    dsimp only at bound tailAt ⊢
    refine ⟨?_, by omega⟩
    split <;> split <;> exact tailAt
  all_goals
    (try split at step) <;> cases step <;> simp only [TailAt, true_and] at tailAt ⊢ <;>
      dsimp only at nonneg bound ⊢ <;> omega

theorem Positions.step_tx (inv : Positions s) (step : stepTx s = some t) : Positions t := by
  have frame := stepTx_frame step
  have same : HeadAt s.head t.gps = HeadAt s.head s.gps := frame.gps.map (HeadAt s.head) rfl
  obtain ⟨tailAt, bound⟩ := stepTx_tailAt inv.head.nonneg inv.tail inv.remaining step
  refine ⟨?_, tailAt, bound⟩
  rw [frame.head, same]
  exact inv.head

end Positions

/-! ## The start-up and the loop -/

section Progress

variable {numd : Nat} {s t : Sim}

/-- The progress of the generator is not changed by the steps of the others. -/
theorem Progress.of_woken (inv : Progress numd s) (gps : Woken .blocked .relock s.gps t.gps)
    (iumd : t.iumd = s.iumd) (head : t.head = s.head) (ready : t.ready = s.ready)
    (idle : t.tx = .unstarted → t.tail = 0) : Progress numd t := by
  have stored : t.gps.stored = s.gps.stored := gps.map GpsPc.stored rfl
  refine ⟨?_, ?_, ?_, idle, ?_, ?_⟩
  · rw [iumd]
    exact inv.iumd_pos
  · rw [iumd, ne_eq, ne_eq, gps.at_iff (by simp) (by simp), gps.at_iff (by simp) (by simp)]
    exact inv.running
  · rw [iumd, head, stored]
    exact inv.first
  · rw [ready, iumd, gps.at_iff (by simp) (by simp), gps.at_iff (by simp) (by simp),
      gps.at_iff (by simp) (by simp), gps.at_iff (by simp) (by simp)]
    exact inv.early
  · rw [iumd, gps.at_iff (by simp) (by simp), gps.at_iff (by simp) (by simp)]
    exact inv.initializing

theorem Progress.step_main (locks : Locks s) (inv : Progress numd s)
    (step : stepMain numd s = some t) : Progress numd t := by
  rcases stepMain_cases step with ⟨pc, rfl⟩ | ⟨pc, rfl⟩ | frame
  · have unstarted := locks.gpsUnstarted.mpr pc
    have head : s.iumd = 1 → s.head = 0 :=
      fun one => inv.first one (by simp [unstarted, GpsPc.stored])
    rcases forIumd_cases numd s.iumd with ⟨next, more⟩ | next
    · refine ⟨inv.iumd_pos, fun _ _ => more, fun one _ => head one, inv.idle, fun unready => ?_, ?_⟩
      · exact ⟨(inv.early unready).1, Or.inr (Or.inl next)⟩
      · simp [next]
    · refine ⟨inv.iumd_pos, fun _ going => absurd next going, fun one _ => head one, inv.idle,
        fun unready => ?_, ?_⟩
      · exact ⟨(inv.early unready).1, Or.inr (Or.inr (Or.inr next))⟩
      · simp [next]
  · have tail := inv.idle (locks.txUnstarted.mpr (by simp [pc]))
    exact inv.of_woken (Or.inl rfl) rfl rfl rfl fun _ => tail
  · apply inv.of_woken frame.gps frame.iumd frame.head frame.ready
    rw [frame.tx, frame.tail]
    exact inv.idle

theorem Progress.step_tx (inv : Progress numd s) (step : stepTx s = some t) :
    Progress numd t := by
  have frame := stepTx_frame step
  exact inv.of_woken frame.gps frame.iumd frame.head frame.ready fun idle => absurd idle frame.there

/-- Past the start-up `gps.ready` is set. -/
theorem Progress.ready (inv : Progress numd s)
    (pc : ¬ (s.gps = .unstarted ∨ s.gps = .readReady ∨ s.gps = .writeReady ∨ s.gps = .finished)) :
    s.ready = true := by
  by_contra unready
  exact pc (inv.early (by simpa using unready)).2

theorem Progress.step_gps (inv : Progress numd s) (step : stepGps numd s = some t) :
    Progress numd t := by
  have frame := stepGps_frame step
  have idle : t.tx = .unstarted → t.tail = 0 := by
    rw [frame.tx.at_iff (by simp) (by simp), frame.tail]
    exact inv.idle
  have below := inv.running frame.here.1 frame.here.2
  rcases stepGps_cases step with ⟨head, pc, rfl⟩ | ⟨head, pc, rfl⟩ | ⟨pc, rfl⟩ | quiet
  · have ready := inv.ready (by simp [pc])
    refine ⟨inv.iumd_pos, fun _ _ => below, ?_, idle, ?_, ?_⟩
    · simp [GpsPc.stored]
    · simp [ready]
    · simp
  · have ready := inv.ready (by simp [pc])
    refine ⟨inv.iumd_pos, fun _ _ => below, ?_, idle, ?_, ?_⟩
    · simp [GpsPc.stored]
    · simp [ready]
    · simp
  · have ready := inv.ready (by simp [pc])
    have positive := inv.iumd_pos
    refine ⟨?_, fun _ going => ?_, ?_, idle, ?_, ?_⟩
    · dsimp only
      omega
    · rcases forIumd_cases numd (s.iumd + 1) with ⟨-, more⟩ | next
      · exact more
      · exact absurd next going
    · dsimp only
      omega
    · simp [ready]
    · rcases forIumd_cases numd (s.iumd + 1) with ⟨next, -⟩ | next <;> simp [next]
  · refine ⟨?_, ?_, ?_, idle, fun unready => ?_, ?_⟩
    · rw [quiet.iumd]
      exact inv.iumd_pos
    · rw [quiet.iumd]
      exact fun _ _ => below
    · rw [quiet.iumd, quiet.head, quiet.stored]
      exact inv.first
    · rcases quiet.ready with ⟨other, same⟩ | ⟨-, set, -⟩
      · rw [same] at unready
        obtain ⟨one, unstarted | pc | pc | finished⟩ := inv.early unready
        · exact absurd unstarted frame.here.1
        · rw [quiet.iumd]
          exact ⟨one, Or.inr (Or.inr (Or.inl (quiet.readReady pc unready)))⟩
        · exact absurd pc other
        · exact absurd finished frame.here.2
      · rw [set] at unready
        cases unready
    · rw [quiet.iumd]
      intro waits
      rcases waits with pc | pc
      · exact (inv.early (quiet.writeReady pc)).1
      · exact inv.initializing (Or.inl (quiet.signalReady pc))

end Progress

/-! ## The waiting threads -/

section Waits

variable {numd : Nat} {s t : Sim}

theorem Waits.step_main (locks : Locks s) (inv : Waits numd s)
    (step : stepMain numd s = some t) : Waits numd t := by
  rcases stepMain_cases step with ⟨pc, rfl⟩ | ⟨pc, rfl⟩ | frame
  · have unstarted := locks.gpsUnstarted.mpr pc
    have empty := inv.txWaits (by simp [unstarted])
    simp only [unstarted, GpsPc.stored, Bool.false_eq_true, false_and, or_false] at empty
    rcases forIumd_cases numd s.iumd with ⟨next, -⟩ | next
    · refine ⟨?_, ?_, ?_, fun _ waits => Or.inl (empty waits)⟩ <;> simp [next]
    · refine ⟨?_, ?_, ?_, fun going => absurd next going⟩ <;> simp [next]
  · refine ⟨by simp, inv.gpsWait, fun blocked => ?_, by simp⟩
    have idle : s.tx = .unstarted := locks.txUnstarted.mpr (by simp [pc])
    have full := inv.gpsBlocked blocked
    simp only [idle, TxPc.serving, Bool.false_eq_true, or_false] at full
    exact Or.inl full
  · have stored : t.gps.stored = s.gps.stored := frame.gps.map GpsPc.stored rfl
    refine ⟨?_, ?_, fun blocked => ?_, ?_⟩
    · rw [frame.ready, frame.gps.at_iff (by simp) (by simp)]
      intro waits
      rcases waits with wait | blocked
      · exact Or.inl (frame.wait wait)
      · exact inv.mainWaits (Or.inl (frame.blocked blocked))
    · rw [frame.head, frame.tail, frame.gps.at_iff (by simp) (by simp)]
      exact inv.gpsWait
    · rw [frame.head, frame.tail, frame.tx]
      exact inv.gpsBlocked ((frame.gps.eq_of_ne (by simp [blocked])).trans blocked)
    · rw [frame.head, frame.tail, frame.tx, stored, ne_eq, frame.gps.at_iff (by simp) (by simp)]
      exact inv.txWaits

/-- The position of a transmitter that waits, or has decided to. -/
theorem TailAt.of_waits (tailAt : TailAt s.tail s.tx)
    (waits : s.tx = .wait ∨ s.tx = .blocked ∨ s.tx = .readTail s.tail) :
    0 ≤ s.tail ∧ s.tail < fifoLength := by
  rcases waits with wait | blocked | readTail
  · rwa [wait] at tailAt
  · rwa [blocked] at tailAt
  · rw [readTail] at tailAt
    exact tailAt.2

/-- The queue of a waiting transmitter was empty, and holds the block that is stored. -/
theorem Waits.stored_block {head : Int} (positions : Positions s) (inv : Waits numd s)
    (pc : s.gps = .storeHead head)
    (waits : s.tx = .wait ∨ s.tx = .blocked ∨ s.tx = .readTail s.tail) :
    getSampleLength (head + numIqSamples) s.tail = numIqSamples := by
  have headAt := positions.head
  rw [pc] at headAt
  have empty := inv.txWaits (by simp [pc]) waits
  simp only [pc, GpsPc.stored, Bool.false_eq_true, false_and, or_false] at empty
  simp only [getSampleLength, headAt.1, empty]
  split <;> omega

/-- The queue of a waiting transmitter holds a block up to the end of the ring. -/
theorem Waits.wrapped_block {head : Int} (positions : Positions s) (inv : Waits numd s)
    (pc : s.gps = .storeWrap head)
    (waits : s.tx = .wait ∨ s.tx = .blocked ∨ s.tx = .readTail s.tail) :
    getSampleLength (head - fifoLength) s.tail = numIqSamples := by
  have headAt := positions.head
  rw [pc] at headAt
  obtain ⟨atEnd, current⟩ := headAt
  have below := positions.tail.of_waits waits
  have ring := fifoLength_eq
  rcases inv.txWaits (by simp [pc]) waits with empty | ⟨-, full⟩
  · omega
  · simp only [getSampleLength, atEnd] at full ⊢
    rw [current, atEnd]
    split at full <;> split <;> omega

/-- A transmitter that is not blocked would lose the signal of a block in its queue. -/
theorem head_eq_tail_of_kept (kept : ¬ LosesWakeup numd .gps s) (more : s.iumd + 1 < numd)
    (pc : s.gps = .signalRead) (unblocked : s.tx ≠ .blocked)
    (waits : s.tx = .wait ∨ s.tx = .blocked ∨ s.tx = .readTail s.tail) : s.head = s.tail := by
  by_contra changed
  rcases waits with wait | blocked | readTail
  · exact kept ⟨more, Or.inr ⟨pc, changed, Or.inl wait⟩⟩
  · exact unblocked blocked
  · exact kept ⟨more, Or.inr ⟨pc, changed, Or.inr readTail⟩⟩

/-- A main thread that is not blocked yet would lose the signal with two blocks left. -/
theorem numd_le_two_of_kept (progress : Progress numd s) (kept : ¬ LosesWakeup numd .gps s)
    (signal : s.gps = .signalReady) (wait : s.main = .wait) : numd ≤ 2 := by
  have one := progress.initializing (Or.inr signal)
  have few : ¬ s.iumd + 1 < numd := fun more => kept ⟨more, Or.inl ⟨signal, wait⟩⟩
  omega

/-- A signal that is not lost wakes its waiter. -/
theorem Waits.step_gps (positions : Positions s) (progress : Progress numd s)
    (inv : Waits numd s) (kept : ¬ LosesWakeup numd .gps s) (step : stepGps numd s = some t) :
    Waits numd t := by
  have frame := stepGps_frame step
  -- The others are woken or stay where they are.
  have main : t.main = .wait ∨ t.main = .blocked → s.main = t.main := by
    rintro (pc | pc) <;> exact frame.main.eq_of_ne (by simp [pc])
  have tx : (t.tx = .wait ∨ t.tx = .blocked ∨ t.tx = .readTail t.tail) → s.tx = t.tx := by
    rintro (pc | pc | pc) <;> exact frame.tx.eq_of_ne (by simp [pc])
  have mainWaits : s.gps ≠ .signalReady → t.ready = s.ready →
      t.main = .wait ∨ t.main = .blocked → t.ready = false ∨ t.gps = .signalReady ∨ numd ≤ 2 := by
    intro other ready waits
    rcases inv.mainWaits (main waits ▸ waits) with unready | signal | short
    · exact Or.inl (ready.trans unready)
    · exact absurd signal other
    · exact Or.inr (Or.inr short)
  rcases stepGps_cases step with ⟨head, pc, rfl⟩ | ⟨head, pc, rfl⟩ | ⟨pc, rfl⟩ | quiet
  · refine ⟨mainWaits (by simp [pc]) rfl, by simp, by simp, fun _ waits => Or.inr ⟨rfl, ?_⟩⟩
    have block := inv.stored_block positions pc waits
    exact block
  · refine ⟨mainWaits (by simp [pc]) rfl, by simp, by simp, fun _ waits => Or.inr ⟨rfl, ?_⟩⟩
    have block := inv.wrapped_block positions pc waits
    exact block
  · have rest : forIumd numd (s.iumd + 1) ≠ .wait ∧ forIumd numd (s.iumd + 1) ≠ .blocked := by
      rcases forIumd_cases numd (s.iumd + 1) with ⟨next, -⟩ | next <;> simp [next]
    refine ⟨mainWaits (by simp [pc]) Sim.signalFifoReadReady_ready, fun wait => absurd wait rest.1,
      fun blocked => absurd blocked rest.2, fun going waits => Or.inl ?_⟩
    have more : s.iumd + 1 < numd := by
      rcases forIumd_cases numd (s.iumd + 1) with ⟨-, more⟩ | next
      · exact more
      · exact absurd next going
    have same := tx waits
    rw [← same, frame.tail] at waits
    rw [frame.tail]
    dsimp only
    rw [Sim.signalFifoReadReady_head]
    exact head_eq_tail_of_kept kept more pc (fun blocked => frame.signalRead pc (same ▸ blocked))
      waits
  · refine ⟨fun waits => ?_, fun wait => ?_, fun blocked => ?_, fun _ waits => ?_⟩
    · have same := main waits
      rcases inv.mainWaits (same ▸ waits) with unready | signal | short
      · rcases quiet.ready with ⟨-, ready⟩ | ⟨-, -, signal⟩
        · exact Or.inl (ready.trans unready)
        · exact Or.inr (Or.inl signal)
      · rcases waits with wait | blocked
        · exact Or.inr (Or.inr (numd_le_two_of_kept progress kept signal (same.trans wait)))
        · exact absurd blocked (frame.signalReady signal)
      · exact Or.inr (Or.inr short)
    · obtain ⟨head, pc, notReady⟩ := quiet.wait wait
      have headAt := positions.head
      rw [pc] at headAt
      rw [quiet.head, frame.tail, ← headAt.1]
      simpa [isFifoWriteReady] using notReady
    · rw [quiet.head, frame.tail]
      exact Or.inl (inv.gpsWait (quiet.blocked blocked))
    · rw [quiet.head, frame.tail, quiet.stored]
      have same := tx waits
      rw [← same, frame.tail] at waits
      exact inv.txWaits frame.here.2 waits

theorem Waits.step_tx (locks : Locks s) (positions : Positions s) (inv : Waits numd s)
    (step : stepTx s = some t) : Waits numd t := by
  have frame := stepTx_frame step
  have stored : t.gps.stored = s.gps.stored := frame.gps.map GpsPc.stored rfl
  refine ⟨?_, ?_, fun blocked => ?_, ?_⟩
  · rw [frame.main, frame.ready, frame.gps.at_iff (by simp) (by simp)]
    exact inv.mainWaits
  · rw [frame.gps.at_iff (by simp) (by simp)]
    intro pc
    have free := locks.exclusive (by simp [pc, GpsPc.holds])
    rw [frame.head, stepTx_tail step (Or.inr free)]
    exact inv.gpsWait pc
  · have pc := (frame.gps.eq_of_ne (by simp [blocked])).trans blocked
    cases serving : s.tx.serving with
    | true =>
        rcases stepTx_serving step serving with goesOn | signalled
        · exact Or.inr goesOn
        · exact absurd blocked signalled
    | false =>
        have full := inv.gpsBlocked pc
        rw [serving] at full
        rw [frame.head, stepTx_tail step (Or.inl serving)]
        exact Or.inl (full.resolve_right (by simp))
  · rw [frame.head, stored, ne_eq, frame.gps.at_iff (by simp) (by simp)]
    intro going waits
    obtain ⟨wait, blocked, readTail⟩ := stepTx_waits step
    rcases waits with pc | pc | pc
    · -- The queue was empty, with the head that had been read.
      obtain ⟨tail, head, before, empty⟩ := wait pc
      have tailAt := positions.tail
      rw [before] at tailAt
      have same : head = s.tail := by
        have length := empty
        simp only [getSampleLength] at length
        split at length <;> simp only [TailAt] at tailAt <;> omega
      rw [tail]
      exact inv.txWaits going (Or.inr (Or.inr (by rw [before, same])))
    · obtain ⟨tail, before⟩ := blocked pc
      rw [tail]
      exact inv.txWaits going (Or.inl before)
    · obtain ⟨tail, head⟩ := readTail _ pc
      exact Or.inl head.symm

end Waits

/-! ## Runs -/

/-- Every step that loses no wakeup keeps the invariant. -/
theorem Inv.step {numd : Nat} {i : Thread} {s t : Sim} (kept : ¬ LosesWakeup numd i s)
    (inv : Inv numd s) (step : program numd i s = some t) : Inv numd t := by
  obtain ⟨locks, positions, progress, waits⟩ := inv
  cases i with
  | main =>
      exact ⟨locks.step_main step, positions.step_main locks step,
        progress.step_main locks step, waits.step_main locks step⟩
  | gps =>
      exact ⟨locks.step_gps step, positions.step_gps step, progress.step_gps step,
        waits.step_gps positions progress kept step⟩
  | tx =>
      exact ⟨locks.step_tx step, positions.step_tx step, progress.step_tx step,
        waits.step_tx locks positions step⟩

/-- The runs in which no step loses a wakeup. -/
abbrev ReachKept (numd : Nat) : Sim → Sim → Prop :=
  ReachIf (program numd) fun i s => ¬ LosesWakeup numd i s

theorem Inv.of_reachKept {numd : Nat} {s : Sim} (run : ReachKept numd Sim.init s) :
    Inv numd s :=
  run.invariant (Inv.init numd) fun _ _ _ kept inv step => inv.step kept step

/-- A generator that blocks on `gps.lock` finds the transmitter inside it, so a stuck
generator is blocked on `fifo_write_ready`. -/
theorem Inv.gps_eq_blocked {numd : Nat} {s : Sim} (inv : Inv numd s) (gps : s.GpsBlocked)
    (tx : s.tx = .unstarted ∨ s.TxBlocked) : s.gps = .blocked := by
  have gpsLock := inv.gpsLock
  rcases gps with blocked | ⟨pc, held⟩
  · exact blocked
  · rcases pc with pc | pc <;> rcases tx with idle | waits | ⟨txPc | txPc, -⟩ <;>
      simp_all [GpsPc.holds, TxPc.holds]

/-- Two threads that wait for each other would see a queue that is both empty and full. -/
theorem Inv.not_both_blocked {numd : Nat} {s : Sim} (inv : Inv numd s)
    (gps : s.gps = .blocked) : s.tx ≠ .blocked := by
  intro tx
  have full := inv.gpsBlocked gps
  have empty := inv.txWaits (by simp [gps]) (Or.inr (Or.inl tx))
  simp only [tx, TxPc.serving, Bool.false_eq_true, or_false] at full
  simp only [gps, GpsPc.stored, Bool.false_eq_true, false_and, or_false] at empty
  rw [empty] at full
  simp [getSampleLength, numIqSamples, txSamplerate] at full

theorem Inv.not_stuck {numd : Nat} {s : Sim} (inv : Inv numd s) : ¬ s.Stuck := by
  intro stuck
  rcases stuck with ⟨main, gps, tx⟩
  have gpsPc := inv.gps_eq_blocked gps tx
  have txPc := inv.not_both_blocked gpsPc
  have gpsLock := inv.gpsLock
  rcases tx with idle | waits | ⟨pc, held⟩
  · -- Before the transmitter is started the main thread waits for `initialization_done`.
    have notJoin := inv.txUnstarted.mp idle
    have txLock := inv.txLock
    rcases main with pc | ⟨pc | pc, held⟩ | pc
    · have full := inv.gpsBlocked gpsPc
      simp only [idle, TxPc.serving, Bool.false_eq_true, or_false, inv.idle idle] at full
      rcases inv.mainWaits (Or.inr pc) with unready | signal | short
      · have early := (inv.early unready).2
        simp [gpsPc] at early
      · simp [gpsPc] at signal
      · have running := inv.running (by simp [gpsPc]) (by simp [gpsPc])
        have iumd : s.iumd = 1 := by
          have := inv.iumd_pos
          omega
        rw [inv.first iumd (by simp [gpsPc, GpsPc.stored])] at full
        simp [getSampleLength, numIqSamples, txSamplerate] at full
    · simp [pc, MainPc.holds] at txLock
      exact held txLock
    · simp [pc, MainPc.holds] at txLock
      exact held txLock
    · exact notJoin pc
  · exact txPc waits
  · rcases pc with pc | pc <;> simp_all [GpsPc.holds, TxPc.holds]

theorem Inv.live {numd : Nat} {s : Sim} (inv : Inv numd s) : s.Live :=
  ⟨inv.not_stuck, fun ⟨gps, tx⟩ => inv.not_both_blocked gps tx⟩

/-! ## A lost wakeup is a deadlock -/

/-- With a full block queued and `gps.lock` free, the generator runs into the wait. -/
theorem gps_runs_to_blocked (numd : Nat) (s : Sim) (pc : s.gps = .readReady)
    (ready : s.ready = true) (free : s.gpsLock = none)
    (full : numIqSamples ≤ getSampleLength s.head s.tail) :
    ReachKept numd s { s with gps := .blocked } := by
  rcases s with ⟨head, tail, ready, txMutex, gpsMutex, main, gps, iumd, tx, remaining⟩
  dsimp only at pc ready free full
  subst pc ready free
  apply ReachIf.of_execIf (List.replicate 5 .gps)
  simp [List.replicate, execIf, LosesWakeup, program, stepGps, isFifoWriteReady,
    Nat.not_lt.mpr full]

/-- With room in the ring and `gps.lock` free, the generator gets to its copy. -/
theorem gps_finds_room (numd : Nat) (s : Sim) (pc : s.gps = .lock) (free : s.gpsLock = none)
    (room : isFifoWriteReady s.head s.tail = true) :
    ReachKept numd s { s with gps := .copy } := by
  rcases s with ⟨head, tail, ready, txMutex, gpsMutex, main, gps, iumd, tx, remaining⟩
  dsimp only at pc free room
  subst pc free
  apply ReachIf.of_execIf (List.replicate 4 .gps)
  simp [List.replicate, execIf, LosesWakeup, program, stepGps, room]

/-- With `head` at the start of the ring, the generator stores a block and starts the next
one. -/
theorem gps_stores_block (numd : Nat) (s : Sim) (pc : s.gps = .copy) (head : s.head = 0)
    (tail : s.tail = 0) (tx : s.tx = .unstarted) (more : s.iumd + 1 < numd) :
    ReachKept numd s
      { s with gps := .readReady, head := numIqSamples, iumd := s.iumd + 1 } := by
  rcases s with ⟨_, _, ready, txMutex, gpsMutex, main, gps, iumd, _, remaining⟩
  dsimp only at pc head tail tx more
  subst pc head tail tx
  apply ReachIf.of_execIf (List.replicate 5 .gps)
  simp [List.replicate, execIf, LosesWakeup, program, stepGps, forIumd, more,
    Sim.signalFifoReadReady, numIqSamples, fifoLength, txSamplerate]

/-- With the ring empty and `gps.lock` free, the generator writes a block and starts the
next one. -/
theorem gps_writes_block (numd : Nat) (s : Sim) (pc : s.gps = .lock) (free : s.gpsLock = none)
    (head : s.head = 0) (tail : s.tail = 0) (tx : s.tx = .unstarted)
    (more : s.iumd + 1 < numd) :
    ReachKept numd s
      { s with gps := .readReady, head := numIqSamples, iumd := s.iumd + 1 } := by
  have room : isFifoWriteReady s.head s.tail = true := by
    rw [head, tail]
    decide
  have copies := gps_finds_room numd s pc free room
  exact copies.trans (gps_stores_block numd { s with gps := .copy } rfl head tail tx more)

/-- The transmitter goes on from a stale empty queue into the wait. -/
theorem tx_runs_to_blocked (numd : Nat) (s : Sim)
    (pc : s.tx = .wait ∨ s.tx = .readTail s.tail) :
    ReachKept numd s { s with gpsLock := none, tx := .blocked } := by
  rcases s with ⟨head, tail, ready, txMutex, gpsMutex, main, gps, iumd, tx, remaining⟩
  dsimp only at pc
  rcases pc with rfl | rfl
  · exact ReachIf.of_execIf [.tx] (by simp [execIf, LosesWakeup, program, stepTx])
  · exact ReachIf.of_execIf [.tx, .tx]
      (by simp [execIf, LosesWakeup, program, stepTx, getSampleLength])

/-- The start-up signal was lost: the main thread waits, and the generator blocks after its
first block. -/
theorem stuck_of_lost_ready {numd : Nat} {s t : Sim} (inv : Inv numd s)
    (pc : s.gps = .signalReady) (main : s.main = .wait) (more : s.iumd + 1 < numd)
    (step : stepGps numd s = some t) : ∃ u, ReachKept numd t u ∧ u.Stuck := by
  have head := inv.first (inv.initializing (Or.inr pc)) (by simp [pc, GpsPc.stored])
  have tx : s.tx = .unstarted := inv.txUnstarted.mpr (by simp [main])
  have tail := inv.idle tx
  have ready := inv.ready (by simp [pc])
  have free : s.gpsLock = none := by
    simpa [pc, tx, GpsPc.holds, TxPc.holds] using inv.gpsLock
  have lost : s.signalInitializationDone = s := by
    simp [Sim.signalInitializationDone, main]
  simp only [stepGps, pc, lost, Option.some.injEq] at step
  subst step
  have block := gps_writes_block numd { s with gps := .lock } rfl free head
    tail tx more
  have wait := gps_runs_to_blocked numd
    { s with gps := .readReady, head := numIqSamples, iumd := s.iumd + 1 } rfl ready
    free (by simp [tail, getSampleLength, numIqSamples, txSamplerate])
  let u : Sim :=
    { s with
      gps := .blocked, head := numIqSamples, iumd := s.iumd + 1, txLock := none
      main := .blocked }
  have park : stepMain numd
      { s with gps := .blocked, head := numIqSamples, iumd := s.iumd + 1 } = some u := by
    simp [stepMain, main, u]
  exact ⟨u, (block.trans wait).tail ⟨.main, id, park⟩, Or.inl rfl, Or.inl rfl, Or.inl tx⟩

/-- The signal of a new block was lost: the transmitter waits with a full block in the ring,
and the generator blocks on it. -/
theorem stuck_of_lost_read {numd : Nat} {s t : Sim} (inv : Inv numd s)
    (pc : s.gps = .signalRead) (changed : s.head ≠ s.tail)
    (tx : s.tx = .wait ∨ s.tx = .readTail s.tail) (more : s.iumd + 1 < numd)
    (step : stepGps numd s = some t) : ∃ u, ReachKept numd t u ∧ u.Stuck := by
  have waits : s.tx = .wait ∨ s.tx = .blocked ∨ s.tx = .readTail s.tail := by tauto
  have full : getSampleLength s.head s.tail = numIqSamples :=
    ((inv.txWaits (by simp [pc]) waits).resolve_left changed).2
  have ready := inv.ready (by simp [pc])
  have main : s.main = .join := by
    by_contra notJoin
    have idle := inv.txUnstarted.mpr notJoin
    rcases tx with tx | tx <;> simp [tx] at idle
  have lost : s.signalFifoReadReady = s := by
    rcases tx with tx | tx <;> simp [Sim.signalFifoReadReady, tx]
  simp only [stepGps, pc, lost, Option.some.injEq, forIumd, more, if_true] at step
  subst step
  have wait := tx_runs_to_blocked numd { s with iumd := s.iumd + 1, gps := .readReady } tx
  have block := gps_runs_to_blocked numd
    { s with iumd := s.iumd + 1, gps := .readReady, gpsLock := none, tx := .blocked }
    rfl ready rfl full.ge
  exact ⟨_, wait.trans block, Or.inr (Or.inr main), Or.inl rfl, Or.inr (Or.inl rfl)⟩

/-- After a step that loses a wakeup some continuation of the run is stuck. -/
theorem stuck_of_losesWakeup {numd : Nat} {i : Thread} {s t : Sim} (inv : Inv numd s)
    (lost : LosesWakeup numd i s) (step : program numd i s = some t) :
    ∃ u, ReachKept numd t u ∧ u.Stuck := by
  cases i with
  | main => exact lost.elim
  | tx => exact lost.elim
  | gps =>
      obtain ⟨more, ⟨pc, main⟩ | ⟨pc, changed, tx⟩⟩ := lost
      · exact stuck_of_lost_ready inv pc main more step
      · exact stuck_of_lost_read inv pc changed tx more step

/-- **No deadlock without a lost wakeup, and only then.**  For every number of blocks and
every interleaving, a state reached by steps that lose no wakeup is live; and a further step
keeps every such continuation live exactly when it loses no wakeup itself. -/
theorem live_iff_no_lost_wakeup (numd : Nat) (s : Sim) (run : ReachKept numd Sim.init s) :
    s.Live ∧
      ∀ i t, program numd i s = some t →
        (¬ LosesWakeup numd i s ↔ ∀ u, ReachKept numd t u → u.Live) := by
  have inv := Inv.of_reachKept run
  refine ⟨inv.live, fun i t step => ⟨fun kept u rest => ?_, fun live lost => ?_⟩⟩
  · exact (Inv.of_reachKept ((run.tail ⟨i, kept, step⟩).trans rest)).live
  · obtain ⟨u, rest, stuck⟩ := stuck_of_losesWakeup inv lost step
    exact (live u rest).1 stuck


/-- The generator signals `initialization_done` between the main thread's read of `ready` and
its wait. -/
def lostReadySchedule : List Thread :=
  List.replicate 3 .main ++ List.replicate 2 .gps

/-- The generator stores and signals its first block between the transmitter's test of the
queue and its wait. -/
def lostReadSchedule : List Thread :=
  [.main] ++ List.replicate 3 .gps ++ List.replicate 7 .main ++ List.replicate 4 .gps ++
    List.replicate 3 .tx ++ List.replicate 4 .gps

/-- The run of `lostReadySchedule` loses no wakeup; the generator's next step does. -/
theorem live_iff_no_lost_wakeup_lostReady :
    ∃ s, execIf (program 3) (fun i s => ¬ LosesWakeup 3 i s) lostReadySchedule Sim.init
        = some s ∧ s.Live ∧
      ∃ t, program 3 .gps s = some t ∧ ¬ ∀ u, ReachKept 3 t u → u.Live := by
  refine ⟨_, rfl, ?_⟩
  have run : ReachKept 3 Sim.init _ :=
    ReachIf.of_execIf lostReadySchedule rfl
  have both := live_iff_no_lost_wakeup 3 _ run
  exact ⟨both.1, _, rfl, fun live => (both.2 .gps _ rfl).mpr live (by decide)⟩

/-- With two blocks to generate the generator and the main thread wait for each other before
the transmitter is started, and, in another run, the generator and the transmitter do. -/
theorem deadlock_reachable :
    (∃ s, Reach (program 3) Sim.init s ∧ s.Stuck ∧ s.iumd < 3 ∧
        s.main = .blocked ∧ s.gps = .blocked ∧ s.tx = .unstarted) ∧
      ∃ s, Reach (program 3) Sim.init s ∧ s.Stuck ∧ s.iumd < 3 ∧
        s.main = .join ∧ s.gps = .blocked ∧ s.tx = .blocked := by
  constructor
  · refine ⟨_, ReachIf.of_execIf (lostReadySchedule ++ [.gps, .main] ++
      List.replicate 14 .gps) rfl, ?_⟩
    exact ⟨⟨Or.inl rfl, Or.inl rfl, Or.inl rfl⟩, by decide, rfl, rfl, rfl⟩
  · refine ⟨_, ReachIf.of_execIf (lostReadSchedule ++ [.gps, .tx] ++
      List.replicate 5 .gps) rfl, ?_⟩
    exact ⟨⟨Or.inr (Or.inr rfl), Or.inl rfl, Or.inr (Or.inl rfl)⟩, by decide, rfl, rfl, rfl⟩

end Navisim.RealTime

import Navisim.RealTime.Threads

/-!
# What a step changes

For each thread: which variables its step writes, what becomes of the mutex, and where the other
two threads are afterwards.  The invariants of the three threads are derived from these facts, and
only the steps that matter to one of them are looked at again.
-/

namespace Navisim.RealTime

/-! ## Program points -/

/-- The main thread holds `tx.lock`. -/
def MainPc.holds : MainPc → Bool
  | .readReady | .wait | .unlock => true
  | _ => false

/-- The generator holds `gps.lock`. -/
def GpsPc.holds : GpsPc → Bool
  | .readHead | .readTail _ | .wait | .unlock => true
  | _ => false

/-- The transmitter holds `gps.lock`. -/
def TxPc.holds : TxPc → Bool
  | .unstarted | .lock | .blocked | .relock | .signalWrite _ | .send => false
  | _ => true

/-- The generator has stored a new `head` and has not signalled it yet. -/
def GpsPc.stored : GpsPc → Bool
  | .testHead | .loadWrap | .storeWrap _ | .signalRead => true
  | _ => false

/-- The transmitter has found samples and signals `fifo_write_ready` before it waits again. -/
def TxPc.serving : TxPc → Bool
  | .unstarted | .lock | .readHead | .readTail _ | .wait | .blocked | .relock | .send => false
  | _ => true

theorem forIumd_cases (numd iumd : Nat) :
    forIumd numd iumd = .readReady ∧ iumd < numd ∨ forIumd numd iumd = .finished := by
  unfold forIumd
  split
  · rename_i more
    exact Or.inl ⟨rfl, more⟩
  · exact Or.inr rfl

/-! ## Signals and mutexes -/

section Woken

variable {α β : Type*} {blocked relock before after : α}

/-- A thread that stays where it is, or is woken by a signal. -/
def Woken (blocked relock before after : α) : Prop :=
  after = before ∨ before = blocked ∧ after = relock

/-- What does not tell a woken thread from a blocked one is kept. -/
theorem Woken.map (woken : Woken blocked relock before after) (f : α → β)
    (same : f relock = f blocked) : f after = f before := by
  rcases woken with rfl | ⟨rfl, rfl⟩
  · rfl
  · exact same

/-- A thread is at another point if it was there before. -/
theorem Woken.eq_of_ne (woken : Woken blocked relock before after) (other : after ≠ relock) :
    before = after := by
  rcases woken with same | ⟨-, now⟩
  · exact same.symm
  · exact absurd now other

theorem Woken.at_iff (woken : Woken blocked relock before after) {pc : α}
    (notBlocked : blocked ≠ pc) (notRelock : relock ≠ pc) : after = pc ↔ before = pc := by
  rcases woken with rfl | ⟨rfl, rfl⟩
  · rfl
  · exact iff_of_false notRelock notBlocked

end Woken

/-- What a step of thread `i` does with a mutex, that it holds before and after the step if the
program counter says so: nothing, or it takes it, or it gives it back. -/
def LockMove (i : Thread) (lock lock' : Option Thread) (before after : Bool) : Prop :=
  (lock' = lock ∧ after = before) ∨
    (lock = none ∧ lock' = some i ∧ before = false ∧ after = true) ∨
    (lock' = none ∧ before = true ∧ after = false)

/-! ## The main thread -/

section Steps

variable {numd : Nat} {s t : Sim}

/-- A step of the main thread that starts no other thread. -/
structure MainFrame (s t : Sim) : Prop where
  here : s.main ≠ .startGps ∧ s.main ≠ .startTx ∧ s.main ≠ .join
  there : t.main ≠ .startGps ∧ t.main ≠ .join
  gps : Woken .blocked .relock s.gps t.gps
  tx : t.tx = s.tx
  head : t.head = s.head
  tail : t.tail = s.tail
  ready : t.ready = s.ready
  txLock : LockMove .main s.txLock t.txLock s.main.holds t.main.holds
  gpsLock : t.gpsLock = s.gpsLock
  iumd : t.iumd = s.iumd
  remaining : t.bufferSamplesRemaining = s.bufferSamplesRemaining
  wait : t.main = .wait → s.ready = false
  blocked : t.main = .blocked → s.main = .wait

theorem stepMain_cases (step : stepMain numd s = some t) :
    (s.main = .startGps ∧ t = { s with main := .lock, gps := forIumd numd s.iumd }) ∨
      (s.main = .startTx ∧ t = { s with main := .join, tx := .lock }) ∨ MainFrame s t := by
  rcases s with ⟨head, tail, ready, txMutex, gpsMutex, main, gps, iumd, tx, remaining⟩
  cases main <;> simp only [stepMain, reduceCtorEq, Option.some.injEq] at step
  case startGps => exact Or.inl ⟨rfl, step.symm⟩
  case startTx => exact Or.inr (Or.inl ⟨rfl, step.symm⟩)
  case signalWrite =>
    subst step
    refine Or.inr (Or.inr ?_)
    unfold Sim.signalFifoWriteReady
    split <;> constructor <;> simp_all [Woken, LockMove, MainPc.holds]
  all_goals
    refine Or.inr (Or.inr ?_)
    (try split at step) <;> cases step <;> constructor <;>
      simp_all [Woken, LockMove, MainPc.holds]

/-! ## The generator -/

/-- What a step of the generator leaves to the others. -/
structure GpsFrame (s t : Sim) : Prop where
  here : s.gps ≠ .unstarted ∧ s.gps ≠ .finished
  there : t.gps ≠ .unstarted
  main : Woken .blocked .relock s.main t.main
  tx : Woken .blocked .relock s.tx t.tx
  tail : t.tail = s.tail
  txLock : t.txLock = s.txLock
  gpsLock : LockMove .gps s.gpsLock t.gpsLock s.gps.holds t.gps.holds
  remaining : t.bufferSamplesRemaining = s.bufferSamplesRemaining
  signalReady : s.gps = .signalReady → t.main ≠ .blocked
  signalRead : s.gps = .signalRead → t.tx ≠ .blocked

theorem stepGps_frame (step : stepGps numd s = some t) : GpsFrame s t := by
  rcases s with ⟨head, tail, ready, txMutex, gpsMutex, main, gps, iumd, tx, remaining⟩
  cases gps <;> simp only [stepGps, reduceCtorEq, Option.some.injEq] at step
  case signalReady =>
    subst step
    unfold Sim.signalInitializationDone
    split <;> constructor <;> simp_all [Woken, LockMove, GpsPc.holds]
  case signalRead =>
    subst step
    unfold Sim.signalFifoReadReady
    rcases forIumd_cases numd (iumd + 1) with ⟨next, -⟩ | next <;> split <;> constructor <;>
      simp_all [Woken, LockMove, GpsPc.holds]
  all_goals
    (try split at step) <;> cases step <;> constructor <;>
      simp_all [Woken, LockMove, GpsPc.holds]

@[simp] theorem Sim.signalFifoReadReady_head : s.signalFifoReadReady.head = s.head := by
  unfold Sim.signalFifoReadReady
  split <;> rfl

@[simp] theorem Sim.signalFifoReadReady_ready : s.signalFifoReadReady.ready = s.ready := by
  unfold Sim.signalFifoReadReady
  split <;> rfl

/-- A step of the generator that does not write `head`, and is not the signal of a block. -/
structure GpsQuiet (s t : Sim) : Prop where
  here : s.gps ≠ .signalRead
  head : t.head = s.head
  iumd : t.iumd = s.iumd
  stored : t.gps.stored = s.gps.stored
  ready : s.gps ≠ .writeReady ∧ t.ready = s.ready ∨
    s.gps = .writeReady ∧ t.ready = true ∧ t.gps = .signalReady
  readReady : s.gps = .readReady → s.ready = false → t.gps = .writeReady
  wait : t.gps = .wait → ∃ head, s.gps = .readTail head ∧ isFifoWriteReady head s.tail = false
  blocked : t.gps = .blocked → s.gps = .wait
  finished : t.gps ≠ .finished
  writeReady : t.gps = .writeReady → s.ready = false
  signalReady : t.gps = .signalReady → s.gps = .writeReady

/-- **What a step of the generator does**: it writes `head`, once or for the second time, or it
signals a block, or nothing of this. -/
theorem stepGps_cases (step : stepGps numd s = some t) :
    (∃ head, s.gps = .storeHead head ∧
        t = { s with head := head + numIqSamples, gps := .testHead }) ∨
      (∃ head, s.gps = .storeWrap head ∧
        t = { s with head := head - fifoLength, gps := .signalRead }) ∨
      (s.gps = .signalRead ∧ t = { s.signalFifoReadReady with
        iumd := s.iumd + 1
        gps := forIumd numd (s.iumd + 1) }) ∨
      GpsQuiet s t := by
  rcases s with ⟨head, tail, ready, txMutex, gpsMutex, main, gps, iumd, tx, remaining⟩
  cases gps <;> simp only [stepGps, reduceCtorEq, Option.some.injEq] at step
  case storeHead value => exact Or.inl ⟨value, rfl, step.symm⟩
  case storeWrap value => exact Or.inr (Or.inl ⟨value, rfl, step.symm⟩)
  case signalRead => exact Or.inr (Or.inr (Or.inl ⟨rfl, step.symm⟩))
  case signalReady =>
    subst step
    refine Or.inr (Or.inr (Or.inr ?_))
    unfold Sim.signalInitializationDone
    split <;> constructor <;> simp [GpsPc.stored]
  all_goals
    refine Or.inr (Or.inr (Or.inr ?_))
    (try split at step) <;> cases step <;> constructor <;> simp_all [GpsPc.stored]

/-! ## The transmitter -/

/-- What a step of the transmitter leaves to the others. -/
structure TxFrame (s t : Sim) : Prop where
  here : s.tx ≠ .unstarted
  there : t.tx ≠ .unstarted
  main : t.main = s.main
  gps : Woken .blocked .relock s.gps t.gps
  head : t.head = s.head
  ready : t.ready = s.ready
  txLock : t.txLock = s.txLock
  gpsLock : LockMove .tx s.gpsLock t.gpsLock s.tx.holds t.tx.holds
  iumd : t.iumd = s.iumd

theorem stepTx_frame (step : stepTx s = some t) : TxFrame s t := by
  rcases s with ⟨head, tail, ready, txMutex, gpsMutex, main, gps, iumd, tx, remaining⟩
  cases tx <;> simp only [stepTx, reduceCtorEq, Option.some.injEq] at step
  case signalWrite =>
    subst step
    unfold Sim.signalFifoWriteReady
    dsimp only
    split <;> split <;> constructor <;> simp [Woken, LockMove, TxPc.holds, *]
  all_goals
    (try split at step) <;> cases step <;> constructor <;>
      simp_all [Woken, LockMove, TxPc.holds]

/-- **Who waits**: only a transmitter that found the queue empty. -/
theorem stepTx_waits (step : stepTx s = some t) :
    (t.tx = .wait → t.tail = s.tail ∧
      ∃ head, s.tx = .readTail head ∧ getSampleLength head s.tail = 0) ∧
    (t.tx = .blocked → t.tail = s.tail ∧ s.tx = .wait) ∧
    (∀ head, t.tx = .readTail head → t.tail = s.tail ∧ head = s.head) := by
  rcases s with ⟨head, tail, ready, txMutex, gpsMutex, main, gps, iumd, tx, remaining⟩
  cases tx <;> simp only [stepTx, reduceCtorEq, Option.some.injEq] at step
  case signalWrite =>
    subst step
    dsimp only
    split <;> simp
  all_goals
    (try split at step) <;> cases step <;> simp_all

/-- A transmitter that serves goes on to its signal. -/
theorem stepTx_serving (step : stepTx s = some t) (serving : s.tx.serving = true) :
    t.tx.serving = true ∨ t.gps ≠ .blocked := by
  rcases s with ⟨head, tail, ready, txMutex, gpsMutex, main, gps, iumd, tx, remaining⟩
  cases tx <;> simp only [stepTx, reduceCtorEq, Option.some.injEq, TxPc.serving,
    Bool.false_eq_true] at step serving
  case signalWrite =>
    subst step
    unfold Sim.signalFifoWriteReady
    split <;> simp_all
  all_goals
    (try split at step) <;> cases step <;> simp [TxPc.serving]

/-- The tail moves only while the transmitter serves and holds `gps.lock`. -/
theorem stepTx_tail (step : stepTx s = some t)
    (idle : s.tx.serving = false ∨ s.tx.holds = false) : t.tail = s.tail := by
  rcases s with ⟨head, tail, ready, txMutex, gpsMutex, main, gps, iumd, tx, remaining⟩
  cases tx <;> simp only [stepTx, reduceCtorEq, Option.some.injEq, TxPc.serving, TxPc.holds,
    Bool.true_eq_false, or_self] at step idle
  case signalWrite =>
    subst step
    unfold Sim.signalFifoWriteReady
    split <;> rfl
  all_goals
    (try split at step) <;> cases step <;> rfl

end Steps

end Navisim.RealTime

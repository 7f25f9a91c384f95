import Navisim.Lib.Interleaving
import Navisim.RealTime.Fifo

/-!
# The threads of the real-time path

`limeMain` (`lime_main.c`) starts the generator thread (`runCore_realTime`, `gpssim.c`), waits
for its first block, starts the transmit thread (`tx_task_realTime`) and joins it.  The two
threads share the ring positions `head` and `tail` under `gps.lock` and the condition variables
`fifo_write_ready` and `fifo_read_ready`; the start-up uses `gps.ready`, `tx.lock` and
`initialization_done`.

This module is the control skeleton of the three: every lock, unlock, wait, signal and every
read or write of `gps.ready`, `head` and `tail` is one atomic step, and a program counter
carries the values the thread holds in registers.  The samples themselves are in
`Navisim.RealTime.Transfer`.

* `pthread_cond_wait` is two program counters: `wait`, where the thread has decided to wait and
  still holds the mutex, and `blocked`, reached by releasing it.  A signal moves a blocked
  waiter to `relock`, and is lost when nobody is blocked.
* Each condition variable has one waiter only: `initialization_done` the main thread,
  `fifo_write_ready` the generator, `fifo_read_ready` the transmitter.
-/

namespace Navisim.RealTime

/-! ## Program counters -/

inductive Thread
  | main
  | gps
  | tx
  deriving DecidableEq, Repr

/-- `limeMain` from `start_gps_task` on. -/
inductive MainPc
  | startGps
  | lock
  | readReady
  | wait
  | blocked
  | relock
  | unlock
  | readHead
  | readTail (head : Int)
  | signalWrite
  | startTx
  | join
  deriving DecidableEq, Repr

/-- The loop over `iumd` of `runCore_realTime`, from `if (!s->gps.ready)` to
`pthread_cond_signal(&(s->fifo_read_ready))`. -/
inductive GpsPc
  | unstarted
  | readReady
  | writeReady
  | signalReady
  | lock
  | readHead
  | readTail (head : Int)
  | wait
  | blocked
  | relock
  | unlock
  | copy
  | loadHead
  | storeHead (head : Int)
  | testHead
  | loadWrap
  | storeWrap (head : Int)
  | signalRead
  | finished
  deriving DecidableEq, Repr

/-- `tx_task_realTime`, with the reads and writes of `fifo_read` in line: `samples` is the
value it will return, `left` what is still to be copied. -/
inductive TxPc
  | unstarted
  | lock
  | readHead
  | readTail (head : Int)
  | wait
  | blocked
  | relock
  | fifoHead
  | fifoTail (head : Int)
  | fifoRemaining (samples : Nat)
  | fifoCopyEnd (samples remaining : Nat)
  | fifoRestart (samples remaining : Nat)
  | fifoCopy (samples left : Nat)
  | fifoLoad (samples left : Nat)
  | fifoStore (samples left : Nat) (tail : Int)
  | fifoTest (samples : Nat)
  | fifoLoadWrap (samples : Nat)
  | fifoStoreWrap (samples : Nat) (tail : Int)
  | unlock (samples : Nat)
  | signalWrite (samples : Nat)
  | send
  deriving DecidableEq, Repr

/-- The shared part of `sim_t` and the three threads.  A mutex is the thread that holds it. -/
structure Sim where
  head : Int
  tail : Int
  ready : Bool
  txLock : Option Thread
  gpsLock : Option Thread
  main : MainPc
  gps : GpsPc
  iumd : Nat
  tx : TxPc
  bufferSamplesRemaining : Nat
  deriving DecidableEq, Repr

/-- `init_sim`. -/
def Sim.init : Sim where
  head := 0
  tail := 0
  ready := false
  txLock := none
  gpsLock := none
  main := .startGps
  gps := .unstarted
  iumd := 1
  tx := .unstarted
  bufferSamplesRemaining := samplesPerBuffer

/-! ## Signals -/

/-- `pthread_cond_signal(&(s->gps.initialization_done))` -/
def Sim.signalInitializationDone (s : Sim) : Sim :=
  if s.main = .blocked then { s with main := .relock } else s

/-- `pthread_cond_signal(&(s->fifo_write_ready))` -/
def Sim.signalFifoWriteReady (s : Sim) : Sim :=
  if s.gps = .blocked then { s with gps := .relock } else s

/-- `pthread_cond_signal(&(s->fifo_read_ready))` -/
def Sim.signalFifoReadReady (s : Sim) : Sim :=
  if s.tx = .blocked then { s with tx := .relock } else s

/-! ## Steps -/

/-- The head of `for (iumd=1; iumd<numd; iumd++)`. -/
def forIumd (numd iumd : Nat) : GpsPc :=
  if iumd < numd then .readReady else .finished

def stepMain (numd : Nat) (s : Sim) : Option Sim :=
  match s.main with
  | .startGps => some { s with main := .lock, gps := forIumd numd s.iumd }
  | .lock | .relock =>
      if s.txLock = none then some { s with txLock := some .main, main := .readReady } else none
  | .readReady => some { s with main := if s.ready then .unlock else .wait }
  | .wait => some { s with txLock := none, main := .blocked }
  | .blocked => none
  | .unlock => some { s with txLock := none, main := .readHead }
  | .readHead => some { s with main := .readTail s.head }
  | .readTail head =>
      some { s with main := if isFifoWriteReady head s.tail then .signalWrite else .startTx }
  | .signalWrite => some { s.signalFifoWriteReady with main := .startTx }
  | .startTx => some { s with main := .join, tx := .lock }
  | .join => none

def stepGps (numd : Nat) (s : Sim) : Option Sim :=
  match s.gps with
  | .unstarted => none
  | .readReady => some { s with gps := if s.ready then .lock else .writeReady }
  | .writeReady => some { s with ready := true, gps := .signalReady }
  | .signalReady => some { s.signalInitializationDone with gps := .lock }
  | .lock | .relock =>
      if s.gpsLock = none then some { s with gpsLock := some .gps, gps := .readHead } else none
  | .readHead => some { s with gps := .readTail s.head }
  | .readTail head =>
      some { s with gps := if isFifoWriteReady head s.tail then .unlock else .wait }
  | .wait => some { s with gpsLock := none, gps := .blocked }
  | .blocked => none
  | .unlock => some { s with gpsLock := none, gps := .copy }
  | .copy => some { s with gps := .loadHead }
  | .loadHead => some { s with gps := .storeHead s.head }
  | .storeHead head => some { s with head := head + numIqSamples, gps := .testHead }
  | .testHead => some { s with gps := if s.head ≥ fifoLength then .loadWrap else .signalRead }
  | .loadWrap => some { s with gps := .storeWrap s.head }
  | .storeWrap head => some { s with head := head - fifoLength, gps := .signalRead }
  | .signalRead =>
      some { s.signalFifoReadReady with iumd := s.iumd + 1, gps := forIumd numd (s.iumd + 1) }
  | .finished => none

def stepTx (s : Sim) : Option Sim :=
  match s.tx with
  | .unstarted => none
  | .lock | .relock =>
      if s.gpsLock = none then some { s with gpsLock := some .tx, tx := .readHead } else none
  | .readHead => some { s with tx := .readTail s.head }
  | .readTail head =>
      some { s with tx := if getSampleLength head s.tail = 0 then .wait else .fifoHead }
  | .wait => some { s with gpsLock := none, tx := .blocked }
  | .blocked => none
  | .fifoHead => some { s with tx := .fifoTail s.head }
  | .fifoTail head =>
      let length := getSampleLength head s.tail
      let samples := s.bufferSamplesRemaining
      some { s with tx := .fifoRemaining (if length < samples then length else samples) }
  | .fifoRemaining samples =>
      let remaining := (fifoLength - s.tail).toNat
      some { s with
        tx := if samples > remaining then .fifoCopyEnd samples remaining
              else .fifoCopy samples samples }
  | .fifoCopyEnd samples remaining => some { s with tx := .fifoRestart samples remaining }
  | .fifoRestart samples remaining =>
      some { s with tail := 0, tx := .fifoCopy samples (samples - remaining) }
  | .fifoCopy samples left => some { s with tx := .fifoLoad samples left }
  | .fifoLoad samples left => some { s with tx := .fifoStore samples left s.tail }
  | .fifoStore samples left tail => some { s with tail := tail + left, tx := .fifoTest samples }
  | .fifoTest samples =>
      some { s with tx := if s.tail ≥ fifoLength then .fifoLoadWrap samples else .unlock samples }
  | .fifoLoadWrap samples => some { s with tx := .fifoStoreWrap samples s.tail }
  | .fifoStoreWrap samples tail =>
      some { s with tail := tail - fifoLength, tx := .unlock samples }
  | .unlock samples => some { s with gpsLock := none, tx := .signalWrite samples }
  | .signalWrite samples =>
      let remaining := s.bufferSamplesRemaining - samples
      some { s.signalFifoWriteReady with
        bufferSamplesRemaining := remaining
        tx := if remaining > 0 then .lock else .send }
  | .send => some { s with bufferSamplesRemaining := samplesPerBuffer, tx := .lock }

/-- The three threads of a run that generates the blocks `iumd = 1 .. numd-1`. -/
def program (numd : Nat) : Interleaving.Program Thread Sim
  | .main => stepMain numd
  | .gps => stepGps numd
  | .tx => stepTx

end Navisim.RealTime

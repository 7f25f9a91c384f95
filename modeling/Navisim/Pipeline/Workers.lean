import Navisim.Lib.Interleaving
import Navisim.Loop.Allocate
import Navisim.Pipeline.File

/-!
# The main loop and its threads

`runCore2` creates three threads that run `threadChannelElabFunc`.  In every turn of its loop it
prepares the channels, unlocks `startSyncMutex` of each thread, writes the block before, and locks
`stopSyncMutex` of each thread before it adds up the buffers.  A thread locks its
`startSyncMutex`, computes a block and unlocks its `stopSyncMutex`.  Both mutexes are unlocked by
the side that did not lock them: they are used as binary semaphores, and are flags here that
are `true` where a lock does not wait.

* A sample of a thread is one step, and so is every turn of the loops of the main thread over
  channels, satellites, threads and samples.
* What a thread computes, and at which blocks the navigation messages are renewed and the
  ephemerides refreshed, are parameters: they depend on data that the hand-over does not look at.
* The main thread ends where it joins the threads.
-/

namespace Navisim.Pipeline

open Signal Loop

/-! ## Program counters -/

/-- `runCore2` from the creation of the threads on. -/
inductive MainPc
  | setUp (iThread : Nat)
  | create (iThread : Nat)
  | head
  | update (i : Nat)
  | point (iThread : Nat)
  | giveStart (iThread : Nat)
  | write
  | clear
  | takeStop (iThread : Nat)
  | add (iThread i : Nat)
  | testRenewal
  | renewMessage (i : Nat)
  | testRefresh
  | newSubframes (i : Nat)
  | allocate (sv : Nat)
  | advance
  | lockRunning (iThread : Nat)
  | clearRunning (iThread : Nat)
  | unlockRunning (iThread : Nat)
  | giveLastStart (iThread : Nat)
  | giveLastStop (iThread : Nat)
  | join
  deriving DecidableEq, Repr

/-- `threadChannelElabFunc`. -/
inductive WorkerPc
  | uncreated
  | takeStart
  | lockRunning
  | readRunning
  | unlockRunning
  | compute (isamp : Nat)
  | giveStop
  | finished
  deriving DecidableEq, Repr

/-- A `thread_channel`, the local `isRunning` of its thread (`running`) and the number of blocks
the thread has given back. -/
structure ThreadChannel where
  startSyncMutex : Bool
  stopSyncMutex : Bool
  runningMutex : Bool
  isRunning : Bool
  accBuff : Nat → Int × Int
  pc : WorkerPc
  running : Bool
  completed : Nat

/-- The main thread with its accumulators and its file, and the three `thread_channel`s. -/
structure Sim where
  main : MainPc
  iumd : Nat
  accArr : Nat → Int × Int
  file : List (BitVec 16)
  thread : Nat → ThreadChannel

/-- What a run depends on. -/
structure Params where
  numd : Int
  /-- `iq_buff_size` -/
  bufferSize : Nat
  /-- What thread `iThread` computes for a sample of a block. -/
  results : Results
  /-- `igrx%300==0` in block `iumd` -/
  renews : Nat → Bool
  /-- The next set of ephemerides is due in block `iumd`. -/
  refreshes : Nat → Bool

/-- Before the threads are created; the buffers hold whatever lies in memory. -/
def Sim.init (accArr : Nat → Int × Int) (accBuff : Nat → Nat → Int × Int) : Sim where
  main := .setUp 0
  iumd := 1
  accArr := accArr
  file := []
  thread := fun iThread =>
    { startSyncMutex := true
      stopSyncMutex := true
      runningMutex := true
      isRunning := false
      accBuff := accBuff iThread
      pc := .uncreated
      running := true
      completed := 0 }

/-! ## Steps -/

/-- A change of one `thread_channel` on the way to `next`. -/
def Sim.onThread (s : Sim) (iThread : Nat) (f : ThreadChannel → ThreadChannel) (next : MainPc) :
    Sim :=
  { s with main := next, thread := Function.update s.thread iThread (f (s.thread iThread)) }

/-- `for (iThread=0; iThread<NUMBER_OF_THREAD; iThread++)` -/
def nextThread (iThread : Nat) (again : Nat → MainPc) (behind : MainPc) : MainPc :=
  if iThread + 1 < numberOfThread then again (iThread + 1) else behind

/-- `for (i=0; i<MAX_CHAN; i++)` -/
def nextChannel (i : Nat) (again : Nat → MainPc) (behind : MainPc) : MainPc :=
  if i + 1 < maxChan then again (i + 1) else behind

/-- `for (sv=0; sv<MAX_SAT; sv++)` -/
def nextSatellite (sv : Nat) : MainPc :=
  if sv + 1 < maxSat then .allocate (sv + 1) else .advance

/-- The loops that add the buffers up. -/
def firstAdd (bufferSize : Nat) : MainPc :=
  if 0 < bufferSize then .add 0 0 else .testRenewal

def nextAdd (bufferSize iThread i : Nat) : MainPc :=
  if i + 1 < bufferSize then .add iThread (i + 1)
  else nextThread iThread (fun iThread => .add iThread 0) .testRenewal

/-- The head of `for (iumd=1; iumd<numd; iumd++)`. -/
def forIumd (numd : Int) (iumd : Nat) : MainPc :=
  if (iumd : Int) < numd then .update 0 else .lockRunning 0

def stepMain (p : Params) (s : Sim) : Option Sim :=
  match s.main with
  | .setUp iThread =>
      some (s.onThread iThread (fun t => { t with
        startSyncMutex := false
        stopSyncMutex := false
        runningMutex := true
        isRunning := true }) (.create iThread))
  | .create iThread =>
      some (s.onThread iThread (fun t => { t with pc := .takeStart })
        (nextThread iThread .setUp .head))
  | .head => some { s with main := forIumd p.numd s.iumd }
  | .update i => some { s with main := nextChannel i .update (.point 0) }
  | .point iThread => some { s with main := nextThread iThread .point (.giveStart 0) }
  | .giveStart iThread =>
      some (s.onThread iThread (fun t => { t with startSyncMutex := true })
        (nextThread iThread .giveStart .write))
  | .write =>
      some { s with
        file := if s.iumd > 1 then s.file ++ iqBuff p.bufferSize s.accArr else s.file
        main := .clear }
  | .clear => some { s with accArr := fun _ => 0, main := .takeStop 0 }
  | .takeStop iThread =>
      if (s.thread iThread).stopSyncMutex then
        some (s.onThread iThread (fun t => { t with stopSyncMutex := false })
          (nextThread iThread .takeStop (firstAdd p.bufferSize)))
      else none
  | .add iThread i =>
      some { s with
        accArr := Function.update s.accArr i (s.accArr i + (s.thread iThread).accBuff i)
        main := nextAdd p.bufferSize iThread i }
  | .testRenewal => some { s with main := if p.renews s.iumd then .renewMessage 0 else .advance }
  | .renewMessage i => some { s with main := nextChannel i .renewMessage .testRefresh }
  | .testRefresh =>
      some { s with main := if p.refreshes s.iumd then .newSubframes 0 else .allocate 0 }
  | .newSubframes i => some { s with main := nextChannel i .newSubframes (.allocate 0) }
  | .allocate sv => some { s with main := nextSatellite sv }
  | .advance => some { s with iumd := s.iumd + 1, main := .head }
  | .lockRunning iThread =>
      if (s.thread iThread).runningMutex then
        some (s.onThread iThread (fun t => { t with runningMutex := false })
          (.clearRunning iThread))
      else none
  | .clearRunning iThread =>
      some (s.onThread iThread (fun t => { t with isRunning := false })
        (.unlockRunning iThread))
  | .unlockRunning iThread =>
      some (s.onThread iThread (fun t => { t with runningMutex := true })
        (.giveLastStart iThread))
  | .giveLastStart iThread =>
      some (s.onThread iThread (fun t => { t with startSyncMutex := true })
        (.giveLastStop iThread))
  | .giveLastStop iThread =>
      some (s.onThread iThread (fun t => { t with stopSyncMutex := true })
        (nextThread iThread .lockRunning .join))
  | .join => none

/-- A step of a thread: it reads and writes its own `thread_channel` and no other. -/
def stepWorker (p : Params) (iThread : Nat) (t : ThreadChannel) : Option ThreadChannel :=
  match t.pc with
  | .uncreated => none
  | .takeStart =>
      if t.startSyncMutex then some { t with startSyncMutex := false, pc := .lockRunning }
      else none
  | .lockRunning =>
      if t.runningMutex then some { t with runningMutex := false, pc := .readRunning } else none
  | .readRunning => some { t with running := t.isRunning, pc := .unlockRunning }
  | .unlockRunning =>
      some { t with
        runningMutex := true
        pc := if 0 < p.bufferSize then .compute 0 else .giveStop }
  | .compute isamp =>
      some { t with
        accBuff := Function.update t.accBuff isamp (p.results (t.completed + 1) iThread isamp)
        pc := if isamp + 1 < p.bufferSize then .compute (isamp + 1) else .giveStop }
  | .giveStop =>
      some { t with
        stopSyncMutex := true
        completed := t.completed + 1
        pc := if t.running then .takeStart else .finished }
  | .finished => none

inductive Thread
  | main
  | worker (iThread : Nat)
  deriving DecidableEq, Repr

/-- `runCore2` and its threads. -/
def program (p : Params) : Interleaving.Program Thread Sim
  | .main, s => stepMain p s
  | .worker iThread, s =>
      if iThread < numberOfThread then
        (stepWorker p iThread (s.thread iThread)).map fun t =>
          { s with thread := Function.update s.thread iThread t }
      else none

/-! ## Program points -/

/-- The main thread reads the buffers of the threads, changes channels, their navigation words or
the pointers to them, or renews the allocation. -/
def MainPc.touches : MainPc → Bool
  | .update _ | .point _ | .add _ _ | .renewMessage _ | .newSubframes _ | .allocate _ => true
  | _ => false

/-- The thread has taken `startSyncMutex` and not given `stopSyncMutex` yet. -/
def WorkerPc.busy : WorkerPc → Bool
  | .lockRunning | .readRunning | .unlockRunning | .compute _ | .giveStop => true
  | _ => false

end Navisim.Pipeline

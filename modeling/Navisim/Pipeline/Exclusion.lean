import Navisim.Lib.Handover
import Navisim.Pipeline.Workers

/-!
# Exclusive access in the main loop

Each thread gets the right to work with `startSyncMutex` and gives it back with `stopSyncMutex`.
The program counter of the main thread says how far it is with each of them in this turn
(`stage`), and that is where the right to work is (`ThreadOk`).  Wherever the main thread touches
what the threads work on, it has all three rights (`exclusive_access`).
-/

namespace Navisim.Pipeline

open Interleaving Signal Loop Handover

/-! ## How far the main thread is with a thread -/

/-- The dealings of the main thread with one of its threads, in a turn of its loop. -/
inductive Stage
  | absent
  | setUp
  | before
  | given
  | collected
  | behind
  deriving DecidableEq, Repr

def MainPc.stage : MainPc → Nat → Stage
  | .setUp iThread, j => if j < iThread then .before else .absent
  | .create iThread, j => if j < iThread then .before else if j = iThread then .setUp else .absent
  | .head, _ | .update _, _ | .point _, _ => .before
  | .giveStart iThread, j => if j < iThread then .given else .before
  | .write, _ | .clear, _ => .given
  | .takeStop iThread, j => if j < iThread then .collected else .given
  | .add _ _, _ | .testRenewal, _ | .renewMessage _, _ | .testRefresh, _ | .newSubframes _, _
  | .allocate _, _ | .advance, _ => .collected
  | .lockRunning _, _ | .clearRunning _, _ | .unlockRunning _, _ | .giveLastStart _, _
  | .giveLastStop _, _ | .join, _ => .behind

/-- The main thread touches nothing that the threads work on between giving and collecting. -/
theorem MainPc.stage_of_touches {main : MainPc} (touches : main.touches = true) (j : Nat) :
    main.stage j = .before ∨ main.stage j = .collected := by
  cases main <;> simp_all [MainPc.touches, MainPc.stage]

/-- What a step of the main thread does with one thread: its stage, the block number and its
`thread_channel` before and after the step. -/
inductive Turn (iumd : Nat) (t : ThreadChannel) : Stage → Stage → Nat → ThreadChannel → Prop
  | rest (stage : Stage) : Turn iumd t stage stage iumd t
  | setUp :
    Turn iumd t .absent .setUp iumd { t with
      startSyncMutex := false
      stopSyncMutex := false
      runningMutex := true
      isRunning := true }
  | create : Turn iumd t .setUp .before iumd { t with pc := .takeStart }
  | give : Turn iumd t .before .given iumd { t with startSyncMutex := true }
  | collect (free : t.stopSyncMutex = true) :
    Turn iumd t .given .collected iumd { t with stopSyncMutex := false }
  | advance : Turn iumd t .collected .before (iumd + 1) t
  | leave (stage : Stage) (iumd' : Nat) (t' : ThreadChannel) : Turn iumd t stage .behind iumd' t'

section Steps

variable {p : Params} {s t : Sim} {j : Nat}

/-- The stage of a thread behind the turn `i` of a loop over the threads: `done` for the threads
up to `i` and `open_` for the others. -/
theorem stage_nextThread {again : Nat → MainPc} {behind : MainPc} {done open_ : Stage} {i : Nat}
    (inThreads : j < numberOfThread)
    (next : (again (i + 1)).stage j = if j < i + 1 then done else open_)
    (last : behind.stage j = done) :
    (nextThread i again behind).stage j = if j < i + 1 then done else open_ := by
  unfold nextThread
  split
  · exact next
  · rw [last, if_pos (by omega)]

@[simp] theorem onThread_self (s : Sim) (j : Nat) (f : ThreadChannel → ThreadChannel)
    (next : MainPc) : (s.onThread j f next).thread j = f (s.thread j) :=
  Function.update_self ..

theorem onThread_other (s : Sim) {i j : Nat} (other : j ≠ i) (f : ThreadChannel → ThreadChannel)
    (next : MainPc) : (s.onThread i f next).thread j = s.thread j :=
  Function.update_of_ne other ..

/-- A step about thread `i`: the other threads rest. -/
theorem turn_onThread {i : Nat} {f : ThreadChannel → ThreadChannel} {next : MainPc}
    {stage stage' : Stage} (others : j ≠ i → next.stage j = s.main.stage j)
    (here : s.main.stage i = stage) (there : j = i → next.stage j = stage')
    (turn : Turn s.iumd (s.thread i) stage stage' s.iumd (f (s.thread i))) :
    Turn s.iumd (s.thread j) (s.main.stage j) ((s.onThread i f next).main.stage j)
      (s.onThread i f next).iumd ((s.onThread i f next).thread j) := by
  change Turn _ _ _ (next.stage j) s.iumd _
  rcases eq_or_ne j i with rfl | other
  · rw [onThread_self, here, there rfl]
    exact turn
  · rw [onThread_other s other, others other]
    exact Turn.rest _

/-- Turn `i` of a loop over the threads: it makes `done` of the stage of thread `i`, and leaves
those before it at `done` and those behind it at `open_`. -/
theorem turn_forThreads {i : Nat} {f : ThreadChannel → ThreadChannel} {next : MainPc}
    {stage done open_ : Stage} (earlier : j < i → s.main.stage j = done)
    (here : s.main.stage i = stage) (later : i < j → s.main.stage j = open_)
    (moved : next.stage j = if j < i + 1 then done else open_)
    (turn : Turn s.iumd (s.thread i) stage done s.iumd (f (s.thread i))) :
    Turn s.iumd (s.thread j) (s.main.stage j) ((s.onThread i f next).main.stage j)
      (s.onThread i f next).iumd ((s.onThread i f next).thread j) := by
  refine turn_onThread (fun other => ?_) here (fun same => ?_) turn
  · rcases lt_or_gt_of_ne other with before | behind
    · rw [moved, if_pos (by omega), earlier before]
    · rw [moved, if_neg (by omega), later behind]
  · rw [moved, if_pos (by omega)]

/-- **What a step of the main thread does with a thread.** -/
theorem stepMain_turn (inThreads : j < numberOfThread) (step : stepMain p s = some t) :
    Turn s.iumd (s.thread j) (s.main.stage j) (t.main.stage j) t.iumd (t.thread j) := by
  rcases s with ⟨main, iumd, accArr, file, thread⟩
  cases main <;> simp only [stepMain, reduceCtorEq, Option.some.injEq] at step
  case setUp i =>
    subst step
    refine turn_onThread (fun other => ?_) ?_ (fun here => ?_) Turn.setUp
    · simp [MainPc.stage, other]
    · exact if_neg (lt_irrefl i)
    · exact (if_neg (by omega)).trans (if_pos here)
  case create i =>
    subst step
    have next : (nextThread i .setUp .head).stage j = if j < i + 1 then .before else .absent :=
      stage_nextThread inThreads rfl rfl
    refine turn_forThreads (fun before => if_pos before) ?_ (fun behind => ?_) next Turn.create
    · exact (if_neg (lt_irrefl i)).trans (if_pos rfl)
    · exact (if_neg behind.not_gt).trans (if_neg behind.ne')
  case giveStart i =>
    subst step
    have next : (nextThread i .giveStart .write).stage j = if j < i + 1 then .given else .before :=
      stage_nextThread inThreads rfl rfl
    exact turn_forThreads (fun before => if_pos before) (if_neg (lt_irrefl i))
      (fun behind => if_neg behind.not_gt) next Turn.give
  case takeStop i =>
    have behind : (firstAdd p.bufferSize).stage j = .collected := by
      unfold firstAdd
      split <;> rfl
    have next : (nextThread i .takeStop (firstAdd p.bufferSize)).stage j =
        if j < i + 1 then .collected else .given := stage_nextThread inThreads rfl behind
    split at step
    · rename_i free
      cases step
      exact turn_forThreads (fun before => if_pos before) (if_neg (lt_irrefl i))
        (fun behind => if_neg behind.not_gt) next (Turn.collect free)
    · cases step
  case advance =>
    subst step
    exact Turn.advance
  case head =>
    subst step
    dsimp only [forIumd]
    split
    · exact Turn.rest _
    · exact Turn.leave ..
  case lockRunning i =>
    split at step
    · cases step
      exact Turn.leave ..
    · cases step
  case clearRunning i | unlockRunning i | giveLastStart i =>
    subst step
    exact Turn.leave ..
  case giveLastStop i =>
    subst step
    have next : (nextThread i .lockRunning .join).stage j = .behind := by
      unfold nextThread
      split <;> rfl
    exact next ▸ Turn.leave ..
  all_goals
    subst step
    dsimp only [nextChannel, nextSatellite, nextAdd, nextThread]
    (try split_ifs) <;> exact Turn.rest _

end Steps

/-! ## The invariant -/

/-- A thread that runs: the right to work is at `place`. -/
structure Running (t : ThreadChannel) (place : Place) : Prop where
  shows : Shows place t.startSyncMutex t.stopSyncMutex t.pc.busy
  resting : t.pc.busy = false → t.pc = .takeStart
  isRunning : t.isRunning = true
  running : t.running = true

/-- A thread that is still to be created. -/
structure Uncreated (t : ThreadChannel) : Prop where
  pc : t.pc = .uncreated
  running : t.running = true
  completed : t.completed = 0

/-- What holds of a thread in block `iumd`, by what the main thread has done with it. -/
def ThreadOk (iumd : Nat) (t : ThreadChannel) : Stage → Prop
  | .absent => Uncreated t ∧ iumd = 1
  | .setUp =>
      Uncreated t ∧ iumd = 1 ∧
        t.startSyncMutex = false ∧ t.stopSyncMutex = false ∧ t.isRunning = true
  | .before => Running t .owner ∧ t.completed + 1 = iumd
  | .given => ∃ place ≠ .owner, Running t place ∧ t.completed + place.left = iumd
  | .collected => Running t .owner ∧ t.completed = iumd
  | .behind => True

def Sim.Ok (s : Sim) : Prop :=
  ∀ j < numberOfThread, ThreadOk s.iumd (s.thread j) (s.main.stage j)

section Invariant

variable {p : Params} {s t : Sim}

theorem ok_init (accArr : Nat → Int × Int) (accBuff : Nat → Nat → Int × Int) :
    (Sim.init accArr accBuff).Ok := by
  intro j _
  exact ⟨⟨rfl, rfl, rfl⟩, rfl⟩

/-- The main thread keeps what holds of each thread. -/
theorem ThreadOk.turn {iumd iumd' : Nat} {t t' : ThreadChannel} {stage stage' : Stage}
    (ok : ThreadOk iumd t stage) (turn : Turn iumd t stage stage' iumd' t') :
    ThreadOk iumd' t' stage' := by
  cases turn with
  | rest => exact ok
  | setUp =>
      obtain ⟨⟨pc, running, completed⟩, first⟩ := ok
      exact ⟨⟨pc, running, completed⟩, first, rfl, rfl, rfl⟩
  | create =>
      obtain ⟨⟨-, running, completed⟩, first, start, stop, isRunning⟩ := ok
      have shows_ : Shows .owner t.startSyncMutex t.stopSyncMutex WorkerPc.takeStart.busy := by
        rw [start, stop]
        exact shows_owner
      refine ⟨⟨shows_, fun _ => rfl, isRunning, running⟩, ?_⟩
      dsimp only
      rw [completed, first]
  | give =>
      obtain ⟨⟨shows_, resting, isRunning, running⟩, count⟩ := ok
      exact ⟨.offered, by decide, ⟨shows_.give, resting, isRunning, running⟩, count⟩
  | collect free =>
      obtain ⟨place, -, ⟨shows_, resting, isRunning, running⟩, count⟩ := ok
      rw [free] at shows_
      obtain ⟨rfl, home⟩ := shows_.collect
      exact ⟨⟨home, resting, isRunning, running⟩, count⟩
  | advance =>
      obtain ⟨running, count⟩ := ok
      exact ⟨running, by rw [count]⟩
  | leave => exact trivial

/-- A step inside a block. -/
theorem Running.work {t t' : ThreadChannel} {place : Place} (ok : Running t place)
    (busy : t.pc.busy = true) (busy' : t'.pc.busy = true)
    (start : t'.startSyncMutex = t.startSyncMutex) (stop : t'.stopSyncMutex = t.stopSyncMutex)
    (isRunning : t'.isRunning = t.isRunning) (running : t'.running = true)
    (completed : t'.completed = t.completed) :
    place ≠ .owner ∧ ∃ place' ≠ .owner, Running t' place' ∧
      t'.completed + place'.left = t.completed + place.left := by
  have shows_ := ok.shows
  rw [busy] at shows_
  have away : place ≠ .owner := by
    rw [shows_.works.mp rfl]
    decide
  refine ⟨away, place, away, ⟨?_, fun rests => ?_, isRunning.trans ok.isRunning, running⟩, ?_⟩
  · rw [start, stop, busy']
    exact shows_
  · rw [busy'] at rests
    cases rests
  · rw [completed]

/-- A thread moves only with the right to work or where it takes it, and completes a block where
it gives the right back. -/
theorem Running.stepWorker {iThread : Nat} {t t' : ThreadChannel} {place : Place}
    (ok : Running t place) (step : stepWorker p iThread t = some t') :
    place ≠ .owner ∧ ∃ place' ≠ .owner, Running t' place' ∧
      t'.completed + place'.left = t.completed + place.left := by
  have shows_ := ok.shows
  unfold Pipeline.stepWorker at step
  cases here : t.pc <;> rw [here] at shows_ <;>
    simp only [here, reduceCtorEq, Option.ite_none_right_eq_some, Option.some.injEq] at step
  case takeStart =>
    obtain ⟨free, rfl⟩ := step
    rw [free] at shows_
    obtain ⟨rfl, taken⟩ := shows_.take
    have running : Running { t with startSyncMutex := false, pc := .lockRunning } .helper :=
      ⟨taken, fun rests => Bool.noConfusion rests, ok.isRunning, ok.running⟩
    exact ⟨by decide, .helper, by decide, running, rfl⟩
  case lockRunning =>
    obtain ⟨-, rfl⟩ := step
    exact ok.work (congrArg WorkerPc.busy here) rfl rfl rfl rfl ok.running rfl
  case readRunning =>
    subst step
    exact ok.work (congrArg WorkerPc.busy here) rfl rfl rfl rfl ok.isRunning rfl
  case unlockRunning | compute =>
    subst step
    refine ok.work (congrArg WorkerPc.busy here) ?_ rfl rfl rfl ok.running rfl
    dsimp only
    split <;> rfl
  case giveStop =>
    subst step
    obtain ⟨rfl, returned⟩ := shows_.giveBack
    refine ⟨by decide, .returned, by decide, ⟨?_, fun _ => ?_, ok.isRunning, ok.running⟩, rfl⟩
    · dsimp only
      rw [ok.running]
      exact returned
    · dsimp only
      rw [ok.running]
      rfl

/-- A thread keeps what holds of it. -/
theorem ThreadOk.stepWorker {iThread iumd : Nat} {t t' : ThreadChannel} {stage : Stage}
    (ok : ThreadOk iumd t stage) (step : stepWorker p iThread t = some t') :
    ThreadOk iumd t' stage := by
  cases stage with
  | absent | setUp =>
      have asleep : t.pc = .uncreated := ok.1.pc
      simp only [Pipeline.stepWorker, asleep, reduceCtorEq] at step
  | before | collected => exact absurd rfl (ok.1.stepWorker step).1
  | given =>
      obtain ⟨place, -, running, count⟩ := ok
      obtain ⟨-, place', away, running', count'⟩ := running.stepWorker step
      exact ⟨place', away, running', count'.trans count⟩
  | behind => exact trivial

theorem Sim.Ok.step (ok : s.Ok) (i : Thread) (step : program p i s = some t) : t.Ok := by
  intro j inThreads
  cases i with
  | main => exact (ok j inThreads).turn (stepMain_turn inThreads step)
  | worker iThread =>
      simp only [program, Option.ite_none_right_eq_some, Option.map_eq_some_iff] at step
      obtain ⟨-, t', moved, rfl⟩ := step
      rcases eq_or_ne j iThread with rfl | other
      · dsimp only
        rw [Function.update_self]
        exact (ok j inThreads).stepWorker moved
      · dsimp only
        rw [Function.update_of_ne other]
        exact ok j inThreads

theorem ok_of_reach {accArr : Nat → Int × Int} {accBuff : Nat → Nat → Int × Int}
    (run : Reach (program p) (Sim.init accArr accBuff) s) : s.Ok :=
  ReachIf.invariant (ok_init accArr accBuff) (fun i _ _ _ ok step => ok.step i step) run

/-- A thread rests where the main thread has the right to work. -/
theorem Running.rests {t : ThreadChannel} (ok : Running t .owner) : t.pc.busy = false :=
  ok.shows.at_owner.2.2

end Invariant

/-- **Exclusive access.**  Under every interleaving of the main loop with its threads, no thread
is between taking `startSyncMutex` and giving `stopSyncMutex` while the main thread reads the
buffers, changes channels, navigation words or the channel pointers or renews the allocation, and
when it adds the buffers of block `iumd` every thread has completed `iumd` blocks. -/
theorem exclusive_access (p : Params) (accArr : Nat → Int × Int)
    (accBuff : Nat → Nat → Int × Int) {s : Sim}
    (run : Reach (program p) (Sim.init accArr accBuff) s) :
    (s.main.touches = true → ∀ j < numberOfThread, (s.thread j).pc.busy = false) ∧
      (∀ iThread i, s.main = .add iThread i →
        ∀ j < numberOfThread, (s.thread j).completed = s.iumd) := by
  have ok := ok_of_reach run
  refine ⟨fun touches j inThreads => ?_, fun iThread i adding j inThreads => ?_⟩
  · have here := ok j inThreads
    rcases MainPc.stage_of_touches touches j with stage | stage <;> rw [stage] at here
    · exact here.1.rests
    · exact here.1.rests
  · have here := ok j inThreads
    rw [adding] at here
    exact here.2

/-- One block of one sample: the main thread up to the buffers, with the block of every thread in
between. -/
def oneBlock : List Thread :=
  List.replicate 27 .main ++
    (List.range numberOfThread).flatMap (fun iThread => List.replicate 6 (.worker iThread)) ++
    List.replicate 3 .main

def oneSample : Params where
  numd := 2
  bufferSize := 1
  results := fun _ _ _ => 0
  renews := fun _ => false
  refreshes := fun _ => false

/-- The main thread gets to the buffers of the first block. -/
theorem exclusive_access_oneBlock :
    ∃ s : Sim, s.main = .add 0 0 ∧ (∀ j < numberOfThread, (s.thread j).pc.busy = false) ∧
      ∀ j < numberOfThread, (s.thread j).completed = s.iumd := by
  have arrives : (execIf (program oneSample) (fun _ _ => True) oneBlock
      (Sim.init (fun _ => 0) fun _ _ => 0)).map Sim.main = some (.add 0 0) := by
    decide +kernel
  obtain ⟨s, moved, adding⟩ := Option.map_eq_some_iff.mp arrives
  have run : Reach (program oneSample) (Sim.init (fun _ => 0) fun _ _ => 0) s :=
    ReachIf.of_execIf oneBlock moved
  obtain ⟨rest, count⟩ := exclusive_access oneSample (fun _ => 0) (fun _ _ => 0) run
  exact ⟨s, adding, rest (by rw [adding]; rfl), count 0 0 adding⟩

end Navisim.Pipeline

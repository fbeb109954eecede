import Loomworks.CancelIndex
import Loomworks.Coroutine
import Loomworks.Future
import Loomworks.Lanes
import Loomworks.Lifecycle

/- The thread pool (src/thread_pool.c) with ring, deques, lanes, cancel index,
coroutines and resizes. A step is one section held under pool->lock, one
completed submit, one semaphore operation or one piece of work outside the lock.
A task is named by its id and lives in the table tasks, apart from the memory it
is created in. -/
namespace Loomworks.Pool

open Loomworks.Coro (CoroResult CoroState)

def dequeCapacity : Nat := 256

def bulkDequeue : Nat := 8

def stealTries : Nat := 3

def priorityNormal : UInt8 := 5

/-- The fields of loom_task_t that the pool's logic reads; completion says that
the pointer is not NULL. awaited remembers that the submitter was given a future
for a coroutine. -/
structure Task where
  userData : Nat := 0
  priority : UInt8 := priorityNormal
  cancelled : Bool := false
  isFuture : Bool := false
  isCoro : Bool := false
  completion : Bool := false
  awaited : Bool := false
  deriving DecidableEq, Repr

/-- Why a task node was handed to task_destroy: recycled when its function was
dispatched, or the end of a coroutine task, or a cancellation. leaked: before it,
loom_coro_destroy has refused the coroutine. -/
inductive Ending where
  | dispatched | returned | cancelled | failed | leaked
  deriving DecidableEq, Repr

/-- Where a worker thread is. ready: Step C0 has taken a ready node; dispatching:
a coroutine task was dequeued and is to be created; leaving: the worker was
displaced by a resize. -/
inductive WorkerPc where
  | absent
  | looping
  | waiting
  | running (t : Nat)
  | dispatching (t : Nat)
  | ready (t : Nat)
  | inBody (t : Nat) (first : Bool)
  | leaving
  | exited
  deriving DecidableEq, Repr

structure TimerEntry where
  task : Nat
  workerIdx : Nat
  deriving DecidableEq, Repr

/-- queueLen is the counter before it wraps at 2^32; deques is none in lane-only
mode and ringSize 0 without a ring; a deque lists its newest task first, and
dequeTotal is deque_total. posts counts the threads between a push and their
sem_post on work_sem. -/
structure ThreadPool where
  queueCapacity : Nat
  ringSize : Nat
  workerCount : Nat
  maxWorkerCount : Nat
  nextTaskId : Nat := 1
  tasks : Nat → Task := fun _ => {}
  futures : Nat → Future := fun _ => {}
  ring : List Nat := []
  deques : Option (Nat → List Nat)
  dequeTotal : Int := 0
  lanes : Nat → List Nat := fun _ => []
  index : CancelIndex
  queueLen : Int := 0
  workers : Nat → WorkerPc
  coroReady : Nat → List Nat := fun _ => []
  timerHeap : List TimerEntry := []
  workSem : Nat := 0
  posts : Nat := 0
  ended : Nat → Option Ending := fun _ => none
  events : List Event := []

/-- What a coroutine body does before control is back at the worker. failsOther: it calls
loom_coro_fail while g_current is another coroutine, which is the one that is marked. -/
inductive Behaviour where
  | yields | sleeps | returns | fails | timesOut | timerFails | overflows | failsOther
  deriving DecidableEq, Repr

/-- What loom_coro_resume returns for it. -/
def Behaviour.crc : Behaviour → CoroResult
  | .fails => .errFailed
  | .overflows | .failsOther => .errGuard
  | _ => .ok

/-- The coroutine state the worker then reads. -/
def Behaviour.state : Behaviour → CoroState
  | .yields => .suspended
  | .sleeps => .sleeping
  | .returns => .done
  | .timesOut => .timeout
  | .fails | .timerFails | .overflows => .error
  | .failsOther => .running

/-- What became of a due timer entry: pushed to the ready FIFO, re-armed or
dropped for want of memory. -/
inductive TimerAlloc where
  | ready | rearmed | dropped
  deriving DecidableEq, Repr

/-- Which allocations of loom_pool_resize succeed; failsAt is the slot whose
worker could not be started, for want of its argument or of a thread. -/
structure ResizeEnv where
  dequesAlloc : Bool := true
  slotsAlloc : Bool := true
  arraysAlloc : Bool := true
  argAlloc : Bool := true
  failsAt : Option Nat := none
  deriving DecidableEq, Repr

inductive Label where
  | submit (userData : Nat) (priority : UInt8) (isFuture alloc : Bool)
  | submitCoroutine (arg : Nat) (withFuture alloc : Bool)
  | pass (w : Nat) (cas : Bool)
  | finish (w result : Nat)
  | create (w : Nat) (handle : Option Nat)
  | checkReady (w : Nat)
  | bodyEnds (w : Nat) (behaviour : Behaviour) (alloc : Bool)
  | leave (w : Nat)
  | wake (w : Nat)
  | post
  | timerFire (i : Nat) (alloc : TimerAlloc)
  | cancel (data : Nat)
  | cancelById (id : Nat) (alloc : Bool)
  | cancelAll
  | resize (count : Nat) (env : ResizeEnv)
  | repost
  | join (w : Nat)
  deriving DecidableEq, Repr

namespace ThreadPool

def setTask (s : ThreadPool) (t : Nat) (task : Task) : ThreadPool :=
  { s with tasks := Function.update s.tasks t task }

def setFuture (s : ThreadPool) (t : Nat) (fut : Future) : ThreadPool :=
  { s with futures := Function.update s.futures t fut }

def setWorker (s : ThreadPool) (w : Nat) (pc : WorkerPc) : ThreadPool :=
  { s with workers := Function.update s.workers w pc }

def emit (s : ThreadPool) (event : Event) : ThreadPool := { s with events := event :: s.events }

/-- &pool->deques[w]; the empty list without deques. -/
def deque (s : ThreadPool) (w : Nat) : List Nat :=
  match s.deques with
  | some deques => deques w
  | none => []

/-- Pushes, pops and steals on one deque; each of them moves deque_total along. -/
def setDeque (s : ThreadPool) (w : Nat) (deque : List Nat) : ThreadPool :=
  { s with
    deques := s.deques.map fun deques => Function.update deques w deque
    dequeTotal := s.dequeTotal + deque.length - (s.deque w).length }

/-- The unsigned 32-bit value a load of queue_len returns. -/
def loadQueueLen (s : ThreadPool) : Nat := (s.queueLen % 2 ^ 32).toNat

def full (s : ThreadPool) : Bool := s.queueCapacity ≠ 0 && s.queueCapacity ≤ s.loadQueueLen

/-- task_create: ids start at 2; a future handed out with the task is a new one. -/
def taskCreate (s : ThreadPool) (task : Task) : ThreadPool :=
  { s.setTask (s.nextTaskId + 1) task with
    nextTaskId := s.nextTaskId + 1
    futures := Function.update s.futures (s.nextTaskId + 1) {}
    ended := Function.update s.ended (s.nextTaskId + 1) none }

def taskDestroy (s : ThreadPool) (t : Nat) (how : Ending) : ThreadPool :=
  { s with ended := Function.update s.ended t (some how) }

/-- if (task->completion) with coro_future_mark_cancelled. -/
def resolveCancelled (s : ThreadPool) (t : Nat) : ThreadPool :=
  if (s.tasks t).completion then
    (s.setFuture t (coroFutureMarkCancelled (s.futures t))).setTask t
      { s.tasks t with completion := false }
  else s

/-- if (task->completion) with loom_future_complete. -/
def resolve (s : ThreadPool) (t : Nat) (status : LoomResult) : ThreadPool :=
  if (s.tasks t).completion then
    (s.setFuture t (loomFutureComplete (s.futures t) status)).setTask t
      { s.tasks t with completion := false }
  else s

/-- if (task->is_future) with future_mark_cancelled. -/
def markFutureCancelled (s : ThreadPool) (t : Nat) : ThreadPool :=
  if (s.tasks t).isFuture then s.setFuture t (futureMarkCancelled (s.futures t)) else s

def flag (s : ThreadPool) (t : Nat) : ThreadPool := s.setTask t { s.tasks t with cancelled := true }

def loomEnqueueUnlocked (s : ThreadPool) (t : Nat) : ThreadPool :=
  let b := (s.tasks t).priority.toNat
  { s with lanes := Function.update s.lanes b (s.lanes b ++ [t]), queueLen := s.queueLen + 1 }

/-- The publish with its index insert; none when the ring is full. -/
def ringTryEnqueue (s : ThreadPool) (t : Nat) : Option ThreadPool :=
  if s.ring.length < s.ringSize then
    some { s with
      ring := s.ring ++ [t], index := cancelIndexInsert s.index t (s.tasks t).userData }
  else none

def spillToNormalLane (s : ThreadPool) (t : Nat) : ThreadPool × LoomResult :=
  if s.full then (s.taskDestroy t .failed, .errInvalid)
  else ({ s.loomEnqueueUnlocked t with posts := s.posts + 1 }.emit (.submitted t), .ok)

def enqueueRingTask (s : ThreadPool) (task : Task) : ThreadPool × LoomResult :=
  let t := s.nextTaskId + 1
  let s := s.taskCreate task
  match { s with queueLen := s.queueLen + 1 }.ringTryEnqueue t with
  | some s => ({ s with posts := s.posts + 1 }.emit (.submitted t), .ok)
  | none => s.spillToNormalLane t

def enqueueLaneTask (s : ThreadPool) (task : Task) : ThreadPool × LoomResult :=
  if s.full then (s, .errInvalid)
  else
    let t := s.nextTaskId + 1
    ({ (s.taskCreate task).loomEnqueueUnlocked t with posts := s.posts + 1 }.emit (.submitted t),
      .ok)

/-- A submit of a plain or future task that does not block. -/
def enqueueTask (s : ThreadPool) (task : Task) (alloc : Bool) : ThreadPool × LoomResult :=
  if s.full then (s, .errInvalid)
  else if alloc = false then (s, .errAlloc)
  else if task.priority = priorityNormal ∧ s.ringSize ≠ 0 ∧ s.deques.isSome then
    s.enqueueRingTask task
  else s.enqueueLaneTask task

def loomPoolSubmitCoroutine (s : ThreadPool) (arg : Nat) (withFuture alloc : Bool) : ThreadPool × LoomResult :=
  if alloc = false then (s, .errAlloc)
  else s.enqueueLaneTask
    { userData := arg, isCoro := true, completion := withFuture, awaited := withFuture }

def dequePop (s : ThreadPool) (w : Nat) : Option (Nat × ThreadPool) :=
  match s.deque w with
  | [] => none
  | t :: rest => some (t, s.setDeque w rest)

def dequePush (s : ThreadPool) (w t : Nat) : Option ThreadPool :=
  if (s.deque w).length < dequeCapacity then some (s.setDeque w (t :: s.deque w)) else none

/-- The oldest task of the victim. -/
def dequeSteal (s : ThreadPool) (victim : Nat) : Option (Nat × ThreadPool) :=
  match (s.deque victim).getLast? with
  | none => none
  | some t => some (t, s.setDeque victim (s.deque victim).dropLast)

/-- The deque task goes back to the shared queue, out of the index. -/
def spillDequeTask (s : ThreadPool) (t : Nat) : ThreadPool :=
  { s with index := cancelIndexRemove s.index t, queueLen := s.queueLen - 1 }.loomEnqueueUnlocked t

/-- Push a batch from the ring; with a full deque the first task is kept to run
and later ones are spilled. -/
def stash (w : Nat) : List Nat → Nat → ThreadPool × Option Nat → ThreadPool × Option Nat
  | [], _, kept => kept
  | t :: rest, i, (s, task) =>
    match s.dequePush w t with
    | some s => stash w rest (i + 1) (s, task)
    | none =>
      if i = 0 then stash w rest (i + 1) (s, some t)
      else stash w rest (i + 1) (s.spillDequeTask t, task)

/-- ring_bulk_try_dequeue; cas is the outcome of the weak compare-exchange. -/
def ringBulkTryDequeue (s : ThreadPool) (cas : Bool) : ThreadPool × List Nat :=
  if cas then ({ s with ring := s.ring.drop bulkDequeue }, s.ring.take bulkDequeue) else (s, [])

/-- ring != NULL && ring_has_work. -/
def ringHasWork (s : ThreadPool) : Bool := s.ringSize ≠ 0 && !s.ring.isEmpty

/-- The workers Step 3 visits. -/
def victims (s : ThreadPool) (w : Nat) : List Nat :=
  if s.workerCount ≤ 1 then []
  else if s.ringHasWork then
    ((List.range stealTries).map fun k => (w + 1 + k * 2) % s.workerCount).filter (· ≠ w)
  else ((List.range (s.workerCount - 1)).map fun v => (w + 1 + v) % s.workerCount).filter (· ≠ w)

/-- dequeue_lowest_priority_unlocked. -/
def takeLane (s : ThreadPool) (maxPriority : Nat) : Option (Nat × ThreadPool) :=
  match dequeueLowestPriority s.lanes maxPriority with
  | none => none
  | some (t, lanes) => some (t, { s with lanes, queueLen := s.queueLen - 1 })

/-- Steps 3 and 4: steal, then the lanes when the ring has no work. -/
def fetchElsewhere (s : ThreadPool) (w : Nat) : ThreadPool × Option (Nat × Bool) :=
  match (s.victims w).findSome? s.dequeSteal with
  | some (t, s) => (s, some (t, true))
  | none =>
    if s.ringHasWork then (s, none)
    else match s.takeLane 255 with
      | some (t, s) => (s, some (t, false))
      | none => (s, none)

/-- Step 2: a batch from the ring into the own deque. -/
def fetchRing (s : ThreadPool) (w : Nat) (cas : Bool) : ThreadPool × Option (Nat × Bool) :=
  let bulk := s.ringBulkTryDequeue cas
  match stash w bulk.2 0 (bulk.1, none) with
  | (s, some t) => (s, some (t, true))
  | (s, none) =>
    match s.dequePop w with
    | some (t, s) => (s, some (t, true))
    | none => (s, none)

/-- Steps 0 to 4 of worker_entry: the task to run and whether it came from the
ring (through a deque) or from a lane. -/
def fetchTask (s : ThreadPool) (w : Nat) (cas : Bool) : ThreadPool × Option (Nat × Bool) :=
  match (if laneHasPriority s.lanes 4 then s.takeLane 4 else none) with
  | some (t, s) => (s, some (t, false))
  | none =>
    if s.deques.isSome then
      match s.dequePop w with
      | some (t, s) => (s, some (t, true))
      | none =>
        match (if s.ringSize ≠ 0 then s.fetchRing w cas else (s, none)) with
        | (s, some found) => (s, some found)
        | (s, none) => s.fetchElsewhere w
    else if s.ringHasWork then (s, none)
    else match s.takeLane 255 with
      | some (t, s) => (s, some (t, false))
      | none => (s, none)

/-- The run boundary: the index entry of a ring task goes, a cancelled task is
skipped, a coroutine task is created outside the lock, any other is run. -/
def runBoundary (s : ThreadPool) (w t : Nat) (fromRing : Bool) : ThreadPool :=
  let s := if fromRing then { s with index := cancelIndexRemove s.index t } else s
  if (s.tasks t).cancelled then (s.markFutureCancelled t).taskDestroy t .cancelled
  else if (s.tasks t).isCoro then (s.setWorker w (.dispatching t)).emit (.dispatched t)
  else
    let s := s.taskDestroy t .dispatched
    let s := if fromRing then { s with queueLen := s.queueLen - 1 } else s
    (s.setWorker w (.running t)).emit (.dispatched t)

/-- One pass of the worker loop, from the lock to its release. -/
def workerPass (s : ThreadPool) (w : Nat) (cas : Bool) : Option ThreadPool :=
  if s.workers w = .looping then
    match s.coroReady w with
    | t :: rest =>
      some ({ s with coroReady := Function.update s.coroReady w rest }.setWorker w (.ready t))
    | [] =>
      if s.workerCount ≤ w then some (s.setWorker w .leaving)
      else match s.fetchTask w cas with
        | (s, none) => some (s.setWorker w .waiting)
        | (s, some (t, fromRing)) => some (s.runBoundary w t fromRing)
  else none

/-- The task function returns; future_task_wrapper stores its result. -/
def finish (s : ThreadPool) (w result : Nat) : Option ThreadPool :=
  match s.workers w with
  | .running t =>
    let s := if (s.tasks t).isFuture then
        s.setFuture t { s.futures t with result, hasResult := true, ready := true }
      else s
    some (s.setWorker w .looping)
  | _ => none

/-- loom_coro_create for a dequeued coroutine task; the handle takes the place of
its user_data. -/
def create (s : ThreadPool) (w : Nat) (handle : Option Nat) : Option ThreadPool :=
  match s.workers w, handle with
  | .dispatching t, none => some ((s.taskDestroy t .failed).setWorker w .looping)
  | .dispatching t, some coro =>
    some ((s.setTask t { s.tasks t with userData := coro }).setWorker w (.inBody t true))
  | _, _ => none

/-- Step C0 up to the resume: a cancelled coroutine is terminated. -/
def checkReady (s : ThreadPool) (w : Nat) : Option ThreadPool :=
  match s.workers w with
  | .ready t =>
    if (s.tasks t).cancelled then
      some (((s.resolveCancelled t).taskDestroy t .cancelled).setWorker w .looping)
    else some ((s.setWorker w (.inBody t false)).emit (.resumed t))
  | _ => none

def pushReady (s : ThreadPool) (w t : Nat) : ThreadPool :=
  { s with coroReady := Function.update s.coroReady w (s.coroReady w ++ [t]) }

def timerPush (s : ThreadPool) (entry : TimerEntry) : ThreadPool :=
  { s with timerHeap := s.timerHeap ++ [entry] }

/-- After the first resume. -/
def afterFirst (s : ThreadPool) (w t : Nat) (crc : CoroResult) (state : CoroState) (alloc : Bool) : ThreadPool :=
  if crc = .ok then
    match state with
    | .suspended =>
      if alloc then s.pushReady w t else (s.resolve t .errFailed).taskDestroy t .failed
    | .sleeping => s.timerPush ⟨t, w⟩
    | .done => (s.resolve t .ok).taskDestroy t .returned
    | _ => s.taskDestroy t .failed
  else if crc ≠ .errRunning then (s.resolve t .errFailed).taskDestroy t .failed
  else s.taskDestroy t .failed

/-- Step C0 after the resume: no branch looks at the completion. -/
def afterResume (s : ThreadPool) (w t : Nat) (crc : CoroResult) (state : CoroState) : ThreadPool :=
  if crc = .ok then
    match state with
    | .suspended => s.pushReady w t
    | .sleeping => s.timerPush ⟨t, w⟩
    | .done => s.taskDestroy t .returned
    | _ => s.taskDestroy t .failed
  else s.taskDestroy t .failed

def bodyEnds (s : ThreadPool) (w : Nat) (behaviour : Behaviour) (alloc : Bool) : Option ThreadPool :=
  match s.workers w with
  | .inBody t true =>
    some ((s.afterFirst w t behaviour.crc behaviour.state alloc).setWorker w .looping)
  | .inBody t false =>
    some ((s.afterResume w t behaviour.crc behaviour.state).setWorker w .looping)
  | _ => none

/-- A displaced worker terminates a coroutine it owns. -/
def terminate (s : ThreadPool) (t : Nat) : ThreadPool := (s.resolveCancelled t).taskDestroy t .cancelled

/-- A displaced worker: its ready FIFO, its timer entries, then its deque. -/
def leave (s : ThreadPool) (w : Nat) : Option ThreadPool :=
  if s.workers w = .leaving then
    let ready := s.coroReady w
    let asleep := (s.timerHeap.filter fun e => e.workerIdx = w).map TimerEntry.task
    let s := { s with
      coroReady := Function.update s.coroReady w []
      timerHeap := s.timerHeap.filter fun e => e.workerIdx ≠ w }
    let s := (ready ++ asleep).foldl terminate s
    let s := (s.deque w).foldl spillDequeTask (s.setDeque w [])
    some { s.setWorker w .exited with posts := s.posts + 1 }
  else none

/-- The timer thread moves a due entry to the FIFO of its worker. -/
def timerFire (s : ThreadPool) (i : Nat) (alloc : TimerAlloc) : Option ThreadPool :=
  match s.timerHeap[i]? with
  | none => none
  | some entry =>
    let s := { s with timerHeap := s.timerHeap.eraseIdx i }
    match alloc with
    | .ready =>
      if entry.workerIdx < s.maxWorkerCount then
        some { s.pushReady entry.workerIdx entry.task with posts := s.posts + 1 }
      else some s
    | .rearmed => some (s.timerPush entry)
    | .dropped => some s

end ThreadPool

end Loomworks.Pool

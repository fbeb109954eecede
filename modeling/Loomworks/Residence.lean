import Loomworks.Pool
import Loomworks.TimerHeap

/- Where the pool's coroutines live (src/thread_pool.c): the lane they wait in, the
ready FIFOs, the timer heap and the worker that executes them. A step is one section
held under coro_lock, timer_lock or, where neither is taken, pool->lock; a thread may
hold pool->lock over several steps. Tasks of other kinds are not told apart: a pass
may run one at any time. -/
namespace Loomworks.Pool.Residence

open Loomworks.Coro (CoroState)
open Loomworks.Timer (Entry TimerHeap)

/-- What the task of a coroutine holds; completion says that the pointer is not NULL,
awaited that the submitter was given a future. -/
structure CoroTask where
  userData : Nat := 0
  cancelled : Bool := false
  completion : Bool := false
  awaited : Bool := false
  deriving DecidableEq, Repr

/-- Where a worker is in worker_entry. -/
inductive WorkerPc where
  | absent
  | top
  /-- Step C0 found no ready node; from here to leaveSpill pool->lock is held -/
  | chosen
  | drainHeap
  | drainReady (timerEmpty : Bool)
  | fetch
  /-- a displaced worker -/
  | leaveReady
  | leaveFifo (rest : List Nat)
  | leaveScan
  | leaveTimer (t : Nat)
  | leaveSpill
  | running
  | dispatching (t : Nat)
  | ready (t : Nat)
  | inBody (t : Nat) (first : Bool)
  /-- the sleep of the coroutine is registered, control is not back yet -/
  | asleep (t : Nat)
  | exited
  deriving DecidableEq, Repr

/-- Who holds pool->lock; canceller is a cancel_by_id that has taken the entry out of
the timer heap. -/
inductive Lock where
  | free
  | worker (w : Nat)
  | canceller (entry : Entry)
  deriving DecidableEq, Repr

/-- Where the timer thread is in timer_thread_fn. -/
inductive TimerPc where
  | absent
  | top
  | peek (alive : Bool)
  | waiting
  | draining (now : Int)
  | exited
  deriving DecidableEq, Repr

/-- Where loom_pool_shutdown is; joining i: it gets to slot i. -/
inductive ShutdownPc where
  | idle
  | joining (i : Nat)
  | joinTimer
  | returned
  deriving DecidableEq, Repr

/-- owner is the worker_idx of a created coroutine, cancelledFired logs the tasks whose
CANCELLED event was fired and owed what a displaced worker owned when it began to leave;
no step reads the last two. -/
structure State where
  workerCount : Nat
  maxWorkerCount : Nat
  nextTaskId : Nat := 1
  tasks : Nat → CoroTask := fun _ => {}
  futures : Nat → Future := fun _ => {}
  owner : Nat → Option Nat := fun _ => none
  lane : List Nat := []
  workers : Nat → WorkerPc
  coroReady : Nat → List Nat := fun _ => []
  timerHeap : TimerHeap := .empty
  lock : Lock := .free
  shutdown : Bool := false
  timerThreadAlive : Bool := false
  timer : TimerPc := .absent
  shutdownCall : ShutdownPc := .idle
  ended : Nat → Option Ending := fun _ => none
  cancelledFired : List Nat := []
  owed : Nat → List Nat := fun _ => []

/-- busy: queue_len counts a task of another kind, or ring_count or deque_total is not
0. other: the pass selects a task of another kind. -/
inductive Label where
  | submitCoroutine (arg : Nat) (withFuture alloc : Bool)
  | enter (w : Nat)
  | decide (w : Nat) (busy : Bool)
  | drainCheck (w : Nat)
  | fetch (w : Nat) (other : Bool)
  | finish (w : Nat)
  | create (w : Nat) (handle : Option Nat)
  | checkReady (w : Nat)
  | sleep (w : Nat) (deadline : Int) (alloc : Bool)
  | bodyEnds (w : Nat) (behaviour : Behaviour) (alloc : Bool)
  | leave (w : Nat)
  | timerPeek
  | timerWakes (now : Int)
  | timerFire (alloc : Bool)
  | cancel (data : Nat)
  | cancelById (id : Nat)
  | handOver (alloc : Bool)
  | resize (count : Nat)
  | join (w : Nat)
  | shutdown
  deriving DecidableEq, Repr

namespace State

def setWorker (s : State) (w : Nat) (pc : WorkerPc) : State :=
  { s with workers := Function.update s.workers w pc }

def setTask (s : State) (t : Nat) (task : CoroTask) : State :=
  { s with tasks := Function.update s.tasks t task }

def setFuture (s : State) (t : Nat) (fut : Future) : State :=
  { s with futures := Function.update s.futures t fut }

def unlock (s : State) : State := { s with lock := .free }

def taskDestroy (s : State) (t : Nat) (how : Ending) : State :=
  { s with ended := Function.update s.ended t (some how) }

/-- metrics_fire(pool, LOOMWORKS_METRIC_CANCELLED). -/
def fireCancelled (s : State) (t : Nat) : State := { s with cancelledFired := t :: s.cancelledFired }

/-- if (task->completion) with coro_future_mark_cancelled. -/
def resolveCancelled (s : State) (t : Nat) : State :=
  if (s.tasks t).completion then
    (s.setFuture t (coroFutureMarkCancelled (s.futures t))).setTask t
      { s.tasks t with completion := false }
  else s

/-- if (task->completion) with loom_future_complete. -/
def resolve (s : State) (t : Nat) (status : LoomResult) : State :=
  if (s.tasks t).completion then
    (s.setFuture t (loomFutureComplete (s.futures t) status)).setTask t
      { s.tasks t with completion := false }
  else s

def flag (s : State) (t : Nat) : State := s.setTask t { s.tasks t with cancelled := true }

def pushReady (s : State) (w t : Nat) : State :=
  { s with coroReady := Function.update s.coroReady w (s.coroReady w ++ [t]) }

/-- The coroutines of worker w in the timer heap. -/
def sleeping (s : State) (w : Nat) : List Nat :=
  (s.timerHeap.entries.filter fun e => e.workerIdx = w).map Entry.taskId

/-- loom_coro_terminate with the CANCELLED event, the future and the node. -/
def terminate (s : State) (t : Nat) : State :=
  ((s.fireCancelled t).resolveCancelled t).taskDestroy t .cancelled

/-- ensure_timer_thread. -/
def ensureTimerThread (s : State) : State :=
  if s.timer = .absent then { s with timer := .top, timerThreadAlive := true } else s

def loomPoolSubmitCoroutine (s : State) (arg : Nat) (withFuture alloc : Bool) : Option State :=
  if s.lock = .free then
    if s.shutdown ∨ alloc = false then some s
    else
      let t := s.nextTaskId + 1
      let s := s.ensureTimerThread
      some { s.setTask t { userData := arg, completion := withFuture, awaited := withFuture } with
        nextTaskId := t
        futures := Function.update s.futures t {}
        owner := Function.update s.owner t none
        ended := Function.update s.ended t none
        lane := s.lane ++ [t] }
  else none

/-- pool->lock is taken and Step C0 looks for a ready node. -/
def enter (s : State) (w : Nat) : Option State :=
  if s.workers w = .top ∧ s.lock = .free then
    match s.coroReady w with
    | t :: rest =>
      some ({ s with coroReady := Function.update s.coroReady w rest }.setWorker w (.ready t))
    | [] => some ({ s with lock := .worker w }.setWorker w .chosen)
  else none

/-- The tests for a displaced worker and for the drained exit. -/
def decide (s : State) (w : Nat) (busy : Bool) : Option State :=
  if s.workers w = .chosen then
    if s.workerCount ≤ w ∧ s.shutdown = false then
      some ({ s with owed := Function.update s.owed w (s.coroReady w ++ s.sleeping w) }.setWorker w
        .leaveReady)
    else if s.shutdown = true ∧ s.lane = [] ∧ busy = false then some (s.setWorker w .drainHeap)
    else some (s.setWorker w .fetch)
  else none

/-- The drained exit reads timer_len under timer_lock, then its FIFO under coro_lock. -/
def drainCheck (s : State) (w : Nat) : Option State :=
  match s.workers w with
  | .drainHeap => some (s.setWorker w (.drainReady (s.timerHeap.len == 0)))
  | .drainReady timerEmpty =>
    if timerEmpty = true ∧ s.coroReady w = [] then some (s.unlock.setWorker w .exited)
    else some (s.setWorker w .fetch)
  | _ => none

/-- Steps 0 to 4 and the run boundary. -/
def fetch (s : State) (w : Nat) (other : Bool) : Option State :=
  if s.workers w = .fetch then
    if other then some (s.unlock.setWorker w .running)
    else match s.lane with
      | [] => some (s.unlock.setWorker w .top)
      | t :: rest =>
        let s := { s with lane := rest }.unlock
        if (s.tasks t).cancelled then some ((s.taskDestroy t .cancelled).setWorker w .top)
        else some (s.setWorker w (.dispatching t))
  else none

/-- A task of another kind returns. -/
def finish (s : State) (w : Nat) : Option State :=
  if s.workers w = .running then some (s.setWorker w .top) else none

/-- loom_coro_create; the handle takes the place of the user_data. -/
def create (s : State) (w : Nat) (handle : Option Nat) : Option State :=
  match s.workers w, handle with
  | .dispatching t, none => some ((s.taskDestroy t .failed).setWorker w .top)
  | .dispatching t, some coro =>
    some ({ s.setTask t { s.tasks t with userData := coro } with
      owner := Function.update s.owner t (some w) }.setWorker w (.inBody t true))
  | _, _ => none

/-- Step C0 up to the resume: a cancelled coroutine is terminated. -/
def checkReady (s : State) (w : Nat) : Option State :=
  match s.workers w with
  | .ready t =>
    if (s.tasks t).cancelled then some ((s.terminate t).setWorker w .top)
    else some (s.setWorker w (.inBody t false))
  | _ => none

/-- loom_coro_destroy and task_destroy. A coroutine that is RUNNING, SUSPENDED or SLEEPING is
not destroyed, but its task is. -/
def recycle (s : State) (t : Nat) (state : CoroState) (how : Ending) : State :=
  s.taskDestroy t (match state with
    | .running | .suspended | .sleeping => .leaked
    | _ => how)

/-- After the first resume of a coroutine that did not go to sleep. -/
def afterFirst (s : State) (w t : Nat) (behaviour : Behaviour) (alloc : Bool) : State :=
  if behaviour.crc = .ok then
    match behaviour.state with
    | .suspended =>
      if alloc then s.pushReady w t else (s.resolve t .errFailed).recycle t .suspended .failed
    | .done => (s.resolve t .ok).recycle t .done .returned
    | state => s.recycle t state .failed
  else (s.resolve t .errFailed).recycle t behaviour.state .failed

/-- Step C0 after the resume of a coroutine that did not go to sleep. -/
def afterResume (s : State) (w t : Nat) (behaviour : Behaviour) : State :=
  if behaviour.crc = .ok then
    match behaviour.state with
    | .suspended => s.pushReady w t
    | .done => s.recycle t .done .returned
    | state => s.recycle t state .failed
  else s.recycle t behaviour.state .failed

/-- What the worker does when a resume has returned. -/
def afterBody (s : State) (w t : Nat) (first : Bool) (behaviour : Behaviour) (alloc : Bool) : State :=
  (if first then s.afterFirst w t behaviour alloc else s.afterResume w t behaviour).setWorker w .top

/-- loom_coro_sleep_until with coro_sleep_reg_hook. An entry that cannot be inserted
makes the coroutine return with the state ERROR. -/
def sleep (s : State) (w : Nat) (deadline : Int) (alloc : Bool) : Option State :=
  match s.workers w with
  | .inBody t first =>
    match s.timerHeap.loomTimerPush ⟨deadline, t, w⟩ alloc with
    | some timerHeap => some ({ s with timerHeap }.setWorker w (.asleep t))
    | none => some (s.afterBody w t first .timerFails alloc)
  | _ => none

/-- The resume returns. After a registered sleep the ready node, if there was one, is
freed and nothing else happens. -/
def bodyEnds (s : State) (w : Nat) (behaviour : Behaviour) (alloc : Bool) : Option State :=
  match s.workers w with
  | .inBody t first =>
    if behaviour = .sleeps ∨ behaviour = .timerFails then none
    else some (s.afterBody w t first behaviour alloc)
  | .asleep _ => some (s.setWorker w .top)
  | _ => none

/-- The exit path of a displaced worker: the FIFO is drained under coro_lock and its
coroutines terminated, then the timer heap is scanned under timer_lock until it holds
none of its entries. -/
def leave (s : State) (w : Nat) : Option State :=
  match s.workers w with
  | .leaveReady =>
    some ({ s with coroReady := Function.update s.coroReady w [] }.setWorker w
      (.leaveFifo (s.coroReady w)))
  | .leaveFifo (t :: rest) => some ((s.terminate t).setWorker w (.leaveFifo rest))
  | .leaveFifo [] => some (s.setWorker w .leaveScan)
  | .leaveScan =>
    match s.timerHeap.entries.find? fun e => e.workerIdx = w with
    | none => some (s.setWorker w .leaveSpill)
    | some victim =>
      match s.timerHeap.loomTimerRemoveByTask victim.taskId with
      | none => none
      | some (entry, timerHeap) => some ({ s with timerHeap }.setWorker w (.leaveTimer entry.taskId))
  | .leaveTimer t => some ((s.terminate t).setWorker w .leaveScan)
  | .leaveSpill => some (s.unlock.setWorker w .exited)
  | _ => none

/-- The timer thread loads timer_thread_alive, then looks at timer_len under timer_lock. -/
def timerPeek (s : State) : Option State :=
  match s.timer with
  | .top => some { s with timer := .peek s.timerThreadAlive }
  | .peek alive =>
    if alive = false ∧ s.timerHeap.len = 0 then some { s with timer := .exited }
    else some { s with timer := .waiting }
  | _ => none

def timerWakes (s : State) (now : Int) : Option State :=
  if s.timer = .waiting then some { s with timer := .draining now } else none

/-- One round of the drain: a due entry goes to the FIFO of its worker, in one section
under timer_lock; without memory for the node it is armed again. -/
def timerFire (s : State) (alloc : Bool) : Option State :=
  match s.timer with
  | .draining now =>
    if s.timerHeap.len = 0 ∨ now < (s.timerHeap.slots 0).deadlineNs then some { s with timer := .top }
    else match s.timerHeap.loomTimerPopDue with
      | none => none
      | some (entry, timerHeap) =>
        let s := { s with timerHeap }
        if alloc then
          if entry.workerIdx < s.maxWorkerCount then some (s.pushReady entry.workerIdx entry.taskId)
          else some s
        else match timerHeap.loomTimerPush entry alloc with
          | some timerHeap => some { s with timerHeap, timer := .top }
          | none => some { s with timer := .top }
  | _ => none

/-- The first task in the lane that is found is unlinked and destroyed. -/
def cancelLane (s : State) (found : Nat → Bool) : State :=
  match s.lane.find? found with
  | none => s
  | some t =>
    (({ s with lane := s.lane.eraseP found }.resolveCancelled t).taskDestroy t .cancelled).fireCancelled t

/-- loom_pool_cancel: a sleeping coroutine is only flagged. -/
def loomPoolCancel (s : State) (data : Nat) : Option State :=
  if s.lock = .free then
    if data = 0 ∨ s.shutdown then some s
    else match s.timerHeap.entries.find? fun e => (s.tasks e.taskId).userData == data with
      | some entry => some (((s.flag entry.taskId).resolveCancelled entry.taskId).fireCancelled entry.taskId)
      | none => some (s.cancelLane fun t => (s.tasks t).userData == data && !(s.tasks t).cancelled)
  else none

/-- loom_pool_cancel_by_id up to the ready node of a sleeping coroutine. -/
def loomPoolCancelById (s : State) (id : Nat) : Option State :=
  if s.lock = .free then
    if s.shutdown then some s
    else match s.timerHeap.loomTimerRemoveByTask id with
      | some (entry, timerHeap) =>
        some (({ s with timerHeap, lock := .canceller entry }.flag entry.taskId).resolveCancelled
          entry.taskId)
      | none => some (s.cancelLane fun t => t == id && !(s.tasks t).cancelled)
  else none

/-- The rest of it: without memory for a ready node nothing takes up the entry. -/
def handOver (s : State) (alloc : Bool) : Option State :=
  match s.lock with
  | .canceller entry =>
    let s := if alloc then s.pushReady entry.workerIdx entry.taskId else s
    some (s.unlock.fireCancelled entry.taskId)
  | _ => none

/-- loom_pool_resize with everything allocated; workers are started in free slots. -/
def loomPoolResize (s : State) (count : Nat) : Option State :=
  if s.lock = .free then
    if s.shutdown ∨ count = 0 then some s
    else some { s with
      workerCount := count
      maxWorkerCount := max s.maxWorkerCount count
      workers := fun w =>
        if s.workerCount ≤ w ∧ w < count ∧ s.workers w = .absent then .top else s.workers w }
  else none

/-- The resize joins a displaced worker. -/
def join (s : State) (w : Nat) : Option State :=
  if s.workers w = .exited ∧ s.workerCount ≤ w then some (s.setWorker w .absent) else none

/-- loom_pool_shutdown: flag, join of the workers slot by slot, join of the timer thread. -/
def loomPoolShutdown (s : State) : Option State :=
  match s.shutdownCall with
  | .idle =>
    if s.lock = .free then some { s with shutdown := true, shutdownCall := .joining 0 } else none
  | .joining i =>
    if i < s.maxWorkerCount then
      match s.workers i with
      | .absent => some { s with shutdownCall := .joining (i + 1) }
      | .exited => some ({ s with shutdownCall := .joining (i + 1) }.setWorker i .absent)
      | _ => none
    else if s.timer = .absent then some { s with shutdownCall := .returned }
    else some { s with timerThreadAlive := false, shutdownCall := .joinTimer }
  | .joinTimer => if s.timer = .exited then some { s with shutdownCall := .returned } else none
  | .returned => none

end State

def step (s : State) : Label → Option State
  | .submitCoroutine arg withFuture alloc => s.loomPoolSubmitCoroutine arg withFuture alloc
  | .enter w => s.enter w
  | .decide w busy => s.decide w busy
  | .drainCheck w => s.drainCheck w
  | .fetch w other => s.fetch w other
  | .finish w => s.finish w
  | .create w handle => s.create w handle
  | .checkReady w => s.checkReady w
  | .sleep w deadline alloc => s.sleep w deadline alloc
  | .bodyEnds w behaviour alloc => s.bodyEnds w behaviour alloc
  | .leave w => s.leave w
  | .timerPeek => s.timerPeek
  | .timerWakes now => s.timerWakes now
  | .timerFire alloc => s.timerFire alloc
  | .cancel data => s.loomPoolCancel data
  | .cancelById id => s.loomPoolCancelById id
  | .handOver alloc => s.handOver alloc
  | .resize count => s.loomPoolResize count
  | .join w => s.join w
  | .shutdown => s.loomPoolShutdown

def start (workerCount : Nat) : State where
  workerCount := workerCount
  maxWorkerCount := workerCount
  workers := fun w => if w < workerCount then .top else .absent

end Loomworks.Pool.Residence

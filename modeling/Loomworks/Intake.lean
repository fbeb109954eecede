import Loomworks.PoolCalls
import Loomworks.SeqRing

/- Submit calls of client threads, one access at a time (src/thread_pool.c: enqueue_task
and the functions it calls), with the workers, the timer thread, the cancel calls and
loom_pool_shutdown, whose sections under pool->lock are one step each. There is no resize. The
insert into the cancel index is one step. -/
namespace Loomworks.Pool.Intake

open SeqRing

def maxQueueCapacity : UInt32 := 1048576

/-- The arguments of a submit call; block for loom_pool_submit_blocking, isCoro for
loom_pool_submit_coroutine_ex. -/
structure Request where
  userData : Nat := 0
  priority : UInt8 := priorityNormal
  isFuture : Bool := false
  block : Bool := false
  isCoro : Bool := false
  deriving DecidableEq, Repr

/-- The node that a submit call fills in. -/
def Request.task (request : Request) : Task :=
  if request.isCoro then
    { userData := request.userData, isCoro := true, completion := request.isFuture
      awaited := request.isFuture }
  else { userData := request.userData, priority := request.priority, isFuture := request.isFuture }

/-- Where a client thread is in enqueue_task: what it does next, for the task it has
created. -/
inductive CallPc where
  | idle
  | check
  | capacity
  | waitSpace
  /-- in pthread_cond_timedwait; woken once a signal was delivered -/
  | blocked (woken : Bool)
  | gaveUp
  | lane
  | create
  | addLen (t : Nat)
  | loadTail (t : Nat)
  | loadSeq (t tail : Nat)
  | casTail (t tail : Nat)
  | storeTask (t pos : Nat)
  | insert (t pos : Nat)
  | publish (t pos : Nat)
  | addCount (t : Nat)
  | subLen (t : Nat)
  | spill (t : Nat)
  | post (t : Nat)
  deriving DecidableEq, Repr

/-- result is what the last call returned. -/
structure Client where
  pc : CallPc := .idle
  request : Request := {}
  result : LoomResult := .ok
  deriving DecidableEq, Repr

/-- unlocked: the pass found nothing, and the worker is going to look at shutdown. signalling: a
coroutine task has ended, and the worker is going to lock and signal space_cond. -/
inductive WorkerPc where
  | looping
  | unlocked
  | waiting
  | running (t : Nat)
  | dispatching (t : Nat)
  | ready (t : Nat)
  | inBody (t : Nat) (first : Bool)
  | signalling
  | exited
  deriving DecidableEq, Repr

/-- pool holds the queues, the tasks, the futures and the coroutines; its list ring has the tasks of
the positions from ring_head to ring_tail, published or not, and its workers are not looked at. node is the memory a task was
created in and tenant the last task created there. accepted logs the tasks of the calls that
returned LOOMWORKS_OK and returned the values the task functions returned; no step reads
them, nor history. -/
structure State where
  pool : ThreadPool
  ring : SeqRing.Ring Nat
  history : History Nat := {}
  ringCount : Int := 0
  node : Nat → Nat := fun _ => 0
  tenant : Nat → Nat := fun _ => 0
  clientCount : Nat
  clients : Nat → Client := fun _ => {}
  workers : Nat → WorkerPc := fun _ => .looping
  shutdown : Bool := false
  draining : Bool := false
  joined : Bool := false
  accepted : List Nat := []
  returned : Nat → List Nat := fun _ => []

/-- call: client c takes its next step. ok says that memory is there, that a weak
compare-exchange does not fail spuriously, that a wait does not time out; n is the node a
new task gets. cas is the outcome of the compare-exchange on ring_head. In pass and signal c is
the client that a signal on space_cond wakes. -/
inductive Label where
  | submit (c : Nat) (request : Request)
  | call (c : Nat) (ok : Bool) (n : Nat)
  | pass (w : Nat) (cas : Bool) (c : Nat)
  | settle (w : Nat)
  | wake (w : Nat)
  | finish (w result : Nat)
  | create (w : Nat) (handle : Option Nat)
  | checkReady (w : Nat)
  | bodyEnds (w : Nat) (behaviour : Behaviour) (alloc : Bool)
  | signal (w c : Nat)
  | timerFire (i : Nat) (alloc : TimerAlloc)
  | post
  | cancel (data : Nat)
  | cancelById (id : Nat) (alloc : Bool)
  | cancelAll
  | shutdown
  | join
  deriving DecidableEq, Repr

namespace State

def setPc (s : State) (c : Nat) (pc : CallPc) : State :=
  { s with clients := Function.update s.clients c { s.clients c with pc } }

/-- The call of client c returns. -/
def returns (s : State) (c : Nat) (result : LoomResult) : State :=
  { s with clients := Function.update s.clients c { s.clients c with pc := .idle, result } }

def setWorker (s : State) (w : Nat) (pc : WorkerPc) : State :=
  { s with workers := Function.update s.workers w pc }

/-- The unsigned 32-bit value a load of ring_count returns. -/
def loadRingCount (s : State) : Nat := (s.ringCount % 2 ^ 32).toNat

/-- A node that no task occupies. -/
def free (s : State) (n : Nat) : Bool := s.tenant n = 0 || (s.pool.ended (s.tenant n)).isSome

def taskCreate (s : State) (request : Request) (n : Nat) : State :=
  { s with
    pool := s.pool.taskCreate request.task
    node := Function.update s.node (s.pool.nextTaskId + 1) n
    tenant := Function.update s.tenant n (s.pool.nextTaskId + 1) }

/-- The end of enqueue_task: the ring for normal priority, the lanes for the rest. -/
def route (s : State) (request : Request) : CallPc :=
  if request.priority = priorityNormal ∧ s.pool.ringSize ≠ 0 ∧ s.pool.deques.isSome then .create
  else .lane

/-- enqueue_task up to the choice of the queue, with wait_for_space. A coroutine goes to the lanes
without a look at the capacity. -/
def enqueueTask (s : State) (c : Nat) (ok : Bool) : CallPc → Option State
  | .check =>
    if s.shutdown then some (s.returns c .errShutdown)
    else if (s.clients c).request.isCoro then some (s.setPc c .lane)
    else if s.pool.queueCapacity = 0 then some (s.setPc c (s.route (s.clients c).request))
    else some (s.setPc c .capacity)
  | .capacity =>
    if s.pool.full then
      if (s.clients c).request.block then some (s.setPc c .waitSpace)
      else some (s.returns c .errInvalid)
    else some (s.setPc c (s.route (s.clients c).request))
  | .waitSpace =>
    if s.pool.full ∧ s.shutdown = false then some (s.setPc c (.blocked false))
    else some (s.setPc c (s.route (s.clients c).request))
  | .blocked _ =>
    if ok = false ∨ s.shutdown ∨ s.draining then some (s.setPc c .gaveUp)
    else if s.pool.full then some (s.setPc c (.blocked false))
    else some (s.setPc c (s.route (s.clients c).request))
  | .gaveUp => some (s.returns c (if s.shutdown then .errShutdown else .errTimeout))
  | _ => none

/-- enqueue_lane_task, and the same section of loom_pool_submit_coroutine_ex. -/
def enqueueLaneTask (s : State) (c : Nat) (ok : Bool) (n : Nat) : Option State :=
  if s.shutdown ∨ s.draining then some (s.returns c .errShutdown)
  else if s.pool.full then some (s.returns c .errInvalid)
  else if ok = false then some (s.returns c .errAlloc)
  else if s.free n then
    let t := s.pool.nextTaskId + 1
    let s := s.taskCreate (s.clients c).request n
    some ({ s with
      pool := { s.pool.loomEnqueueUnlocked t with workSem := s.pool.workSem + 1 }
      accepted := t :: s.accepted }.returns c .ok)
  else none

def spillToNormalLane (s : State) (c t : Nat) : State :=
  if s.shutdown ∨ s.draining then
    { s with pool := s.pool.taskDestroy t .failed }.returns c .errShutdown
  else if s.pool.full then { s with pool := s.pool.taskDestroy t .failed }.returns c .errInvalid
  else { s with pool := s.pool.loomEnqueueUnlocked t }.setPc c (.post t)

/-- enqueue_ring_task around ring_try_enqueue. -/
def enqueueRingTask (s : State) (c : Nat) (ok : Bool) (n : Nat) : CallPc → Option State
  | .create =>
    if ok = false then some (s.returns c .errAlloc)
    else if s.free n then
      some ((s.taskCreate (s.clients c).request n).setPc c (.addLen (s.pool.nextTaskId + 1)))
    else none
  | .addLen t =>
    some ({ s with pool := { s.pool with queueLen := s.pool.queueLen + 1 } }.setPc c (.loadTail t))
  | .subLen t =>
    some ({ s with pool := { s.pool with queueLen := s.pool.queueLen - 1 } }.setPc c (.spill t))
  | .spill t => some (s.spillToNormalLane c t)
  | .post t =>
    some ({ s with
      pool := { s.pool with workSem := s.pool.workSem + 1 }
      accepted := t :: s.accepted }.returns c .ok)
  | _ => none

def ringTryEnqueue (s : State) (c : Nat) (ok : Bool) : CallPc → Option State
  | .loadTail t => some (s.setPc c (.loadSeq t s.ring.tail))
  | .loadSeq t tail =>
    if s.ring.seq (s.ring.cell tail) = tail then some (s.setPc c (.casTail t tail))
    else some (s.setPc c (.subLen t))
  | .casTail t tail =>
    if s.ring.tail = tail ∧ ok = true then
      some ({ s with
        ring := s.ring.claim
        history := s.history.claim t
        pool := { s.pool with ring := s.pool.ring ++ [t] } }.setPc c (.storeTask t tail))
    else some (s.setPc c (.loadSeq t s.ring.tail))
  | .storeTask t pos => some ({ s with ring := s.ring.fill pos t }.setPc c (.insert t pos))
  | .insert t pos =>
    some ({ s with
      pool := { s.pool with
        index := cancelIndexInsert s.pool.index t (s.pool.tasks t).userData } }.setPc c (.publish t pos))
  | .publish t pos =>
    some ({ s with
      ring := s.ring.publish pos, history := s.history.publish pos }.setPc c (.addCount t))
  | .addCount t => some ({ s with ringCount := s.ringCount + 1 }.setPc c (.post t))
  | _ => none

/-- Client c takes its next step. -/
def call (s : State) (c : Nat) (ok : Bool) (n : Nat) : Option State :=
  match (s.clients c).pc with
  | .idle => none
  | .check | .capacity | .waitSpace | .blocked _ | .gaveUp => s.enqueueTask c ok (s.clients c).pc
  | .lane => s.enqueueLaneTask c ok n
  | .create | .addLen _ | .subLen _ | .spill _ | .post _ => s.enqueueRingTask c ok n (s.clients c).pc
  | .loadTail _ | .loadSeq .. | .casTail .. | .storeTask .. | .insert .. | .publish .. | .addCount _ =>
    s.ringTryEnqueue c ok (s.clients c).pc

/-- The tasks a scan from ring_head finds published. -/
def visible (s : State) : List Nat := s.ring.run s.ring.head s.ring.size

/-- The pool as the worker that holds pool->lock sees it. -/
def seen (s : State) : ThreadPool := { s.pool with ring := s.visible }

/-- Steps 0 to 4 of worker_entry; the tasks taken from the ring leave their cells. -/
def fetch (s : State) (w : Nat) (cas : Bool) : State × Option (Nat × Bool) :=
  let fetched := s.seen.fetchTask w cas
  let n := s.visible.length - fetched.1.ring.length
  ({ s with
    pool := { fetched.1 with ring := s.pool.ring.drop n }
    ring := (s.ring.take n).releaseRun s.ring.head n
    history := s.history.releaseRun s.ring.head n
    ringCount := s.ringCount - n }, fetched.2)

/-- pthread_cond_signal on space_cond wakes one of the clients that wait there. -/
def signal (s : State) (c : Nat) : Option State :=
  if s.pool.queueCapacity = 0 then some s
  else if (s.clients c).pc = .blocked false then some (s.setPc c (.blocked true))
  else if ∀ i < s.clientCount, (s.clients i).pc ≠ .blocked false then some s
  else none

/-- The run boundary of worker_entry. -/
def runBoundary (s : State) (w t : Nat) (fromRing : Bool) (c : Nat) : Option State :=
  let pool := if fromRing then { s.pool with index := cancelIndexRemove s.pool.index t } else s.pool
  if (pool.tasks t).cancelled then
    { s with pool := (pool.markFutureCancelled t).taskDestroy t .cancelled }.signal c
  else if (pool.tasks t).isCoro then
    some ({ s with pool := pool.emit (.dispatched t) }.setWorker w (.dispatching t))
  else
    let pool := pool.taskDestroy t .dispatched
    let pool := if fromRing then { pool with queueLen := pool.queueLen - 1 } else pool
    ({ s with pool := pool.emit (.dispatched t) }.setWorker w (.running t)).signal c

/-- The drained exit: shutdown is set, the three counters read 0 and nobody sleeps. -/
def drained (s : State) : Bool :=
  s.shutdown && s.pool.loadQueueLen == 0 && s.loadRingCount == 0 && s.pool.dequeTotal == 0 &&
    s.pool.timerHeap.isEmpty

/-- One pass of the worker loop, from the lock to its release. -/
def pass (s : State) (w : Nat) (cas : Bool) (c : Nat) : Option State :=
  if w < s.pool.workerCount ∧ s.workers w = .looping then
    match s.pool.coroReady w with
    | t :: rest =>
      some ({ s with
        pool := { s.pool with coroReady := Function.update s.pool.coroReady w rest } }.setWorker w
          (.ready t))
    | [] =>
      if s.drained then some (s.setWorker w .exited)
      else match s.fetch w cas with
        | (s, none) => some (s.setWorker w .unlocked)
        | (s, some (t, fromRing)) => s.runBoundary w t fromRing c
  else none

/-- The task function returns; future_task_wrapper stores its result. -/
def finish (s : State) (w result : Nat) : Option State :=
  match s.workers w with
  | .running t =>
    let pool := if (s.pool.tasks t).isFuture then
        s.pool.setFuture t { s.pool.futures t with result, hasResult := true, ready := true }
      else s.pool
    some ({ s with
      pool, returned := Function.update s.returned t (result :: s.returned t) }.setWorker w .looping)
  | _ => none

/-- A worker that has destroyed a coroutine task. -/
def afterEnd (s : State) (w : Nat) : State :=
  s.setWorker w (if s.pool.queueCapacity = 0 then .looping else .signalling)

/-- loom_coro_create for a dequeued coroutine task. -/
def create (s : State) (w : Nat) (handle : Option Nat) : Option State :=
  match s.workers w, handle with
  | .dispatching t, none => some ({ s with pool := s.pool.taskDestroy t .failed }.afterEnd w)
  | .dispatching t, some coro =>
    some ({ s with pool := s.pool.setTask t { s.pool.tasks t with userData := coro } }.setWorker w
      (.inBody t true))
  | _, _ => none

/-- Step C0 up to the resume. -/
def checkReady (s : State) (w : Nat) : Option State :=
  match s.workers w with
  | .ready t =>
    if (s.pool.tasks t).cancelled then
      some ({ s with pool := s.pool.terminate t }.setWorker w .looping)
    else some ({ s with pool := s.pool.emit (.resumed t) }.setWorker w (.inBody t false))
  | _ => none

/-- The coroutine comes back suspended or asleep and is kept. -/
def parks (first : Bool) (behaviour : Behaviour) (alloc : Bool) : Bool :=
  behaviour = .sleeps || (behaviour = .yields && (alloc || !first))

def bodyEnds (s : State) (w : Nat) (behaviour : Behaviour) (alloc : Bool) : Option State :=
  match s.workers w with
  | .inBody t first =>
    let pool := if first then s.pool.afterFirst w t behaviour.crc behaviour.state alloc
      else s.pool.afterResume w t behaviour.crc behaviour.state
    let s := { s with pool }
    some (if parks first behaviour alloc then s.setWorker w .looping else s.afterEnd w)
  | _ => none

/-- loom_pool_cancel_by_id. A slot holds a pointer to a node: a tombstone may still name a
node in which another task has been created since, while the node of an occupied slot is that
of its own task. -/
def loomPoolCancelById (s : State) (id : Nat) (alloc : Bool) : State × LoomResult :=
  match cancelIndexFind s.pool.index id with
  | some old =>
    let t := s.tenant (s.node old)
    if (s.pool.tasks t).cancelled then (s, .errInvalid)
    else match (s.pool.flag t).claim t with
      | some pool => ({ s with pool }, .ok)
      | none => ({ s with pool := s.pool.flag t }, .errInvalid)
  | none =>
    match s.pool.timerHeap.find? fun e => e.task == id with
    | some entry =>
      let pool := { s.pool with
        timerHeap := s.pool.timerHeap.eraseP fun e => e.task == id }.cancelAsleep entry.task
      ({ s with
        pool := if alloc then
            { pool.pushReady entry.workerIdx entry.task with posts := pool.posts + 1 }
          else pool }, .ok)
    | none =>
      match s.pool.cancelLane fun t => t == id && !(s.pool.tasks t).cancelled with
      | some pool => ({ s with pool }, .ok)
      | none => (s, .errInvalid)

/-- The cancel calls once they hold pool->lock. -/
def cancels (s : State) (after : State) : State := if s.shutdown then s else after

end State

def step (s : State) : Label → Option State
  | .submit c request =>
    if c < s.clientCount ∧ (s.clients c).pc = .idle then
      some { s with clients := Function.update s.clients c { s.clients c with pc := .check, request } }
    else none
  | .call c ok n => s.call c ok n
  | .pass w cas c => s.pass w cas c
  | .settle w =>
    if s.workers w = .unlocked then some (s.setWorker w (if s.shutdown then .looping else .waiting))
    else none
  | .wake w =>
    if s.workers w = .waiting ∧ 0 < s.pool.workSem then
      some ({ s with pool := { s.pool with workSem := s.pool.workSem - 1 } }.setWorker w .looping)
    else none
  | .finish w result => s.finish w result
  | .create w handle => s.create w handle
  | .checkReady w => s.checkReady w
  | .bodyEnds w behaviour alloc => s.bodyEnds w behaviour alloc
  | .signal w c => if s.workers w = .signalling then (s.setWorker w .looping).signal c else none
  | .timerFire i alloc => (s.pool.timerFire i alloc).map fun pool => { s with pool }
  | .post =>
    if 0 < s.pool.posts then
      some { s with
        pool := { s.pool with posts := s.pool.posts - 1, workSem := s.pool.workSem + 1 } }
    else none
  | .cancel data => some (s.cancels { s with pool := (s.pool.loomPoolCancel data).1 })
  | .cancelById id alloc => some (s.cancels (s.loomPoolCancelById id alloc).1)
  | .cancelAll => some (s.cancels { s with pool := s.pool.loomPoolCancelAll.1 })
  | .shutdown =>
    if s.joined then some s
    else some { s with
      shutdown := true
      draining := true
      pool := { s.pool with workSem := s.pool.workSem + s.pool.workerCount } }
  | .join =>
    if s.shutdown = true ∧ ∀ w < s.pool.workerCount, s.workers w = .exited then
      some { s with joined := true, draining := false }
    else none

/-- The defaults and the limit pool_init puts in a configuration. -/
def settings (config : Config) (processors : Nat) : Config :=
  { config with
    workerCount := if config.workerCount = 0 then min (max processors 1) 64 * 2 else config.workerCount
    queueCapacity := min config.queueCapacity maxQueueCapacity }

/-- A pool as loom_pool_create leaves it, for a number of client threads. -/
def start (config : Config) (processors clients : Nat) : State where
  pool := poolInit (settings config processors)
  ring := { size := (settings config processors).ringSize }
  clientCount := clients

end Loomworks.Pool.Intake

import Loomworks.Pool

/- The cancel and resize calls of the thread pool (src/thread_pool.c), its steps
and its initial state. -/
namespace Loomworks.Pool

namespace ThreadPool

/-- cancel_index_claim and the accounting of a won claim. -/
def claim (s : ThreadPool) (t : Nat) : Option ThreadPool :=
  let claimed := cancelIndexClaim s.index t
  if claimed.2 then
    let s := { s with index := claimed.1, queueLen := s.queueLen - 1 }
    some ((if (s.tasks t).isCoro then s.resolveCancelled t else s).emit (.cancelled t))
  else none

/-- The ring part of loom_pool_cancel: visit the slots of the index. -/
def cancelScan (data : Nat) : List Nat → ThreadPool → ThreadPool × Bool
  | [], s => (s, false)
  | h :: rest, s =>
    let slot := s.index.slots h
    if slot.taskId ≤ 1 ∨ slot.userDataHash ≠ hashPtr data then cancelScan data rest s
    else match slot.task with
      | none => cancelScan data rest s
      | some t =>
        if (s.tasks t).cancelled ∨ (s.tasks t).userData ≠ data then cancelScan data rest s
        else match (s.flag t).claim t with
          | some s => (s, true)
          | none => cancelScan data rest (s.flag t)

/-- A task found in the lanes is unlinked, its futures are marked and it goes. -/
def cancelLane (s : ThreadPool) (found : Nat → Bool) : Option ThreadPool :=
  match unlinkFirst found s.lanes with
  | none => none
  | some (t, lanes) =>
    let s := ({ s with lanes, queueLen := s.queueLen - 1 }).markFutureCancelled t
    let s := if (s.tasks t).isCoro then s.resolveCancelled t else s
    some ((s.taskDestroy t .cancelled).emit (.cancelled t))

/-- A sleeping coroutine is flagged and its completion resolved. -/
def cancelAsleep (s : ThreadPool) (t : Nat) : ThreadPool :=
  ((s.flag t).resolveCancelled t).emit (.cancelledAsleep t)

def loomPoolCancel (s : ThreadPool) (data : Nat) : ThreadPool × LoomResult :=
  if data = 0 then (s, .errInvalid)
  else match cancelScan data (List.range s.index.cap) s with
    | (s, true) => (s, .ok)
    | (s, false) =>
      match s.timerHeap.find? fun e => (s.tasks e.task).userData == data with
      | some entry => (s.cancelAsleep entry.task, .ok)
      | none =>
        match s.cancelLane fun t => (s.tasks t).userData == data && !(s.tasks t).cancelled with
        | some s => (s, .ok)
        | none => (s, .errInvalid)

def loomPoolCancelById (s : ThreadPool) (id : Nat) (alloc : Bool) : ThreadPool × LoomResult :=
  match cancelIndexFind s.index id with
  | some t =>
    if (s.tasks t).cancelled then (s, .errInvalid)
    else match (s.flag t).claim t with
      | some s => (s, .ok)
      | none => (s.flag t, .errInvalid)
  | none =>
    match s.timerHeap.find? fun e => e.task == id with
    | some entry =>
      let s := ({ s with timerHeap := s.timerHeap.eraseP fun e => e.task == id }).cancelAsleep
        entry.task
      -- without memory for a ready node the coroutine is left out of every queue
      if alloc then
        ({ s.pushReady entry.workerIdx entry.task with posts := s.posts + 1 }, .ok)
      else (s, .ok)
    | none =>
      match s.cancelLane fun t => t == id && !(s.tasks t).cancelled with
      | some s => (s, .ok)
      | none => (s, .errInvalid)

/-- loom_pool_cancel_all claims the task of a slot. -/
def claimSlot (s : ThreadPool) (h t : Nat) : ThreadPool :=
  { s.flag t with
    index := s.index.setSlot h { s.index.slots h with taskId := 1, task := none }
    queueLen := s.queueLen - 1 }.emit (.cancelled t)

/-- The ring part of loom_pool_cancel_all. -/
def cancelAllScan : List Nat → ThreadPool → ThreadPool × Nat
  | [], s => (s, 0)
  | h :: rest, s =>
    let slot := s.index.slots h
    if slot.taskId ≤ 1 then cancelAllScan rest s
    else match slot.task with
      | none => cancelAllScan rest s
      | some t =>
        if (s.tasks t).cancelled then cancelAllScan rest s
        else
          let scanned := cancelAllScan rest (s.claimSlot h t)
          (scanned.1, scanned.2 + 1)

/-- A lane task in loom_pool_cancel_all: a coroutine's completion is not looked at. -/
def drainTask (s : ThreadPool) (t : Nat) : ThreadPool :=
  ({ (s.markFutureCancelled t).taskDestroy t .cancelled with queueLen := s.queueLen - 1 }).emit
    (.cancelled t)

def loomPoolCancelAll (s : ThreadPool) : ThreadPool × Nat :=
  let scanned := cancelAllScan (List.range s.index.cap) s
  let queued := laneTasks scanned.1.lanes
  (queued.foldl drainTask { scanned.1 with lanes := fun _ => [] }, scanned.2 + queued.length)

/-- The enlarged array of deques; a slot array that cannot be allocated frees
every deque: lane-only mode. -/
def growDeques (s : ThreadPool) (slotsAlloc : Bool) : ThreadPool :=
  { s with
    deques :=
      if slotsAlloc then
        s.deques.map fun deques i => if i < s.maxWorkerCount then deques i else []
      else none }

/-- The enlarged array of ready FIFOs. -/
def growReady (s : ThreadPool) (count : Nat) : ThreadPool :=
  { s with
    maxWorkerCount := count
    coroReady := fun i => if i < s.maxWorkerCount then s.coroReady i else [] }

/-- The part of loom_pool_resize that enlarges the per-worker arrays; false when
it returned early. -/
def growArrays (s : ThreadPool) (count : Nat) (env : ResizeEnv) : ThreadPool × Bool :=
  if count ≤ s.maxWorkerCount then (s, true)
  else if s.deques.isSome ∧ env.dequesAlloc = false then (s, false)
  else if env.arraysAlloc then ((s.growDeques env.slotsAlloc).growReady count, true)
  else (s.growDeques env.slotsAlloc, false)

/-- Worker threads are started in the free slots from lower to upper. -/
def startWorkers (s : ThreadPool) (lower upper : Nat) : ThreadPool :=
  { s with workers := fun w =>
      if lower ≤ w ∧ w < upper ∧ s.workers w = .absent then .looping else s.workers w }

def loomPoolResize (s : ThreadPool) (count : Nat) (env : ResizeEnv) : ThreadPool × LoomResult :=
  if count = 0 then (s, .errInvalid)
  else if count = s.workerCount then (s, .ok)
  else match s.growArrays count env with
    | (s, false) => (s, .errAlloc)
    | (s, true) =>
      let old := s.workerCount
      match env.failsAt with
      | some i =>
        if old ≤ i ∧ i < count ∧ s.workers i = .absent then
          (s.startWorkers old i, if env.argAlloc then .errThread else .errAlloc)
        else
          ({ s.startWorkers old count with workerCount := count, posts := s.posts + old }, .ok)
      | none =>
        ({ s.startWorkers old count with workerCount := count, posts := s.posts + old }, .ok)

/-- A displaced worker has not been joined yet. -/
def joining (s : ThreadPool) : Bool :=
  (List.range s.maxWorkerCount).any fun w => s.workerCount ≤ w && s.workers w ≠ .absent

end ThreadPool

def step (s : ThreadPool) : Label → Option ThreadPool
  | .submit userData priority isFuture alloc =>
    some (s.enqueueTask { userData, priority, isFuture } alloc).1
  | .submitCoroutine arg withFuture alloc =>
    some (s.loomPoolSubmitCoroutine arg withFuture alloc).1
  | .pass w cas => s.workerPass w cas
  | .finish w result => s.finish w result
  | .create w handle => s.create w handle
  | .checkReady w => s.checkReady w
  | .bodyEnds w behaviour alloc => s.bodyEnds w behaviour alloc
  | .leave w => s.leave w
  | .wake w =>
    if s.workers w = .waiting ∧ 0 < s.workSem then
      some { s.setWorker w .looping with workSem := s.workSem - 1 }
    else none
  | .post =>
    if 0 < s.posts then some { s with posts := s.posts - 1, workSem := s.workSem + 1 } else none
  | .timerFire i alloc => s.timerFire i alloc
  | .cancel data => some (s.loomPoolCancel data).1
  | .cancelById id alloc => some (s.loomPoolCancelById id alloc).1
  | .cancelAll => some (s.loomPoolCancelAll).1
  | .resize count env => some (s.loomPoolResize count env).1
  -- the resizing thread posts until the displaced workers have left
  | .repost => if s.joining then some { s with workSem := s.workSem + 1 } else none
  | .join w => if s.workers w = .exited then some (s.setWorker w .absent) else none

/-- loom_pool_config_t, with the outcome of the optional allocations of
pool_init. -/
structure Config where
  workerCount : Nat
  queueCapacity : UInt32
  ringAlloc : Bool := true
  dequesAlloc : Bool := true
  deriving DecidableEq, Repr

/-- next_pow2_u64. -/
def nextPow2 (v : UInt32) : Nat :=
  let n := v.toUInt64
  let n := n ||| (n >>> 1)
  let n := n ||| (n >>> 2)
  let n := n ||| (n >>> 4)
  let n := n ||| (n >>> 8)
  let n := n ||| (n >>> 16)
  let n := n ||| (n >>> 32)
  n.toNat + 1

def ringDefaultSlots : Nat := 4096

def Config.ringSize (config : Config) : Nat :=
  if config.ringAlloc then
    if config.queueCapacity = 0 then ringDefaultSlots else nextPow2 config.queueCapacity
  else 0

/-- The capacity of the cancel index is doubled from 1 until it covers the ring
and every deque: 2 to this power. -/
def Config.indexBits (config : Config) : Nat :=
  Nat.clog 2 (config.ringSize + config.workerCount * dequeCapacity)

def poolInit (config : Config) : ThreadPool :=
  { queueCapacity := config.queueCapacity.toNat
    ringSize := config.ringSize
    workerCount := config.workerCount
    maxWorkerCount := config.workerCount
    deques := if config.dequesAlloc then some fun _ => [] else none
    index := { cap := if config.ringAlloc then 2 ^ config.indexBits else 0 }
    workers := fun w => if w < config.workerCount then .looping else .absent }

end Loomworks.Pool

import Loomworks.Future
import Loomworks.Transition

/- The producer-consumer pipeline (src/pipeline.c). What a thread does while it
holds the lock is one step, and so is each access it makes without it. Items are
nodes in memory, linked from head to tail; NULL is 0. A thread blocked on cond
may wake at any time; woken says that a broadcast has reached it. -/
namespace Loomworks.Pipeline

/-- pc_item_t. -/
structure PcItem where
  data : Nat
  next : Nat := 0
  deriving DecidableEq, Repr

/-- Where a thread is. -/
inductive Pc where
  | outside
  /-- loom_pc_submit in pthread_cond_timedwait, with its node. -/
  | full (pi : Nat) (woken : Bool)
  /-- loom_pc_submit has freed its node and given the lock back; it reads shutdown next. -/
  | expired
  /-- loom_pc_submit has appended its item and counts it next. -/
  | appended
  /-- loom_pc_take in pthread_cond_wait. -/
  | empty (woken : Bool)
  /-- loom_pc_take has unlinked the node and reads it next. -/
  | took (pi : Nat)
  /-- loom_pc_take has freed the node with this data and counts it next. -/
  | freed (data : Nat)
  /-- consumer_pool_task has returned. -/
  | exited
  deriving DecidableEq, Repr

/-- How far loom_pc_destroy is. -/
inductive Phase where
  | working
  /-- In loom_pool_shutdown of the internal pool. -/
  | joining
  /-- In the loop that drains the queue, at this item. -/
  | draining (item : Nat)
  | gone
  deriving DecidableEq, Repr

/-- What loom_pc_create_ex is given. The first workers of the threads run
consumer_pool_task in the internal pool, if there is one. -/
structure Config where
  capacity : UInt32
  pool : Bool
  workers : Nat
  threads : Nat
  /-- Without an internal pool there are no internal consumers. -/
  external : pool = false → workers = 0

/-- struct loom_pc with its nodes and threads, and what the last call of each thread
has returned, with the item loom_pc_take has stored. -/
structure State where
  config : Config
  items : Nat → Option PcItem := fun _ => none
  head : Nat := 0
  tail : Nat := 0
  len : Nat := 0
  shutdown : Bool := false
  submitted : Nat := 0
  taken : Nat := 0
  threads : Nat → Pc := fun _ => .outside
  phase : Phase := .working
  returned : Nat → LoomResult × Nat := fun _ => (.ok, 0)

def State.capacity (s : State) : Nat := s.config.capacity.toNat

/-- A broadcast reaches a blocked thread. -/
def Pc.wake : Pc → Pc
  | .full pi _ => .full pi true
  | .empty _ => .empty true
  | pc => pc

def State.broadcast (s : State) : State := { s with threads := fun i => (s.threads i).wake }

def State.setThread (s : State) (i : Nat) (pc : Pc) : State :=
  { s with threads := Function.update s.threads i pc }

def State.freeItem (s : State) (pi : Nat) : State :=
  { s with items := Function.update s.items pi none }

/-- A call of thread i returns. -/
def State.conclude (s : State) (i : Nat) (result : LoomResult) (item : Nat) (pc : Pc) : State :=
  { s.setThread i pc with returned := Function.update s.returned i (result, item) }

/-- The item a pointer points to, all zero if it points nowhere. -/
def State.item (s : State) (pi : Nat) : PcItem := (s.items pi).getD ⟨0, 0⟩

/-- if (pc->tail) pc->tail->next = pi; else pc->head = pi. -/
def State.link (s : State) (pi : Nat) : State :=
  { s with
    items := if s.tail = 0 then s.items
      else Function.update s.items s.tail ((s.items s.tail).map fun item => { item with next := pi })
    head := if s.tail = 0 then pi else s.head }

/-- The end of loom_pc_submit's section: append to the tail and broadcast. -/
def appendItem (s : State) (i pi : Nat) : State :=
  { s.link pi with tail := pi, len := (s.len + 1) % 2 ^ 32 }.broadcast.setThread i .appended

/-- loom_pc_submit up to its first wait or its end. -/
def loomPcSubmit (s : State) (i x : Nat) (memory : Option Nat) : State :=
  if s.shutdown then s.conclude i .errShutdown 0 .outside
  else match memory with
    | none => s.conclude i .errAlloc 0 .outside
    | some pi =>
      let s := { s with items := Function.update s.items pi (some ⟨x, 0⟩) }
      if s.capacity > 0 ∧ s.len ≥ s.capacity then s.setThread i (.full pi false)
      else appendItem s i pi

/-- loom_pc_submit from the return of pthread_cond_timedwait. -/
def submitWakes (s : State) (i pi : Nat) (timedOut : Bool) : State :=
  if timedOut || s.shutdown then (s.freeItem pi).setThread i .expired
  else if s.len ≥ s.capacity then s.setThread i (.full pi false)
  else appendItem s i pi

/-- Where a thread is after a call of loom_pc_take that returned ERR_SHUTDOWN. -/
def afterLastTake (s : State) (i : Nat) : Pc := if i < s.config.workers then .exited else .outside

/-- Unlink the head: the second half of loom_pc_take's section. -/
def unlinkHead (s : State) (i : Nat) : State :=
  let pi := s.head
  let item := s.item pi
  let tail := if item.next = 0 then 0 else s.tail
  { s with head := item.next, tail, len := (s.len + (2 ^ 32 - 1)) % 2 ^ 32 }.broadcast.setThread i
    (.took pi)

/-- loom_pc_take from the head of its loop. -/
def loomPcTake (s : State) (i : Nat) : State :=
  if s.head = 0 then
    if s.shutdown then s.conclude i .errShutdown 0 (afterLastTake s i) else s.setThread i (.empty false)
  else unlinkHead s i

/-- What a thread does without the lock. -/
def advance (s : State) (i : Nat) : Option State :=
  match s.threads i with
  | .expired =>
    some (s.conclude i (if s.shutdown then .errShutdown else .errTimeout) 0 .outside)
  | .appended =>
    some ({ s with submitted := (s.submitted + 1) % 2 ^ 64 }.conclude i .ok 0 .outside)
  | .took pi => some ((s.freeItem pi).setThread i (.freed (s.item pi).data))
  | .freed data =>
    some ({ s with taken := (s.taken + 1) % 2 ^ 64 }.conclude i .ok data .outside)
  | _ => none

def loomPcShutdown (s : State) : State := { s with shutdown := true }.broadcast

/-- No external call is in progress. -/
def quiet (s : State) : Bool :=
  (List.range s.config.threads).all fun i => decide (i < s.config.workers) || s.threads i == .outside

/-- Every consumer_pool_task has returned. -/
def consumersDone (s : State) : Bool :=
  (List.range s.config.workers).all fun i => s.threads i == .exited

/-- loom_pc_destroy, one step at a time. -/
def loomPcDestroy (s : State) : Option State :=
  match s.phase with
  | .working =>
    if quiet s then
      some (if s.config.pool then { loomPcShutdown s with phase := .joining }
        else { s with phase := .draining s.head })
    else none
  | .joining => if consumersDone s then some { s with phase := .draining s.head } else none
  | .draining item =>
    if item = 0 then some { s with phase := .gone }
    else some { s.freeItem item with phase := .draining (s.item item).next }
  | .gone => none

inductive Label where
  | submit (i x : Nat) (memory : Option Nat)
  | take (i : Nat)
  /-- The condition wait of thread i returns; the flag is ETIMEDOUT. -/
  | wake (i : Nat) (timedOut : Bool)
  | advance (i : Nat)
  | shutdown
  | destroy
  deriving DecidableEq, Repr

/-- Clients call while the pipeline is there, the internal consumers until they are joined. -/
def mayCall (s : State) (i : Nat) : Bool :=
  decide (i < s.config.threads) && (s.threads i == .outside) &&
    (s.phase == .working || (s.phase == .joining && decide (i < s.config.workers)))

def unused (s : State) (address : Nat) : Bool := decide (address ≠ 0) && (s.items address).isNone

def step (s : State) : Label → Option State
  | .submit i x memory =>
    if mayCall s i ∧ s.config.workers ≤ i ∧ memory.all (unused s) then
      some (loomPcSubmit s i x memory)
    else none
  | .take i => if mayCall s i then some (loomPcTake s i) else none
  | .wake i timedOut =>
    match s.threads i with
    | .full pi _ => some (submitWakes s i pi timedOut)
    | .empty _ => if timedOut then none else some (loomPcTake s i)
    | _ => none
  | .advance i => advance s i
  | .shutdown => if s.phase = .working then some (loomPcShutdown s) else none
  | .destroy => loomPcDestroy s

def start (config : Config) : State := { config }

end Loomworks.Pipeline

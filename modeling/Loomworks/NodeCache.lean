import Loomworks.NodeStack

/- The per-thread cache of task nodes and the pool registry (src/thread_pool.c: pool_reg_register,
pool_reg_lookup, pool_reg_unregister, tls_resolve_owner, tls_flush_to_pool, task_create and
task_destroy). Each call is one step. -/
namespace Loomworks.Pool.NodeCache

open Links
open NodeStack (Head freeEnd)

/-- LOOMWORKS_POOL_REGISTRY_CAP. -/
def poolRegistryCap : Nat := 256

/-- LOOMWORKS_TLS_NODE_SLOTS. -/
def tlsNodeSlots : Nat := 1

/-- LOOMWORKS_NODE_POOL_CAP. -/
def nodePoolCap : Nat := 4096

/-- A pointer to a task node: into the node array at some address, or to a block of its own. -/
inductive Node where
  | slot (region index : Nat)
  | heap (block : Nat)
  deriving DecidableEq, Repr

/-- The fields of a pool that its node array is about; cap is 0 without an array. -/
structure PoolNodes where
  id : Nat := 0
  region : Nat := 0
  cap : Nat := 0
  head : Head := ⟨0, freeEnd⟩
  next : Nat → Nat := fun _ => freeEnd

/-- The cache of a thread, the id of the pool that owns it and the round-robin cursor. -/
structure Tls where
  nodes : Nat → Option Node := fun _ => none
  owner : Nat := 0
  next : Nat := 0

/-- A pool is named by its address; handles are those of the pools that exist. tasks are the
nodes task_create has returned, with their pools, and task_destroy has not got back. homes keeps
the address and the size of the array of the pool that was given an id; no step reads it. -/
structure State where
  pools : Nat → PoolNodes := fun _ => {}
  handles : List Nat := []
  registry : List (Nat × Nat) := []
  nextId : Nat := 1
  tls : Nat → Tls := fun _ => {}
  tasks : List (Nat × Node) := []
  homes : Nat → Option (Nat × Nat) := fun _ => none

/-- block is what malloc returns, if it is called. -/
inductive Label where
  | create (h region : Nat) (arrays : Bool)
  | destroy (h : Nat)
  | taskCreate (t h : Nat) (block : Option Nat)
  | taskDestroy (t h : Nat) (node : Node)
  | tlsFlush (t h : Nat)
  deriving DecidableEq, Repr

/-- The node array pool_init makes, every slot free; arrays is false when an allocation failed. -/
def poolInit (id region : Nat) (arrays : Bool) : PoolNodes :=
  if arrays then
    { id, region, cap := nodePoolCap, head := ⟨0, 0⟩
      next := fun i => if i + 1 < nodePoolCap then i + 1 else freeEnd }
  else { id, region }

def nodeFromPool (p : PoolNodes) : Node → Bool
  | .slot region index => p.cap ≠ 0 && region = p.region && index < p.cap
  | .heap _ => false

/-- The links of a push whose slots go before old. -/
def link (next : Nat → Nat) (old : Nat) : List Nat → Nat → Nat
  | [] => next
  | [x] => Function.update next x old
  | x :: y :: rest => link (Function.update next x y) old (y :: rest)

def nodeStackBatchPop (p : PoolNodes) (want : Nat) : PoolNodes × List Node :=
  if p.cap = 0 ∨ want = 0 ∨ p.head.slot = freeEnd then (p, [])
  else
    let out := walk p.next freeEnd p.head.slot want
    ({ p with head := p.head.swap (p.next (out.getLastD freeEnd)) }, out.map (.slot p.region))

def Node.index : Node → Nat
  | .slot _ index => index
  | .heap _ => 0

def nodeStackBatchPush (p : PoolNodes) (nodes : List Node) : PoolNodes × Bool :=
  if nodes = [] then (p, true)
  else if p.cap = 0 then (p, false)
  else if nodes.all (nodeFromPool p) then
    let slots := nodes.map Node.index
    ({ p with
      next := link p.next p.head.slot slots, head := p.head.swap (slots.headD freeEnd) }, true)
  else (p, false)

namespace Tls

/-- The nodes of the cache, in the order of the array. -/
def batch (c : Tls) : List Node := (List.range tlsNodeSlots).filterMap c.nodes

def clear (c : Tls) : Tls := { c with nodes := fun _ => none }

/-- The slots in the order of a probe from the cursor. -/
def probe (c : Tls) : List Nat := (List.range tlsNodeSlots).map fun k => (c.next + k) % tlsNodeSlots

def set (c : Tls) (i : Nat) (node : Option Node) : Tls := { c with nodes := Function.update c.nodes i node }

/-- A node goes to the first empty slot. -/
def stash (c : Tls) (node : Node) : Tls :=
  match (List.range tlsNodeSlots).find? fun i => (c.nodes i).isNone with
  | some i => c.set i (some node)
  | none => c

/-- How many slots are empty. -/
def room (c : Tls) : Nat := (List.range tlsNodeSlots).countP fun i => (c.nodes i).isNone

end Tls

namespace State

def setPool (s : State) (h : Nat) (p : PoolNodes) : State := { s with pools := Function.update s.pools h p }

def setTls (s : State) (t : Nat) (c : Tls) : State := { s with tls := Function.update s.tls t c }

@[simp] theorem setTls_tls (s : State) (t : Nat) (c : Tls) : (s.setTls t c).tls t = c :=
  Function.update_self _ _ _

def poolRegLookup (s : State) (id : Nat) : Option Nat :=
  (s.registry.find? fun entry => entry.1 = id).map Prod.snd

/-- The registry without the first entry of a pool, the last entry in its place. -/
def unregister (h : Nat) (registry : List (Nat × Nat)) : List (Nat × Nat) :=
  match registry.findIdx? fun entry => entry.2 = h, registry.getLast? with
  | some i, some last => (registry.set i last).dropLast
  | _, _ => registry

/-- node_stack_batch_push on the pool at h. -/
def pushTo (s : State) (h : Nat) (nodes : List Node) : State :=
  s.setPool h (nodeStackBatchPush (s.pools h) nodes).1

def tlsResolveOwner (s : State) (t h : Nat) : State :=
  let c := s.tls t
  let id := (s.pools h).id
  if c.owner = 0 ∨ c.owner = id then s.setTls t { c with owner := id }
  else
    let s := match s.poolRegLookup c.owner with
      | some owner => if c.batch = [] then s else s.pushTo owner c.batch
      | none => s
    s.setTls t { c.clear with owner := id }

/-- The owner switch at the start of task_create and task_destroy. -/
def switch (s : State) (t h : Nat) : State :=
  if (s.tls t).owner = (s.pools h).id then s else s.tlsResolveOwner t h

def tlsFlushToPool (s : State) (t h : Nat) : State :=
  let c := s.tls t
  let s := if c.batch = [] then s else s.pushTo h c.batch
  s.setTls t { c.clear with owner := 0 }

/-- The node goes to the caller. -/
def hands (s : State) (h : Nat) (node : Node) : State := { s with tasks := (h, node) :: s.tasks }

def taskCreate (s : State) (t h : Nat) (block : Option Nat) : State :=
  let s := s.switch t h
  let c := s.tls t
  match c.probe.find? fun i => (c.nodes i).isSome with
  | some i =>
    let s := s.setTls t { c.set i none with next := (i + 1) % tlsNodeSlots }
    match c.nodes i with
    | some node => s.hands h node
    | none => s
  | none =>
    match nodeStackBatchPop (s.pools h) c.room with
    | (p, node :: rest) =>
      ((s.setPool h p).setTls t (rest.foldl Tls.stash { c with owner := p.id })).hands h node
    | (_, []) =>
      match block with
      | some n => s.hands h (.heap n)
      | none => s

def taskDestroy (s : State) (t h : Nat) (node : Node) : State :=
  let s := { s with tasks := s.tasks.erase (h, node) }
  if nodeFromPool (s.pools h) node then
    let s := s.switch t h
    let c := s.tls t
    match c.probe.find? fun i => (c.nodes i).isNone with
    | some i => s.setTls t { c.set i (some node) with next := (i + 1) % tlsNodeSlots }
    | none => (s.pushTo h (c.batch ++ [node])).setTls t c.clear
  else s

/-- loom_pool_create, as far as the node array and the registry go. -/
def poolCreate (s : State) (h region : Nat) (arrays : Bool) : State :=
  let registered := s.registry.length < poolRegistryCap
  let id := if registered then s.nextId else 0
  let p := poolInit id region arrays
  { s with
    pools := Function.update s.pools h p
    handles := h :: s.handles
    registry := if registered then s.registry ++ [(id, h)] else s.registry
    nextId := s.nextId + 1
    homes := if registered then Function.update s.homes id (some (region, p.cap)) else s.homes }

/-- pool_destroy_internal, as far as the node array and the registry go. -/
def poolDestroy (s : State) (h : Nat) : State :=
  { s with
    registry := unregister h s.registry
    handles := s.handles.erase h
    tasks := s.tasks.filter fun task => task.1 ≠ h }

end State

/-- A call names a pool that exists, task_destroy a node that task_create has returned for it.
Nothing depends on where the allocations lie, so that is left open but for the pools themselves. -/
def step (s : State) : Label → Option State
  | .create h region arrays => if h ∉ s.handles then some (s.poolCreate h region arrays) else none
  | .destroy h => if h ∈ s.handles then some (s.poolDestroy h) else none
  | .taskCreate t h block => if h ∈ s.handles then some (s.taskCreate t h block) else none
  | .taskDestroy t h node =>
    if h ∈ s.handles ∧ (h, node) ∈ s.tasks then some (s.taskDestroy t h node) else none
  | .tlsFlush t h => if h ∈ s.handles then some (s.tlsFlushToPool t h) else none

end Loomworks.Pool.NodeCache

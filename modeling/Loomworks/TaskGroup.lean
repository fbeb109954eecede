import Loomworks.Future
import Loomworks.Tally
import Loomworks.Transition

/- The task group (src/task_group.c) over a pool it shares. A section under
group->lock is one step, except that loom_task_group_submit and the cancel loop
give the pool's workers room around their calls into the pool: holder says where
the section stands. The plain and the future submission differ in nothing the
group can see, and so do their wrappers. -/
namespace Loomworks.TaskGroup

open Tally Transition

/-- How far the wrapper of a task_group_ctx_t is. -/
inductive Stage where
  /-- Allocated, loom_pool_submit not yet called. -/
  | fresh
  | refused
  | queued
  /-- A worker runs the user's function. -/
  | inFn
  /-- The wrapper waits for group->lock. -/
  | wantsLock
  /-- The wrapper is through with the group and frees its context next. -/
  | leaving
  | finished
  /-- loom_pool_cancel_by_id returned OK to task_group_cancel_node. -/
  | cancelled
  /-- Another caller of the pool's cancel functions took the task off the queue. -/
  | dropped
  deriving DecidableEq, Repr

/-- Submitted, and neither finished nor cancelled: the wrapper will touch the group. -/
@[grind] def Stage.outstanding : Stage → Bool
  | .queued | .inFn | .wantsLock => true
  | _ => false

/-- The context is gone. -/
@[grind] def Stage.freed : Stage → Bool
  | .refused | .finished | .cancelled => true
  | _ => false

structure Context where
  stage : Stage
  frees : Nat := 0
  deriving DecidableEq, Repr

/-- A section under group->lock that is in progress. -/
inductive Holder where
  /-- A submit with its context, before loom_pool_submit. -/
  | created (k : Nat)
  /-- A submit whose task the pool has taken, before task_group_append. -/
  | accepted (k : Nat)
  /-- task_group_cancel_tracked, for loom_task_group_destroy when a thread is given. -/
  | cancelling (destroyer : Option Nat)
  deriving DecidableEq, Repr

inductive Call where
  | submit | wait | waitTimeout | destroy
  deriving DecidableEq, Repr

/-- A thread in pthread_cond_wait or timedwait on done_cond; woken says that a
broadcast has reached it. -/
structure Waiter where
  call : Call
  woken : Bool
  deriving DecidableEq, Repr

/-- What a call returned, with the contexts created and the tasks outstanding then. -/
structure Answer where
  call : Call
  result : LoomResult
  submitted : Nat
  outstanding : Nat
  deriving DecidableEq, Repr

/-- struct loom_task_group with its contexts in the order of their allocation.
The tracked list holds the context of each node. -/
structure State where
  contexts : List Context := []
  tracked : List Nat := []
  pending : UInt32 := 0
  destroyed : Bool := false
  freed : Bool := false
  holder : Option Holder := none
  waiters : Nat → Option Waiter := fun _ => none
  /-- The shutdown flag of the pool. -/
  shutdown : Bool := false
  answers : List Answer := []

def start : State := {}

inductive Label where
  | submit (context node : Bool)
  | poolSubmit (rc : LoomResult)
  | append
  | cancel
  | destroy (i : Nat) (onWorker : Bool)
  | cancelNode (ok : Bool)
  | listEnds
  | wait (i : Nat) (timed onWorker : Bool)
  | wake (i : Nat) (timedOut : Bool)
  | wrapper (k : Nat)
  | shutdown
  deriving DecidableEq, Repr

@[grind] def Context.weight (c : Context) : Nat := if c.stage.outstanding then 1 else 0

/-- The tasks that have neither finished their wrapper nor been cancelled. -/
def State.outstanding (s : State) : Nat := tally Context.weight s.contexts

@[grind] def State.setContext (s : State) (k : Nat) (c : Context) : State :=
  { s with contexts := s.contexts.set k c }

@[grind] def State.returns (s : State) (call : Call) (result : LoomResult) : State :=
  { s with answers := ⟨call, result, s.contexts.length, s.outstanding⟩ :: s.answers }

/-- loom_task_group_submit up to the call of loom_pool_submit; the arguments say
whether the two allocations succeed. -/
def loomTaskGroupSubmit (s : State) (context node : Bool) : State :=
  if s.destroyed then s.returns .submit .errInvalid
  else if context = false then s.returns .submit .errAlloc
  else if node = false then
    State.returns { s with contexts := s.contexts ++ [⟨.refused, 1⟩] } .submit .errAlloc
  else { s with
    contexts := s.contexts ++ [⟨.fresh, 0⟩]
    holder := some (.created s.contexts.length) }

/-- loom_pool_submit returns; a pool that is shut down takes no task. -/
def poolSubmitReturns (s : State) (k : Nat) (c : Context) (rc : LoomResult) : Option State :=
  if rc = .ok then
    if s.shutdown then none
    else some { s.setContext k { c with stage := .queued } with holder := some (.accepted k) }
  else
    some (State.returns { s.setContext k ⟨.refused, c.frees + 1⟩ with holder := none } .submit rc)

/-- task_group_append and the return from submit. -/
def taskGroupAppend (s : State) (k : Nat) : State :=
  State.returns { s with
    tracked := s.tracked ++ [k]
    pending := s.pending + 1
    holder := none } .submit .ok

/-- task_group_cancel_node; loom_pool_cancel_by_id returns OK only for a task that
is still queued and while the pool is not shut down. -/
def taskGroupCancelNode (s : State) (k : Nat) (ok : Bool) : Option State :=
  if ok then
    match s.contexts[k]? with
    | some ⟨.queued, frees⟩ =>
      if s.shutdown then none
      else some { s.setContext k ⟨.cancelled, frees + 1⟩ with pending := s.pending - 1 }
    | _ => none
  else some s

/-- The loop of loom_task_group_wait_timeout and destroy at its test: the thread
blocks, or the call returns and destroy frees the group. -/
def waitOrReturn (s : State) (i : Nat) (call : Call) : State :=
  if s.pending ≠ 0 then
    { s with waiters := Function.update s.waiters i (some ⟨call, false⟩) }
  else
    State.returns { s with
      waiters := Function.update s.waiters i none
      freed := call == .destroy } call .ok

/-- loom_task_group_wait is loom_task_group_wait_timeout without a deadline. -/
def waitCall (timed : Bool) : Call := if timed then .waitTimeout else .wait

def loomTaskGroupWaitTimeout (s : State) (i : Nat) (timed onWorker : Bool) : State :=
  if onWorker then s.returns (waitCall timed) .errInvalid else waitOrReturn s i (waitCall timed)

def Waiter.wake (w : Waiter) : Waiter := { w with woken := true }

/-- The wrapper's section under the lock. -/
def wrapperSection (s : State) (k : Nat) (c : Context) : State :=
  { s.setContext k { c with stage := .leaving } with
    pending := s.pending - 1
    waiters := if s.pending - 1 = 0 then fun i => (s.waiters i).map Waiter.wake else s.waiters }

/-- One step of the worker that has the task of context k. -/
def taskGroupWrapper (s : State) (k : Nat) (c : Context) : Option State :=
  match c.stage with
  | .queued => some (s.setContext k { c with stage := .inFn })
  | .inFn => some (s.setContext k { c with stage := .wantsLock })
  | .wantsLock => if s.holder = none then some (wrapperSection s k c) else none
  | .leaving => some (s.setContext k ⟨.finished, c.frees + 1⟩)
  | _ => none

/-- A client's call needs the lock and a group that has not been freed. -/
def State.open (s : State) : Bool := s.holder.isNone && !s.freed

def step (s : State) : Label → Option State
  | .submit context node => if s.open then some (loomTaskGroupSubmit s context node) else none
  | .poolSubmit rc =>
    match s.holder with
    | some (.created k) => (s.contexts[k]?).bind fun c => poolSubmitReturns s k c rc
    | _ => none
  | .append =>
    match s.holder with
    | some (.accepted k) => some (taskGroupAppend s k)
    | _ => none
  | .cancel => if s.open then some { s with holder := some (.cancelling none) } else none
  | .destroy i onWorker =>
    if s.open && (s.waiters i).isNone then
      if onWorker then some (s.returns .destroy .errInvalid)
      else some { s with destroyed := true, holder := some (.cancelling (some i)) }
    else none
  | .cancelNode ok =>
    match s.holder, s.tracked with
    | some (.cancelling _), k :: rest => taskGroupCancelNode { s with tracked := rest } k ok
    | _, _ => none
  | .listEnds =>
    match s.holder, s.tracked with
    | some (.cancelling none), [] => some { s with holder := none }
    | some (.cancelling (some i)), [] => some (waitOrReturn { s with holder := none } i .destroy)
    | _, _ => none
  | .wait i timed onWorker =>
    if s.open && (s.waiters i).isNone then some (loomTaskGroupWaitTimeout s i timed onWorker)
    else none
  | .wake i timedOut =>
    match s.waiters i with
    | some w =>
      if s.open = false then none
      else if timedOut = false then some (waitOrReturn s i w.call)
      else if w.call = .waitTimeout then
        some (State.returns { s with waiters := Function.update s.waiters i none } w.call
          .errTimeout)
      else none
    | none => none
  | .wrapper k => (s.contexts[k]?).bind fun c => taskGroupWrapper s k c
  | .shutdown => some { s with shutdown := true }

end Loomworks.TaskGroup

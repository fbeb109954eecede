import Loomworks.IntakeDrain
import Loomworks.NodeCache

/- The futures of the tasks that are still queued when loom_pool_shutdown is called. -/
namespace Loomworks.Pool.Intake

open Custody Transition

/-- The future tells how its task ended: cancelled by a call that succeeded, or with the one value its
function returned. -/
structure State.Resolved (s : State) (t : Nat) : Prop where
  ready : (s.pool.futures t).ready = true
  cancelled : (s.pool.futures t).cancelled = true ↔ .cancelled t ∈ s.pool.events
  value : (s.pool.futures t).cancelled = false →
    (s.pool.futures t).hasResult = true ∧ s.returned t = [(s.pool.futures t).result] ∧
      s.pool.events.count (.dispatched t) = 1

/-- The last exit leaves every future resolved. -/
def FuturesResolved (s : State) : Prop :=
  s.Over → ∀ t ∈ s.accepted, (s.pool.tasks t).isFuture = true → s.Resolved t

/-- The submits are of thread tasks and have returned before the shutdown, cancels by id name a task,
and the counter has not wrapped at the last exit. -/
def Orderly (s : State) : Label → Prop
  | .submit _ request => request.isCoro = false ∧ s.shutdown = false
  | .cancelById id _ => id ≠ 0
  | .shutdown => ∀ c < s.clientCount, (s.clients c).pc = .idle
  | .pass w _ _ => s.Last w → s.pool.queueLen < 2 ^ 32
  | _ => True

instance (s : State) : DecidablePred (Orderly s)
  | .submit _ request => inferInstanceAs (Decidable (request.isCoro = false ∧ s.shutdown = false))
  | .cancelById id _ => inferInstanceAs (Decidable (id ≠ 0))
  | .shutdown => inferInstanceAs (Decidable (∀ c < s.clientCount, (s.clients c).pc = .idle))
  | .pass w _ _ => inferInstanceAs (Decidable (s.Last w → s.pool.queueLen < 2 ^ 32))
  | .call .. | .settle _ | .wake _ | .finish .. | .create .. | .checkReady _ | .bodyEnds .. | .signal ..
  | .timerFire .. | .post | .cancel _ | .cancelAll | .join => .isTrue trivial

/-- Nobody is inside a submit call once shutdown is set. -/
structure Quiet (s : State) : Prop where
  draining : Draining s
  idle : s.shutdown = true → ∀ c, (s.clients c).pc = .idle

variable {s s' : State}

namespace Quiet

theorem prudent {label : Label} (quiet : Quiet s) (orderly : Orderly s label) : Prudent s label := by
  cases label with
  | submit c request => exact orderly.1
  | cancelById id alloc => exact orderly
  | pass w cas c =>
    intro last
    refine ⟨orderly last, fun d _ => ?_⟩
    have drained := last.1
    unfold State.drained at drained
    simp only [Bool.and_eq_true] at drained
    unfold State.Harmless
    rw [quiet.idle drained.1.1.1.1 d]
    trivial
  | _ => trivial

theorem idle_step {label : Label} (quiet : Quiet s) (orderly : Orderly s label)
    (after : step s label = some s') : s'.shutdown = true → ∀ c, (s'.clients c).pc = .idle := by
  have idle := quiet.idle
  obtain ⟨live, kept⟩ := quiet.draining.kept
  cases stepped_of_taken (taken_of_step kept.ringed.counts after) with
  | submits inside here =>
    intro shut
    exact absurd (orderly.2.symm.trans shut) nofun
  | @calls c n ok s' called =>
    intro shut
    have before : s.shutdown = true := by cases called <;> exact shut
    have stuck : s.call c ok n = none := by
      unfold State.call
      rw [idle before c]
    exact absurd (stuck.symm.trans after) nofun
  | shuts _ =>
    intro _ c
    by_cases inside : c < s.clientCount
    · exact orderly c inside
    · exact kept.ringed.idle c (by omega)
  | joins _ _ => exact idle
  | other woken =>
    intro shut c
    rw [woken.shutdown] at shut
    rcases woken.clients with same | ⟨d, blocked, -⟩
    · rw [same]
      exact idle shut c
    · exact absurd (blocked.symm.trans (idle shut d)) nofun

theorem step {label : Label} (quiet : Quiet s) (orderly : Orderly s label)
    (after : Intake.step s label = some s') : Quiet s' :=
  ⟨quiet.draining.step (quiet.prudent orderly) after, quiet.idle_step orderly after⟩

theorem resolved (quiet : Quiet s) : FuturesResolved s := by
  intro spent t accepted future
  obtain ⟨ended, taken⟩ := quiet.draining.ended spent accepted
  cases ended with
  | @returned result _ dispatched unclaimed returned told =>
    have own : s.pool.futures t = { result, hasResult := true, ready := true } := told future
    have kept : .cancelled t ∉ s.pool.events := of_decide_eq_false unclaimed
    refine ⟨?_, ?_, fun _ => ?_⟩
    · rw [own]
    · rw [own]
      exact ⟨nofun, fun member => absurd member kept⟩
    · rw [own]
      exact ⟨rfl, returned, dispatched⟩
  | cancelled _ _ claimed _ told =>
    have own : s.pool.futures t = futureMarkCancelled {} := told future
    have listed : .cancelled t ∈ s.pool.events := of_decide_eq_true claimed
    refine ⟨?_, ?_, fun live => ?_⟩
    · rw [own]
      rfl
    · rw [own]
      exact ⟨fun _ => listed, fun _ => rfl⟩
    · rw [own] at live
      cases live
  | refused failed => exact absurd failed taken

end Quiet

/-- loom_pool_shutdown resolves every future. -/
theorem futures_resolved_by_shutdown (config : Config) (processors clients : Nat) (labels : List Label)
    (run : Meets step Orderly (start config processors clients) labels) :
    Always step FuturesResolved (start config processors clients) labels := by
  apply @always_of_meets _ _ step Quiet FuturesResolved Orderly
  · intro s s' label quiet orderly after
    exact quiet.step orderly after
  · intro s quiet
    exact quiet.resolved
  · exact ⟨Draining.start config processors clients, nofun⟩
  · exact run

/-- A future in the ring that is cancelled and one in a lane that is not. -/
theorem futures_cancelled_and_run :
    Always step FuturesResolved (start { workerCount := 1, queueCapacity := 4 } 1 2)
      ([.submit 0 { isFuture := true }, .submit 1 { priority := 0, isFuture := true }] ++
        List.replicate 12 (.call 0 true 0) ++ List.replicate 3 (.call 1 true 1) ++
        [.cancelById 2 true, .shutdown, .pass 0 true 0, .finish 0 5, .pass 0 true 0, .pass 0 true 0,
          .join]) := by
  apply futures_resolved_by_shutdown
  apply meets_of_decide
  decide +kernel

/-- An intake with the node caches of its threads: the workers have the first numbers and the
clients' own threads the next ones. The pool's node array is that of pool 0. -/
structure Cached where
  intake : State
  nodes : NodeCache.State

namespace Cached

/-- Nodes beyond the array are blocks of their own. -/
def nodeAt (n : Nat) : NodeCache.Node := if n < NodeCache.nodePoolCap then .slot 0 n else .heap n

def number : NodeCache.Node → Nat
  | .slot _ index => index
  | .heap block => block

/-- A thread that makes the calls of a client is inside one. -/
def busy (thread : Nat → Nat) (s : State) (i : Nat) : Bool :=
  (List.range s.clientCount).any fun c => thread c = i && (s.clients c).pc ≠ .idle

/-- A thread can start a call: it is not a worker's, or the worker is in a task function. -/
def atLarge (thread : Nat → Nat) (s : State) (i : Nat) : Bool :=
  !busy thread s i && (s.pool.workerCount ≤ i || match s.workers i with
    | .running _ => true
    | _ => false)

/-- The steps that thread i can take. loom_pool_cancel_all, which destroys many tasks in one step, is
left out. -/
def takes (thread : Nat → Nat) (s : State) (i : Nat) : Label → Bool
  | .submit c _ => thread c = i && atLarge thread s i
  | .call c _ _ => thread c = i
  | .pass w _ _ | .settle w | .wake w | .create w _ | .checkReady w | .bodyEnds w _ _ | .signal w _ => w = i
  | .finish w _ => w = i && !busy thread s i
  | .cancel _ | .cancelById .. => atLarge thread s i
  | .shutdown | .join => s.pool.workerCount ≤ i
  | .timerFire .. | .post => true
  | .cancelAll => false

/-- task_create and task_destroy by thread i, for the task that a step has created or destroyed; a
worker that exits flushes its cache. -/
def allocates (s : Cached) (i : Nat) (after : State) : Option Cached :=
  if after.pool.nextTaskId = s.intake.pool.nextTaskId then
    let gone := s.nodes.tasks.filter fun task => (after.pool.ended (after.tenant (number task.2))).isSome
    let nodes := gone.foldl (fun nodes task => nodes.taskDestroy i 0 task.2) s.nodes
    some ⟨after, if after.workers i = .exited then nodes.tlsFlushToPool i 0 else nodes⟩
  else
    let n := after.node after.pool.nextTaskId
    let nodes := s.nodes.taskCreate i 0 (some n)
    if nodes.tasks.head? = some (0, nodeAt n) then some ⟨after, nodes⟩ else none

/-- A step of thread i. -/
def step (thread : Nat → Nat) (s : Cached) (label : Nat × Label) : Option Cached :=
  if takes thread s.intake label.1 label.2 then
    (Intake.step s.intake label.2).bind (s.allocates label.1)
  else none

/-- The node array is full and every cache empty. -/
def start (config : Config) (processors clients : Nat) : Cached :=
  ⟨Intake.start config processors clients, ({} : NodeCache.State).poolCreate 0 0 true⟩

theorem allocates_intake {s s' : Cached} {i : Nat} {after : State}
    (allocated : s.allocates i after = some s') : s'.intake = after := by
  unfold allocates at allocated
  dsimp only at allocated
  split at allocated
  · cases allocated
    rfl
  · split at allocated
    · cases allocated
      rfl
    · cases allocated

/-- No node changes hands. -/
theorem step_idle {thread : Nat → Nat} {s : Cached} {i : Nat} {label : Label} {after : State}
    (taken : takes thread s.intake i label = true) (stepped : Intake.step s.intake label = some after)
    (same : after.pool.nextTaskId = s.intake.pool.nextTaskId) (none : s.nodes.tasks = [])
    (up : after.workers i ≠ .exited) : step thread s (i, label) = some ⟨after, s.nodes⟩ := by
  simp only [step, taken, stepped, allocates, same, none, up, if_true, Option.bind_some, List.filter_nil,
    List.foldl_nil, if_false]

theorem step_creates {thread : Nat → Nat} {s : Cached} {i : Nat} {label : Label} {after : State}
    {nodes : NodeCache.State} (taken : takes thread s.intake i label = true)
    (stepped : Intake.step s.intake label = some after)
    (new : after.pool.nextTaskId ≠ s.intake.pool.nextTaskId)
    (created : s.nodes.taskCreate i 0 (some (after.node after.pool.nextTaskId)) = nodes)
    (own : nodes.tasks.head? = some (0, nodeAt (after.node after.pool.nextTaskId))) :
    step thread s (i, label) = some ⟨after, nodes⟩ := by
  simp only [step, taken, stepped, allocates, new, created, own, if_true, Option.bind_some, if_false]

/-- A run with the caches is a run of the intake. -/
theorem exec_intake {thread : Nat → Nat} {labels : List (Nat × Label)} {s s' : Cached}
    (run : exec (step thread) s labels = some s') :
    exec Intake.step s.intake (labels.map Prod.snd) = some s'.intake := by
  induction labels generalizing s with
  | nil =>
    cases run
    rfl
  | cons label labels ih =>
    obtain ⟨next, taken, rest⟩ := exec_cons.mp run
    unfold step at taken
    split at taken
    · obtain ⟨after, stepped, allocated⟩ := Option.bind_eq_some_iff.mp taken
      rw [← allocates_intake allocated] at stepped
      exact exec_cons.mpr ⟨next.intake, stepped, ih rest⟩
    · cases taken

end Cached

namespace IdZero

/-- Client 0 is a thread of its own; the calls of client 1 are made in the task functions of worker 0. -/
def thread (c : Nat) : Nat := 1 - c

def initial : Cached := Cached.start { workerCount := 1, queueCapacity := 1 } 1 2

/-- The node cache once the main thread has taken node 0 from the array: it is in the thread's cache
or that of a task. -/
def nodes (cached : Option NodeCache.Node) (tasks : List (Nat × NodeCache.Node)) : NodeCache.State :=
  { initial.nodes with
    pools := Function.update (fun _ => {}) 0 { NodeCache.poolInit 1 0 true with head := ⟨1, 1⟩ }
    tls := Function.update (fun _ => {}) 1 { nodes := Function.update (fun _ => none) 0 cached, owner := 1 }
    tasks }

theorem create_initial : initial.nodes.taskCreate 1 0 (some 0) = nodes none [(0, .slot 0 0)] := by
  simp [NodeCache.State.taskCreate, NodeCache.State.switch, NodeCache.State.tlsResolveOwner, nodes, initial,
    Cached.start, NodeCache.State.poolCreate, NodeCache.Tls.probe, NodeCache.tlsNodeSlots, NodeCache.Tls.room,
    NodeCache.poolRegistryCap, NodeCache.State.setTls, NodeCache.poolInit, NodeCache.State.setPool,
    NodeCache.nodeStackBatchPop, NodeCache.State.hands, NodeCache.nodePoolCap, NodeStack.freeEnd, Links.walk,
    NodeStack.Head.swap]

theorem create_cached :
    (nodes (some (.slot 0 0)) []).taskCreate 1 0 (some 0) = nodes none [(0, .slot 0 0)] := by
  simp [NodeCache.State.taskCreate, NodeCache.State.switch, nodes, initial, Cached.start,
    NodeCache.State.poolCreate, NodeCache.Tls.probe, NodeCache.tlsNodeSlots, NodeCache.poolRegistryCap,
    NodeCache.State.setTls, NodeCache.poolInit, NodeCache.Tls.set, NodeCache.State.hands, NodeCache.nodePoolCap,
    NodeStack.freeEnd]

theorem destroy_task :
    (nodes none [(0, .slot 0 0)]).taskDestroy 1 0 (.slot 0 0) = nodes (some (.slot 0 0)) [] := by
  simp [NodeCache.State.taskDestroy, NodeCache.nodeFromPool, NodeCache.State.switch, nodes, initial, Cached.start,
    NodeCache.State.poolCreate, NodeCache.Tls.probe, NodeCache.tlsNodeSlots, NodeCache.poolRegistryCap,
    NodeCache.State.setTls, NodeCache.poolInit, NodeCache.Tls.set, NodeCache.nodePoolCap, NodeStack.freeEnd]

/-- A lane task comes and is cancelled, all on the main thread. -/
def round (k : Nat) : List (Nat × Label) :=
  [(1, .submit 0 { priority := 0 }), (1, .call 0 true 0), (1, .call 0 true 0), (1, .call 0 true 0),
    (1, .cancelById (k + 2) true)]

/-- The intake after k rounds. -/
def rested (k : Nat) : State :=
  { initial.intake with
    pool := { initial.intake.pool with
      nextTaskId := k + 1
      tasks := fun t => if 1 < t ∧ t ≤ k + 1 then { priority := 0 } else {}
      ended := fun t => if 1 < t ∧ t ≤ k + 1 then some .cancelled else none
      events := ((List.range k).map fun i => Event.cancelled (i + 2)).reverse
      workSem := k }
    tenant := Function.update (fun _ => 0) 0 (if k = 0 then 0 else k + 1)
    clients := Function.update (fun _ => {}) 0 { request := if k = 0 then {} else { priority := 0 } }
    accepted := ((List.range k).map (· + 2)).reverse }

def after (k : Nat) : Cached := ⟨rested k, if k = 0 then initial.nodes else nodes (some (.slot 0 0)) []⟩

theorem after_zero : after 0 = initial := by
  have none_made : ∀ t : Nat, ¬(1 < t ∧ t ≤ 0 + 1) := by omega
  simp only [after, rested, none_made, if_false, if_true]
  simp [initial, Cached.start, Intake.start, poolInit]

theorem after_tasks (k : Nat) : (after k).nodes.tasks = [] := by
  unfold after
  split <;> rfl

/-- The main thread in a submit call of round k. -/
def inCall (k : Nat) (pc : CallPc) : State :=
  { rested k with clients := Function.update (fun _ => {}) 0 { pc, request := { priority := 0 } } }

theorem setPc_inCall (k : Nat) (pc next : CallPc) : (inCall k pc).setPc 0 next = inCall k next := by
  simp [State.setPc, inCall]

theorem free_inCall (k : Nat) (pc : CallPc) : (inCall k pc).free 0 = true := by
  cases k with
  | zero => rfl
  | succ k => simp [State.free, inCall, rested]

/-- The submit call up to the section of enqueue_lane_task. -/
theorem call_to_lane (k : Nat) :
    exec (Cached.step thread) (after k) ((round k).take 3) = some ⟨inCall k .lane, (after k).nodes⟩ := by
  have first : Cached.step thread (after k) (1, .submit 0 { priority := 0 }) =
      some ⟨inCall k .check, (after k).nodes⟩ := by
    refine Cached.step_idle rfl ?_ rfl (after_tasks k) (fun clash => by cases clash)
    simp [Intake.step, after, inCall, rested, initial, Cached.start, Intake.start]
  have second : Cached.step thread ⟨inCall k .check, (after k).nodes⟩ (1, .call 0 true 0) =
      some ⟨inCall k .capacity, (after k).nodes⟩ :=
    Cached.step_idle rfl (congrArg some (setPc_inCall k .check .capacity)) rfl (after_tasks k)
      (fun clash => by cases clash)
  have third : Cached.step thread ⟨inCall k .capacity, (after k).nodes⟩ (1, .call 0 true 0) =
      some ⟨inCall k .lane, (after k).nodes⟩ :=
    Cached.step_idle rfl (congrArg some (setPc_inCall k .capacity .lane)) rfl (after_tasks k)
      (fun clash => by cases clash)
  exact exec_cons.mpr ⟨_, first, exec_cons.mpr ⟨_, second, exec_cons.mpr ⟨_, third, rfl⟩⟩⟩

/-- Task k + 2 in lane 0. -/
def queued (k : Nat) : State :=
  { rested k with
    pool := { (rested k).pool with
      nextTaskId := k + 2
      tasks := Function.update (rested k).pool.tasks (k + 2) { priority := 0 }
      lanes := Function.update (fun _ => []) 0 [k + 2]
      queueLen := 1
      workSem := k + 1 }
    tenant := Function.update (fun _ => 0) 0 (k + 2)
    clients := Function.update (fun _ => {}) 0 { request := { priority := 0 } }
    accepted := (k + 2) :: (rested k).accepted }

theorem step_lane (k : Nat) : Intake.step (inCall k .lane) (.call 0 true 0) = some (queued k) := by
  have called : Intake.step (inCall k .lane) (.call 0 true 0) =
      if (inCall k .lane).free 0 then some _ else none := rfl
  rw [called, if_pos (free_inCall k .lane)]
  simp [State.returns, State.taskCreate, ThreadPool.taskCreate, ThreadPool.setTask,
    ThreadPool.loomEnqueueUnlocked, inCall, queued, Request.task, rested, initial, Cached.start, Intake.start,
    poolInit]

theorem unlink_only {t : Nat} {found : Nat → Bool} (here : found t = true) :
    unlinkFirst found (Function.update (fun _ => []) 0 [t]) = some (t, fun _ => []) := by
  have bucket : (List.range priorityBuckets).find? (fun b =>
      (Function.update (fun _ => []) 0 [t] b : List Nat).any found) = some 0 := by
    rw [List.find?_range_eq_some]
    simp [here, priorityBuckets]
  simp [unlinkFirst, bucket, here]

theorem update_made {α : Type} (k : Nat) (made unmade : α) :
    Function.update (fun t => if 1 < t ∧ t ≤ k + 1 then made else unmade) (k + 2) made =
      fun t => if 1 < t ∧ t ≤ k + 1 + 1 then made else unmade := by
  funext t
  by_cases new : t = k + 2
  · subst new
    simp
  · have same : (1 < t ∧ t ≤ k + 1 + 1) ↔ (1 < t ∧ t ≤ k + 1) := by omega
    simp only [Function.update_of_ne new, same]

theorem step_cancel (k : Nat) :
    Intake.step (queued k) (.cancelById (k + 2) true) = some (rested (k + 1)) := by
  have unindexed : cancelIndexFind (queued k).pool.index (k + 2) = none :=
    (tracked_poolInit (settings { workerCount := 1, queueCapacity := 1 } 1)).holds.find_dead (by omega) nofun
  have own : (queued k).pool.tasks (k + 2) = { priority := 0 } := by simp [queued]
  have unlinked := @unlink_only (k + 2)
    (fun t => t == k + 2 && !((queued k).pool.tasks t).cancelled) (by simp [own])
  have lanes : (queued k).pool.lanes = Function.update (fun _ => []) 0 [k + 2] := rfl
  have asleep : (queued k).pool.timerHeap = [] := rfl
  have up : (queued k).shutdown = false := rfl
  simp only [Intake.step, State.cancels, up, State.loomPoolCancelById, unindexed, asleep, List.find?_nil,
    ThreadPool.cancelLane, lanes, unlinked, ThreadPool.markFutureCancelled, own]
  simp [ThreadPool.taskDestroy, ThreadPool.emit, queued, rested, update_made, List.range_succ, initial,
    Cached.start, Intake.start, poolInit]

theorem round_ends (k : Nat) : exec (Cached.step thread) (after k) (round k) = some (after (k + 1)) := by
  have created : (after k).nodes.taskCreate 1 0 (some 0) = nodes none [(0, .slot 0 0)] := by
    unfold after
    split
    · exact create_initial
    · exact create_cached
  have fourth : Cached.step thread ⟨inCall k .lane, (after k).nodes⟩ (1, .call 0 true 0) =
      some ⟨queued k, nodes none [(0, .slot 0 0)]⟩ :=
    Cached.step_creates rfl (step_lane k) (Nat.succ_ne_self (k + 1)) created rfl
  have gone : ((rested (k + 1)).pool.ended ((rested (k + 1)).tenant 0)).isSome = true := by simp [rested]
  have fifth : Cached.step thread ⟨queued k, nodes none [(0, .slot 0 0)]⟩ (1, .cancelById (k + 2) true) =
      some (after (k + 1)) := by
    have same : (rested (k + 1)).pool.nextTaskId = (queued k).pool.nextTaskId := rfl
    have large : Cached.takes thread (queued k) 1 (.cancelById (k + 2) true) = true := rfl
    have up : (rested (k + 1)).workers 1 ≠ .exited := nofun
    have tasks : (nodes none [(0, .slot 0 0)]).tasks = [(0, .slot 0 0)] := rfl
    simp only [Cached.step, large, step_cancel, Cached.allocates, same, tasks, Cached.number, gone, up,
      if_true, if_false, Option.bind_some, List.filter_cons, List.filter_nil, List.foldl_cons,
      List.foldl_nil, destroy_task]
    rfl
  exact exec_append.mpr ⟨_, call_to_lane k, exec_cons.mpr ⟨_, fourth, exec_cons.mpr ⟨_, fifth, rfl⟩⟩⟩

theorem rounds_end (k : Nat) :
    exec (Cached.step thread) initial ((List.range k).flatMap round) = some (after k) := by
  induction k with
  | zero => exact congrArg some after_zero.symm
  | succ k ih =>
    rw [List.range_succ, List.flatMap_append]
    exact exec_append.mpr ⟨after k, ih, by simpa using round_ends k⟩

theorem rounds_then {k : Nat} {s : Cached} {labels : List (Nat × Label)}
    (reached : exec (Cached.step thread) (after k) labels = some s) :
    exec (Cached.step thread) initial ((List.range k).flatMap round ++ labels) = some s :=
  exec_append.mpr ⟨after k, rounds_end k, reached⟩

/-- Task 512 runs through the ring; its function submits a future to a lane, and the main thread calls
loom_pool_cancel_by_id with id 0 while that is queued. -/
def rest : List (Nat × Label) :=
  List.flatten [[(1, .submit 0 {})], List.replicate 12 (1, .call 0 true 0), [(0, .pass 0 true 0),
    (0, .submit 1 { priority := 0, isFuture := true }), (0, .call 1 true 0), (0, .call 1 true 0),
    (0, .call 1 true 0), (0, .finish 0 0), (1, .cancelById 0 true), (1, .shutdown), (0, .pass 0 true 0),
    (0, .pass 0 true 0), (1, .join)]]

theorem rest_ends :
    ((exec (Cached.step thread) (after 510) rest).map fun s =>
      (decide s.intake.Over, s.intake.accepted.head?, (s.intake.pool.tasks 513).isFuture,
        (s.intake.pool.futures 513).cancelled, decide (.cancelled 513 ∈ s.intake.pool.events))) =
      some (true, some 513, true, true, false) := by
  decide +kernel

end IdZero

/-- Task 512 leaves a tombstone in the slot where the search for id 0 begins; its node was in the
worker's cache, and is that of the future's task 513 by then. -/
theorem future_cancelled_by_nobody :
    ∃ labels final, exec (Cached.step IdZero.thread) IdZero.initial labels = some final ∧
      exec step (start { workerCount := 1, queueCapacity := 1 } 1 2) (labels.map Prod.snd) =
          some final.intake ∧
        final.intake.Over ∧ 513 ∈ final.intake.accepted ∧ (final.intake.pool.tasks 513).isFuture = true ∧
          (final.intake.pool.futures 513).cancelled = true ∧ .cancelled 513 ∉ final.intake.pool.events ∧
            ¬FuturesResolved final.intake := by
  obtain ⟨s, reached, shape⟩ := Option.map_eq_some_iff.mp IdZero.rest_ends
  simp only [Prod.mk.injEq, decide_eq_true_eq, decide_eq_false_iff_not] at shape
  obtain ⟨spent, accepted, future, cancelled, unclaimed⟩ := shape
  obtain ⟨labels, run⟩ : ∃ labels, exec (Cached.step IdZero.thread) IdZero.initial labels = some s :=
    ⟨_, IdZero.rounds_then reached⟩
  have member : 513 ∈ s.intake.accepted := List.mem_of_mem_head? accepted
  refine ⟨labels, s, run, Cached.exec_intake run, spent, member, future, cancelled, unclaimed, fun resolved => ?_⟩
  exact unclaimed ((resolved spent 513 member future).cancelled.mp cancelled)

end Loomworks.Pool.Intake

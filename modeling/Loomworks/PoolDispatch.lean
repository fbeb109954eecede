import Loomworks.PlacementCount
import Loomworks.PoolRefines
import Loomworks.Threads

/- Which tasks a pool dispatches, and which its cancel calls report. -/
namespace Loomworks.Pool

open Transition

/-- A pool with the memory of its tasks: node is where a task was created, tenant the last task
created in a node, or 1, an id that no task has. -/
structure Recycling where
  pool : ThreadPool
  node : Nat → Nat := fun _ => 0
  tenant : Nat → Nat := fun _ => 1

namespace Recycling

/-- task_destroy has got the node back, or it was never used. -/
def free (s : Recycling) (n : Nat) : Bool := s.tenant n = 1 || (s.pool.ended (s.tenant n)).isSome

/-- The ring part of loom_pool_cancel_by_id, for the task it has found. -/
def cancelFound (s : Recycling) (t : Nat) : Recycling × LoomResult :=
  if (s.pool.tasks t).cancelled then (s, .errInvalid)
  else match (s.pool.flag t).claim t with
    | some pool => ({ s with pool }, .ok)
    | none => ({ s with pool := s.pool.flag t }, .errInvalid)

/-- loom_pool_cancel_by_id. The key of id 0 is the mark of a tombstone, which still points to the
node of the task it was left for: the call goes on with the task that is in that node now. -/
def loomPoolCancelById (s : Recycling) (id : Nat) (alloc : Bool) : Recycling × LoomResult :=
  match id, cancelIndexFind s.pool.index id with
  | 0, some old => s.cancelFound (s.tenant (s.node old))
  | id, _ =>
    let called := s.pool.loomPoolCancelById id alloc
    ({ s with pool := called.1 }, called.2)

/-- The pool after a step; a task that was created in it has got node n. -/
def place (s : Recycling) (n : Nat) (pool : ThreadPool) : Option Recycling :=
  if pool.nextTaskId = s.pool.nextTaskId then some { s with pool }
  else if s.free n then
    some { pool
           node := Function.update s.node (s.pool.nextTaskId + 1) n
           tenant := Function.update s.tenant n (s.pool.nextTaskId + 1) }
  else none

def step (s : Recycling) : Label × Nat → Option Recycling
  | (.cancelById id alloc, _) => some (s.loomPoolCancelById id alloc).1
  | (label, n) => (Pool.step s.pool label).bind (s.place n)

def start (config : Config) : Recycling := { pool := poolInit config }

/-- The task that loom_pool_cancel_by_id acts on: the one with the id, and for id 0 the one in
the node that a tombstone points to. -/
def Named (s : Recycling) (id t : Nat) : Prop :=
  t = id ∨ id = 0 ∧ ∃ old, cancelIndexFind s.pool.index 0 = some old ∧ t = s.tenant (s.node old)

/-- What the cancel calls return is what they have logged. -/
def Reported (s : Recycling) : Label × Nat → Prop
  | (.cancel data, _) =>
    ThreadPool.Reports s.pool (s.pool.loomPoolCancel data).1
      (fun t => (s.pool.tasks t).userData = data) (s.pool.loomPoolCancel data).2
  | (.cancelById id alloc, _) =>
    ThreadPool.Reports s.pool (s.loomPoolCancelById id alloc).1.pool (s.Named id)
      (s.loomPoolCancelById id alloc).2
  | (.cancelAll, _) =>
    ∃ tasks : List Nat, tasks.length = s.pool.loomPoolCancelAll.2 ∧
      s.pool.loomPoolCancelAll.1.events = tasks.map .cancelled ++ s.pool.events
  | _ => True

variable {s s' : Recycling} {live : Finset Nat} {label : Label} {n : Nat}

/-- The pool is good, and every node a tombstone can point to is that of a task or unused. -/
structure Kept (good : ThreadPool → Prop) (s : Recycling) : Prop where
  pool : good s.pool
  tenants : ∀ n, 0 < s.tenant n

theorem tracked_cancelFound (tracked : s.pool.Tracked live) {t : Nat} (positive : 0 < t) :
    (∃ live', (s.cancelFound t).1.pool.Tracked live') ∧
      ThreadPool.Reports s.pool (s.cancelFound t).1.pool (· = t) (s.cancelFound t).2 := by
  unfold cancelFound
  split
  · exact ⟨⟨live, tracked⟩, @ThreadPool.Reports.none s.pool s.pool _ .errInvalid (by decide) rfl⟩
  · by_cases listed : t ∈ live
    · obtain ⟨final, claimed, refines, logged⟩ := @ThreadPool.Tracked.claim True True _ _ _ tracked listed
      rw [claimed]
      exact ⟨tracked.refined refines, ThreadPool.Reports.queued rfl logged⟩
    · rw [tracked.claim_dead positive listed]
      exact ⟨⟨live, tracked.flag t⟩,
        @ThreadPool.Reports.none s.pool (s.pool.flag t) _ .errInvalid (by decide) rfl⟩

theorem reported (tracked : s.pool.Tracked live) (tenants : ∀ m, 0 < s.tenant m)
    (label : Label × Nat) : Reported s label := by
  obtain ⟨label, n⟩ := label
  cases label with
  | cancel data => exact (@ThreadPool.Tracked.loomPoolCancel True True _ _ tracked data).2
  | cancelById id alloc =>
    have reports := (@ThreadPool.Tracked.loomPoolCancelById True True _ _ tracked id alloc).2
    unfold Reported loomPoolCancelById
    dsimp only
    split
    · rename_i old found
      refine (tracked_cancelFound tracked (tenants (s.node old))).2.mono ?_
      exact fun t same => Or.inr ⟨rfl, old, found, same⟩
    · exact reports.mono fun t same => Or.inl same
  | cancelAll => exact (@ThreadPool.Tracked.loomPoolCancelAll True True _ _ tracked).2
  | _ => trivial

end Recycling

/-- A pool that was never resized: its index has room for all it can hold. -/
structure Complete (config : Config) (s : ThreadPool) (live : Finset Nat) : Prop where
  tracked : s.Tracked live
  indexed : Indexed (s.view live)
  staffed : Staffed config s.control
  cap : s.index.cap = (poolInit config).index.cap

theorem spare_poolInit (config : Config) (ring : 0 < config.ringSize) :
    config.ringSize + config.workerCount * dequeCapacity ≤ (poolInit config).index.cap := by
  have alloc : config.ringAlloc = true := by
    by_contra missing
    simp [Config.ringSize, missing] at ring
  have cap : (poolInit config).index.cap = 2 ^ config.indexBits := by simp [poolInit, alloc]
  rw [cap]
  exact Nat.le_pow_clog (by decide) _

theorem Staffed.careful {config : Config} {s s' : ThreadPool} {label : Label}
    (staffed : Staffed config s.control) (stepped : step s label = some s')
    (fixed : label.resizes = false) : Careful s label := by
  cases label with
  | leave w =>
    have left : s.leave w = some s' := stepped
    unfold ThreadPool.leave at left
    split at left
    · rename_i leaving
      exact absurd leaving (staffed.stays w).1
    · cases left
  | resize count env => cases fixed
  | _ => trivial

theorem Complete.refined {config : Config} {s s' : ThreadPool} {live : Finset Nat}
    (complete : Complete config s live) (refines : s.Refines True True live s')
    (staffed : Staffed config s'.control) : ∃ live', Complete config s' live' := by
  obtain ⟨live', holds, moved⟩ := refines.moved
  exact ⟨live', ⟨refines.shaped, holds, complete.tracked.safe.moves moved⟩,
    complete.indexed.moves moved, staffed, (cap_moves moved).trans complete.cap⟩

theorem Complete.step {config : Config} {s s' : ThreadPool} {live : Finset Nat} {label : Label}
    (complete : Complete config s live) (fixed : label.resizes = false)
    (stepped : step s label = some s') : ∃ live', Complete config s' live' := by
  have staffed := complete.staffed
  refine complete.refined ?_ (staffed.turn (turn_step stepped fixed))
  refine refines_step complete.tracked (fun _ => staffed.careful stepped fixed) ?_ stepped
  intro _ ring
  have sizes : s.ringSize = config.ringSize ∧ s.maxWorkerCount = config.workerCount :=
    ⟨staffed.ring, staffed.limit⟩
  rw [sizes.1] at ring
  rw [sizes.1, sizes.2, complete.cap]
  have spare := spare_poolInit config ring
  have fewer : config.workerCount * dequeRest ≤ config.workerCount * dequeCapacity :=
    Nat.mul_le_mul_left _ (by decide)
  omega

/-- A task that a tombstone leads to is claimed if it is in the index, or else only flagged. -/
theorem Complete.cancelFound {config : Config} {s : Recycling} {live : Finset Nat} {t : Nat}
    (complete : Complete config s.pool live) (positive : 0 < t) :
    ∃ live', Complete config (s.cancelFound t).1.pool live' := by
  have tracked := complete.tracked
  unfold Recycling.cancelFound
  split
  · exact ⟨live, complete⟩
  · by_cases listed : t ∈ live
    · obtain ⟨final, claimed, refines, -⟩ := @ThreadPool.Tracked.claim True True _ _ _ tracked listed
      have control := ((ThreadPool.Settles.flag s.pool t).trans (.claim claimed)).control
      rw [claimed]
      exact complete.refined refines (control ▸ complete.staffed)
    · rw [tracked.claim_dead positive listed]
      refine ⟨live, tracked.flag t, ?_, complete.staffed, complete.cap⟩
      rw [ThreadPool.view_flag]
      exact complete.indexed.raise listed

end Loomworks.Pool

import Loomworks.PlacementCount
import Loomworks.PoolRefines

/- The counter queue_len against the tasks that wait in the pool. -/
namespace Loomworks.Pool

open Transition

/-- queue_len is the number of accepted tasks in the ring, the deques and the
lanes that are neither cancelled nor taken for execution. -/
def QueueLenExact (s : ThreadPool) : Prop :=
  s.queueLen = pending s.events (s.pooled ++ laneTasks s.lanes) ∧ 0 ≤ s.queueLen

instance (s : ThreadPool) (count : Nat) (env : ResizeEnv) : Decidable (s.Degrades count env) :=
  inferInstanceAs (Decidable (_ ∧ _ ∧ _ ∧ _))

instance (s : ThreadPool) : (label : Label) → Decidable (Careful s label)
  | .leave w => inferInstanceAs (Decidable (∀ t ∈ s.deque w, (s.tasks t).cancelled = false))
  | .resize count env =>
    inferInstanceAs (Decidable (s.Degrades count env → ∀ w < s.maxWorkerCount, s.deque w = []))
  | .submit .. | .submitCoroutine .. | .pass .. | .finish .. | .create .. | .checkReady ..
  | .bodyEnds .. | .wake .. | .post | .timerFire .. | .cancel .. | .cancelById ..
  | .cancelAll | .repost | .join .. => .isTrue trivial

/-- The pool against the abstract machine, its counter included. -/
structure Counted (s : ThreadPool) (live : Finset Nat) : Prop where
  tracked : s.Tracked live
  exact : Exact (s.view live)

theorem Counted.step {s s' : ThreadPool} {live : Finset Nat} {label : Label}
    (counted : Counted s live) (careful : Careful s label) (stepped : step s label = some s') :
    ∃ live', Counted s' live' := by
  have refines : s.Refines True False live s' :=
    refines_step counted.tracked (fun _ => careful) False.elim stepped
  obtain ⟨live', holds, moved⟩ := refines.moved
  exact ⟨live', ⟨refines.shaped, holds, counted.tracked.safe.moves moved⟩, counted.exact.moves moved⟩

theorem counted_poolInit (config : Config) : Counted (poolInit config) ∅ := by
  have tracked := tracked_poolInit config
  exact ⟨tracked, Exact.start tracked.safe (pooled_poolInit config) (lanes_poolInit config) rfl rfl⟩

theorem Counted.queueLen {s : ThreadPool} {live : Finset Nat} (counted : Counted s live) :
    QueueLenExact s := by
  have count : s.queueLen = pending s.events (s.pooled ++ laneTasks s.lanes) := counted.exact.count
  exact ⟨count, by omega⟩

/-- In every run in which displaced workers spill no cancelled task and no resize
throws away a filled deque, queue_len is exact in every state. -/
theorem queue_len_exact (config : Config) (labels : List Label)
    (careful : Meets step Careful (poolInit config) labels) :
    Always step QueueLenExact (poolInit config) labels := by
  refine @always_of_meets _ _ step (fun s => ∃ live, Counted s live) QueueLenExact Careful ?_ ?_ _ _
    ⟨∅, counted_poolInit config⟩ careful
  · intro s s' label counted here stepped
    obtain ⟨live, counted⟩ := counted
    exact counted.step here stepped
  · intro s counted
    obtain ⟨live, counted⟩ := counted
    exact counted.queueLen

def twoWorkers : Config := { workerCount := 2, queueCapacity := 3 }

/-- A displaced worker spills a task that nobody cancelled, and the other worker
runs it. -/
theorem queue_len_exact_after_spill :
    Always step QueueLenExact (poolInit twoWorkers)
      [.submit 70 5 false true, .submit 71 5 false true, .pass 1 true, .cancelById 9 true,
        .resize 1 {}, .finish 1 0, .pass 1 true, .leave 1, .pass 0 true] := by
  apply queue_len_exact
  apply meets_of_decide
  decide +kernel

/-- Worker 1 takes tasks 2 and 3 from the ring and runs 3; task 2 is cancelled in
its deque, which takes it off the counter. A resize displaces worker 1, which
spills task 2 into a lane, and worker 0 takes it off the counter again. -/
theorem queue_len_below_zero :
    ∃ labels final, exec step (poolInit twoWorkers) labels = some final ∧
      final.events = [.cancelled 2, .dispatched 3, .submitted 3, .submitted 2] ∧
      final.queueLen = -1 ∧ ¬ QueueLenExact final := by
  let labels : List Label := [.submit 70 5 false true, .submit 71 5 false true, .pass 1 true,
    .cancelById 2 true, .resize 1 {}, .finish 1 0, .pass 1 true, .leave 1, .pass 0 true]
  have run : ((exec step (poolInit twoWorkers) labels).map fun s => (s.events, s.queueLen)) =
      some ([.cancelled 2, .dispatched 3, .submitted 3, .submitted 2], -1) := by
    decide +kernel
  obtain ⟨final, reached, shape⟩ := Option.map_eq_some_iff.mp run
  simp only [Prod.mk.injEq] at shape
  obtain ⟨events, count⟩ := shape
  refine ⟨labels, final, reached, events, count, ?_⟩
  intro exact
  have positive := exact.2
  omega

end Loomworks.Pool

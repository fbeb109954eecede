import Mathlib

/- Result codes and futures (src/thread_pool.c). A future is read and written
only under its mutex, so each function below is one step. -/
namespace Loomworks

/-- loom_result_t. -/
inductive LoomResult where
  | ok | errAlloc | errThread | errInvalid | errShutdown | errTimeout | errCancelled | errFailed
  deriving DecidableEq, Repr

def LoomResult.code : LoomResult → Nat
  | .ok => 0
  | .errAlloc => 1
  | .errThread => 2
  | .errInvalid => 3
  | .errShutdown => 4
  | .errTimeout => 5
  | .errCancelled => 6
  | .errFailed => 7

/-- struct loom_future; result is the pointer as a number, NULL being 0. -/
structure Future where
  result : Nat := 0
  ready : Bool := false
  hasResult : Bool := false
  cancelled : Bool := false
  failed : Bool := false
  deriving DecidableEq, Repr

/-- loom_future_init; the arguments say whether the mutex and the condition
variable could be initialised. -/
def loomFutureInit (fut : Future) (mutexOk condOk : Bool) : Future × LoomResult :=
  if mutexOk && condOk then ({}, .ok) else (fut, .errAlloc)

/-- loom_future_complete: an earlier cancellation is never overwritten. -/
def loomFutureComplete (fut : Future) (status : LoomResult) : Future :=
  if fut.cancelled then fut
  else { fut with
    result := status.code, hasResult := false, failed := decide (status ≠ .ok), ready := true }

/-- future_mark_cancelled. -/
def futureMarkCancelled (fut : Future) : Future :=
  { fut with cancelled := true, ready := true, hasResult := false }

/-- coro_future_mark_cancelled. -/
def coroFutureMarkCancelled (fut : Future) : Future :=
  { fut with cancelled := true, ready := true, hasResult := false, result := 0 }

/-- What loom_future_wait returns once the future is ready. -/
def loomFutureWait (fut : Future) : Option LoomResult :=
  if fut.ready = false then none
  else if fut.cancelled then some .errCancelled
  else if fut.failed then some .errFailed
  else some .ok

@[simp] theorem loomFutureComplete_ready (fut : Future) (status : LoomResult)
    (live : fut.cancelled = false) : (loomFutureComplete fut status).ready = true := by
  simp [loomFutureComplete, live]

@[simp] theorem loomFutureComplete_cancelled (fut : Future) (status : LoomResult) :
    (loomFutureComplete fut status).cancelled = fut.cancelled := by
  unfold loomFutureComplete
  split <;> simp

theorem loomFutureWait_coroMarkCancelled (fut : Future) :
    loomFutureWait (coroFutureMarkCancelled fut) = some .errCancelled := by
  simp [loomFutureWait, coroFutureMarkCancelled]

end Loomworks

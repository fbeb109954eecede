import Loomworks.FutureWait

/- Who resolves a future. The future of a pool task is resolved by the worker that
runs the task, by a cancel that takes the task off the queue, or, when the worker
crashes, by whoever finds its context in worker_reclaim; the future of a coroutine
or a DAG node by its one completion, which the canceller may take instead. -/
namespace Loomworks.FutureOutcome

open Transition FutureWait

/-- Where the task of a future is. -/
inductive Task where
  | absent
  | queued
  /-- Cancelled in the ring; a worker will drain it. -/
  | tombstone
  | dispatched
  | gone
  deriving DecidableEq, Repr

/-- The dispatch sequence of worker_entry for a future task (1255-1310). -/
inductive Pc where
  | idle
  /-- Dequeued, nothing published. -/
  | dequeued (f : Nat)
  /-- From the store to worker_reclaim to the wrapper's locked section: the STARTED
  callback and the user's function run here. -/
  | running (f : Nat)
  /-- The wrapper has published the result; the COMPLETED callback runs here. -/
  | returned (f : Nat)
  /-- worker_reclaim is NULL again, the context not yet freed. -/
  | cleared (f : Nat)
  | crashed
  /-- Joined and not restarted. -/
  | reaped
  deriving DecidableEq, Repr

/-- A worker slot; reclaim is worker_reclaim[idx], as the future of the context. -/
structure Worker where
  pc : Pc := .idle
  reclaim : Option Nat := none
  deriving DecidableEq, Repr

/-- Futures are numbered as they are made; none is one that does not exist yet or
has been destroyed. completion says that a coroutine's task->completion still
points to the future, or that the DAG still owes it its status. -/
structure State where
  futures : Nat → Option Future := fun _ => none
  tasks : Nat → Task := fun _ => .absent
  completion : Nat → Bool := fun _ => false
  workers : Nat → Worker := fun _ => {}

def start : State := {}

inductive Label where
  | submitFuture (f : Nat)
  /-- loom_pool_submit_coroutine, or dag_release_node behind loom_future_init. -/
  | initCompletion (f : Nat)
  /-- The cancel functions on a task in a lane, or in the ring. -/
  | cancel (f : Nat) (inLane : Bool)
  /-- A worker drains a tombstone. -/
  | drain (f : Nat)
  | dequeue (w f : Nat)
  /-- Worker w goes on; result is what the user's function returns. -/
  | worker (w result : Nat)
  | crash (w : Nat)
  /-- The recovery scan, which may restart the worker, or the shutdown join loop. -/
  | reclaim (w : Nat) (restarted : Bool)
  | complete (f : Nat) (status : LoomResult)
  | coroCancel (f : Nat)
  | destroy (f : Nat)
  deriving DecidableEq, Repr

abbrev State.resolve (s : State) (f : Nat) (writer : Resolver) : State :=
  { s with futures := Function.update s.futures f ((s.futures f).map writer.resolve) }

abbrev State.setTask (s : State) (f : Nat) (task : Task) : State :=
  { s with tasks := Function.update s.tasks f task }

abbrev State.setWorker (s : State) (w : Nat) (worker : Worker) : State :=
  { s with workers := Function.update s.workers w worker }

/-- Neither submitted nor destroyed. -/
def State.unused (s : State) (f : Nat) : Bool :=
  s.futures f == none && s.tasks f == .absent

def workerEntry (s : State) (w result : Nat) : Option State :=
  match (s.workers w).pc with
  | .dequeued f => some (s.setWorker w ⟨.running f, some f⟩)
  | .running f =>
    some ((s.resolve f (.taskWrapper result)).setWorker w ⟨.returned f, (s.workers w).reclaim⟩)
  | .returned f => some (s.setWorker w ⟨.cleared f, none⟩)
  | .cleared _ => some (s.setWorker w ⟨.idle, (s.workers w).reclaim⟩)
  | _ => none

/-- The slot behind the join. -/
@[grind] def joined (restarted : Bool) : Pc := if restarted then .idle else .reaped

/-- The exchange of worker_reclaim[w] with NULL, and the mark. -/
def reclaimSlot (s : State) (w : Nat) (restarted : Bool) : State :=
  match (s.workers w).reclaim with
  | some f => (s.resolve f .markCancelled).setWorker w ⟨joined restarted, none⟩
  | none => s.setWorker w ⟨joined restarted, none⟩

/-- if (task->completion), the resolution, and task->completion = NULL. -/
def takeCompletion (s : State) (f : Nat) (writer : Resolver) : Option State :=
  if s.completion f then
    some { s.resolve f writer with completion := Function.update s.completion f false }
  else none

def step (s : State) : Label → Option State
  | .submitFuture f =>
    if s.unused f then
      some { s.setTask f .queued with futures := Function.update s.futures f (some {}) }
    else none
  | .initCompletion f =>
    if s.unused f then
      some { s.setTask f .gone with
        futures := Function.update s.futures f (some {})
        completion := Function.update s.completion f true }
    else none
  | .cancel f inLane =>
    if s.tasks f = .queued then
      if inLane then some ((s.resolve f .markCancelled).setTask f .gone)
      else some (s.setTask f .tombstone)
    else none
  | .drain f =>
    if s.tasks f = .tombstone then some ((s.resolve f .markCancelled).setTask f .gone) else none
  | .dequeue w f =>
    if (s.workers w).pc = .idle ∧ s.tasks f = .queued then
      some ((s.setTask f .dispatched).setWorker w ⟨.dequeued f, (s.workers w).reclaim⟩)
    else none
  | .worker w result => workerEntry s w result
  | .crash w =>
    if (s.workers w).pc ≠ .reaped then some (s.setWorker w ⟨.crashed, (s.workers w).reclaim⟩)
    else none
  | .reclaim w restarted =>
    if (s.workers w).pc = .crashed then some (reclaimSlot s w restarted) else none
  | .complete f status => takeCompletion s f (.complete status)
  | .coroCancel f => takeCompletion s f .coroMarkCancelled
  | .destroy f =>
    -- loom_future_destroy refuses a future that is not ready
    if (s.futures f).any Future.ready then
      some { s with futures := Function.update s.futures f none }
    else none

/-- No step but loom_future_destroy changes what a wait on a ready future reports. -/
def Permanent (s : State) (label : Label) : Prop :=
  ∀ s', step s label = some s' → ∀ f fut, s.futures f = some fut → fut.ready = true →
    label = .destroy f ∨ ∃ fut', s'.futures f = some fut' ∧ fut'.ready = true ∧
      fut'.cancelled = fut.cancelled ∧ fut'.failed = fut.failed ∧ fut'.result = fut.result

/-- No worker crashes between the publication of its task's result and the clearing
of its reclaim slot. -/
@[grind] def careful (s : State) : Label → Bool
  | .crash w =>
    match (s.workers w).pc with
    | .returned _ => false
    | _ => true
  | _ => true

/-- The future the worker, or who reaps it, has yet to resolve. -/
@[grind] def Worker.owns (worker : Worker) : Option Nat :=
  match worker.pc with
  | .dequeued f | .running f => some f
  | .crashed => worker.reclaim
  | _ => none

/-- What worker_reclaim holds at each point of the sequence. -/
@[grind] def Worker.Fits (worker : Worker) : Prop :=
  match worker.pc with
  | .running f | .returned f => worker.reclaim = some f
  | .crashed => True
  | _ => worker.reclaim = none

abbrev State.Unready (s : State) (f : Nat) : Prop :=
  ∃ fut, s.futures f = some fut ∧ fut.ready = false

/-- Whoever has the right to resolve a future has it alone, and the future is not
ready yet. -/
structure Inv (s : State) : Prop where
  queued : ∀ f, s.tasks f = .queued ∨ s.tasks f = .tombstone → s.Unready f
  completion : ∀ f, s.completion f = true → s.tasks f = .gone ∧ s.Unready f
  owned : ∀ w f, (s.workers w).owns = some f → s.tasks f = .dispatched ∧ s.Unready f
  exclusive : ∀ v w f, (s.workers v).owns = some f → (s.workers w).owns = some f → v = w
  fits : ∀ w, (s.workers w).Fits

variable {s s' : State} {label : Label} {f w result : Nat} {writer : Resolver}

theorem inv_start : Inv start := by
  constructor <;> simp [start, Worker.owns, Worker.Fits]

/-- A step writes one future at most: a new one, one that is not ready, or the one
it destroys. -/
theorem Inv.writes (inv : Inv s) (taken : step s label = some s') :
    s'.futures = s.futures ∨ ∃ f after, s'.futures = Function.update s.futures f after ∧
      (s.futures f = none ∨ s.Unready f ∨ label = .destroy f) := by
  cases label with
  | submitFuture f | initCompletion f =>
    obtain ⟨free, same⟩ := Option.ite_none_right_eq_some.mp taken
    cases same
    have unused : s.futures f = none ∧ s.tasks f = .absent := by
      simpa [State.unused] using free
    exact .inr ⟨f, _, rfl, .inl unused.1⟩
  | cancel f inLane =>
    obtain ⟨here, same⟩ := Option.ite_none_right_eq_some.mp taken
    split at same
    · cases same
      exact .inr ⟨f, _, rfl, .inr (.inl (inv.queued f (.inl here)))⟩
    · cases same
      exact .inl rfl
  | drain f =>
    obtain ⟨here, same⟩ := Option.ite_none_right_eq_some.mp taken
    cases same
    exact .inr ⟨f, _, rfl, .inr (.inl (inv.queued f (.inr here)))⟩
  | worker w result =>
    dsimp only [FutureOutcome.step, workerEntry] at taken
    split at taken
    · cases taken
      exact .inl rfl
    · rename_i f pc
      cases taken
      have mine : (s.workers w).owns = some f := by
        rw [Worker.owns, pc]
      exact .inr ⟨f, _, rfl, .inr (.inl (inv.owned w f mine).2)⟩
    · cases taken
      exact .inl rfl
    · cases taken
      exact .inl rfl
    · cases taken
  | reclaim w restarted =>
    obtain ⟨crashed, same⟩ := Option.ite_none_right_eq_some.mp taken
    cases same
    unfold reclaimSlot
    split
    · rename_i f slot
      have mine : (s.workers w).owns = some f := by
        rw [Worker.owns, crashed]
        exact slot
      exact .inr ⟨f, _, rfl, .inr (.inl (inv.owned w f mine).2)⟩
    · exact .inl rfl
  | complete f _ | coroCancel f =>
    obtain ⟨owed, same⟩ := Option.ite_none_right_eq_some.mp taken
    cases same
    exact .inr ⟨f, _, rfl, .inr (.inl (inv.completion f owed).2)⟩
  | dequeue w f | crash w =>
    obtain ⟨_, same⟩ := Option.ite_none_right_eq_some.mp taken
    cases same
    exact .inl rfl
  | destroy f =>
    obtain ⟨_, same⟩ := Option.ite_none_right_eq_some.mp taken
    cases same
    exact .inr ⟨f, _, rfl, .inr (.inr rfl)⟩

theorem Inv.permanent (inv : Inv s) : Permanent s label := by
  intro s' taken f fut here ready
  by_cases destroyed : label = .destroy f
  · exact .inl destroyed
  · have kept : s'.futures f = some fut := by
      rcases inv.writes taken with same | ⟨g, after, changed, writable⟩
      · rw [same, here]
      · have other : f ≠ g := by
          rintro rfl
          rcases writable with missing | ⟨fut', there, unready⟩ | destroys
          · simp [missing] at here
          · simp_all
          · exact destroyed destroys
        rw [changed, Function.update_of_ne other, here]
    exact .inr ⟨fut, kept, ready, rfl, rfl, rfl⟩

/-- A worker moves on with the future it has, or with none. -/
theorem Inv.setWorker (inv : Inv s) {worker : Worker} (fits : worker.Fits)
    (owns : worker.owns = (s.workers w).owns ∨ worker.owns = none) :
    Inv (s.setWorker w worker) := by
  obtain ⟨queued, completion, owned, exclusive, fitted⟩ := inv
  refine ⟨queued, completion, ?_, ?_, ?_⟩ <;>
    grind [Function.update_apply, -Worker.owns, -Worker.Fits]

/-- A worker has resolved its future and lets it go. -/
theorem Inv.resolves (inv : Inv s) {worker : Worker} {after : Option Future} (fits : worker.Fits)
    (mine : (s.workers w).owns = some f) (owns : worker.owns = none) :
    Inv { s.setWorker w worker with futures := Function.update s.futures f after } := by
  obtain ⟨queued, completion, owned, exclusive, fitted⟩ := inv
  -- a worker that still owns a future is another one, and so is its future
  have others : ∀ v g, (Function.update s.workers w worker v).owns = some g →
      (s.workers v).owns = some g ∧ g ≠ f := by
    intro v g theirs
    by_cases same : v = w
    · simp [same, owns] at theirs
    · rw [Function.update_of_ne same] at theirs
      refine ⟨theirs, ?_⟩
      rintro rfl
      exact same (exclusive v w g theirs mine)
  refine ⟨?_, ?_, ?_, ?_, ?_⟩ <;>
    grind [Function.update_apply, -Worker.owns, -Worker.Fits]

theorem Inv.workerEntry (inv : Inv s) (taken : workerEntry s w result = some s') : Inv s' := by
  have fits := inv.fits w
  dsimp only [FutureOutcome.workerEntry] at taken
  split at taken
  · rename_i f pc
    cases taken
    exact inv.setWorker rfl (by simp [Worker.owns, pc])
  · rename_i f pc
    cases taken
    have mine : (s.workers w).owns = some f := by
      rw [Worker.owns, pc]
    exact inv.resolves (by simpa [Worker.Fits, pc] using fits) mine rfl
  · cases taken
    exact inv.setWorker rfl (.inr rfl)
  · rename_i f pc
    cases taken
    exact inv.setWorker (by simpa [Worker.Fits, pc] using fits) (.inr rfl)
  · cases taken

theorem Inv.reclaimSlot (inv : Inv s) (crashed : (s.workers w).pc = .crashed) (restarted : Bool) :
    Inv (reclaimSlot s w restarted) := by
  have fits : Worker.Fits ⟨joined restarted, none⟩ := by
    cases restarted <;> rfl
  have owns : Worker.owns ⟨joined restarted, none⟩ = none := by
    cases restarted <;> rfl
  unfold FutureOutcome.reclaimSlot
  split
  · rename_i f slot
    exact inv.resolves fits (by rw [Worker.owns, crashed]; exact slot) owns
  · exact inv.setWorker fits (.inr owns)

theorem Inv.step (inv : Inv s) (care : careful s label = true) (taken : step s label = some s') :
    Inv s' := by
  cases label with
  | worker w result => exact inv.workerEntry taken
  | crash w =>
    obtain ⟨-, same⟩ := Option.ite_none_right_eq_some.mp taken
    cases same
    have fits := inv.fits w
    exact inv.setWorker trivial (by grind)
  | reclaim w restarted =>
    obtain ⟨crashed, same⟩ := Option.ite_none_right_eq_some.mp taken
    cases same
    exact inv.reclaimSlot crashed restarted
  | submitFuture f | initCompletion f =>
    obtain ⟨queued, completion, owned, exclusive, fits⟩ := inv
    obtain ⟨free, same⟩ := Option.ite_none_right_eq_some.mp taken
    cases same
    have unused : s.futures f = none ∧ s.tasks f = .absent := by
      simpa [State.unused] using free
    refine ⟨?_, ?_, ?_, exclusive, fits⟩ <;> grind [Function.update_apply]
  | cancel f inLane =>
    obtain ⟨queued, completion, owned, exclusive, fits⟩ := inv
    obtain ⟨here, same⟩ := Option.ite_none_right_eq_some.mp taken
    split at same <;> cases same
    all_goals refine ⟨?_, ?_, ?_, exclusive, fits⟩ <;> grind [Function.update_apply]
  | dequeue w f =>
    obtain ⟨queued, completion, owned, exclusive, fits⟩ := inv
    obtain ⟨here, same⟩ := Option.ite_none_right_eq_some.mp taken
    cases same
    refine ⟨?_, ?_, ?_, ?_, ?_⟩ <;> grind [Function.update_apply]
  | drain f | complete f _ | coroCancel f | destroy f =>
    obtain ⟨queued, completion, owned, exclusive, fits⟩ := inv
    obtain ⟨here, same⟩ := Option.ite_none_right_eq_some.mp taken
    cases same
    refine ⟨?_, ?_, ?_, exclusive, fits⟩ <;> grind [Function.update_apply]

/-- If no worker crashes in the window between publication and clearing, a ready
future keeps its outcome until it is destroyed. -/
theorem future_outcome_permanent (labels : List Label)
    (meets : Meets step (fun s l => careful s l = true) start labels) :
    Meets step Permanent start labels := by
  apply @Meets.of_invariant _ _ step Inv _ Permanent _ _ start labels inv_start meets
  · intro s s' label inv care taken
    exact inv.step care taken
  · intro s label inv _
    exact inv.permanent

/-- A worker resolves future 0 and crashes in the user's function of future 1, which
the recovery scan resolves; a coroutine's completion and a cancel resolve two more. -/
theorem future_outcome_permanent_across_crash : Meets step Permanent start
    [.submitFuture 0, .submitFuture 1, .dequeue 0 0, .worker 0 9, .worker 0 9, .worker 0 9,
      .worker 0 9, .dequeue 0 1, .worker 0 9, .crash 0, .reclaim 0 true, .initCompletion 2,
      .complete 2 .ok, .submitFuture 3, .cancel 3 false, .drain 3, .destroy 0] := by
  apply future_outcome_permanent
  apply meets_of_checks
  decide +kernel

/-- The worker has published 9 and crashes in the COMPLETED callback: the recovery
scan turns the future, which a wait may have reported OK, into a cancelled one. -/
theorem reclaim_cancels_ready_future :
    ((exec step start [.submitFuture 0, .dequeue 0 0, .worker 0 9, .worker 0 9, .crash 0]).map
      fun s => (s.futures 0).map (waitOutcome · true)) = some (some ⟨.ok, some 9⟩) ∧
    ((exec step start [.submitFuture 0, .dequeue 0 0, .worker 0 9, .worker 0 9, .crash 0,
        .reclaim 0 true]).map
      fun s => (s.futures 0).map (waitOutcome · true)) = some (some ⟨.errCancelled, some 0⟩) := by
  decide +kernel

end Loomworks.FutureOutcome

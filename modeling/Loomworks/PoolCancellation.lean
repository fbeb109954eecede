import Loomworks.DagLedgerSteps
import Loomworks.TaskGroupAccounts

/- Task groups and DAGs under loom_pool_cancel_all and loom_pool_cancel_by_id. Both
take a queued wrapper or runner away and free its task; the counter that it was to
bring down when it ran is not told. -/
namespace Loomworks.TaskGroup

open Tally Transition

/-- hits are the contexts whose tasks loom_pool_cancel_all finds; found says whether
loom_pool_cancel_by_id finds its task. -/
inductive PoolLabel where
  | group (label : Label)
  | cancelAll (hits : List Nat)
  | cancelById (k : Nat) (found : Bool)
  deriving DecidableEq, Repr

/-- The pool takes the task of context k off its queue. -/
def dropTask (s : State) (k : Nat) : Option State :=
  match s.contexts[k]? with
  | some ⟨.queued, frees⟩ => some (s.setContext k ⟨.dropped, frees⟩)
  | _ => none

/-- Both cancel functions do nothing once the pool is shut down. -/
def loomPoolCancel (s : State) (hits : List Nat) : Option State :=
  if s.shutdown then some s else exec dropTask s hits

def poolStep (s : State) : PoolLabel → Option State
  | .group label => step s label
  | .cancelAll hits => loomPoolCancel s hits
  | .cancelById k found => loomPoolCancel s (if found then [k] else [])

/-- The pool-level cancels find no wrapper of the group in the queue. -/
def spared (s : State) : PoolLabel → Bool
  | .group _ => true
  | .cancelAll _ => s.shutdown || s.contexts.all (·.stage != .queued)
  | .cancelById k _ => s.shutdown || (s.contexts[k]?).all (·.stage != .queued)

/-- With no wrapper queued or running the group has nothing pending. -/
def Settled (s : State) : Prop :=
  (∀ c ∈ s.contexts, c.stage.outstanding = false ∧ c.stage ≠ .leaving) → s.pending = 0

variable {s s' : State} {label : PoolLabel}

theorem Inv.settled (inv : Inv s) : Settled s := by
  intro idle
  have none : s.outstanding = 0 :=
    tally_eq_zero.mpr fun c member => by simp [Context.weight, (idle c member).1]
  have entered : s.entering = 0 := by
    unfold State.entering
    split
    · rename_i k holder
      obtain ⟨c, here, busy⟩ := inv.accepted k holder
      rw [(idle c (List.mem_of_getElem? here)).1] at busy
      cases busy
    · rfl
  have count := inv.count
  rw [entered, none, UInt32.add_zero] at count
  exact count

theorem cancel_of_unqueued {hits : List Nat}
    (unqueued : s.shutdown = true ∨ ∀ k ∈ hits, dropTask s k = none)
    (taken : loomPoolCancel s hits = some s') : s' = s := by
  unfold loomPoolCancel at taken
  split at taken
  · cases taken
    rfl
  · rename_i running
    cases hits with
    | nil =>
      cases taken
      rfl
    | cons k rest =>
      have missed := unqueued.resolve_left running k List.mem_cons_self
      simp [exec, missed] at taken

theorem dropTask_eq_none {k : Nat} (unqueued : (s.contexts[k]?).all (·.stage != .queued) = true) :
    dropTask s k = none := by
  unfold dropTask
  split
  · rename_i here
    rw [here] at unqueued
    cases unqueued
  · rfl

theorem Inv.poolStep (inv : Inv s) (spare : spared s label = true)
    (taken : poolStep s label = some s') : Inv s' := by
  cases label with
  | group label => exact inv.step taken
  | cancelAll hits =>
    rw [cancel_of_unqueued _ taken]
    · exact inv
    · refine (Bool.or_eq_true_iff.mp spare).imp_right fun all k _ => dropTask_eq_none ?_
      cases here : s.contexts[k]? with
      | none => rfl
      | some c => exact List.all_eq_true.mp all c (List.mem_of_getElem? here)
  | cancelById k found =>
    rw [cancel_of_unqueued _ taken]
    · exact inv
    · refine (Bool.or_eq_true_iff.mp spare).imp_right fun own j member => ?_
      cases found with
      | true =>
        rw [List.mem_singleton.mp member]
        exact dropTask_eq_none own
      | false => cases member

end Loomworks.TaskGroup

namespace Loomworks.Dag

open Tally Transition

inductive PoolLabel where
  | dag (label : Label)
  | cancelAll (hits : List Nat)
  deriving DecidableEq, Repr

/-- The pool takes runner k off its queue: it is over without having run. -/
def dropRunner (e : Engine) (k : Nat) : Option Engine :=
  match e.runners[k]? with
  | some ⟨node, .queued⟩ => some (e.setRunner k ⟨node, .finished 0⟩)
  | _ => none

def poolStep (g : Graph) (e : Engine) : PoolLabel → Option Engine
  | .dag label => step g e label
  | .cancelAll hits => exec dropRunner e hits

/-- loom_pool_cancel_all finds no runner of the DAG in the queue. -/
def spared (e : Engine) : PoolLabel → Bool
  | .dag _ => true
  | .cancelAll _ => e.runners.all (·.pc != .queued)

/-- With no runner queued or running and no release in progress nothing is in flight. -/
def Settled (e : Engine) : Prop :=
  (∀ r ∈ e.runners, r.active = 0) → (∀ i pc, e.submitter ≠ .releasing i pc) → e.inFlight = 0

variable {g : Graph} {e e' : Engine} {label : PoolLabel}

theorem Ledger.settled (ledger : Ledger g e) : Settled e := by
  intro spent released
  have runners : tally Runner.active e.runners = 0 := tally_eq_zero.mpr spent
  have releases : tally (Runner.releaseWeight ReleasePc.inFlight) e.runners = 0 := by
    refine tally_eq_zero.mpr fun r member => ?_
    have done := spent r member
    unfold Runner.active at done
    unfold Runner.releaseWeight
    cases pc : r.pc <;> simp_all
  have submitter : e.submitter.releaseWeight ReleasePc.inFlight = 0 := by
    cases pc : e.submitter with
    | releasing i next => exact absurd pc (released i next)
    | _ => rfl
  have flight := ledger.flight
  omega

theorem Ledger.poolStep (built : Built g) (ledger : Ledger g e) (spare : spared e label = true)
    (taken : poolStep g e label = some e') : Ledger g e' := by
  cases label with
  | dag label => exact ledger.taken built taken
  | cancelAll hits =>
    cases hits with
    | nil =>
      cases taken
      exact ledger
    | cons k rest =>
      obtain ⟨next, dropped, _⟩ := exec_cons.mp taken
      unfold dropRunner at dropped
      split at dropped
      · rename_i node here
        have queued := List.all_eq_true.mp spare _ (List.mem_of_getElem? here)
        cases queued
      · cases dropped

end Loomworks.Dag

namespace Loomworks

open Transition

/-- As long as the pool-level cancels find no wrapper of the group and no runner of
the DAG in the queue, neither counter outlives the work it counts. -/
theorem counters_survive_pool_cancels (groupRun : List TaskGroup.PoolLabel) (nodeCapacity : UInt32)
    (ops : List Dag.BuildOp) (dagRun : List Dag.PoolLabel) :
    (Meets TaskGroup.poolStep (fun s l => TaskGroup.spared s l = true) TaskGroup.start groupRun →
      Always TaskGroup.poolStep TaskGroup.Settled TaskGroup.start groupRun) ∧
    (Meets (Dag.poolStep (Dag.build nodeCapacity ops)) (fun e l => Dag.spared e l = true)
        (Dag.start (Dag.build nodeCapacity ops)) dagRun →
      Always (Dag.poolStep (Dag.build nodeCapacity ops)) Dag.Settled
        (Dag.start (Dag.build nodeCapacity ops)) dagRun) := by
  constructor
  · intro meets
    apply always_of_meets _ _ TaskGroup.inv_start meets
    · intro s s' label inv spare taken
      exact inv.poolStep spare taken
    · intro s inv
      exact inv.settled
  · intro meets
    have built := Dag.built_build nodeCapacity ops
    apply always_of_meets _ _ (Dag.ledger_start _) meets
    · intro e e' label ledger spare taken
      exact ledger.poolStep built spare taken
    · intro e ledger
      exact ledger.settled

/-- A wrapper is running when the cancels come. -/
def wrapperRun : List TaskGroup.PoolLabel :=
  [.group (.submit true true), .group (.poolSubmit .ok), .group .append, .group (.wrapper 0), .cancelAll [],
    .cancelById 0 false, .group (.wrapper 0), .group (.wrapper 0), .group (.wrapper 0)]

/-- A runner is running when loom_pool_cancel_all comes. -/
def runnerRun : List Dag.PoolLabel :=
  List.flatten [List.replicate 8 (.dag (.submitter {})), [.dag (.runner 0 {}), .cancelAll []],
    List.replicate 4 (.dag (.runner 0 {}))]

/-- Both finish and bring their counters down. -/
theorem counters_survive_pool_cancels_while_running :
    ((exec TaskGroup.poolStep TaskGroup.start wrapperRun).map fun s => (s.contexts, s.pending)) =
        some ([⟨.finished, 1⟩], 0) ∧
      Always TaskGroup.poolStep TaskGroup.Settled TaskGroup.start wrapperRun ∧
      ((exec (Dag.poolStep (Dag.build 1 [.addNode 0 (some 10) 0 0 true]))
          (Dag.start (Dag.build 1 [.addNode 0 (some 10) 0 0 true])) runnerRun).map
        fun e => (e.runners, e.inFlight)) = some ([⟨0, .finished 0⟩], 0) ∧
      Always (Dag.poolStep (Dag.build 1 [.addNode 0 (some 10) 0 0 true])) Dag.Settled
        (Dag.start (Dag.build 1 [.addNode 0 (some 10) 0 0 true])) runnerRun := by
  obtain ⟨group, dag⟩ := counters_survive_pool_cancels wrapperRun 1 [.addNode 0 (some 10) 0 0 true] runnerRun
  refine ⟨by decide +kernel, ?_, by decide +kernel, ?_⟩
  · apply group
    apply meets_of_checks
    decide +kernel
  · apply dag
    apply meets_of_checks
    decide +kernel

/-- loom_pool_cancel_all takes a group's only wrapper and a DAG's only runner off the
queue; pending and in_flight stay at 1. -/
theorem cancel_all_strands_counters :
    ((exec TaskGroup.poolStep TaskGroup.start [.group (.submit true true),
        .group (.poolSubmit .ok), .group .append, .cancelAll [0]]).map
      fun s => (s.contexts, s.holder, s.pending)) = some ([⟨.dropped, 0⟩], none, 1) ∧
    ((exec (Dag.poolStep (Dag.build 1 [.addNode 0 (some 10) 0 0 true]))
        (Dag.start (Dag.build 1 [.addNode 0 (some 10) 0 0 true]))
        (List.replicate 8 (.dag (.submitter {})) ++ [.cancelAll [0]])).map
      fun e => (e.submitter, e.runners, e.inFlight)) =
        some (.finished 1 .ok, [⟨0, .finished 0⟩], 1) := by
  decide +kernel

end Loomworks

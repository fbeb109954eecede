import Loomworks.Tally
import Loomworks.DagEngine

/- The books of a running DAG: every added node is released at most once, and
the counters say how far each release and each runner has come. -/
namespace Loomworks.Dag

open Tally

/-- The release has incremented in_flight and neither started a runner nor
undone the increment. -/
def ReleasePc.inFlight : ReleasePc → Nat
  | .counted | .refused _ | .undoing _ => 1
  | .start | .owned | .accepted | .preInit _ => 0

/-- The release has neither started a runner nor recorded its failure. -/
def ReleasePc.pending : ReleasePc → Nat
  | .accepted => 0
  | _ => 1

/-- The release has started a runner that released_total does not count yet. -/
def ReleasePc.unrecorded : ReleasePc → Nat
  | .accepted => 1
  | _ => 0

def After.weight (w : ReleasePc → Nat) : After → Nat
  | .next pc => w pc
  | .returned _ => 0

/-- How many successors the runner has counted down. -/
def RunnerPc.progress : RunnerPc → Nat
  | .queued | .inFn | .completing _ => 0
  | .loop i | .countdown i | .epilogue i | .finished i => i
  | .releasing i _ => i + 1

def Runner.active (r : Runner) : Nat :=
  match r.pc with
  | .finished _ => 0
  | _ => 1

def Runner.ofNode (n : NodeId) (r : Runner) : Nat := if r.node = n then 1 else 0

def Runner.releaseWeight (w : ReleasePc → Nat) (r : Runner) : Nat :=
  match r.pc with
  | .releasing _ pc => w pc
  | _ => 0

/-- The successor whose release the runner is in. -/
def Runner.target (g : Graph) (r : Runner) : Option NodeId :=
  match r.pc with
  | .releasing i _ => (g.nodes r.node).succs[i]?
  | _ => none

def Runner.pendingOn (g : Graph) (n : NodeId) (r : Runner) : Nat :=
  if r.target g = some n then r.releaseWeight ReleasePc.pending else 0

def Runner.Reached (g : Graph) (n : NodeId) (r : Runner) : Prop :=
  n ∈ (g.nodes r.node).succs.take r.pc.progress

instance (g : Graph) (n : NodeId) : DecidablePred (Runner.Reached g n) :=
  fun r => inferInstanceAs (Decidable (n ∈ (g.nodes r.node).succs.take r.pc.progress))

/-- How many runners have counted n down. -/
def reached (g : Graph) (n : NodeId) (runners : List Runner) : Nat :=
  tally (fun r => if r.Reached g n then 1 else 0) runners

def SubmitPc.releaseWeight (w : ReleasePc → Nat) : SubmitPc → Nat
  | .releasing _ pc => w pc
  | _ => 0

def SubmitPc.pendingOn (n : NodeId) : SubmitPc → Nat
  | .releasing i pc => if i = n then pc.pending else 0
  | _ => 0

/-- The root loop has dealt with the ids below this one. -/
def SubmitPc.passed : SubmitPc → Nat
  | .roots i | .finished i _ => i
  | .releasing i _ => i + 1
  | _ => 0

/-- The countdowns have been seeded. -/
def SubmitPc.seeded : SubmitPc → Bool
  | .freezing .acyclic | .roots _ | .releasing _ _ => true
  | .finished i _ => decide (0 < i)
  | _ => false

def Event.refusedOn (n : NodeId) : Event → Nat
  | .refused m _ => if m = n then 1 else 0
  | _ => 0

def Event.isRefused : Event → Nat
  | .refused _ _ => 1
  | _ => 0

/-- The release of n has begun: by the root loop, or by the predecessor that
completed the countdown. -/
def attempted (g : Graph) (e : Engine) (n : NodeId) : Nat :=
  if g.isAdded n = false then 0
  else if (g.nodes n).inDegree = 0 then (if n < e.submitter.passed then 1 else 0)
  else if reached g n e.runners = (g.nodes n).inDegree then 1 else 0

structure Ledger (g : Graph) (e : Engine) : Prop where
  unseeded : e.submitter.seeded = false → e.runners = []
  countdown : e.submitter.seeded = true → ∀ n, g.isAdded n = true →
    (e.run n).pendingPreds + reached g n e.runners = (g.nodes n).inDegree
  released : ∀ n, e.submitter.pendingOn n + tally (Runner.pendingOn g n) e.runners +
    tally (Runner.ofNode n) e.runners + tally (Event.refusedOn n) e.log = attempted g e n
  flight : e.inFlight = tally Runner.active e.runners +
    tally (Runner.releaseWeight ReleasePc.inFlight) e.runners +
    e.submitter.releaseWeight ReleasePc.inFlight
  total : e.releasedTotal + tally (Runner.releaseWeight ReleasePc.unrecorded) e.runners +
    e.submitter.releaseWeight ReleasePc.unrecorded =
      e.runners.length + tally Event.isRefused e.log
  indices : ∀ r ∈ e.runners, r.pc.progress ≤ (g.nodes r.node).succs.length
  capacity : e.submitter.seeded = true → 0 < g.nodeCapacity
  root : ∀ i pc, e.submitter = .releasing i pc → g.isRoot i = true

theorem attempted_le_one (g : Graph) (e : Engine) (n : NodeId) : attempted g e n ≤ 1 := by
  unfold attempted
  split_ifs <;> omega

namespace Ledger

variable {g : Graph} {e : Engine}

theorem distinct (ledger : Ledger g e) : (e.runners.map Runner.node).Nodup := by
  refine nodup_of_tally_le_one fun n => ?_
  have books := ledger.released n
  have bound := attempted_le_one g e n
  change tally (Runner.ofNode n) e.runners ≤ 1
  omega

theorem added_of_runner (ledger : Ledger g e) {r : Runner} (member : r ∈ e.runners) :
    g.isAdded r.node = true := by
  by_contra absent
  have books := ledger.released r.node
  have counts := le_tally (Runner.ofNode r.node) member
  have own : Runner.ofNode r.node r = 1 := by simp [Runner.ofNode]
  rw [attempted, if_pos (by simpa using absent)] at books
  omega

end Ledger

/-- No more runners can have counted n down than it has predecessors. -/
theorem reached_le {g : Graph} (built : Built g) {runners : List Runner}
    (distinct : (runners.map Runner.node).Nodup) (n : NodeId) :
    reached g n runners ≤ (g.nodes n).inDegree := by
  rw [built.degree]
  refine tally_le_card distinct fun r _ counted => ?_
  exact built.mem_preds.mpr (List.mem_of_mem_take counted)

theorem ledger_start (g : Graph) : Ledger g (start g) := by
  have none : ∀ n, attempted g (start g) n = 0 := by
    intro n
    unfold attempted
    split_ifs with absent root early counted
    · rfl
    · exact absurd early (Nat.not_lt_zero n)
    · rfl
    · change 0 = (g.nodes n).inDegree at counted
      omega
    · rfl
  refine ⟨fun _ => rfl, by simp [start, SubmitPc.seeded], fun n => (none n).symm, rfl, rfl,
    by simp [start], by simp [start, SubmitPc.seeded], by simp [start]⟩

section Signal

variable (e : Engine) (wake : Nat)

@[simp] theorem signalIfDrained_run : (signalIfDrained e wake).run = e.run := by
  unfold signalIfDrained; split <;> rfl

@[simp] theorem signalIfDrained_submitted : (signalIfDrained e wake).submitted = e.submitted := by
  unfold signalIfDrained; split <;> rfl

@[simp] theorem signalIfDrained_failed : (signalIfDrained e wake).failed = e.failed := by
  unfold signalIfDrained; split <;> rfl

@[simp] theorem signalIfDrained_inFlight : (signalIfDrained e wake).inFlight = e.inFlight := by
  unfold signalIfDrained; split <;> rfl

@[simp] theorem signalIfDrained_releasedTotal :
    (signalIfDrained e wake).releasedTotal = e.releasedTotal := by
  unfold signalIfDrained; split <;> rfl

@[simp] theorem signalIfDrained_addedCount :
    (signalIfDrained e wake).addedCount = e.addedCount := by
  unfold signalIfDrained; split <;> rfl

@[simp] theorem signalIfDrained_submitter :
    (signalIfDrained e wake).submitter = e.submitter := by
  unfold signalIfDrained; split <;> rfl

@[simp] theorem signalIfDrained_runners : (signalIfDrained e wake).runners = e.runners := by
  unfold signalIfDrained; split <;> rfl

@[simp] theorem signalIfDrained_log : (signalIfDrained e wake).log = e.log := by
  unfold signalIfDrained; split <;> rfl

end Signal

/-- What a recorded failure does to the fields other threads count on. -/
theorem dagRecordReleaseFailure_spec (e : Engine) (rc : LoomResult) (wake : Nat) :
    let after := dagRecordReleaseFailure e rc wake
    after.run = e.run ∧ after.submitted = e.submitted ∧ after.failed = true ∧
      after.inFlight = e.inFlight ∧ after.releasedTotal = e.releasedTotal + 1 ∧
      after.addedCount = e.addedCount ∧ after.submitter = e.submitter ∧
      after.runners = e.runners ∧ after.log = e.log := by
  by_cases failed : e.failed <;> simp [dagRecordReleaseFailure, failed]

/-- The books of one dag_release_node step on n: what it adds to in_flight, to
released_total and to the log, and the runner it may start. -/
structure ReleaseBooks (n : NodeId) (pc : ReleasePc) (e : Engine) (after : Engine × After)
    (started : Nat) : Prop where
  submitter : after.1.submitter = e.submitter
  runners : after.1.runners = e.runners ++ List.replicate started { node := n }
  pendingPreds : ∀ m, (after.1.run m).pendingPreds = (e.run m).pendingPreds
  inFlight : after.1.inFlight + pc.inFlight =
    e.inFlight + after.2.weight ReleasePc.inFlight + started
  pending : after.2.weight ReleasePc.pending + started + tally (Event.refusedOn n) after.1.log =
    pc.pending + tally (Event.refusedOn n) e.log
  others : ∀ m, m ≠ n →
    tally (Event.refusedOn m) after.1.log = tally (Event.refusedOn m) e.log
  total : after.1.releasedTotal + after.2.weight ReleasePc.unrecorded + tally Event.isRefused e.log =
    e.releasedTotal + pc.unrecorded + started + tally Event.isRefused after.1.log
  starts : 0 < started → pc = .counted

/-- A failure is recorded after the release has given back what it had counted in in_flight. -/
theorem recorded_books {e : Engine} {n : NodeId} {pc : ReleasePc} {flight : Int} (rc : LoomResult)
    (wake : Nat) (back : flight + pc.inFlight = e.inFlight) (pending : pc.pending = 1)
    (unrecorded : pc.unrecorded = 0) :
    ReleaseBooks n pc e (dagRecordReleaseFailure
      { e with inFlight := flight, log := .refused n rc :: e.log } rc wake, .returned rc) 0 := by
  obtain ⟨run, -, -, inFlight, total, -, submitter, runners, log⟩ := dagRecordReleaseFailure_spec
    { e with inFlight := flight, log := .refused n rc :: e.log } rc wake
  constructor
  · exact submitter
  · simpa using runners
  · simp [run]
  · simpa [inFlight, After.weight] using back
  · simp [log, Event.refusedOn, pending, After.weight]
  · intro m other
    simp [log, Event.refusedOn, other.symm]
  · simp only [total, log, tally_cons, Event.isRefused, After.weight, unrecorded]
    omega
  · simp

theorem dagReleaseNode_books (e : Engine) (n : NodeId) (env : Env) (pc : ReleasePc) :
    ∃ started, ReleaseBooks n pc e (dagReleaseNode e n env pc) started := by
  have pendings : ∀ (node : NodeRun), node.pendingPreds = (e.run n).pendingPreds →
      ∀ m, ((e.setRun n node).run m).pendingPreds = (e.run m).pendingPreds := by
    intro node same m
    by_cases here : m = n
    · subst here
      simpa [Engine.setRun] using same
    · simp [Engine.setRun, here]
  cases pc with
  | start =>
    refine ⟨0, ?_⟩
    unfold dagReleaseNode
    simp only
    split_ifs
    · constructor <;> simp [ReleasePc.inFlight, ReleasePc.pending, ReleasePc.unrecorded, After.weight]
    · constructor <;> simp [ReleasePc.inFlight, ReleasePc.pending, ReleasePc.unrecorded, After.weight]
    · refine ⟨rfl, by simp [Engine.setRun], pendings _ rfl, ?_, ?_, ?_, ?_, ?_⟩ <;>
        simp [ReleasePc.inFlight, ReleasePc.pending, ReleasePc.unrecorded, After.weight,
          Engine.setRun]
  | owned | accepted =>
    refine ⟨0, ?_⟩
    constructor <;> simp [dagReleaseNode, ReleasePc.inFlight, ReleasePc.pending,
      ReleasePc.unrecorded, After.weight]
  | counted =>
    unfold dagReleaseNode
    simp only
    split_ifs
    · refine ⟨1, ?_⟩
      constructor <;> simp [ReleasePc.inFlight, ReleasePc.pending, ReleasePc.unrecorded,
        After.weight]
    · refine ⟨0, ?_⟩
      constructor <;> simp [ReleasePc.inFlight, ReleasePc.pending, ReleasePc.unrecorded,
        After.weight]
  | refused rc =>
    refine ⟨0, ?_⟩
    refine ⟨rfl, by simp [dagReleaseNode, Engine.setRun], pendings _ rfl, ?_, ?_, ?_, ?_, ?_⟩ <;>
      simp [dagReleaseNode, ReleasePc.inFlight, ReleasePc.pending, ReleasePc.unrecorded,
        After.weight, Engine.setRun]
  | undoing rc | preInit rc =>
    exact ⟨0, recorded_books rc env.wake (by simp [ReleasePc.inFlight]) rfl rfl⟩

theorem attempted_congr {g : Graph} {e e' : Engine} {n : NodeId}
    (passed : g.isRoot n = true → (n < e'.submitter.passed ↔ n < e.submitter.passed))
    (counted : reached g n e'.runners = reached g n e.runners) :
    attempted g e' n = attempted g e n := by
  unfold attempted
  rw [counted]
  by_cases added : g.isAdded n = true
  · by_cases root : (g.nodes n).inDegree = 0
    · have same := passed (by simp [Graph.isRoot, added, root])
      simp [root, same]
    · simp [root]
  · simp [added]

namespace Ledger

variable {g : Graph} {e e' : Engine}

/-- Steps that touch none of the fields the books are about. -/
theorem congr (ledger : Ledger g e) (submitter : e'.submitter = e.submitter)
    (runners : e'.runners = e.runners) (log : e'.log = e.log)
    (inFlight : e'.inFlight = e.inFlight) (total : e'.releasedTotal = e.releasedTotal)
    (pendings : ∀ n, (e'.run n).pendingPreds = (e.run n).pendingPreds) : Ledger g e' := by
  constructor
  · rw [submitter, runners]
    exact ledger.unseeded
  · intro seeded n added
    rw [submitter] at seeded
    rw [pendings, runners]
    exact ledger.countdown seeded n added
  · intro n
    rw [attempted_congr (e := e) (by simp [submitter]) (by rw [runners]), ← ledger.released n,
      submitter, runners, log]
  · rw [inFlight, runners, submitter]
    exact ledger.flight
  · rw [total, runners, submitter, log]
    exact ledger.total
  · rw [runners]
    exact ledger.indices
  · rw [submitter]
    exact ledger.capacity
  · rw [submitter]
    exact ledger.root

/-- A node being released has no runner, and no other release of it is under way. -/
theorem no_runner_of_pending (ledger : Ledger g e) {n : NodeId}
    (pending : 0 < e.submitter.pendingOn n + tally (Runner.pendingOn g n) e.runners)
    {r : Runner} (member : r ∈ e.runners) : r.node ≠ n := by
  intro same
  have books := ledger.released n
  have bound := attempted_le_one g e n
  have counts := le_tally (Runner.ofNode n) member
  have own : Runner.ofNode n r = 1 := by simp [Runner.ofNode, same]
  omega

end Ledger

end Loomworks.Dag

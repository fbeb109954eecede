import Loomworks.DagLedgerSteps

/- When the drain predicate may be believed. -/
namespace Loomworks.Dag

open Tally Transition

/-- The nodes whose release has an outcome: a runner or a recorded failure. -/
def concluded (e : Engine) : List NodeId :=
  e.runners.map Runner.node ++ e.log.filterMap fun
    | .refused n _ => some n
    | _ => none

private theorem count_concluded (e : Engine) (n : NodeId) :
    (concluded e).count n =
      tally (Runner.ofNode n) e.runners + tally (Event.refusedOn n) e.log := by
  have nodes : ∀ l : List Runner, (l.map Runner.node).count n = tally (Runner.ofNode n) l := by
    intro l
    induction l with
    | nil => rfl
    | cons r l ih =>
      rw [List.map_cons, List.count_cons, ih, tally_cons, Runner.ofNode]
      by_cases same : r.node = n <;> simp [same, Nat.add_comm]
  have refusals : ∀ l : List Event, (l.filterMap fun
      | .refused n _ => some n
      | _ => none).count n = tally (Event.refusedOn n) l := by
    intro l
    induction l with
    | nil => rfl
    | cons event l ih =>
      cases event with
      | refused m rc =>
        by_cases same : m = n <;>
          simp [Event.refusedOn, same, ih, Nat.add_comm]
      | called | returned => simpa [Event.refusedOn] using ih
  rw [concluded, List.count_append, nodes, refusals]

private theorem length_concluded (e : Engine) :
    (concluded e).length = e.runners.length + tally Event.isRefused e.log := by
  have refusals : ∀ l : List Event, (l.filterMap fun
      | .refused n _ => some n
      | _ => none).length = tally Event.isRefused l := by
    intro l
    induction l with
    | nil => rfl
    | cons event l ih => cases event <;> simp [Event.isRefused, ih, Nat.add_comm]
  rw [concluded, List.length_append, List.length_map, refusals]

namespace Ledger

variable {g : Graph} {e : Engine}

private theorem concluded_nodup (ledger : Ledger g e) : (concluded e).Nodup := by
  refine List.nodup_iff_count_le_one.mpr fun n => ?_
  have books := ledger.released n
  have bound := attempted_le_one g e n
  rw [count_concluded]
  omega

private theorem concluded_added (ledger : Ledger g e) (built : Built g) {n : NodeId}
    (member : n ∈ concluded e) : n ∈ g.addedNodes := by
  have positive := List.count_pos_iff.mpr member
  have books := ledger.released n
  rw [count_concluded] at positive
  rw [built.mem_addedNodes]
  by_contra absent
  rw [attempted, if_pos (by simpa using absent)] at books
  omega

private theorem concluded_subset (ledger : Ledger g e) (built : Built g) :
    (concluded e).toFinset ⊆ g.addedNodes :=
  fun _ member => ledger.concluded_added built (List.mem_toFinset.mp member)

private theorem card_concluded (ledger : Ledger g e) :
    (concluded e).toFinset.card =
      e.releasedTotal + tally (Runner.releaseWeight ReleasePc.unrecorded) e.runners +
        e.submitter.releaseWeight ReleasePc.unrecorded := by
  rw [List.toFinset_card_of_nodup ledger.concluded_nodup, length_concluded]
  exact ledger.total.symm

theorem releasedTotal_le (ledger : Ledger g e) (built : Built g) : e.releasedTotal ≤ g.added := by
  have bound : (concluded e).toFinset.card ≤ g.added :=
    Finset.card_le_card (ledger.concluded_subset built)
  rw [ledger.card_concluded] at bound
  omega

/-- When released_total has reached added_count every release has its outcome. -/
theorem full (ledger : Ledger g e) (built : Built g) (all : e.releasedTotal = g.added) :
    (∀ n, g.isAdded n = true →
      tally (Runner.ofNode n) e.runners + tally (Event.refusedOn n) e.log = 1) ∧
    tally (Runner.releaseWeight ReleasePc.unrecorded) e.runners +
      e.submitter.releaseWeight ReleasePc.unrecorded = 0 := by
  have subset := ledger.concluded_subset built
  have size := ledger.card_concluded
  have bound := Finset.card_le_card subset
  have added : g.added = g.addedNodes.card := rfl
  have everyone : (concluded e).toFinset = g.addedNodes := by
    refine Finset.eq_of_subset_of_card_le subset ?_
    omega
  refine ⟨?_, ?_⟩
  · intro n added
    have member : n ∈ concluded e := by
      rw [← List.mem_toFinset, everyone, built.mem_addedNodes]
      exact added
    have positive := List.count_pos_iff.mpr member
    have once := List.nodup_iff_count_le_one.mp ledger.concluded_nodup n
    rw [count_concluded] at positive once
    omega
  · omega

/-- Then no release is pending and the root loop has passed every root. -/
theorem full_passed (ledger : Ledger g e) (built : Built g) (all : e.releasedTotal = g.added) :
    (∀ n, e.submitter.pendingOn n = 0) ∧
      ∀ n, g.isRoot n = true → n < e.submitter.passed := by
  have outcomes := (ledger.full built all).1
  refine ⟨?_, ?_⟩
  · intro n
    have books := ledger.released n
    have bound := attempted_le_one g e n
    by_cases added : g.isAdded n = true
    · have one := outcomes n added
      omega
    · rw [attempted, if_pos (by simpa using added)] at books
      omega
  · intro n root
    have isRoot := root
    simp only [Graph.isRoot, Bool.and_eq_true, beq_iff_eq] at isRoot
    have books := ledger.released n
    have one := outcomes n isRoot.1
    rw [attempted, if_neg (by simp [isRoot.1]), if_pos isRoot.2] at books
    by_contra early
    rw [if_neg early] at books
    omega

end Ledger

/-- The books together with the flags loom_dag_submit sets. -/
structure Running (g : Graph) (e : Engine) : Prop where
  ledger : Ledger g e
  addedCount : e.addedCount = g.added
  unsubmitted : e.submitter = .idle ∨ (∃ verdict, e.submitter = .freezing verdict) →
    e.submitted = false
  submitted : ∀ i pc, e.submitter = .roots i ∨ e.submitter = .releasing i pc → e.submitted = true

theorem running_start {g : Graph} (built : Built g) : Running g (start g) :=
  ⟨ledger_start g, built.counted, fun _ => rfl, by simp [start]⟩

/-- What no step of dag_release_node changes, and when it changes the flags. -/
theorem dagReleaseNode_flags (e : Engine) (n : NodeId) (env : Env) (pc : ReleasePc) :
    let after := (dagReleaseNode e n env pc).1
    after.submitted = e.submitted ∧ after.addedCount = e.addedCount ∧
      after.submitter = e.submitter ∧ (e.failed = true → after.failed = true) := by
  cases pc with
  | start =>
    unfold dagReleaseNode
    simp only
    split_ifs <;> simp [Engine.setRun]
  | owned | accepted => simp [dagReleaseNode]
  | counted =>
    unfold dagReleaseNode
    simp only
    split_ifs <;> simp
  | refused rc => simp [dagReleaseNode, Engine.setRun]
  | undoing rc =>
    obtain ⟨-, submitted, failed, -, -, added, submitter, -⟩ := dagRecordReleaseFailure_spec
      { e with inFlight := e.inFlight - 1, log := .refused n rc :: e.log } rc env.wake
    exact ⟨submitted, added, submitter, fun _ => failed⟩
  | preInit rc =>
    obtain ⟨-, submitted, failed, -, -, added, submitter, -⟩ := dagRecordReleaseFailure_spec
      { e with log := .refused n rc :: e.log } rc env.wake
    exact ⟨submitted, added, submitter, fun _ => failed⟩

/-- Runners and joiners leave the submitter's flags alone. -/
theorem runner_flags {g : Graph} {e e' : Engine} {k : Nat} {r : Runner} {env : Env}
    (taken : dagRunnerFn g e k r env = some e') :
    e'.submitted = e.submitted ∧ e'.addedCount = e.addedCount ∧ e'.submitter = e.submitter := by
  unfold dagRunnerFn at taken
  split at taken
  · split at taken <;> cases taken <;> simp [Engine.setRunner]
  · cases taken
    simp [Engine.setRunner]
  · cases taken
    simp [Engine.setRunner, Engine.setRun]
  · split at taken <;> cases taken <;> simp [Engine.setRunner]
  · obtain ⟨succ, -, same⟩ := Option.map_eq_some_iff.mp taken
    subst same
    simp only [Engine.setRunner, Engine.setRun]
    split <;> simp
  · rename_i i release pc
    obtain ⟨succ, -, same⟩ := Option.map_eq_some_iff.mp taken
    obtain ⟨submitted, added, submitter, -⟩ := dagReleaseNode_flags e succ env release
    subst same
    exact ⟨submitted, added, submitter⟩
  · cases taken
    simp [Engine.setRunner]
  · cases taken

theorem joiner_fields {e e' : Engine} {k : Nat} {j : Joiner} {env : Env}
    (taken : dagWaitInternal e k j env = some e') :
    e'.submitted = e.submitted ∧ e'.addedCount = e.addedCount ∧ e'.submitter = e.submitter ∧
      e'.failed = e.failed ∧ e'.inFlight = e.inFlight ∧ e'.releasedTotal = e.releasedTotal ∧
      e'.runners = e.runners ∧ e'.log = e.log ∧ e'.run = e.run := by
  unfold dagWaitInternal at taken
  split at taken
  case h_4 =>
    split at taken <;> cases taken
    simp [Engine.setJoiner]
  all_goals cases taken
  all_goals simp [Engine.setJoiner]

namespace Running

variable {g : Graph} {e e' : Engine}

private theorem of_flags (running : Running g e) (ledger : Ledger g e')
    (submitted : e'.submitted = e.submitted) (added : e'.addedCount = e.addedCount)
    (submitter : e'.submitter = e.submitter) : Running g e' := by
  refine ⟨ledger, added.trans running.addedCount, ?_, ?_⟩
  · rw [submitter, submitted]
    exact running.unsubmitted
  · rw [submitter, submitted]
    exact running.submitted

private theorem prologue_flags (running : Running g e) (pc : e.submitter = .idle) (env : Env) :
    (submitPrologue g e env).addedCount = g.added ∧
    (submitPrologue g e env).submitted = false ∧
    (∀ i pc, (submitPrologue g e env).submitter ≠ .roots i ∧
      (submitPrologue g e env).submitter ≠ .releasing i pc) := by
  have fresh := running.unsubmitted (Or.inl pc)
  have added := running.addedCount
  unfold submitPrologue
  split_ifs with destroyed empty noMemory cyclic
  · simp [fresh, added]
  · simp [fresh, empty]
  · simp [fresh, added]
  · simp [fresh, added]
  · simp [fresh]

theorem submit_step (running : Running g e) {env : Env}
    (taken : loomDagSubmit g e env = some e') : Running g e' := by
  have ledger := running.ledger.submit_step taken
  unfold loomDagSubmit at taken
  split at taken
  · rename_i pc
    cases taken
    obtain ⟨added, unsubmitted, outside⟩ := running.prologue_flags pc env
    refine ⟨ledger, added, fun _ => unsubmitted, ?_⟩
    intro i release loop
    rcases loop with loop | loop
    · exact absurd loop (outside i release).1
    · exact absurd loop (outside i release).2
  · cases taken
    refine ⟨ledger, running.addedCount, ?_, fun _ _ _ => rfl⟩
    intro early
    rename_i verdict _
    cases verdict <;> simp at early
  · cases taken
    exact ⟨ledger, running.addedCount, by simp, by simp⟩
  · cases taken
    exact ⟨ledger, by simpa using running.addedCount, by simp, by simp⟩
  · rename_i i pc
    have submitted := running.submitted i .start (Or.inl pc)
    split_ifs at taken <;> cases taken
    · exact ⟨ledger, running.addedCount, by simp, fun _ _ _ => submitted⟩
    · exact ⟨ledger, running.addedCount, by simp, fun _ _ _ => submitted⟩
    · exact ⟨ledger, running.addedCount, by simp, by simp⟩
  · rename_i i release pc
    have submitted := running.submitted i release (Or.inr pc)
    obtain ⟨same, added, -, -⟩ := dagReleaseNode_flags e i env release
    cases taken
    refine ⟨ledger, added.trans running.addedCount, ?_, fun _ _ _ => same.trans submitted⟩
    intro early
    exfalso
    change rootNext i _ = _ ∨ (∃ verdict, rootNext i _ = _) at early
    unfold rootNext at early
    split at early <;> simp at early
  · cases taken

theorem taken (built : Built g) {label : Label} (running : Running g e)
    (taken : step g e label = some e') : Running g e' := by
  have ledger := running.ledger.taken built taken
  cases label with
  | submitter env => exact running.submit_step taken
  | runner k env =>
    obtain ⟨r, -, taken⟩ := Option.bind_eq_some_iff.mp taken
    obtain ⟨submitted, added, submitter⟩ := runner_flags taken
    exact running.of_flags ledger submitted added submitter
  | join kind =>
    cases taken
    exact running.of_flags ledger rfl rfl rfl
  | joiner k env =>
    obtain ⟨j, -, taken⟩ := Option.bind_eq_some_iff.mp taken
    obtain ⟨submitted, added, submitter, -⟩ := joiner_fields taken
    exact running.of_flags ledger submitted added submitter

end Running

/-- A joiner that enters its done_mu section in this state returns. -/
def Observable (e : Engine) : Prop := e.submitted = true ∧ dagDrained e = true

/-- The step runs part of a runner or hands a node to the pool. -/
def Touches (e : Engine) : Label → Prop
  | .runner _ _ => True
  | .submitter _ => ∃ i, e.submitter = .releasing i .counted
  | _ => False

def Untouched (g : Graph) (e : Engine) (label : Label) : Prop :=
  (step g e label).isSome = true → ¬ Touches e label

/-- The root loop does not count a release in once the DAG has failed and
nothing is in flight. -/
def RootGuarded (e : Engine) : Label → Prop
  | .submitter _ => ∀ i, e.submitter = .releasing i .owned → e.failed = false ∨ e.inFlight ≠ 0
  | _ => True

theorem dagDrained_iff {e : Engine} :
    dagDrained e = true ↔ e.inFlight = 0 ∧ (e.failed = true ∨ e.releasedTotal = e.addedCount) := by
  simp [dagDrained]

theorem runner_active_of_taken {g : Graph} {e e' : Engine} {k : Nat} {r : Runner} {env : Env}
    (taken : dagRunnerFn g e k r env = some e') : r.active = 1 := by
  unfold dagRunnerFn at taken
  split at taken
  case h_8 => cases taken
  all_goals simp_all [Runner.active]

namespace Ledger

variable {g : Graph} {e : Engine}

/-- While nothing is in flight no runner can move and no release is counted. -/
theorem idle_of_inFlight_zero (ledger : Ledger g e) (zero : e.inFlight = 0) :
    (∀ r ∈ e.runners, r.active = 0) ∧ e.submitter.releaseWeight ReleasePc.inFlight = 0 := by
  have books := ledger.flight
  refine ⟨?_, by omega⟩
  intro r member
  have counts := le_tally Runner.active member
  omega

end Ledger

namespace Running

variable {g : Graph} {e e' : Engine}

private theorem no_runner_step (running : Running g e) (zero : e.inFlight = 0) {k : Nat}
    {env : Env} : step g e (.runner k env) = none := by
  by_contra enabled
  obtain ⟨next, taken⟩ := Option.ne_none_iff_exists'.mp enabled
  obtain ⟨r, here, taken⟩ := Option.bind_eq_some_iff.mp taken
  have active := runner_active_of_taken taken
  have idle := (running.ledger.idle_of_inFlight_zero zero).1 r (List.mem_of_getElem? here)
  omega

/-- One step of the root loop's dag_release_node from a drained state. -/
private theorem drained_release (built : Built g) (running : Running g e) {i : Nat}
    {pc : ReleasePc} (here : e.submitter = .releasing i pc) (drained : dagDrained e = true)
    (guarded : pc = .owned → e.failed = false ∨ e.inFlight ≠ 0) (env : Env) :
    dagDrained (dagReleaseNode e i env pc).1 = true := by
  obtain ⟨zero, spent⟩ := dagDrained_iff.mp drained
  have uncounted := (running.ledger.idle_of_inFlight_zero zero).2
  rw [here] at uncounted
  change pc.inFlight = 0 at uncounted
  have notFull : pc.pending = 1 ∨ pc.unrecorded = 1 → e.failed = true := by
    intro busy
    by_contra healthy
    have all : e.releasedTotal = g.added := by
      rw [← running.addedCount]
      exact spent.resolve_left healthy
    have recorded := (running.ledger.full built all).2
    have settled := (running.ledger.full_passed built all).1 i
    rw [here] at recorded settled
    simp only [SubmitPc.pendingOn, if_true, SubmitPc.releaseWeight] at settled recorded
    omega
  have failed : e.failed = true := notFull (by cases pc <;> simp [ReleasePc.pending,
    ReleasePc.unrecorded])
  have still := (dagReleaseNode_flags e i env pc).2.2.2 failed
  refine dagDrained_iff.mpr ⟨?_, Or.inl still⟩
  cases pc with
  | start =>
    unfold dagReleaseNode
    simp only
    split_ifs <;> simpa [Engine.setRun] using zero
  | owned => exact absurd (guarded rfl) (by simp [failed, zero])
  | counted | refused | undoing => simp [ReleasePc.inFlight] at uncounted
  | accepted => simpa [dagReleaseNode] using zero
  | preInit rc =>
    obtain ⟨-, -, -, flight, -⟩ := dagRecordReleaseFailure_spec
      { e with log := .refused i rc :: e.log } rc env.wake
    exact flight.trans zero

theorem drained_step (built : Built g) (running : Running g e) (observable : Observable e)
    {label : Label} (guarded : RootGuarded e label) (taken : step g e label = some e') :
    Observable e' := by
  obtain ⟨submitted, drained⟩ := observable
  obtain ⟨zero, spent⟩ := dagDrained_iff.mp drained
  cases label with
  | submitter env =>
    change loomDagSubmit g e env = some e' at taken
    unfold loomDagSubmit at taken
    split at taken
    · rename_i pc
      have fresh := running.unsubmitted (Or.inl pc)
      simp [fresh] at submitted
    · rename_i verdict pc
      have fresh := running.unsubmitted (Or.inr ⟨verdict, pc⟩)
      simp [fresh] at submitted
    · cases taken
      exact ⟨submitted, dagDrained_iff.mpr ⟨zero, Or.inl rfl⟩⟩
    · cases taken
      exact ⟨by simpa using submitted, dagDrained_iff.mpr ⟨by simpa using zero, by simpa using spent⟩⟩
    · split_ifs at taken <;> cases taken <;>
        exact ⟨submitted, dagDrained_iff.mpr ⟨zero, spent⟩⟩
    · rename_i i release pc
      have still := running.drained_release built pc drained
        (fun owned => guarded i (by rw [pc, owned])) env
      have same := (dagReleaseNode_flags e i env release).1
      cases taken
      exact ⟨same.trans submitted, still⟩
    · cases taken
  | runner k env =>
    rw [running.no_runner_step zero] at taken
    cases taken
  | join kind =>
    cases taken
    exact ⟨submitted, drained⟩
  | joiner k env =>
    obtain ⟨j, -, taken⟩ := Option.bind_eq_some_iff.mp taken
    obtain ⟨sameSubmitted, added, -, failed, flight, total, -⟩ := joiner_fields taken
    refine ⟨sameSubmitted.trans submitted, dagDrained_iff.mpr ?_⟩
    rw [flight, failed, total, added]
    exact ⟨zero, spent⟩

private theorem untouched_of_drained (running : Running g e) (observable : Observable e)
    (label : Label) : Untouched g e label := by
  obtain ⟨zero, -⟩ := dagDrained_iff.mp observable.2
  intro enabled touches
  cases label with
  | submitter env =>
    obtain ⟨i, pc⟩ := touches
    have uncounted := (running.ledger.idle_of_inFlight_zero zero).2
    rw [pc] at uncounted
    cases uncounted
  | runner k env => simp [running.no_runner_step zero] at enabled
  | join | joiner => exact touches

end Running

/-- The drain predicate is stable, and no runner moves after it holds, exactly in
the runs in which the root loop never counts a release in after a failure with
nothing in flight. -/
theorem drained_stable_iff_root_guarded (nodeCapacity : UInt32) (ops : List BuildOp)
    (labels : List Label) :
    StableFrom (step (build nodeCapacity ops)) Observable (fun e => dagDrained e = true)
        (Untouched (build nodeCapacity ops)) (start (build nodeCapacity ops)) labels ↔
      Meets (step (build nodeCapacity ops)) RootGuarded (start (build nodeCapacity ops))
        labels := by
  have built := built_build nodeCapacity ops
  constructor
  · intro stable
    refine meets_iff.mpr fun first label rest e split run => ?_
    have running := exec_invariant (Running.taken built) (running_start built) run
    cases label with
    | submitter env =>
      intro i pc
      by_contra unguarded
      rw [not_or, not_not, Bool.not_eq_false] at unguarded
      have observable : Observable e := by
        refine ⟨running.submitted i .owned (Or.inr pc), dagDrained_iff.mpr ?_⟩
        exact ⟨unguarded.2, Or.inl unguarded.1⟩
      have counted : step (build nodeCapacity ops) e (.submitter env) =
          some { e with
            inFlight := e.inFlight + 1, submitter := .releasing i .counted } := by
        simp [step, loomDagSubmit, pc, dagReleaseNode, rootNext]
      have later := (stable first _ e split run observable).1.2 _ counted
      have still : dagDrained { e with
          inFlight := e.inFlight + 1, submitter := .releasing i .counted } = true := by
        cases rest with
        | nil => exact later
        | cons => exact later.1
      have zero := (dagDrained_iff.mp still).1
      simp only [unguarded.2] at zero
      omega
    | runner k env => trivial
    | join kind => trivial
    | joiner k env => trivial
  · intro guarded
    exact stableFrom_of_meets (Running (build nodeCapacity ops))
      (fun e => Running (build nodeCapacity ops) e ∧ Observable e) (Running.taken built) (fun running observable => ⟨running, observable⟩)
      (fun latched guarded taken => ⟨latched.1.taken built taken,
        latched.1.drained_step built latched.2 guarded taken⟩)
      (fun latched => latched.2.2)
      (fun latched _ => latched.1.untouched_of_drained latched.2 _) (running_start built) guarded

/-- Two roots 0 and 1, and 2 after 0. -/
def forkOps : List BuildOp :=
  [.addNode 0 (some 10) 0 0 true, .addNode 1 (some 11) 0 0 true, .addNode 2 (some 12) 0 0 true,
   .addEdge 0 2 true true]

/-- Root 0 is released and runs; the pool refuses its successor 2, and the DAG
looks drained to a destroying joiner. The root loop then releases root 1, the
joiner frees the DAG, and the runner of 1 starts. -/
def earlyDrain : List Label :=
  List.replicate 7 (.submitter {}) ++ List.replicate 7 (.runner 0 {}) ++
  [.runner 0 { submitRc := .errInvalid }, .runner 0 {}, .runner 0 {}, .runner 0 {}, .runner 0 {},
   .join .destroy, .joiner 0 {}, .joiner 0 {}]

def freeBeforeRun : List Label :=
  List.replicate 7 (.submitter {}) ++ [.joiner 0 {}, .joiner 0 {}, .runner 1 {}]

theorem drained_undone_by_root_loop :
    (exec (step (build 3 forkOps)) (start (build 3 forkOps)) earlyDrain).map
        (fun e => (dagDrained e, e.joiners)) =
      some (true, [{ kind := .destroy, pc := .marking }]) ∧
    (exec (step (build 3 forkOps)) (start (build 3 forkOps)) (earlyDrain ++ freeBeforeRun)).map
        (fun e => (dagDrained e, e.freed, e.log.head?)) =
      some (false, true, some (.called 1)) := by
  decide +kernel

/-- A node has one runner at most, and none before its countdown is at 0; pending_preds counts the
predecessors whose runners have still to count it down. -/
structure CountedDown (g : Graph) (e : Engine) : Prop where
  once : (e.runners.map Runner.node).Nodup
  released : ∀ r ∈ e.runners, (e.run r.node).pendingPreds = 0
  countdown : e.submitter.seeded = true → ∀ n, g.isAdded n = true →
    (e.run n).pendingPreds + reached g n e.runners = (g.preds n).card

theorem Ledger.pending_of_runner {g : Graph} {e : Engine} (ledger : Ledger g e) (built : Built g)
    {r : Runner} (member : r ∈ e.runners) : (e.run r.node).pendingPreds = 0 := by
  have seeded : e.submitter.seeded = true := by
    by_contra unseeded
    rw [ledger.unseeded (by simpa using unseeded)] at member
    cases member
  have books := ledger.released r.node
  have counts := le_tally (Runner.ofNode r.node) member
  have own : Runner.ofNode r.node r = 1 := by simp [Runner.ofNode]
  have countdown := ledger.countdown seeded r.node (ledger.added_of_runner member)
  have bound := reached_le built ledger.distinct r.node
  unfold attempted at books
  split_ifs at books <;> omega

/-- Whatever release fails, and with a cycle, too. -/
theorem countdown_exact (nodeCapacity : UInt32) (ops : List BuildOp) (labels : List Label) :
    Always (step (build nodeCapacity ops)) (CountedDown (build nodeCapacity ops))
      (start (build nodeCapacity ops)) labels := by
  have built := built_build nodeCapacity ops
  apply always_of_invariant (Running.taken built) _ labels (running_start built)
  rintro e ⟨ledger⟩
  refine ⟨ledger.distinct, fun r => ledger.pending_of_runner built, fun seeded n added => ?_⟩
  rw [← built.degree n]
  exact ledger.countdown seeded n added

end Loomworks.Dag

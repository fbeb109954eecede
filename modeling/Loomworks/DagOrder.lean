import Loomworks.DagTurns

/- Runs of a DAG in which every release succeeds: the order in which the user
tasks run and what the joiners get to see. -/
namespace Loomworks.Dag

open Tally Transition

/-- The allocations succeed and the pool accepts every runner. -/
def Env.Good (env : Env) : Prop :=
  env.arraysOk = true ∧ env.ctxOk = true ∧ env.mutexOk = true ∧ env.condOk = true ∧
    env.submitRc = .ok

instance (env : Env) : Decidable env.Good := by
  unfold Env.Good
  infer_instance

def Label.Good : Label → Prop
  | .submitter env | .runner _ env => env.Good
  | _ => True

def Succeeds (_ : Engine) (label : Label) : Prop := label.Good

def ReleasePc.succeeding : ReleasePc → Bool
  | .start | .owned | .counted | .accepted => true
  | _ => false

/-- Where the submitter of an accepted DAG may be. -/
def SubmitPc.Clean (g : Graph) (submitted : Bool) : SubmitPc → Prop
  | .freezing verdict => verdict = .acyclic ∨ (verdict = .empty ∧ g.added = 0)
  | .failing _ => False
  | .signalling rc => rc = .ok ∧ g.added = 0
  | .finished i rc => submitted = true → rc = .ok ∧ (g.added = 0 ∨ g.nodeCapacity ≤ i)
  | _ => True

structure Clean (g : Graph) (e : Engine) : Prop where
  healthy : e.failed = false
  submitter : e.submitter.Clean g e.submitted
  releases : ∀ n pc, Releasing g e n pc → pc.succeeding = true
  refusals : ∀ n rc, .refused n rc ∉ e.log
  complete : ∀ r ∈ e.runners, ∀ i, r.pc = .epilogue i ∨ r.pc = .finished i →
    (g.nodes r.node).succs.length ≤ i

theorem clean_start (g : Graph) : Clean g (start g) := by
  constructor <;> simp [start, SubmitPc.Clean, Releasing]

/-- A release in a good environment goes on or returns OK, and fails nothing. -/
theorem dagReleaseNode_good {env : Env} (good : env.Good) (e : Engine) (n : NodeId)
    {pc : ReleasePc} (succeeding : pc.succeeding = true) :
    (dagReleaseNode e n env pc).1.failed = e.failed ∧
    (dagReleaseNode e n env pc).1.log = e.log ∧
    (∀ next, (dagReleaseNode e n env pc).2 = .next next → next.succeeding = true) ∧
    ∀ rc, (dagReleaseNode e n env pc).2 = .returned rc → rc = .ok := by
  obtain ⟨-, ctx, mutex, cond, accepted⟩ := good
  cases pc with
  | start => simp [dagReleaseNode, ctx, loomFutureInit, mutex, cond, Engine.setRun,
      ReleasePc.succeeding]
  | owned => simp [dagReleaseNode, ReleasePc.succeeding]
  | counted => simp [dagReleaseNode, accepted, ReleasePc.succeeding]
  | accepted => simp [dagReleaseNode]
  | refused | undoing | preInit => cases succeeding

namespace Clean

variable {g : Graph} {e e' : Engine} {k : Nat} {r : Runner}

private theorem of_runner (clean : Clean g e) {pc : RunnerPc} (healthy : e'.failed = e.failed)
    (submitter : e'.submitter = e.submitter) (submitted : e'.submitted = e.submitted)
    (log : ∀ n rc, .refused n rc ∉ e'.log)
    (runners : ∃ started m,
      e'.runners = e.runners ++ List.replicate started (Runner.mk m .queued))
    (releases : ∀ i release, pc = .releasing i release → release.succeeding = true)
    (complete : ∀ i, pc = .epilogue i ∨ pc = .finished i →
      (g.nodes r.node).succs.length ≤ i) :
    Clean g (e'.setRunner k { r with pc := pc }) := by
  constructor
  · exact healthy.trans clean.healthy
  · change e'.submitter.Clean g e'.submitted
    rw [submitter, submitted]
    exact clean.submitter
  · intro n release releasing
    rcases Trace.releasing_after runners submitter releasing with before | ⟨i, same, -⟩
    · exact clean.releases n release before
    · exact releases i release same
  · exact log
  · obtain ⟨started, m, runners⟩ := runners
    intro x inside i pcX
    rcases List.mem_or_eq_of_mem_set inside with old | new
    · rw [runners] at old
      rcases List.mem_append.mp old with old | fresh
      · exact clean.complete x old i pcX
      · rw [List.eq_of_mem_replicate fresh] at pcX
        simp at pcX
    · subst new
      exact complete i pcX

theorem runner_step (clean : Clean g e) {env : Env} (good : env.Good)
    (here : e.runners[k]? = some r) (taken : dagRunnerFn g e k r env = some e') :
    Clean g e' := by
  have member := List.mem_of_getElem? here
  have unchanged : ∃ started m,
      e.runners = e.runners ++ List.replicate started (Runner.mk m .queued) := ⟨0, 0, by simp⟩
  unfold dagRunnerFn at taken
  split at taken
  · split at taken <;> cases taken
    · exact clean.of_runner rfl rfl rfl (by simpa using clean.refusals) unchanged (by simp)
        (by simp)
    · exact clean.of_runner rfl rfl rfl clean.refusals unchanged (by simp) (by simp)
  · cases taken
    exact clean.of_runner rfl rfl rfl (by simpa using clean.refusals) unchanged (by simp) (by simp)
  · cases taken
    exact clean.of_runner rfl rfl rfl clean.refusals unchanged (by simp) (by simp)
  · rename_i i pc
    split at taken
    · cases taken
      exact clean.of_runner rfl rfl rfl clean.refusals unchanged (by simp) (by simp)
    · rename_i spent
      cases taken
      refine clean.of_runner rfl rfl rfl clean.refusals unchanged (by simp) ?_
      intro j same
      have short : ¬ i < (g.nodes r.node).succs.length := fun more => spent ⟨more, clean.healthy⟩
      simp only [RunnerPc.epilogue.injEq, reduceCtorEq, or_false] at same
      omega
  · obtain ⟨succ, -, same⟩ := Option.map_eq_some_iff.mp taken
    simp only at same
    split_ifs at same <;> subst same
    · refine clean.of_runner rfl rfl rfl clean.refusals unchanged ?_ (by simp)
      intro i release same
      cases same
      rfl
    · exact clean.of_runner rfl rfl rfl clean.refusals unchanged (by simp) (by simp)
  · rename_i i release pc
    obtain ⟨succ, edge, same⟩ := Option.map_eq_some_iff.mp taken
    have succeeding := clean.releases succ release (Or.inr ⟨r, member, i, pc, edge⟩)
    obtain ⟨failed, log, goesOn, -⟩ := dagReleaseNode_good good e succ succeeding
    obtain ⟨started, books⟩ := dagReleaseNode_books e succ env release
    obtain ⟨submitted, -, submitter, -⟩ := dagReleaseNode_flags e succ env release
    have noRefusal : ∀ n rc, .refused n rc ∉ (dagReleaseNode e succ env release).1.log := by
      rw [log]
      exact clean.refusals
    subst same
    refine clean.of_runner failed submitter submitted noRefusal ⟨started, succ, books.runners⟩
      ?_ ?_
    · intro j other same
      cases outcome : (dagReleaseNode e succ env release).2 with
      | next next =>
        rw [outcome] at same
        cases same
        exact goesOn other outcome
      | returned rc =>
        rw [outcome] at same
        cases same
    · intro j spent
      cases outcome : (dagReleaseNode e succ env release).2 <;> simp [outcome, succNext] at spent
  · rename_i i pc
    cases taken
    refine clean.of_runner (by simp) (by simp) (by simp) (by simpa using clean.refusals)
      ⟨0, 0, by simp⟩ (by simp) ?_
    intro j same
    simp only [RunnerPc.finished.injEq, reduceCtorEq, false_or] at same
    subst same
    exact clean.complete r member i (Or.inl pc)
  · cases taken

private theorem of_submitter (clean : Clean g e) (healthy : e'.failed = false)
    (submitter : e'.submitter.Clean g e'.submitted) (log : e'.log = e.log)
    (runners : ∃ started m,
      e'.runners = e.runners ++ List.replicate started (Runner.mk m .queued))
    (releases : ∀ i release, e'.submitter = .releasing i release → release.succeeding = true) :
    Clean g e' := by
  obtain ⟨started, m, runners⟩ := runners
  constructor
  · exact healthy
  · exact submitter
  · intro n release releasing
    rcases releasing with here | ⟨x, inside, i, pc, edge⟩
    · exact releases n release here
    · rw [runners] at inside
      rcases List.mem_append.mp inside with old | fresh
      · exact clean.releases n release (Or.inr ⟨x, old, i, pc, edge⟩)
      · rw [List.eq_of_mem_replicate fresh] at pc
        cases pc
  · rw [log]
    exact clean.refusals
  · intro x inside i pc
    rw [runners] at inside
    rcases List.mem_append.mp inside with old | fresh
    · exact clean.complete x old i pc
    · rw [List.eq_of_mem_replicate fresh] at pc
      simp at pc

theorem submit_step (clean : Clean g e) (running : Running g e) (accepted : hasCycle g = false)
    {env : Env} (good : env.Good) (taken : loomDagSubmit g e env = some e') : Clean g e' := by
  have unchanged : ∃ started m,
      e.runners = e.runners ++ List.replicate started (Runner.mk m .queued) := ⟨0, 0, by simp⟩
  have healthy := clean.healthy
  have position := clean.submitter
  unfold loomDagSubmit at taken
  split at taken
  · rename_i pc
    have fresh := running.unsubmitted (Or.inl pc)
    cases taken
    unfold submitPrologue
    rw [good.1, accepted]
    split_ifs with destroyed empty noMemory
    · exact clean.of_submitter healthy (by simp [SubmitPc.Clean, fresh]) rfl unchanged (by simp)
    · exact clean.of_submitter healthy (Or.inr ⟨rfl, empty⟩) rfl unchanged (by simp)
    · cases noMemory
    · exact clean.of_submitter healthy (Or.inl rfl) rfl unchanged (by simp)
  · rename_i verdict pc
    cases taken
    rw [pc] at position
    rcases position with rfl | ⟨rfl, empty⟩
    · exact clean.of_submitter healthy trivial rfl unchanged (by simp)
    · exact clean.of_submitter healthy ⟨rfl, empty⟩ rfl unchanged (by simp)
  · rename_i rc pc
    rw [pc] at position
    exact position.elim
  · rename_i rc pc
    rw [pc] at position
    cases taken
    exact clean.of_submitter (by simpa using healthy) (fun _ => ⟨position.1, Or.inl position.2⟩)
      (by simp) ⟨0, 0, by simp⟩ (by simp)
  · split_ifs at taken with inside root <;> cases taken
    · refine clean.of_submitter healthy trivial rfl unchanged ?_
      intro i release same
      cases same
      rfl
    · exact clean.of_submitter healthy trivial rfl unchanged (by simp)
    · exact clean.of_submitter healthy (fun _ => ⟨rfl, Or.inr (by omega)⟩) rfl unchanged (by simp)
  · rename_i i release pc
    have succeeding := clean.releases i release (Or.inl pc)
    obtain ⟨failed, log, goesOn, returns⟩ := dagReleaseNode_good good e i succeeding
    obtain ⟨started, books⟩ := dagReleaseNode_books e i env release
    cases taken
    refine clean.of_submitter (failed.trans healthy) ?_ log ⟨started, i, books.runners⟩ ?_
    · change (rootNext i _).Clean g _
      cases outcome : (dagReleaseNode e i env release).2 with
      | next next => trivial
      | returned rc =>
        cases returns rc outcome
        trivial
    · intro j other same
      change rootNext i _ = _ at same
      cases outcome : (dagReleaseNode e i env release).2 with
      | next next =>
        rw [outcome] at same
        cases same
        exact goesOn other outcome
      | returned rc =>
        cases returns rc outcome
        rw [outcome] at same
        cases same
  · cases taken

theorem taken (running : Running g e) (accepted : hasCycle g = false) {label : Label}
    (clean : Clean g e) (succeeds : label.Good) (taken : step g e label = some e') :
    Clean g e' := by
  cases label with
  | submitter env => exact clean.submit_step running accepted succeeds taken
  | runner k env =>
    obtain ⟨r, here, taken⟩ := Option.bind_eq_some_iff.mp taken
    exact clean.runner_step succeeds here taken
  | join kind =>
    cases taken
    exact ⟨clean.healthy, clean.submitter, clean.releases, clean.refusals, clean.complete⟩
  | joiner k env =>
    obtain ⟨j, -, taken⟩ := Option.bind_eq_some_iff.mp taken
    obtain ⟨submitted, -, submitter, failed, -, -, runners, log, -⟩ := joiner_fields taken
    refine clean.of_submitter (failed.trans clean.healthy) ?_ log ⟨0, 0, by simpa using runners⟩ ?_
    · rw [submitter, submitted]
      exact clean.submitter
    · intro i release here
      exact clean.releases i release (Or.inl (submitter ▸ here))

end Clean

/-- What the joiners of a healthy DAG have been told. -/
structure Told (e : Engine) (j : Joiner) : Prop where
  waiting : j.pc = .checking ∨ j.pc = .blocked → e.submitted = true
  destroying : j.pc = .marking ∨ j.pc = .freeing → j.kind = .destroy
  untimed : j.kind = .wait → j.pc ≠ .timedOut
  returned : j.kind ≠ .destroy → ∀ rc, j.pc = .returned rc → rc = .ok ∧ Observable e

theorem Told.keep {e e' : Engine} {j : Joiner} (told : Told e j)
    (submitted : e.submitted = true → e'.submitted = true)
    (observable : Observable e → Observable e') : Told e' j where
  waiting here := submitted (told.waiting here)
  destroying := told.destroying
  untimed := told.untimed
  returned kind rc here := ⟨(told.returned kind rc here).1, observable (told.returned kind rc here).2⟩

theorem Told.woken {e : Engine} {j old : Joiner} (told : Told e old) (blocked : old.pc = .blocked)
    (same : j = { old with pc := .checking }) : Told e j := by
  subst same
  exact ⟨fun _ => told.waiting (Or.inr blocked), by simp, by simp, by simp⟩

theorem Told.step {e e' : Engine} {k : Nat} {j : Joiner} {env : Env} (told : Told e j)
    (healthy : e.failed = false) (taken : dagWaitInternal e k j env = some e') :
    ∃ new, e'.joiners = e.joiners.set k new ∧ Told e' new := by
  unfold dagWaitInternal at taken
  split at taken
  · rename_i pc
    cases taken
    refine ⟨_, rfl, ?_⟩
    by_cases submitted : e.submitted = true
    · rw [if_pos submitted]
      exact ⟨fun _ => submitted, by simp, by simp, by simp⟩
    · rw [if_neg submitted]
      split <;> rename_i kind
      · exact ⟨by simp, fun _ => kind, by simp, by simp⟩
      · exact ⟨by simp, by simp, by simp, by simp⟩
  · rename_i pc
    have submitted := told.waiting (Or.inl pc)
    cases taken
    refine ⟨_, rfl, ?_⟩
    by_cases drained : dagDrained e = true
    · rw [if_pos drained, healthy]
      split <;> rename_i kind
      · exact ⟨by simp, fun _ => kind, by simp, by simp⟩
      · refine ⟨by simp, by simp, by simp, ?_⟩
        intro _ rc same
        cases same
        exact ⟨rfl, submitted, drained⟩
    · rw [if_neg drained]
      exact ⟨fun _ => submitted, by simp, by simp, by simp⟩
  · rename_i pc
    have submitted := told.waiting (Or.inr pc)
    cases taken
    refine ⟨_, rfl, ?_⟩
    split <;> rename_i kind
    · exact ⟨by simp, by simp, by simp [kind.1], by simp⟩
    · exact ⟨fun _ => submitted, by simp, by simp, by simp⟩
  · rename_i pc
    have kind := told.destroying (Or.inl pc)
    split at taken <;> cases taken
    exact ⟨_, rfl, by simp, fun _ => kind, by simp, by simp⟩
  · rename_i pc
    have kind := told.destroying (Or.inr pc)
    cases taken
    exact ⟨_, rfl, by simp, by simp, by simp, fun other => absurd kind other⟩
  all_goals cases taken

/-- What holds throughout a run in which every release succeeds. -/
structure Healthy (g : Graph) (e : Engine) : Prop where
  running : Running g e
  trace : Trace g e
  clean : Clean g e
  told : ∀ j ∈ e.joiners, Told e j

theorem healthy_start {g : Graph} (built : Built g) : Healthy g (start g) :=
  ⟨running_start built, trace_start g, clean_start g, by simp [start]⟩

theorem submitted_mono {g : Graph} {e e' : Engine} {label : Label}
    (taken : step g e label = some e') (submitted : e.submitted = true) : e'.submitted = true := by
  cases label with
  | submitter env =>
    change loomDagSubmit g e env = some e' at taken
    unfold loomDagSubmit at taken
    split at taken
    · cases taken
      unfold submitPrologue
      split_ifs <;> exact submitted
    · cases taken
      rfl
    · cases taken
      exact submitted
    · cases taken
      simpa using submitted
    · split_ifs at taken <;> cases taken <;> exact submitted
    · rename_i i release pc
      cases taken
      exact (dagReleaseNode_flags e i env release).1.trans submitted
    · cases taken
  | runner k env =>
    obtain ⟨r, -, taken⟩ := Option.bind_eq_some_iff.mp taken
    exact (runner_flags taken).1.trans submitted
  | join kind =>
    cases taken
    exact submitted
  | joiner k env =>
    obtain ⟨j, -, taken⟩ := Option.bind_eq_some_iff.mp taken
    exact (joiner_fields taken).1.trans submitted

namespace Healthy

variable {g : Graph} {e e' : Engine}

theorem taken (built : Built g) (accepted : hasCycle g = false) {label : Label}
    (healthy : Healthy g e) (succeeds : Succeeds e label) (taken : step g e label = some e') :
    Healthy g e' := by
  have running := healthy.running.taken built taken
  have guarded : RootGuarded e label := by
    cases label <;> simp [RootGuarded, healthy.clean.healthy]
  have kept : ∀ {j}, Told e j → Told e' j := fun told =>
    told.keep (submitted_mono taken) fun observable =>
      healthy.running.drained_step built observable guarded taken
  refine ⟨running, healthy.trace.taken built healthy.running.ledger taken,
    healthy.clean.taken healthy.running accepted succeeds taken, ?_⟩
  intro j member
  cases label with
  | join kind =>
    cases taken
    rcases List.mem_append.mp member with old | fresh
    · exact kept (healthy.told j old)
    · rw [List.mem_singleton.mp fresh]
      exact ⟨by simp, by simp, by simp, by simp⟩
  | joiner k env =>
    obtain ⟨old, here, taken⟩ := Option.bind_eq_some_iff.mp taken
    obtain ⟨new, joiners, told⟩ :=
      (healthy.told old (List.mem_of_getElem? here)).step healthy.clean.healthy taken
    rw [joiners] at member
    rcases List.mem_or_eq_of_mem_set member with other | same
    · exact kept (healthy.told j other)
    · rw [same]
      exact told
  | submitter env | runner k env =>
    rcases (step_woken (by simp) (by simp) taken).mem member with old | ⟨old, inside, blocked, same⟩
    · exact kept (healthy.told j old)
    · exact kept ((healthy.told old inside).woken blocked same)

end Healthy

/-- The user task of n was called once, it returned, its future is ready and its
status is what it returned. -/
def Ran (e : Engine) (n : NodeId) : Prop :=
  calls n e.log = 1 ∧ (e.run n).future.ready = true ∧
    ∃ status, .returned n status ∈ e.log ∧ (∀ other, .returned n other ∈ e.log → other = status) ∧
      loomDagNodeStatus e n = status

/-- Every runner has finished and loom_dag_submit has returned. -/
def Quiescent (e : Engine) : Prop :=
  e.submitted = true ∧ (∃ i rc, e.submitter = .finished i rc) ∧ ∀ r ∈ e.runners, r.active = 0

namespace Healthy

variable {g : Graph} {e : Engine}

private theorem settled_of_finished {r : Runner} (finished : r.active = 0) :
    r.pc.phase = .settled := by
  obtain ⟨node, pc⟩ := r
  cases pc <;> simp_all [Runner.active, RunnerPc.phase]

theorem ran_of_finished (healthy : Healthy g e) (finished : ∀ r ∈ e.runners, r.active = 0)
    {n : NodeId} (one : tally (Runner.ofNode n) e.runners = 1) : Ran e n := by
  obtain ⟨r, member, weighs⟩ := exists_of_tally_pos (Runner.ofNode n) e.runners (by omega)
  have node : r.node = n := by
    by_contra other
    simp [Runner.ofNode, other] at weighs
  have settled : (n, Phase.settled) ∈ e.phases := by
    refine List.mem_map.mpr ⟨r, member, ?_⟩
    rw [node, settled_of_finished (finished r member)]
  obtain ⟨ready, returned⟩ := healthy.trace.settled n settled
  refine ⟨?_, ready, (e.run n).status, returned, ?_, ?_⟩
  · rw [healthy.trace.called n, Engine.phases, tally_map, ← one]
    refine tally_congr fun x inside => ?_
    simp [startedOn, Runner.ofNode, settled_of_finished (finished x inside)]
  · intro other member
    rcases healthy.trace.returned n other member with completing | ⟨-, same⟩
    · obtain ⟨x, inside, same⟩ := List.mem_map.mp completing
      rw [settled_of_finished (finished x inside)] at same
      cases same
    · exact same.symm
  · have owner := healthy.trace.owned n _ settled
    simp [loomDagNodeStatus, owner, ready]

private theorem no_refusals (healthy : Healthy g e) (n : NodeId) :
    tally (Event.refusedOn n) e.log = 0 := by
  refine tally_eq_zero.mpr fun event member => ?_
  cases event with
  | refused m rc => exact absurd member (healthy.clean.refusals m rc)
  | called m => rfl
  | returned m status => rfl

/-- A drained healthy DAG has run every added node. -/
theorem ran_of_observable (healthy : Healthy g e) (built : Built g) (observable : Observable e)
    {n : NodeId} (added : g.isAdded n = true) : Ran e n := by
  obtain ⟨zero, spent⟩ := dagDrained_iff.mp observable.2
  have all : e.releasedTotal = g.added := by
    rw [← healthy.running.addedCount]
    exact spent.resolve_left (by simp [healthy.clean.healthy])
  have one := (healthy.running.ledger.full built all).1 n added
  rw [healthy.no_refusals n] at one
  exact healthy.ran_of_finished (healthy.running.ledger.idle_of_inFlight_zero zero).1 one

/-- When nothing moves any more every added node has had its runner. -/
theorem released_of_quiescent (healthy : Healthy g e) (built : Built g) (acyclic : g.Acyclic)
    (quiescent : Quiescent e) (n : NodeId) (added : g.isAdded n = true) :
    tally (Runner.ofNode n) e.runners = 1 := by
  obtain ⟨submitted, ⟨i, rc, finished⟩, idle⟩ := quiescent
  have position := healthy.clean.submitter
  rw [finished] at position
  have passed : g.nodeCapacity ≤ i := by
    rcases (position submitted).2 with none | passed
    · have empty : g.addedNodes = ∅ := Finset.card_eq_zero.mp none
      have inside := built.mem_addedNodes.mpr added
      rw [empty] at inside
      simp at inside
    · exact passed
  induction n using (acyclic.wellFounded built).induction with
  | _ n ih =>
    have books := healthy.running.ledger.released n
    have noPending : tally (Runner.pendingOn g n) e.runners = 0 := by
      refine tally_eq_zero.mpr fun r member => ?_
      have finished := idle r member
      obtain ⟨node, pc⟩ := r
      cases pc <;> simp_all [Runner.active, Runner.pendingOn, Runner.target]
    rw [healthy.no_refusals n, noPending, finished] at books
    have began : attempted g e n = 1 := by
      unfold attempted
      rw [if_neg (by simp [added])]
      by_cases root : (g.nodes n).inDegree = 0
      · rw [if_pos root, finished, if_pos]
        exact Nat.lt_of_lt_of_le (built.inside n added) passed
      · rw [if_neg root, if_pos]
        refine Nat.le_antisymm (reached_le built healthy.running.ledger.distinct n) ?_
        rw [built.degree]
        refine card_le_tally Runner.node fun p member => ?_
        have edge := built.mem_preds.mp member
        have earlier := ih p edge (built.source edge)
        obtain ⟨r, inside, weighs⟩ := exists_of_tally_pos (Runner.ofNode p) e.runners
          (by omega)
        have node : r.node = p := by
          by_contra other
          simp [Runner.ofNode, other] at weighs
        refine ⟨r, inside, ?_, node⟩
        have spent := idle r inside
        have complete := healthy.clean.complete r inside
        obtain ⟨rNode, pc⟩ := r
        subst node
        cases pc with
        | finished j =>
          have whole := complete j (Or.inr rfl)
          change n ∈ (g.nodes rNode).succs.take j
          rw [List.take_of_length_le whole]
          exact edge
        | _ => simp [Runner.active] at spent
    rw [began] at books
    change 0 + 0 + _ + 0 = 1 at books
    omega

end Healthy

/-- In every run of an acyclic DAG in which all releases succeed, each user task
is called at most once and after its predecessors' tasks have returned; when
everything has come to rest each was called exactly once; and a loom_dag_wait on
the submitted DAG returns OK after all of them have run. -/
theorem dag_runs_in_order (nodeCapacity : UInt32) (ops : List BuildOp) (labels : List Label)
    (e : Engine) (acyclic : (build nodeCapacity ops).Acyclic)
    (succeeds : Meets (step (build nodeCapacity ops)) Succeeds (start (build nodeCapacity ops))
      labels)
    (run : exec (step (build nodeCapacity ops)) (start (build nodeCapacity ops)) labels = some e) :
    (∀ n, calls n e.log ≤ 1) ∧ Ordered (build nodeCapacity ops) e.log ∧
    (Quiescent e → ∀ n, (build nodeCapacity ops).isAdded n = true → Ran e n) ∧
    ∀ j ∈ e.joiners, j.kind = .wait → j.pc ≠ .notSubmitted → ∀ rc, waitResult j.pc = some rc →
      rc = .ok ∧ ∀ n, (build nodeCapacity ops).isAdded n = true → Ran e n := by
  have built := built_build nodeCapacity ops
  have accepted := hasCycle_of_acyclic built acyclic
  have healthy : Healthy (build nodeCapacity ops) e :=
    Always.final (always_of_meets
      (Healthy.taken built accepted) id (healthy_start built) succeeds) run
  have ledger := healthy.running.ledger
  refine ⟨?_, healthy.trace.ordered, ?_, ?_⟩
  · intro n
    have books := ledger.released n
    have bound := attempted_le_one (build nodeCapacity ops) e n
    have fewer : tally (startedOn n) e.phases ≤ tally (Runner.ofNode n) e.runners := by
      rw [Engine.phases, tally_map]
      refine tally_le_tally fun r _ => ?_
      by_cases same : r.node = n <;> simp [startedOn, Runner.ofNode, same]
      split <;> omega
    rw [healthy.trace.called n]
    omega
  · intro quiescent n added
    exact healthy.ran_of_finished quiescent.2.2
      (healthy.released_of_quiescent built acyclic quiescent n added)
  · intro j member kind submitted rc result
    have told := healthy.told j member
    cases pc : j.pc with
    | returned code =>
      rw [pc] at result
      cases result
      obtain ⟨ok, observable⟩ := told.returned (by simp [kind]) rc pc
      exact ⟨ok, fun n added => healthy.ran_of_observable built observable added⟩
    | notSubmitted => exact absurd pc submitted
    | timedOut => exact absurd pc (told.untimed kind)
    | _ => simp [pc, waitResult] at result

def chainOps : List BuildOp :=
  [.addNode 0 (some 10) 0 0 true, .addNode 1 (some 11) 0 0 true, .addEdge 0 1 true true]

theorem chain_acyclic : (build 2 chainOps).Acyclic := by
  refine acyclic_of_increasing fun {m n} edge => ?_
  have built := built_build 2 chainOps
  have low : m < 2 := built.inside m (built.source edge)
  have high : n < 2 := built.inside n (built.target edge)
  revert edge
  interval_cases m <;> interval_cases n <;> decide

/-- Both nodes run, the first failing, and a joiner waits for them. -/
def chainRun : List Label :=
  List.replicate 9 (.submitter {}) ++ [.runner 0 {}, .runner 0 { fnRc := .errFailed }] ++
  List.replicate 9 (.runner 0 {}) ++ List.replicate 5 (.runner 1 {}) ++
  [.join .wait, .joiner 0 {}, .joiner 0 {}]

theorem chain_runs_in_order : ∃ e,
    exec (step (build 2 chainOps)) (start (build 2 chainOps)) chainRun = some e ∧
    e.joiners = [{ kind := .wait, pc := .returned .ok }] ∧
    Ordered (build 2 chainOps) e.log ∧ Ran e 0 ∧ Ran e 1 := by
  have good : Meets (step (build 2 chainOps)) Succeeds (start (build 2 chainOps)) chainRun := by
    refine meets_of_forall (fun label member _ => ?_) _
    simp only [chainRun, List.mem_append, List.mem_replicate, List.mem_cons, List.not_mem_nil]
      at member
    rcases member with ((((⟨-, rfl⟩ | (rfl | rfl | no)) | ⟨-, rfl⟩) | ⟨-, rfl⟩) |
      (rfl | rfl | rfl | no))
    all_goals first | exact no.elim | (simp [Succeeds, Label.Good, Env.Good])
  have joined : (exec (step (build 2 chainOps)) (start (build 2 chainOps)) chainRun).map
      Engine.joiners = some [{ kind := .wait, pc := .returned .ok }] := by decide +kernel
  obtain ⟨e, run, joiners⟩ := Option.map_eq_some_iff.mp joined
  obtain ⟨-, ordered, -, waited⟩ := dag_runs_in_order 2 chainOps chainRun e chain_acyclic good run
  have ran := (waited _ (by rw [joiners]; exact List.mem_singleton.mpr rfl) rfl (by simp) .ok rfl).2
  exact ⟨e, run, joiners, ordered, ran 0 (by decide), ran 1 (by decide)⟩

end Loomworks.Dag

import Loomworks.DagDrained

/- What the user tasks of a DAG see: the log of their calls and returns, and the
futures and status words the runners leave behind. -/
namespace Loomworks.Dag

open Tally Transition

/-- How far a runner has come with its own node. -/
inductive Phase where
  | queued | inFn | completing (status : LoomResult) | settled
  deriving DecidableEq, Repr

def RunnerPc.phase : RunnerPc → Phase
  | .queued => .queued
  | .inFn => .inFn
  | .completing status => .completing status
  | _ => .settled

def Engine.phases (e : Engine) : List (NodeId × Phase) :=
  e.runners.map fun r => (r.node, r.pc.phase)

def Event.calledOn (n : NodeId) : Event → Nat
  | .called m => if m = n then 1 else 0
  | _ => 0

/-- How often the user task of n has been called. -/
def calls (n : NodeId) (log : List Event) : Nat := tally (Event.calledOn n) log

def startedOn (n : NodeId) (x : NodeId × Phase) : Nat :=
  if x.1 = n ∧ x.2 ≠ .queued then 1 else 0

/-- Each user task is called after the tasks of all its predecessors have
returned; the log is newest first. -/
def Ordered (g : Graph) (log : List Event) : Prop :=
  ∀ n later earlier, log = later ++ .called n :: earlier →
    ∀ p, g.Edge p n → ∃ status, .returned p status ∈ earlier

/-- The embedded future is initialised and its runner not yet started. -/
def ReleasePc.opened : ReleasePc → Bool
  | .owned | .counted => true
  | _ => false

/-- Some thread is in dag_release_node of n at pc. -/
def Releasing (g : Graph) (e : Engine) (n : NodeId) (pc : ReleasePc) : Prop :=
  e.submitter = .releasing n pc ∨
    ∃ r ∈ e.runners, ∃ i, r.pc = .releasing i pc ∧ (g.nodes r.node).succs[i]? = some n

structure Trace (g : Graph) (e : Engine) : Prop where
  live : ∀ n, (e.run n).future.cancelled = false
  opened : ∀ n pc, Releasing g e n pc → pc.opened = true → (e.run n).futureOwner = true
  owned : ∀ n phase, (n, phase) ∈ e.phases → (e.run n).futureOwner = true
  called : ∀ n, calls n e.log = tally (startedOn n) e.phases
  completing : ∀ n status, (n, .completing status) ∈ e.phases → .returned n status ∈ e.log
  settled : ∀ n, (n, .settled) ∈ e.phases →
    (e.run n).future.ready = true ∧ .returned n (e.run n).status ∈ e.log
  returned : ∀ n status, .returned n status ∈ e.log → (n, .completing status) ∈ e.phases ∨
    ((n, .settled) ∈ e.phases ∧ (e.run n).status = status)
  ordered : Ordered g e.log

theorem ordered_nil (g : Graph) : Ordered g [] := by
  intro n later earlier split
  simp at split

theorem Ordered.cons {g : Graph} {log : List Event} (ordered : Ordered g log) {event : Event}
    (ready : ∀ n, event = .called n → ∀ p, g.Edge p n → ∃ status, .returned p status ∈ log) :
    Ordered g (event :: log) := by
  intro n later earlier split p edge
  cases later with
  | nil =>
    cases split
    exact ready n rfl p edge
  | cons _ later =>
    cases split
    exact ordered n later earlier rfl p edge

theorem trace_start (g : Graph) : Trace g (start g) := by
  constructor <;> simp [start, Engine.phases, Releasing, calls, ordered_nil]

/-- The node's run-phase fields only grow: no future is cancelled, none loses its
owner, and those of the nodes with a runner stay as they are. -/
structure RunFrame (e e' : Engine) : Prop where
  live : ∀ n, (e.run n).future.cancelled = false → (e'.run n).future.cancelled = false
  owner : ∀ n, (e.run n).futureOwner = true → (e'.run n).futureOwner = true
  kept : ∀ n phase, (n, phase) ∈ e.phases →
    (e'.run n).future = (e.run n).future ∧ (e'.run n).status = (e.run n).status

theorem RunFrame.of_run_eq {e e' : Engine} (same : e'.run = e.run) : RunFrame e e' := by
  constructor <;> simp [same]

/-- The log gained at most the record of a refused release. -/
def LogFrame (e e' : Engine) : Prop :=
  e'.log = e.log ∨ ∃ n rc, e'.log = .refused n rc :: e.log

/-- Steps that neither call a user task, nor see one return, nor publish its
status. -/
theorem Trace.frame {g : Graph} {e e' : Engine} (n : NodeId) (started : Nat) (trace : Trace g e)
    (run : RunFrame e e') (log : LogFrame e e')
    (phases : e'.phases = e.phases ++ List.replicate started (n, .queued))
    (owner : 0 < started → (e'.run n).futureOwner = true)
    (opened : ∀ n pc, Releasing g e' n pc → pc.opened = true → (e'.run n).futureOwner = true) :
    Trace g e' := by
  have sameEvents : ∀ event, (∀ m rc, event ≠ .refused m rc) →
      (event ∈ e'.log ↔ event ∈ e.log) := by
    intro event user
    rcases log with same | ⟨m, rc, same⟩
    · rw [same]
    · simp [same, user m rc]
  have sameCalls : ∀ m, calls m e'.log = calls m e.log := by
    intro m
    rcases log with same | ⟨l, rc, same⟩
    · rw [same]
    · simp [same, calls, Event.calledOn]
  have old : ∀ m phase, phase ≠ .queued → ((m, phase) ∈ e'.phases ↔ (m, phase) ∈ e.phases) := by
    intro m phase begun
    rw [phases]
    simp [begun]
  constructor
  · exact fun m => run.live m (trace.live m)
  · exact opened
  · intro m phase member
    rw [phases] at member
    rcases List.mem_append.mp member with member | fresh
    · exact run.owner m (trace.owned m phase member)
    · have same := List.eq_of_mem_replicate fresh
      have positive := List.length_pos_of_mem fresh
      rw [List.length_replicate] at positive
      cases same
      exact owner positive
  · intro m
    rw [sameCalls, phases, tally_append, tally_replicate, trace.called m]
    simp [startedOn]
  · intro m status member
    rw [sameEvents _ (by simp)]
    exact trace.completing m status ((old m _ (by simp)).mp member)
  · intro m member
    have before := (old m _ (by simp)).mp member
    obtain ⟨future, status⟩ := run.kept m _ before
    rw [future, status, sameEvents _ (by simp)]
    exact trace.settled m before
  · intro m status member
    rw [sameEvents _ (by simp)] at member
    rcases trace.returned m status member with member | ⟨member, same⟩
    · exact Or.inl ((old m _ (by simp)).mpr member)
    · refine Or.inr ⟨(old m _ (by simp)).mpr member, ?_⟩
      rw [(run.kept m _ member).2, same]
  · rcases log with same | ⟨m, rc, same⟩
    · rw [same]
      exact trace.ordered
    · rw [same]
      exact trace.ordered.cons (by simp)

/-- A node with a runner is not being released again. -/
theorem Ledger.phase_free {g : Graph} {e : Engine} (ledger : Ledger g e) {n m : NodeId}
    {pc : ReleasePc} (releasing : Releasing g e n pc) (pending : pc.pending = 1) {phase : Phase}
    (member : (m, phase) ∈ e.phases) : m ≠ n := by
  obtain ⟨r, inside, same⟩ := List.mem_map.mp member
  have weighs : 0 < e.submitter.pendingOn n + tally (Runner.pendingOn g n) e.runners := by
    rcases releasing with here | ⟨x, xInside, i, here, edge⟩
    · have own : e.submitter.pendingOn n = 1 := by simp [here, SubmitPc.pendingOn, pending]
      omega
    · have counts := le_tally (Runner.pendingOn g n) xInside
      have own : Runner.pendingOn g n x = 1 := by
        simp [Runner.pendingOn, Runner.target, here, edge, Runner.releaseWeight, pending]
      omega
  have other := ledger.no_runner_of_pending weighs inside
  cases same
  exact other

/-- A dag_release_node step as the user tasks see it. -/
theorem dagReleaseNode_frame {g : Graph} {e : Engine} (ledger : Ledger g e) {n : NodeId}
    {pc : ReleasePc} (releasing : Releasing g e n pc) (env : Env) :
    RunFrame e (dagReleaseNode e n env pc).1 ∧ LogFrame e (dagReleaseNode e n env pc).1 ∧
      ∀ next, (dagReleaseNode e n env pc).2 = .next next → next.opened = true →
        pc.opened = true ∨ ((dagReleaseNode e n env pc).1.run n).futureOwner = true := by
  have touching : ∀ node : NodeRun, pc.pending = 1 →
      node.future.cancelled = false ∨ node.future.cancelled = (e.run n).future.cancelled →
      (node.futureOwner = true ∨ node.futureOwner = (e.run n).futureOwner) →
      RunFrame e (e.setRun n node) := by
    intro node pending live owner
    constructor
    · intro m before
      by_cases here : m = n
      · subst here
        rcases live with live | live <;> simp [Engine.setRun, live, before]
      · simpa [Engine.setRun, here] using before
    · intro m before
      by_cases here : m = n
      · subst here
        rcases owner with owner | owner <;> simp [Engine.setRun, owner, before]
      · simpa [Engine.setRun, here] using before
    · intro m phase member
      have other := ledger.phase_free releasing pending member
      simp [Engine.setRun, other]
  cases pc with
  | start =>
    unfold dagReleaseNode
    simp only
    split_ifs with noCtx noInit
    · exact ⟨RunFrame.of_run_eq rfl, Or.inl rfl, by simp [ReleasePc.opened]⟩
    · exact ⟨RunFrame.of_run_eq rfl, Or.inl rfl, by simp [ReleasePc.opened]⟩
    · have fresh : (loomFutureInit (e.run n).future env.mutexOk env.condOk).1 = {} := by
        unfold loomFutureInit at noInit ⊢
        split_ifs at noInit ⊢ with ok
        · rfl
        · simp at noInit
      refine ⟨touching _ rfl (Or.inl ?_) (Or.inl rfl), Or.inl rfl, ?_⟩
      · simp [fresh]
      · simp [Engine.setRun]
  | owned => exact ⟨RunFrame.of_run_eq rfl, Or.inl rfl, fun _ _ _ => Or.inl rfl⟩
  | counted =>
    unfold dagReleaseNode
    simp only
    split_ifs
    · exact ⟨RunFrame.of_run_eq rfl, Or.inl rfl, by simp [ReleasePc.opened]⟩
    · exact ⟨RunFrame.of_run_eq rfl, Or.inl rfl, by simp [ReleasePc.opened]⟩
  | accepted =>
    exact ⟨RunFrame.of_run_eq (by simp [dagReleaseNode]), Or.inl (by simp [dagReleaseNode]),
      by simp [dagReleaseNode]⟩
  | refused rc =>
    exact ⟨touching _ rfl (Or.inr (by simp)) (Or.inr rfl), Or.inl rfl,
      by simp [dagReleaseNode, ReleasePc.opened]⟩
  | undoing rc =>
    obtain ⟨run, -, -, -, -, -, -, -, log⟩ := dagRecordReleaseFailure_spec
      { e with inFlight := e.inFlight - 1, log := .refused n rc :: e.log } rc env.wake
    exact ⟨RunFrame.of_run_eq run, Or.inr ⟨n, rc, log⟩, by simp [dagReleaseNode]⟩
  | preInit rc =>
    obtain ⟨run, -, -, -, -, -, -, -, log⟩ := dagRecordReleaseFailure_spec
      { e with log := .refused n rc :: e.log } rc env.wake
    exact ⟨RunFrame.of_run_eq run, Or.inr ⟨n, rc, log⟩, by simp [dagReleaseNode]⟩

section Phases

variable {g : Graph} {e : Engine} {k : Nat} {r : Runner}

private theorem phases_get (here : e.runners[k]? = some r) :
    e.phases[k]? = some (r.node, r.pc.phase) := by
  simp [Engine.phases, here]

private theorem phases_setRunner (e : Engine) (k : Nat) (r : Runner) :
    (e.setRunner k r).phases = e.phases.set k (r.node, r.pc.phase) := by
  simp [Engine.phases, Engine.setRunner, List.map_set]

private theorem phases_distinct (ledger : Ledger g e) : (e.phases.map Prod.fst).Nodup := by
  have distinct := ledger.distinct
  simpa [Engine.phases, List.map_map, Function.comp_def] using distinct

/-- A runner exists only once every predecessor's task has returned. -/
theorem predecessors_returned (built : Built g) (ledger : Ledger g e) (trace : Trace g e)
    (member : r ∈ e.runners) {p : NodeId} (edge : g.Edge p r.node) :
    ∃ status, .returned p status ∈ e.log := by
  have books := ledger.released r.node
  have counts := le_tally (Runner.ofNode r.node) member
  have own : Runner.ofNode r.node r = 1 := by simp [Runner.ofNode]
  have degree := built.inDegree_pos edge
  have added := ledger.added_of_runner member
  rw [attempted, if_neg (by simp [added]), if_neg (by omega)] at books
  have full : reached g r.node e.runners = (g.nodes r.node).inDegree := by
    by_contra short
    rw [if_neg short] at books
    omega
  rw [built.degree] at full
  obtain ⟨x, inside, counted, same⟩ := exists_of_card_le_tally (g.preds r.node)
    (p := Runner.Reached g r.node) ledger.distinct
    (fun x _ counted => built.mem_preds.mpr (List.mem_of_mem_take counted))
    (Nat.le_of_eq full.symm) (built.mem_preds.mpr edge)
  have settled : (p, Phase.settled) ∈ e.phases := by
    refine List.mem_map.mpr ⟨x, inside, ?_⟩
    rw [same]
    obtain ⟨node, pc⟩ := x
    cases pc <;> simp_all [Runner.Reached, RunnerPc.progress, RunnerPc.phase]
  exact ⟨_, (trace.settled p settled).2⟩

private theorem releasing_setRunner {n : NodeId} {release : ReleasePc} {pc : RunnerPc}
    (quiet : ∀ i x, pc ≠ .releasing i x)
    (releasing : Releasing g (e.setRunner k { r with pc := pc }) n release) :
    Releasing g e n release := by
  rcases releasing with here | ⟨x, inside, i, here, edge⟩
  · exact Or.inl here
  · rcases List.mem_or_eq_of_mem_set inside with old | new
    · exact Or.inr ⟨x, old, i, here, edge⟩
    · rw [new] at here
      exact absurd here (quiet i release)

end Phases

/-- A node has one runner. -/
private theorem phase_unique {g : Graph} {e : Engine} {k : Nat} {r : Runner}
    (ledger : Ledger g e) (here : e.runners[k]? = some r) {phase : Phase}
    (member : (r.node, phase) ∈ e.phases) : phase = r.pc.phase := by
  have slot := phases_get here
  have kept := mem_set_iff_of_nodup (r.node, r.pc.phase) (r.node, phase)
    (phases_distinct ledger) slot rfl
  rw [set_eq_self slot] at kept
  rcases kept.mp member with same | ⟨-, apart⟩
  · exact congrArg Prod.snd same
  · exact absurd rfl apart

/-- What a runner may change when its own node moves to another phase. -/
structure OwnStep (g : Graph) (e e' : Engine) (n : NodeId) (old new : Phase) : Prop where
  live : (e'.run n).future.cancelled = false
  owner : (e'.run n).futureOwner = (e.run n).futureOwner
  others : ∀ m, m ≠ n → e'.run m = e.run m
  called : ∀ m, calls m e'.log + startedOn m (n, old) = calls m e.log + startedOn m (n, new)
  elsewhere : ∀ m status, m ≠ n → (.returned m status ∈ e'.log ↔ .returned m status ∈ e.log)
  completing : ∀ status, new = .completing status → .returned n status ∈ e'.log
  settled : new = .settled →
    (e'.run n).future.ready = true ∧ .returned n (e'.run n).status ∈ e'.log
  returned : ∀ status, .returned n status ∈ e'.log → new = .completing status ∨
    (new = .settled ∧ (e'.run n).status = status)
  ordered : Ordered g e'.log

namespace Trace

variable {g : Graph} {e e' : Engine} {k : Nat} {r : Runner}

theorem own_step (trace : Trace g e) (ledger : Ledger g e) (here : e.runners[k]? = some r)
    {pc : RunnerPc} (own : OwnStep g e e' r.node r.pc.phase pc.phase)
    (runners : e'.runners = e.runners) (submitter : e'.submitter = e.submitter)
    (quiet : ∀ i release, pc ≠ .releasing i release) :
    Trace g (e'.setRunner k { r with pc := pc }) := by
  have slot := phases_get here
  have samePhases : e'.phases = e.phases := by simp [Engine.phases, runners]
  have members : ∀ x, x ∈ (e'.setRunner k { r with pc := pc }).phases ↔
      x = (r.node, pc.phase) ∨ (x ∈ e.phases ∧ x.1 ≠ r.node) := by
    intro x
    rw [phases_setRunner, samePhases]
    exact mem_set_iff_of_nodup _ x (phases_distinct ledger) slot rfl
  have owner : ∀ n, (e'.run n).futureOwner = (e.run n).futureOwner := by
    intro n
    by_cases same : n = r.node
    · rw [same, own.owner]
    · rw [own.others n same]
  constructor
  · intro n
    by_cases same : n = r.node
    · rw [same]
      exact own.live
    · change (e'.run n).future.cancelled = false
      rw [own.others n same]
      exact trace.live n
  · intro n release releasing
    change _ → (e'.run n).futureOwner = true
    rw [owner]
    refine trace.opened n release ?_
    rcases releasing_setRunner quiet releasing with inSubmitter | inRunner
    · exact Or.inl (submitter ▸ inSubmitter)
    · exact Or.inr (runners ▸ inRunner)
  · intro n phase member
    change (e'.run n).futureOwner = true
    rw [owner]
    rcases (members _).mp member with same | ⟨member, -⟩
    · cases same
      exact trace.owned _ _ (List.mem_of_getElem? slot)
    · exact trace.owned n phase member
  · intro n
    have moved := tally_set (startedOn n) (r.node, pc.phase) slot
    have before := trace.called n
    have added := own.called n
    change calls n e'.log = _
    rw [phases_setRunner, samePhases]
    change _ = tally (startedOn n) (e.phases.set k (r.node, pc.phase))
    omega
  · intro n status member
    rcases (members _).mp member with same | ⟨member, other⟩
    · obtain ⟨rfl, moved⟩ := Prod.mk.inj same
      exact own.completing status moved.symm
    · exact (own.elsewhere n status other).mpr (trace.completing n status member)
  · intro n member
    rcases (members _).mp member with same | ⟨member, other⟩
    · obtain ⟨rfl, moved⟩ := Prod.mk.inj same
      exact own.settled moved.symm
    · obtain ⟨ready, returned⟩ := trace.settled n member
      change (e'.run n).future.ready = true ∧ .returned n (e'.run n).status ∈ e'.log
      rw [own.others n other]
      exact ⟨ready, (own.elsewhere n _ other).mpr returned⟩
  · intro n status member
    by_cases same : n = r.node
    · subst same
      rcases own.returned status member with completing | ⟨settled, same⟩
      · exact Or.inl ((members _).mpr (Or.inl (by rw [completing])))
      · exact Or.inr ⟨(members _).mpr (Or.inl (by rw [settled])), same⟩
    · change _ ∨ (_ ∧ (e'.run n).status = status)
      rw [own.others n same]
      rcases trace.returned n status ((own.elsewhere n status same).mp member) with
        inside | ⟨inside, status⟩
      · exact Or.inl ((members _).mpr (Or.inr ⟨inside, same⟩))
      · exact Or.inr ⟨(members _).mpr (Or.inr ⟨inside, same⟩), status⟩
  · exact own.ordered

/-- A step of runner k that stays in its phase and starts at most one runner. -/
private theorem quiet_step (started : Nat) (m : NodeId) (trace : Trace g e)
    (here : e.runners[k]? = some r) {pc : RunnerPc} (run : RunFrame e e') (log : LogFrame e e')
    (runners : e'.runners = e.runners ++ List.replicate started (Runner.mk m .queued))
    (phase : pc.phase = r.pc.phase) (owner : 0 < started → (e'.run m).futureOwner = true)
    (opened : ∀ n release, Releasing g (e'.setRunner k { r with pc := pc }) n release →
      release.opened = true → (e'.run n).futureOwner = true) :
    Trace g (e'.setRunner k { r with pc := pc }) := by
  have grown : e'.phases = e.phases ++ List.replicate started (m, .queued) := by
    simp [Engine.phases, runners, RunnerPc.phase]
  have slot : e'.phases[k]? = some (r.node, pc.phase) := by
    rw [grown, phase, List.getElem?_append_left (List.getElem?_eq_some_iff.mp (phases_get here)).1]
    exact phases_get here
  refine trace.frame m started ⟨run.live, run.owner, run.kept⟩ log ?_ owner
    opened
  rw [phases_setRunner, set_eq_self slot, grown]

private theorem opened_of_frame (trace : Trace g e) (run : RunFrame e e')
    (runners : e'.runners = e.runners) (submitter : e'.submitter = e.submitter) {pc : RunnerPc}
    (quiet : ∀ i release, pc ≠ .releasing i release) (n : NodeId) (release : ReleasePc)
    (releasing : Releasing g (e'.setRunner k { r with pc := pc }) n release)
    (opened : release.opened = true) : (e'.run n).futureOwner = true := by
  refine run.owner n (trace.opened n release ?_ opened)
  rcases releasing_setRunner quiet releasing with inSubmitter | inRunner
  · exact Or.inl (submitter ▸ inSubmitter)
  · exact Or.inr (runners ▸ inRunner)

/-- A thread other than the one that moves is where it was. -/
theorem releasing_after (runners : ∃ started m,
      e'.runners = e.runners ++ List.replicate started (Runner.mk m .queued))
    (submitter : e'.submitter = e.submitter) {pc : RunnerPc} {n : NodeId} {release : ReleasePc}
    (releasing : Releasing g (e'.setRunner k { r with pc := pc }) n release) :
    Releasing g e n release ∨
      ∃ i, pc = .releasing i release ∧ (g.nodes r.node).succs[i]? = some n := by
  obtain ⟨started, m, runners⟩ := runners
  rcases releasing with inSubmitter | ⟨x, inside, i, pcX, edge⟩
  · exact Or.inl (Or.inl (submitter ▸ inSubmitter))
  · rcases List.mem_or_eq_of_mem_set inside with old | new
    · rw [runners] at old
      rcases List.mem_append.mp old with old | fresh
      · exact Or.inl (Or.inr ⟨x, old, i, pcX, edge⟩)
      · rw [List.eq_of_mem_replicate fresh] at pcX
        cases pcX
    · subst new
      exact Or.inr ⟨i, pcX, edge⟩

private theorem release_step (trace : Trace g e) (ledger : Ledger g e)
    (here : e.runners[k]? = some r) {i : Nat} {release : ReleasePc}
    (pc : r.pc = .releasing i release) {succ : NodeId}
    (edge : (g.nodes r.node).succs[i]? = some succ) (env : Env) :
    Trace g ((dagReleaseNode e succ env release).1.setRunner k
      { r with pc := succNext i (dagReleaseNode e succ env release).2 }) := by
  have releasing : Releasing g e succ release :=
    Or.inr ⟨r, List.mem_of_getElem? here, i, pc, edge⟩
  obtain ⟨run, log, opens⟩ := dagReleaseNode_frame ledger releasing env
  obtain ⟨started, books⟩ := dagReleaseNode_books e succ env release
  have ownerOfOpened : release.opened = true →
      ((dagReleaseNode e succ env release).1.run succ).futureOwner = true := fun isOpen =>
    run.owner succ (trace.opened succ release releasing isOpen)
  refine trace.quiet_step started succ here run log books.runners ?_ ?_ ?_
  · rw [pc]
    cases (dagReleaseNode e succ env release).2 <;> rfl
  · intro positive
    refine ownerOfOpened ?_
    rw [books.starts positive]
    rfl
  · intro n other releasing' isOpen
    rcases releasing_after ⟨started, succ, books.runners⟩ books.submitter releasing' with
      before | ⟨j, same, edge'⟩
    · exact run.owner n (trace.opened n other before isOpen)
    · cases outcome : (dagReleaseNode e succ env release).2 with
      | next pc' =>
        rw [outcome] at same
        cases same
        rw [edge] at edge'
        cases edge'
        rcases opens other outcome isOpen with before | after
        · exact ownerOfOpened before
        · exact after
      | returned rc =>
        rw [outcome] at same
        cases same

/-- The runner calls the user task. -/
private theorem call_own (trace : Trace g e) (built : Built g) (ledger : Ledger g e)
    (here : e.runners[k]? = some r) (phase : r.pc.phase = .queued) :
    OwnStep g e { e with log := .called r.node :: e.log } r.node r.pc.phase .inFn := by
  constructor
  · exact trace.live r.node
  · rfl
  · exact fun _ _ => rfl
  · intro m
    rw [phase]
    by_cases same : r.node = m <;> simp [calls, Event.calledOn, startedOn, same, Nat.add_comm]
  · simp
  · simp
  · simp
  · intro status member
    have before : .returned r.node status ∈ e.log := by simpa using member
    rcases trace.returned r.node status before with inside | ⟨inside, -⟩
    · have clash := phase_unique ledger here inside
      rw [phase] at clash
      cases clash
    · have clash := phase_unique ledger here inside
      rw [phase] at clash
      cases clash
  · refine trace.ordered.cons ?_
    intro n same p edge
    cases same
    exact predecessors_returned built ledger trace (List.mem_of_getElem? here) edge

/-- The user task returns. -/
private theorem return_own (trace : Trace g e) (ledger : Ledger g e)
    (here : e.runners[k]? = some r) (phase : r.pc.phase = .inFn) (status : LoomResult) :
    OwnStep g e { e with log := .returned r.node status :: e.log } r.node r.pc.phase
      (.completing status) := by
  constructor
  · exact trace.live r.node
  · rfl
  · exact fun _ _ => rfl
  · intro m
    rw [phase]
    simp [calls, Event.calledOn, startedOn]
  · intro m other apart
    simp [apart]
  · intro other same
    cases same
    simp
  · simp
  · intro other member
    rcases List.mem_cons.mp member with same | before
    · cases same
      exact Or.inl rfl
    · rcases trace.returned r.node other before with inside | ⟨inside, -⟩
      · have clash := phase_unique ledger here inside
        rw [phase] at clash
        cases clash
      · have clash := phase_unique ledger here inside
        rw [phase] at clash
        cases clash
  · exact trace.ordered.cons (by simp)

/-- The runner publishes the status. -/
private theorem complete_own (trace : Trace g e) (ledger : Ledger g e)
    (here : e.runners[k]? = some r) {status : LoomResult}
    (phase : r.pc.phase = .completing status) :
    OwnStep g e (e.setRun r.node { e.run r.node with
        status := status, future := loomFutureComplete (e.run r.node).future status })
      r.node r.pc.phase .settled := by
  have inside : (r.node, Phase.completing status) ∈ e.phases := by
    rw [← phase]
    exact List.mem_of_getElem? (phases_get here)
  constructor
  · simp [Engine.setRun, trace.live]
  · simp [Engine.setRun]
  · intro m other
    simp [Engine.setRun, other]
  · intro m
    rw [phase]
    simp [startedOn, Engine.setRun]
  · exact fun _ _ _ => Iff.rfl
  · simp
  · intro _
    have returned := trace.completing r.node status inside
    exact ⟨by simp [Engine.setRun, trace.live], by simpa [Engine.setRun] using returned⟩
  · intro other before
    refine Or.inr ⟨rfl, ?_⟩
    rcases trace.returned r.node other before with again | ⟨again, -⟩
    · have same := phase_unique ledger here again
      rw [phase] at same
      cases same
      simp [Engine.setRun]
    · have clash := phase_unique ledger here again
      rw [phase] at clash
      cases clash
  · exact trace.ordered

theorem runner_step (trace : Trace g e) (built : Built g) (ledger : Ledger g e) {env : Env}
    (here : e.runners[k]? = some r) (taken : dagRunnerFn g e k r env = some e') : Trace g e' := by
  have still : ∀ pc : RunnerPc, pc.phase = r.pc.phase → (∀ i release, pc ≠ .releasing i release) →
      ∀ x : Engine, x.run = e.run → x.log = e.log → x.runners = e.runners →
        x.submitter = e.submitter → Trace g (x.setRunner k { r with pc := pc }) := by
    intro pc phase quiet x run log runners submitter
    have frame := RunFrame.of_run_eq run
    exact trace.quiet_step 0 0 here frame (Or.inl log) (by simpa using runners)
      phase (by simp) (trace.opened_of_frame frame runners submitter quiet)
  have added := ledger.added_of_runner (List.mem_of_getElem? here)
  unfold dagRunnerFn at taken
  split at taken
  · rename_i pc
    rw [if_pos added] at taken
    cases taken
    exact trace.own_step ledger here (trace.call_own built ledger here (by rw [pc]; rfl)) rfl rfl
      (by simp)
  · rename_i pc
    cases taken
    exact trace.own_step ledger here (trace.return_own ledger here (by rw [pc]; rfl) env.fnRc) rfl
      rfl (by simp)
  · rename_i status pc
    cases taken
    exact trace.own_step ledger here (trace.complete_own ledger here (by rw [pc]; rfl)) rfl rfl
      (by simp)
  · rename_i i pc
    split at taken <;> cases taken
    · exact still _ (by rw [pc]; rfl) (by simp) e rfl rfl rfl rfl
    · exact still _ (by rw [pc]; rfl) (by simp) e rfl rfl rfl rfl
  · rename_i i pc
    obtain ⟨succ, edge, same⟩ := Option.map_eq_some_iff.mp taken
    have frame : RunFrame e (e.setRun succ
        { e.run succ with pendingPreds := (e.run succ).pendingPreds - 1 }) := by
      constructor <;> intro n <;> by_cases here : n = succ <;> simp_all [Engine.setRun]
    simp only at same
    split_ifs at same with last <;> subst same
    · refine trace.quiet_step 0 0 here frame (Or.inl rfl)
        (by simp [Engine.setRun]) (by rw [pc]; rfl) (by simp) ?_
      intro n release releasing opened
      rcases releasing_after (e := e) ⟨0, 0, by simp⟩ rfl releasing with
        before | ⟨j, same, -⟩
      · exact frame.owner n (trace.opened n release before opened)
      · cases same
        cases opened
    · exact trace.quiet_step 0 0 here frame (Or.inl rfl)
        (by simp [Engine.setRun]) (by rw [pc]; rfl) (by simp)
        (trace.opened_of_frame frame rfl rfl (by simp))
  · rename_i i release pc
    obtain ⟨succ, edge, same⟩ := Option.map_eq_some_iff.mp taken
    subst same
    exact trace.release_step ledger here pc edge env
  · rename_i i pc
    cases taken
    exact still _ (by rw [pc]; rfl) (by simp) _ (by simp) (by simp) (by simp) (by simp)
  · cases taken

/-- Steps of the submitter and the joiners move no runner. -/
private theorem outside_step (started : Nat) (m : NodeId) (trace : Trace g e)
    (run : RunFrame e e') (log : LogFrame e e')
    (runners : e'.runners = e.runners ++ List.replicate started (Runner.mk m .queued))
    (owner : 0 < started → (e'.run m).futureOwner = true)
    (opened : ∀ n release, e'.submitter = .releasing n release → release.opened = true →
      (e'.run n).futureOwner = true) : Trace g e' := by
  refine trace.frame m started run log ?_ owner ?_
  · simp [Engine.phases, runners, RunnerPc.phase]
  · intro n release releasing isOpen
    rcases releasing with inSubmitter | ⟨x, inside, i, pc, edge⟩
    · exact opened n release inSubmitter isOpen
    · rw [runners] at inside
      rcases List.mem_append.mp inside with old | fresh
      · exact run.owner n (trace.opened n release (Or.inr ⟨x, old, i, pc, edge⟩) isOpen)
      · rw [List.eq_of_mem_replicate fresh] at pc
        cases pc

theorem submit_step (trace : Trace g e) (ledger : Ledger g e) {env : Env}
    (taken : loomDagSubmit g e env = some e') : Trace g e' := by
  have still : ∀ x : Engine, x.run = e.run → x.log = e.log → x.runners = e.runners →
      (∀ n release, x.submitter = .releasing n release → release.opened = false) →
        Trace g x := by
    intro x run log runners closed
    refine trace.outside_step 0 0 (RunFrame.of_run_eq run) (Or.inl log)
      (by simpa using runners) (by simp) ?_
    intro n release here opened
    rw [closed n release here] at opened
    cases opened
  unfold loomDagSubmit at taken
  split at taken
  · cases taken
    unfold submitPrologue
    split_ifs
    any_goals exact still _ rfl rfl rfl (by simp)
    · refine trace.outside_step 0 0 ?_ (Or.inl rfl) (by simp) (by simp)
        (by simp)
      constructor <;> intro n <;> by_cases added : g.isAdded n = true <;> simp_all
  · rename_i verdict _
    cases taken
    exact still _ rfl rfl rfl (by cases verdict <;> simp)
  · cases taken
    exact still _ rfl rfl rfl (by simp)
  · cases taken
    exact still _ (by simp) (by simp) (by simp) (by simp)
  · split_ifs at taken <;> cases taken
    · refine still _ rfl rfl rfl ?_
      intro n release same
      cases same
      rfl
    · exact still _ rfl rfl rfl (by simp)
    · exact still _ rfl rfl rfl (by simp)
  · rename_i i release pc
    have releasing : Releasing g e i release := Or.inl pc
    obtain ⟨run, log, opens⟩ := dagReleaseNode_frame ledger releasing env
    obtain ⟨started, books⟩ := dagReleaseNode_books e i env release
    have ownerOfOpened : release.opened = true →
        ((dagReleaseNode e i env release).1.run i).futureOwner = true := fun isOpen =>
      run.owner i (trace.opened i release releasing isOpen)
    cases taken
    refine trace.outside_step started i ⟨run.live, run.owner, run.kept⟩ log books.runners ?_ ?_
    · intro positive
      refine ownerOfOpened ?_
      rw [books.starts positive]
      rfl
    · intro n other same isOpen
      change rootNext i _ = _ at same
      unfold rootNext at same
      split at same
      · rename_i next outcome
        cases same
        rcases opens other outcome isOpen with before | after
        · exact ownerOfOpened before
        · exact after
      · cases same
      · cases same
  · cases taken

theorem taken (built : Built g) {label : Label} (trace : Trace g e) (ledger : Ledger g e)
    (taken : step g e label = some e') : Trace g e' := by
  have still : e'.run = e.run → e'.log = e.log → e'.runners = e.runners →
      e'.submitter = e.submitter → Trace g e' := by
    intro run log runners submitter
    have frame := RunFrame.of_run_eq run
    refine trace.outside_step 0 0 frame (Or.inl log) (by simpa using runners)
      (by simp) ?_
    intro n release here
    rw [submitter] at here
    rw [run]
    exact trace.opened n release (Or.inl here)
  cases label with
  | submitter env => exact trace.submit_step ledger taken
  | runner k env =>
    obtain ⟨r, here, taken⟩ := Option.bind_eq_some_iff.mp taken
    exact trace.runner_step built ledger here taken
  | join kind =>
    cases taken
    exact still rfl rfl rfl rfl
  | joiner k env =>
    obtain ⟨j, -, taken⟩ := Option.bind_eq_some_iff.mp taken
    obtain ⟨-, -, submitter, -, -, -, runners, log, run⟩ := joiner_fields taken
    exact still run log runners submitter

end Trace

end Loomworks.Dag

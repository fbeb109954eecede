import Loomworks.DagOrder

/- What failing releases leave behind: counters, the sticky error, and futures
that are ready once nothing is in flight. -/
namespace Loomworks.Dag

open Tally Transition

variable {g : Graph} {e e' : Engine} {env : Env} {n : NodeId}

/-- The release has an initialised future that nobody has completed. -/
def ReleasePc.owning : ReleasePc → Bool
  | .owned | .counted | .refused _ => true
  | _ => false

/-- Someone completes the future of n, or has done so. -/
def Answered (g : Graph) (e : Engine) (n : NodeId) : Prop :=
  (e.run n).future.ready = true ∨ n ∈ e.runners.map Runner.node ∨
    ∃ pc, Releasing g e n pc ∧ pc.owning = true

def Owned (g : Graph) (e : Engine) : Prop := ∀ n, (e.run n).futureOwner = true → Answered g e n

theorem owned_start (g : Graph) : Owned g (start g) := by
  intro n owner
  cases owner

/-- What one step of a release does to the futures. -/
structure ReleaseFutures (n : NodeId) (pc : ReleasePc) (e : Engine) (after : Engine × After) : Prop where
  others : ∀ m, m ≠ n → after.1.run m = e.run m
  own : (after.1.run n).futureOwner = true → (after.1.run n).future.ready = true ∨
    n ∈ after.1.runners.map Runner.node ∨ (∃ next, after.2 = .next next ∧ next.owning = true) ∨
    pc.owning = false ∧ after.1.run n = e.run n

theorem dagReleaseNode_futures (live : (e.run n).future.cancelled = false) (pc : ReleasePc) :
    ReleaseFutures n pc e (dagReleaseNode e n env pc) := by
  have elsewhere : ∀ (node : NodeRun) (m : NodeId), m ≠ n → (e.setRun n node).run m = e.run m :=
    fun node m other => Function.update_of_ne other _ _
  cases pc with
  | start =>
    unfold dagReleaseNode
    dsimp only
    split_ifs
    · exact ⟨fun _ _ => rfl, fun _ => Or.inr (Or.inr (Or.inr ⟨rfl, rfl⟩))⟩
    · exact ⟨fun _ _ => rfl, fun _ => Or.inr (Or.inr (Or.inr ⟨rfl, rfl⟩))⟩
    · exact ⟨elsewhere _, fun _ => Or.inr (Or.inr (Or.inl ⟨_, rfl, rfl⟩))⟩
  | owned => exact ⟨fun _ _ => rfl, fun _ => Or.inr (Or.inr (Or.inl ⟨_, rfl, rfl⟩))⟩
  | counted =>
    unfold dagReleaseNode
    dsimp only
    split_ifs
    · refine ⟨fun _ _ => rfl, fun _ => Or.inr (Or.inl ?_)⟩
      simp
    · exact ⟨fun _ _ => rfl, fun _ => Or.inr (Or.inr (Or.inl ⟨_, rfl, rfl⟩))⟩
  | accepted =>
    have run : (dagReleaseNode e n env .accepted).1.run = e.run := signalIfDrained_run _ _
    refine ⟨fun _ _ => by rw [run], fun _ => Or.inr (Or.inr (Or.inr ⟨rfl, by rw [run]⟩))⟩
  | refused rc =>
    refine ⟨elsewhere _, fun _ => Or.inl ?_⟩
    simp only [dagReleaseNode, Engine.setRun, Function.update_self]
    exact loomFutureComplete_ready _ _ live
  | undoing rc =>
    have run : (dagReleaseNode e n env (.undoing rc)).1.run = e.run :=
      (dagRecordReleaseFailure_spec _ _ _).1
    refine ⟨fun _ _ => by rw [run], fun _ => Or.inr (Or.inr (Or.inr ⟨rfl, by rw [run]⟩))⟩
  | preInit rc =>
    have run : (dagReleaseNode e n env (.preInit rc)).1.run = e.run :=
      (dagRecordReleaseFailure_spec _ _ _).1
    refine ⟨fun _ _ => by rw [run], fun _ => Or.inr (Or.inr (Or.inr ⟨rfl, by rw [run]⟩))⟩

/-- The release of n moves: its own thread carries on for n, other threads for the rest. -/
theorem Owned.release (owned : Owned g e) {pc : ReleasePc} {after : Engine × After}
    (futures : ReleaseFutures n pc e after) (run : e'.run = after.1.run)
    (runners : after.1.runners.map Runner.node = e'.runners.map Runner.node)
    (nodes : ∀ m ∈ e.runners.map Runner.node, m ∈ e'.runners.map Runner.node)
    (next : ∀ pc', after.2 = .next pc' → Releasing g e' n pc')
    (others : ∀ m pc', Releasing g e m pc' → (m ≠ n ∨ pc' ≠ pc) → Releasing g e' m pc') :
    Owned g e' := by
  have still : ∀ m, e'.run m = e.run m → (m ≠ n ∨ pc.owning = false) → (e.run m).futureOwner = true →
      Answered g e' m := by
    intro m same other owner
    rcases owned m owner with ready | runner | ⟨pc', releasing, owning⟩
    · exact Or.inl (by rw [same]; exact ready)
    · exact Or.inr (Or.inl (nodes m runner))
    · refine Or.inr (Or.inr ⟨pc', others m pc' releasing ?_, owning⟩)
      rcases other with apart | idle
      · exact Or.inl apart
      · right
        rintro rfl
        rw [idle] at owning
        cases owning
  intro m owner
  by_cases here : m = n
  · subst here
    rw [run] at owner
    rcases futures.own owner with ready | runner | ⟨pc', outcome, owning⟩ | ⟨idle, same⟩
    · exact Or.inl (by rw [run]; exact ready)
    · exact Or.inr (Or.inl (by rw [← runners]; exact runner))
    · exact Or.inr (Or.inr ⟨pc', next pc' outcome, owning⟩)
    · rw [same] at owner
      exact still m (by rw [run, same]) (Or.inr idle) owner
  · have same := futures.others m here
    rw [run, same] at owner
    exact still m (by rw [run, same]) (Or.inl here) owner

theorem Owned.same (owned : Owned g e) (future : ∀ n, (e.run n).future.ready = true →
      (e'.run n).future.ready = true)
    (owner : ∀ n, (e'.run n).futureOwner = (e.run n).futureOwner)
    (nodes : e'.runners.map Runner.node = e.runners.map Runner.node)
    (releasing : ∀ n pc, Releasing g e n pc → Releasing g e' n pc) : Owned g e' := by
  intro n holds
  rw [owner] at holds
  refine (owned n holds).imp (future n) (Or.imp ?_ ?_)
  · rw [nodes]
    exact id
  · rintro ⟨pc, here, owning⟩
    exact ⟨pc, releasing n pc here, owning⟩

theorem Owned.turn (owned : Owned g e) (trace : Trace g e) (turn : Turn g e env e') : Owned g e' := by
  cases turn with
  | quiet same =>
    refine owned.same ?_ same.owner same.nodes same.releasing
    intro n ready
    rw [same.future]
    exact ready
  | @root i pc here =>
    obtain ⟨started, books⟩ := dagReleaseNode_books e i env pc
    refine owned.release (dagReleaseNode_futures (trace.live i) pc) rfl rfl ?_ ?_ ?_
    · intro m member
      show m ∈ (dagReleaseNode e i env pc).1.runners.map Runner.node
      rw [books.runners, List.map_append]
      exact List.mem_append_left _ member
    · intro pc' outcome
      left
      show rootNext i (dagReleaseNode e i env pc).2 = _
      rw [outcome]
      rfl
    · intro m pc' releasing other
      rcases releasing with inSubmitter | ⟨x, member, j, loop, edge⟩
      · rw [here] at inSubmitter
        cases inSubmitter
        simp at other
      · refine Or.inr ⟨x, ?_, j, loop, edge⟩
        show x ∈ (dagReleaseNode e i env pc).1.runners
        rw [books.runners]
        exact List.mem_append_left _ member
  | @succ k i r pc n here loop edge =>
    obtain ⟨started, books⟩ := dagReleaseNode_books e n env pc
    have slot : (dagReleaseNode e n env pc).1.runners[k]? = some r := by
      rw [books.runners, List.getElem?_append_left (List.getElem?_eq_some_iff.mp here).1]
      exact here
    refine owned.release (dagReleaseNode_futures (trace.live n) pc) rfl (nodes_setRunner slot _).symm
      ?_ ?_ ?_
    · intro m member
      rw [nodes_setRunner slot, books.runners, List.map_append]
      exact List.mem_append_left _ member
    · intro pc' outcome
      refine Or.inr ⟨_, mem_setRunner slot _, i, ?_, edge⟩
      rw [outcome]
      rfl
    · intro m pc' releasing other
      refine releasing_setRunner_of_ne slot _ ?_ ?_
      · rcases releasing with inSubmitter | ⟨x, member, j, at_, edge'⟩
        · exact Or.inl (books.submitter.trans inSubmitter)
        · refine Or.inr ⟨x, ?_, j, at_, edge'⟩
          rw [books.runners]
          exact List.mem_append_left _ member
      · intro j same target
        rw [loop] at same
        cases same
        rw [edge] at target
        cases target
        simp at other
  | @completes k r status here spent =>
    refine owned.same ?_ ?_ (nodes_setRunner (e := e.setRun r.node _) here _) ?_
    · intro n ready
      by_cases same : n = r.node
      · subst same
        simp only [Engine.setRunner, Engine.setRun, Function.update_self]
        exact loomFutureComplete_ready _ _ (trace.live r.node)
      · simpa [Engine.setRunner, Engine.setRun, same] using ready
    · intro n
      by_cases same : n = r.node <;> simp [Engine.setRunner, Engine.setRun, same]
    · intro n pc releasing
      exact releasing_setRunner_of_ne (e := e.setRun r.node _) here _ releasing (by simp [spent])
  | @finishes k i r here spent =>
    have slot : (signalIfDrained { e with inFlight := e.inFlight - 1 } env.wake).runners[k]? = some r := by
      rw [signalIfDrained_runners]
      exact here
    refine owned.same ?_ ?_ ?_ ?_
    · simp [Engine.setRunner]
    · simp [Engine.setRunner]
    · rw [nodes_setRunner slot, signalIfDrained_runners]
    · intro n pc releasing
      refine releasing_setRunner_of_ne slot _ ?_ (by simp [spent])
      simpa [Releasing] using releasing
  | @fails rc here =>
    refine owned.same (fun _ ready => ready) (fun _ => rfl) rfl ?_
    intro n pc releasing
    exact releasing.imp_left fun inside => by rw [here] at inside; cases inside
  | @signals rc here =>
    refine owned.same (by simp) (by simp) (by simp) ?_
    intro n pc releasing
    rcases releasing with inside | ⟨x, member, rest⟩
    · rw [here] at inside
      cases inside
    · refine Or.inr ⟨x, ?_, rest⟩
      rw [signalIfDrained_runners]
      exact member

/-- What a step of a release does to the record of failures. -/
inductive Recorded (e e' : Engine) : Prop
  | same (failed : e'.failed = e.failed) (failError : e'.failError = e.failError)
      (log : failures e'.log = failures e.log) : Recorded e e'
  | refusal (rc : LoomResult) (failed : e'.failed = true)
      (failError : e'.failError = if e.failed then e.failError else rc)
      (log : failures e'.log = rc :: failures e.log) : Recorded e e'

theorem Recorded.congr {x x' : Engine} (recorded : Recorded e x) (failed : x'.failed = x.failed)
    (failError : x'.failError = x.failError) (log : x'.log = x.log) : Recorded e x' := by
  cases recorded with
  | same kept error events =>
    exact .same (failed.trans kept) (failError.trans error) (by rw [log, events])
  | refusal rc bad error events =>
    exact .refusal rc (failed.trans bad) (failError.trans error) (by rw [log, events])

theorem signalIfDrained_failError (e : Engine) (wake : Nat) :
    (signalIfDrained e wake).failError = e.failError := by
  unfold signalIfDrained
  split <;> rfl

theorem dagRecordReleaseFailure_failError (e : Engine) (rc : LoomResult) (wake : Nat) :
    (dagRecordReleaseFailure e rc wake).failError = if e.failed then e.failError else rc := by
  unfold dagRecordReleaseFailure
  dsimp only
  rw [signalIfDrained_failError]
  split <;> rfl

theorem dagReleaseNode_recorded (pc : ReleasePc) : Recorded e (dagReleaseNode e n env pc).1 := by
  cases pc with
  | start | counted =>
    unfold dagReleaseNode
    dsimp only
    split_ifs <;> exact .same rfl rfl rfl
  | owned | refused => exact .same rfl rfl rfl
  | accepted =>
    refine .same (signalIfDrained_failed _ _) (signalIfDrained_failError _ _) ?_
    show failures (signalIfDrained _ _).log = _
    rw [signalIfDrained_log]
  | undoing rc =>
    obtain ⟨-, -, failed, -, -, -, -, -, log⟩ := dagRecordReleaseFailure_spec
      { e with inFlight := e.inFlight - 1, log := .refused n rc :: e.log } rc env.wake
    refine .refusal rc failed (dagRecordReleaseFailure_failError _ _ _) ?_
    show failures (dagRecordReleaseFailure _ _ _).log = _
    rw [log]
    rfl
  | preInit rc =>
    obtain ⟨-, -, failed, -, -, -, -, -, log⟩ := dagRecordReleaseFailure_spec
      { e with log := .refused n rc :: e.log } rc env.wake
    refine .refusal rc failed (dagRecordReleaseFailure_failError _ _ _) ?_
    show failures (dagRecordReleaseFailure _ _ _).log = _
    rw [log]
    rfl

theorem Turn.recorded (turn : Turn g e env e') (running : ∀ rc, e.submitter ≠ .failing rc) :
    Recorded e e' := by
  have signalled : ∀ x : Engine, x.failed = e.failed → x.failError = e.failError → x.log = e.log →
      Recorded e (signalIfDrained x env.wake) := by
    intro x failed failError log
    refine .same ?_ ?_ ?_
    · rw [signalIfDrained_failed, failed]
    · rw [signalIfDrained_failError, failError]
    · rw [signalIfDrained_log, log]
  cases turn with
  | quiet same => exact .same same.failed same.failError same.failures
  | @root _ pc | @succ _ _ _ pc => exact (dagReleaseNode_recorded pc).congr rfl rfl rfl
  | completes inside spent => exact .same rfl rfl rfl
  | finishes inside spent =>
    exact (signalled { e with inFlight := e.inFlight - 1 } rfl rfl rfl).congr rfl rfl rfl
  | @fails rc inside => exact absurd inside (running rc)
  | signals inside => exact (signalled e rfl rfl rfl).congr rfl rfl rfl

theorem Recorded.sticks (recorded : Recorded e e') (failed : e.failed = true) :
    e'.failed = true ∧ e'.failError = e.failError := by
  cases recorded with
  | same kept failError log => exact ⟨kept.trans failed, failError⟩
  | refusal rc bad failError log =>
    rw [if_pos failed] at failError
    exact ⟨bad, failError⟩

/-- Where loom_dag_submit has not yet frozen the DAG, or is about to fail it. -/
def SubmitPc.early : SubmitPc → Bool
  | .idle | .freezing _ | .failing _ => true
  | _ => false

/-- The record of failures of an acyclic DAG. Without a refused release the error is
that of the arrays loom_dag_submit could not get, and then nothing is released. -/
structure Sticky (e : Engine) : Prop where
  recorded : e.failed = true → e.failError = ((failures e.log).getLast?).getD .errAlloc
  clean : e.failed = false → failures e.log = []
  early : e.submitter.early = true → e.failed = false ∧ e.runners = []
  verdict : e.submitter ≠ .freezing .cyclic ∧ ∀ rc, e.submitter = .failing rc → rc = .errAlloc
  frozen : e.failed = true → failures e.log = [] →
    e.runners = [] ∧ ∃ rc, e.submitter = .signalling rc ∨ e.submitter = .finished 0 rc

theorem sticky_start (g : Graph) : Sticky (start g) :=
  ⟨by simp [start], fun _ => rfl, fun _ => ⟨rfl, rfl⟩, by simp [start], by simp [start]⟩

namespace Sticky

/-- The record after a release step, while releases are still made. -/
theorem records (sticky : Sticky e) (recorded : Recorded e e')
    (busy : e.failed = true → failures e.log ≠ []) (early : e'.submitter.early = false) :
    Sticky e' := by
  have late : ∀ {P : Prop}, e'.submitter.early = true → P := by
    intro P soon
    rw [early] at soon
    cases soon
  have verdict : e'.submitter ≠ .freezing .cyclic ∧ ∀ rc, e'.submitter = .failing rc → rc = .errAlloc := by
    constructor
    · intro same
      rw [same] at early
      cases early
    · intro rc same
      rw [same] at early
      cases early
  cases recorded with
  | same failed failError log =>
    refine ⟨?_, ?_, late, verdict, ?_⟩
    · rw [failed, failError, log]
      exact sticky.recorded
    · rw [failed, log]
      exact sticky.clean
    · rw [failed, log]
      intro bad none
      exact absurd none (busy bad)
  | refusal rc failed failError log =>
    refine ⟨fun _ => ?_, ?_, late, verdict, ?_⟩
    · rw [failError, log]
      cases before : e.failed with
      | false =>
        rw [sticky.clean before]
        rfl
      | true =>
        rw [if_pos rfl, sticky.recorded before]
        obtain ⟨first, rest, shape⟩ := List.exists_cons_of_ne_nil (busy before)
        rw [shape, List.getLast?_cons_cons]
    · rw [failed]
      intro absurdity
      cases absurdity
    · intro _ none
      rw [log] at none
      cases none

/-- While a runner or the root loop is there, a failed DAG has a refused release. -/
theorem busy (sticky : Sticky e) (there : e.runners ≠ [] ∨ ∃ i pc, e.submitter = .releasing i pc) :
    e.failed = true → failures e.log ≠ [] := by
  intro failed none
  obtain ⟨empty, rc, spent⟩ := sticky.frozen failed none
  rcases there with some | ⟨i, pc, here⟩
  · exact some empty
  · rw [here] at spent
    rcases spent with spent | spent <;> cases spent

theorem late (sticky : Sticky e) (there : e.runners ≠ []) : e.submitter.early = false := by
  by_contra soon
  exact there (sticky.early (eq_true_of_ne_false soon)).2

theorem runner_step (sticky : Sticky e) {k : Nat} {r : Runner} (here : e.runners[k]? = some r)
    (taken : dagRunnerFn g e k r env = some e') : Sticky e' := by
  have there : e.runners ≠ [] := List.ne_nil_of_mem (List.mem_of_getElem? here)
  have late := sticky.late there
  obtain ⟨-, -, submitter⟩ := runner_flags taken
  have running : ∀ rc, e.submitter ≠ .failing rc := by
    intro rc failing
    rw [failing] at late
    cases late
  have recorded := (turn_of_runner here taken).recorded running
  refine sticky.records recorded (sticky.busy (Or.inl there)) ?_
  rw [submitter]
  exact late

theorem submit_step (sticky : Sticky e) (acyclic : hasCycle g = false)
    (taken : loomDagSubmit g e env = some e') : Sticky e' := by
  unfold loomDagSubmit at taken
  split at taken
  · rename_i pc
    obtain ⟨unfailed, none⟩ := sticky.early (by rw [pc]; rfl)
    have log := sticky.clean unfailed
    cases taken
    unfold submitPrologue
    rw [if_neg (by simp [acyclic] : ¬hasCycle g = true)]
    split_ifs
    · exact ⟨sticky.recorded, sticky.clean, by simp [SubmitPc.early], by simp, by simp [unfailed]⟩
    · exact ⟨sticky.recorded, sticky.clean, fun _ => ⟨unfailed, none⟩, by simp, by simp [unfailed]⟩
    · exact ⟨sticky.recorded, sticky.clean, fun _ => ⟨unfailed, none⟩, by simp, by simp [unfailed]⟩
    · exact ⟨sticky.recorded, sticky.clean, fun _ => ⟨unfailed, none⟩, by simp, by simp [unfailed]⟩
  · rename_i verdict pc
    obtain ⟨unfailed, none⟩ := sticky.early (by rw [pc]; rfl)
    cases taken
    refine ⟨sticky.recorded, sticky.clean, fun _ => ⟨unfailed, none⟩, ?_, by simp [unfailed]⟩
    cases verdict with
    | cyclic => exact absurd pc sticky.verdict.1
    | _ => simp
  · rename_i rc pc
    obtain ⟨unfailed, none⟩ := sticky.early (by rw [pc]; rfl)
    have log := sticky.clean unfailed
    cases taken
    refine ⟨fun _ => ?_, by simp, by simp [SubmitPc.early], by simp, fun _ _ => ⟨none, rc, Or.inl rfl⟩⟩
    show rc = ((failures e.log).getLast?).getD .errAlloc
    rw [log, sticky.verdict.2 rc pc]
    rfl
  · rename_i rc pc
    cases taken
    refine ⟨?_, ?_, by simp [SubmitPc.early], by simp, ?_⟩
    · simpa [signalIfDrained_failError] using sticky.recorded
    · simpa using sticky.clean
    · intro failed none
      rw [signalIfDrained_failed] at failed
      rw [signalIfDrained_log] at none
      rw [signalIfDrained_runners]
      exact ⟨(sticky.frozen failed none).1, rc, Or.inr rfl⟩
  · rename_i i pc
    have busy : e.failed = true → failures e.log ≠ [] := by
      intro failed none
      obtain ⟨-, rc, spent⟩ := sticky.frozen failed none
      rw [pc] at spent
      rcases spent with spent | spent <;> cases spent
    split_ifs at taken <;> cases taken
    · exact sticky.records (.same rfl rfl rfl) busy rfl
    · exact sticky.records (.same rfl rfl rfl) busy rfl
    · exact sticky.records (.same rfl rfl rfl) busy rfl
  · rename_i i release pc
    cases taken
    refine sticky.records ((dagReleaseNode_recorded release).congr rfl rfl rfl) (sticky.busy (Or.inr ⟨i, release, pc⟩)) ?_
    show (rootNext i _).early = false
    unfold rootNext
    split <;> rfl
  · cases taken

end Sticky

theorem joiner_failError {k : Nat} {j : Joiner} (taken : dagWaitInternal e k j env = some e') :
    e'.failError = e.failError := by
  unfold dagWaitInternal at taken
  split at taken
  case h_4 =>
    split at taken <;> cases taken
    rfl
  all_goals cases taken
  all_goals rfl

/-- What holds in every run of an acyclic DAG, releases failing or not. -/
structure Books (g : Graph) (e : Engine) : Prop where
  running : Running g e
  trace : Trace g e
  owned : Owned g e
  sticky : Sticky e

theorem books_start (built : Built g) : Books g (start g) :=
  ⟨running_start built, trace_start g, owned_start g, sticky_start g⟩

theorem Books.taken (books : Books g e) (built : Built g) (acyclic : hasCycle g = false) {label : Label}
    (taken : step g e label = some e') : Books g e' := by
  refine ⟨books.running.taken built taken, books.trace.taken built books.running.ledger taken, ?_, ?_⟩
  · cases label with
    | submitter env => exact books.owned.turn books.trace (turn_of_submitter taken)
    | runner k env =>
      obtain ⟨r, here, taken⟩ := Option.bind_eq_some_iff.mp taken
      exact books.owned.turn books.trace (turn_of_runner here taken)
    | join kind =>
      cases taken
      exact books.owned
    | joiner k env =>
      obtain ⟨j, -, taken⟩ := Option.bind_eq_some_iff.mp taken
      obtain ⟨-, -, submitter, -, -, -, runners, -, run⟩ := joiner_fields taken
      refine books.owned.same (by simp [run]) (by simp [run]) (by rw [runners]) ?_
      simp [Releasing, submitter, runners]
  · cases label with
    | submitter env => exact books.sticky.submit_step acyclic taken
    | runner k env =>
      obtain ⟨r, here, taken⟩ := Option.bind_eq_some_iff.mp taken
      exact books.sticky.runner_step here taken
    | join kind =>
      cases taken
      have sticky := books.sticky
      exact ⟨sticky.recorded, sticky.clean, sticky.early, sticky.verdict, sticky.frozen⟩
    | joiner k env =>
      obtain ⟨j, -, taken⟩ := Option.bind_eq_some_iff.mp taken
      obtain ⟨-, -, submitter, failed, -, -, runners, log, -⟩ := joiner_fields taken
      have failError := joiner_failError taken
      have sticky := books.sticky
      refine ⟨?_, ?_, ?_, ?_, ?_⟩ <;> simp only [submitter, failed, runners, log, failError]
      · exact sticky.recorded
      · exact sticky.clean
      · exact sticky.early
      · exact sticky.verdict
      · exact sticky.frozen

theorem Books.failure_kept (books : Books g e) {label : Label} (taken : step g e label = some e')
    (failed : e.failed = true) : e'.failed = true ∧ e'.failError = e.failError := by
  have running : ∀ rc, e.submitter ≠ .failing rc := by
    intro rc failing
    have unfailed := (books.sticky.early (by rw [failing]; rfl)).1
    rw [unfailed] at failed
    cases failed
  cases label with
  | submitter env => exact ((turn_of_submitter taken).recorded running).sticks failed
  | runner k env =>
    obtain ⟨r, here, taken⟩ := Option.bind_eq_some_iff.mp taken
    exact ((turn_of_runner here taken).recorded running).sticks failed
  | join kind =>
    cases taken
    exact ⟨failed, rfl⟩
  | joiner k env =>
    obtain ⟨j, -, taken⟩ := Option.bind_eq_some_iff.mp taken
    obtain ⟨-, -, -, same, -⟩ := joiner_fields taken
    exact ⟨same.trans failed, joiner_failError taken⟩

def ReleasePc.failing : ReleasePc → Bool
  | .refused _ | .undoing _ | .preInit _ => true
  | _ => false

/-- The release of n has failed, whether that is recorded yet or not. -/
def ReleaseFailed (g : Graph) (e : Engine) (n : NodeId) : Prop :=
  (∃ rc, .refused n rc ∈ e.log) ∨ ∃ pc, Releasing g e n pc ∧ pc.failing = true

/-- The accounts of a DAG whose releases may fail. -/
structure Accounted (g : Graph) (e : Engine) : Prop where
  /-- in_flight counts the accepted runners that have not finished and the releases
  between their increment and their outcome. -/
  inFlight : e.inFlight = tally Runner.active e.runners +
    (tally (Runner.releaseWeight ReleasePc.inFlight) e.runners +
      e.submitter.releaseWeight ReleasePc.inFlight)
  nonneg : 0 ≤ e.inFlight
  released : e.releasedTotal ≤ e.addedCount
  /-- The error is the one of the first refused release, or that of the arrays
  loom_dag_submit could not get. -/
  failError : e.failed = true → e.failError = ((failures e.log).getLast?).getD .errAlloc
  once : ∀ n, calls n e.log ≤ 1
  ordered : Ordered g e.log
  refused : ∀ n, ReleaseFailed g e n → calls n e.log = 0
  futures : e.inFlight = 0 → (∀ n pc, ¬Releasing g e n pc) → ∀ n,
    (e.run n).futureOwner = true → (e.run n).future.ready = true

theorem calls_le_runners (trace : Trace g e) (n : NodeId) :
    calls n e.log ≤ tally (Runner.ofNode n) e.runners := by
  rw [trace.called n, Engine.phases, tally_map]
  apply tally_le_tally
  intro r _
  by_cases same : r.node = n
  · simp only [startedOn, Runner.ofNode, same, true_and, if_true]
    split <;> omega
  · simp [startedOn, Runner.ofNode, same]

theorem Books.refused_uncalled (books : Books g e) (failed : ReleaseFailed g e n) :
    calls n e.log = 0 := by
  have ledger := books.running.ledger
  have bound := attempted_le_one g e n
  have released := ledger.released n
  have started := calls_le_runners books.trace n
  rcases failed with ⟨rc, recorded⟩ | ⟨pc, releasing, failing⟩
  · have refusals := le_tally (Event.refusedOn n) recorded
    have own : Event.refusedOn n (.refused n rc) = 1 := if_pos rfl
    omega
  · have pending : pc.pending = 1 := by
      cases pc <;> simp_all [ReleasePc.failing, ReleasePc.pending]
    have alone : tally (Runner.ofNode n) e.runners = 0 := by
      apply tally_eq_zero.mpr
      intro r member
      apply if_neg
      have inside : (r.node, r.pc.phase) ∈ e.phases := List.mem_map.mpr ⟨r, member, rfl⟩
      exact ledger.phase_free releasing pending inside
    omega

/-- With nothing in flight and no release going on, every future has been completed. -/
theorem Books.ready (books : Books g e) (idle : e.inFlight = 0) (none : ∀ n pc, ¬Releasing g e n pc)
    (owner : (e.run n).futureOwner = true) : (e.run n).future.ready = true := by
  rcases books.owned n owner with ready | runner | ⟨pc, releasing, -⟩
  · exact ready
  · obtain ⟨r, member, rfl⟩ := List.mem_map.mp runner
    have finished := (books.running.ledger.idle_of_inFlight_zero idle).1 r member
    have settled : (r.node, Phase.settled) ∈ e.phases := by
      refine List.mem_map.mpr ⟨r, member, ?_⟩
      obtain ⟨node, pc⟩ := r
      cases pc <;> simp_all [Runner.active, RunnerPc.phase]
    exact (books.trace.settled r.node settled).1
  · exact absurd releasing (none n pc)

theorem Books.accounted (books : Books g e) (built : Built g) : Accounted g e := by
  have ledger := books.running.ledger
  have flight := ledger.flight
  refine ⟨?_, ?_, ?_, books.sticky.recorded, ?_, books.trace.ordered, ?_, ?_⟩
  · omega
  · omega
  · rw [books.running.addedCount]
    exact ledger.releasedTotal_le built
  · intro n
    have released := ledger.released n
    have bound := attempted_le_one g e n
    have started := calls_le_runners books.trace n
    omega
  · intro n failed
    exact books.refused_uncalled failed
  · intro idle none n owner
    exact books.ready idle none owner

/-- Whatever fails, in every run of an acyclic DAG: the accounts are right in every
state, and once the DAG has failed its error stays. -/
theorem release_failures_accounted (nodeCapacity : UInt32) (ops : List BuildOp) (labels : List Label)
    (acyclic : (build nodeCapacity ops).Acyclic) :
    Always (step (build nodeCapacity ops)) (Accounted (build nodeCapacity ops))
      (start (build nodeCapacity ops)) labels ∧
    ∀ e e' more, exec (step (build nodeCapacity ops)) (start (build nodeCapacity ops)) labels = some e →
      exec (step (build nodeCapacity ops)) e more = some e' → e.failed = true →
        e'.failed = true ∧ e'.failError = e.failError := by
  have built := built_build nodeCapacity ops
  have accepted := hasCycle_of_acyclic built acyclic
  have always : Always (step (build nodeCapacity ops)) (Books (build nodeCapacity ops))
      (start (build nodeCapacity ops)) labels := by
    apply always_of_invariant _ id
    · exact books_start built
    · intro e e' label books taken
      exact books.taken built accepted taken
  refine ⟨?_, ?_⟩
  · apply always_of_invariant _ _ labels (books_start built)
    · intro e e' label books taken
      exact books.taken built accepted taken
    · intro e books
      exact books.accounted built
  · intro e e' more run after failed
    have kept : Books (build nodeCapacity ops) e' ∧ e'.failed = true ∧ e'.failError = e.failError := by
      apply exec_invariant _ ⟨always.final run, failed, rfl⟩ after
      rintro x x' label ⟨books, failed, error⟩ taken
      obtain ⟨still, same⟩ := books.failure_kept taken failed
      exact ⟨books.taken built accepted taken, still, same.trans error⟩
    exact kept.2

/-- The pool refuses the second node of a chain. -/
def refusedRun : List Label :=
  List.replicate 9 (.submitter {}) ++ List.replicate 7 (.runner 0 {}) ++
  [.runner 0 { submitRc := .errShutdown }] ++ List.replicate 4 (.runner 0 {})

theorem refused_chain_accounted : ∃ e,
    exec (step (build 2 chainOps)) (start (build 2 chainOps)) refusedRun = some e ∧
    e.failed = true ∧ e.failError = .errShutdown ∧ e.inFlight = 0 ∧ Accounted (build 2 chainOps) e := by
  have run : (exec (step (build 2 chainOps)) (start (build 2 chainOps)) refusedRun).map
      (fun e => (e.failed, e.failError, e.inFlight)) = some (true, .errShutdown, 0) := by decide +kernel
  obtain ⟨e, run, shape⟩ := Option.map_eq_some_iff.mp run
  simp only [Prod.mk.injEq] at shape
  have accounted := (release_failures_accounted 2 chainOps refusedRun chain_acyclic).1.final run
  exact ⟨e, run, shape.1, shape.2.1, shape.2.2, accounted⟩

end Loomworks.Dag

import Loomworks.DagAccounting

/- What loom_dag_submit and a later loom_dag_wait report of one failed DAG: the first
returns the error of the root whose release failed, the second the first failure that
anyone recorded. -/
namespace Loomworks.Dag

open Transition

/-- The error that the root loop records in its next step. -/
def SubmitPc.recording : SubmitPc → Option LoomResult
  | .releasing _ (.undoing rc) | .releasing _ (.preInit rc) => some rc
  | _ => none

/-- When the root loop records a failed release, no failure with another code has been
recorded. -/
def Foremost (e : Engine) : Label → Prop
  | .submitter _ => ∀ rc ∈ e.submitter.recording, e.failed = true → e.failError = rc
  | _ => True

instance (e : Engine) (label : Label) : Decidable (Foremost e label) := by
  cases label <;> unfold Foremost <;> infer_instance

/-- What a wait is bound to return once loom_dag_submit has returned rc: the recorded
failure, or LOOMWORKS_ERR_INVALID where a destroyed DAG was never submitted. -/
def Latched (e : Engine) (rc : LoomResult) : Prop :=
  e.submitted = true ∧ e.failed = true ∧ e.failError = rc ∨
    e.submitted = false ∧ rc = .errInvalid

/-- What loom_dag_submit has done so far. -/
def Reported (e : Engine) : Prop :=
  match e.submitter with
  | .failing _ | .roots _ | .releasing _ _ => e.submitted = true
  | .signalling rc | .finished _ rc => rc ≠ .ok → Latched e rc
  | _ => True

/-- Where a loom_dag_wait call that began after loom_dag_submit returned rc may be. -/
def Follows (submitted : Bool) (rc : LoomResult) (j : Joiner) : Prop :=
  j.kind = .wait →
    match j.pc with
    | .entering => True
    | .checking | .blocked => submitted = true
    | .notSubmitted => rc = .errInvalid
    | .returned code => code = rc
    | _ => False

variable {g : Graph} {e e' : Engine} {env : Env} {k : Nat} {r : Runner} {rc : LoomResult}

theorem Latched.keep (latched : Latched e rc) (recorded : Recorded e e')
    (submitted : e'.submitted = e.submitted) : Latched e' rc := by
  rcases latched with ⟨frozen, failed, error⟩ | ⟨open_, invalid⟩
  · obtain ⟨still, same⟩ := recorded.sticks failed
    exact Or.inl ⟨submitted.trans frozen, still, same.trans error⟩
  · exact Or.inr ⟨submitted.trans open_, invalid⟩

/-- A step of the root loop that returns an error has recorded it, or met it recorded. -/
theorem latched_root {i : Nat} {pc : ReleasePc} (submitted : e.submitted = true)
    (foremost : Foremost e (.submitter env)) (here : e.submitter = .releasing i pc)
    (returned : (dagReleaseNode e i env pc).2 = .returned rc) (error : rc ≠ .ok) :
    Latched (dagReleaseNode e i env pc).1 rc := by
  obtain ⟨kept, -⟩ := dagReleaseNode_flags e i env pc
  have code : ∀ x : Engine, x.failed = e.failed → x.failError = e.failError →
      (e.failed = true → e.failError = rc) →
      (dagRecordReleaseFailure x rc env.wake).failError = rc := by
    intro x failed failError first
    rw [dagRecordReleaseFailure_failError, failed, failError]
    split
    · exact first ‹_›
    · rfl
  cases pc with
  | start | counted =>
    unfold dagReleaseNode at returned
    simp only at returned
    split_ifs at returned
  | owned | refused rc => cases returned
  | accepted =>
    cases returned
    exact absurd rfl error
  | undoing rc' =>
    cases returned
    have first := foremost rc (by simp [here, SubmitPc.recording])
    have spec := dagRecordReleaseFailure_spec
      { e with inFlight := e.inFlight - 1, log := .refused i rc :: e.log } rc env.wake
    exact Or.inl ⟨kept.trans submitted, spec.2.2.1, code _ rfl rfl first⟩
  | preInit rc' =>
    cases returned
    have first := foremost rc (by simp [here, SubmitPc.recording])
    have spec := dagRecordReleaseFailure_spec { e with log := .refused i rc :: e.log } rc env.wake
    exact Or.inl ⟨kept.trans submitted, spec.2.2.1, code _ rfl rfl first⟩

theorem Reported.submitter (reported : Reported e) (unfrozen : e.submitter = .idle ∨
      (∃ verdict, e.submitter = .freezing verdict) → e.submitted = false)
    (foremost : Foremost e (.submitter env)) (taken : loomDagSubmit g e env = some e') :
    Reported e' := by
  unfold loomDagSubmit at taken
  split at taken
  · rename_i pc
    cases taken
    unfold submitPrologue
    split_ifs
    · exact fun _ => Or.inr ⟨unfrozen (Or.inl pc), rfl⟩
    all_goals trivial
  · rename_i verdict pc
    cases taken
    cases verdict with
    | empty => exact fun error => absurd rfl error
    | noMemory | cyclic | acyclic => rfl
  · rename_i rc pc
    cases taken
    simp only [Reported, pc] at reported
    exact fun _ => Or.inl ⟨reported, rfl, rfl⟩
  · rename_i rc pc
    cases taken
    simp only [Reported, pc] at reported
    intro error
    have kept := reported error
    simp only [Latched, signalIfDrained_submitted, signalIfDrained_failed,
      signalIfDrained_failError] at kept ⊢
    exact kept
  · rename_i i pc
    simp only [Reported, pc] at reported
    split_ifs at taken <;> cases taken
    · exact reported
    · exact reported
    · exact fun error => absurd rfl error
  · rename_i i pc here
    cases taken
    simp only [Reported, here] at reported
    have kept := (dagReleaseNode_flags e i env pc).1
    cases after : (dagReleaseNode e i env pc).2 with
    | next next =>
      simp only [Reported, rootNext]
      exact kept.trans reported
    | returned rc =>
      by_cases fine : rc = .ok
      · subst fine
        simp only [Reported, rootNext]
        exact kept.trans reported
      · have latched := latched_root reported foremost here after fine
        have finished : rootNext i (.returned rc) = .finished (i + 1) rc := by
          cases rc <;> first | exact absurd rfl fine | rfl
        simp only [Reported, finished]
        exact fun _ => latched
  · cases taken

/-- Other threads leave the submitter alone and a recorded failure in place. -/
theorem Reported.keep (reported : Reported e) (submitter : e'.submitter = e.submitter)
    (submitted : e'.submitted = e.submitted)
    (recorded : (∀ rc, e.submitter ≠ .failing rc) → Recorded e e') : Reported e' := by
  unfold Reported at reported ⊢
  rw [submitter]
  cases pc : e.submitter with
  | idle | freezing verdict => trivial
  | failing rc | roots i | releasing i release =>
    simp only [pc] at reported
    exact submitted.trans reported
  | signalling rc | finished i rc =>
    simp only [pc] at reported
    exact fun error => (reported error).keep (recorded (by simp [pc])) submitted

theorem recorded_joiner {j : Joiner} (taken : dagWaitInternal e k j env = some e') :
    Recorded e e' := by
  obtain ⟨-, -, -, failed, -, -, -, log, -⟩ := joiner_fields taken
  exact .same failed (joiner_failError taken) (by rw [log])

/-- The invariant of the first phase, with what Running knows. -/
theorem Reported.step {label : Label} (reported : Reported e) (running : Running g e)
    (foremost : Foremost e label) (taken : Dag.step g e label = some e') : Reported e' := by
  cases label with
  | submitter env => exact reported.submitter running.unsubmitted foremost taken
  | runner k env =>
    obtain ⟨r, here, taken⟩ := Option.bind_eq_some_iff.mp taken
    obtain ⟨submitted, -, submitter⟩ := runner_flags taken
    exact reported.keep submitter submitted fun calm => (turn_of_runner here taken).recorded calm
  | join kind =>
    cases taken
    exact reported
  | joiner k env =>
    obtain ⟨j, -, taken⟩ := Option.bind_eq_some_iff.mp taken
    obtain ⟨submitted, -, submitter, -⟩ := joiner_fields taken
    exact reported.keep submitter submitted fun _ => recorded_joiner taken

theorem joiners_set {j : Joiner} (taken : dagWaitInternal e k j env = some e') :
    ∃ new, e'.joiners = e.joiners.set k new := by
  unfold dagWaitInternal at taken
  split at taken
  case h_4 =>
    split at taken
    · cases taken
      exact ⟨_, rfl⟩
    · cases taken
  all_goals
    cases taken
    try exact ⟨_, rfl⟩

/-- The second phase: what a joiner beyond the first n ones may be. -/
structure Concluded (n : Nat) (rc : LoomResult) (e : Engine) : Prop where
  done : ∃ i, e.submitter = .finished i rc
  latched : Latched e rc
  follows : ∀ k j, n ≤ k → e.joiners[k]? = some j → Follows e.submitted rc j

theorem Follows.joiner {j : Joiner} (follows : Follows e.submitted rc j) (latched : Latched e rc)
    (taken : dagWaitInternal e k j env = some e') :
    ∃ new, e'.joiners = e.joiners.set k new ∧ Follows e.submitted rc new := by
  unfold dagWaitInternal at taken
  split at taken
  · rename_i pc
    cases taken
    refine ⟨_, rfl, fun kind => ?_⟩
    rcases latched with ⟨submitted, -⟩ | ⟨unsubmitted, invalid⟩
    · simp [submitted]
    · simpa [unsubmitted, show j.kind = .wait from kind] using invalid
  · rename_i pc
    cases taken
    refine ⟨_, rfl, fun kind => ?_⟩
    have submitted : e.submitted = true := by
      simpa [pc] using follows kind
    rcases latched with ⟨-, failed, error⟩ | ⟨unsubmitted, -⟩
    · cases drained : dagDrained e
      · simpa [drained] using submitted
      · simpa [drained, failed, show j.kind = .wait from kind] using error
    · exact absurd (submitted.symm.trans unsubmitted) nofun
  · rename_i pc
    cases taken
    refine ⟨_, rfl, fun kind => ?_⟩
    have submitted : e.submitted = true := by
      simpa [pc] using follows kind
    simpa [show j.kind = .wait from kind] using submitted
  · rename_i pc
    split at taken
    · cases taken
      refine ⟨_, rfl, fun kind => ?_⟩
      simpa [pc] using follows kind
    · cases taken
  · rename_i pc
    cases taken
    refine ⟨_, rfl, fun kind => ?_⟩
    exact absurd (follows kind) (by simp [pc])
  all_goals cases taken

theorem Concluded.turn {n : Nat} (concluded : Concluded n rc e) (turn : Turn g e env e')
    (submitted : e'.submitted = e.submitted) (submitter : e'.submitter = e.submitter) :
    Concluded n rc e' := by
  obtain ⟨⟨i, here⟩, latched, follows⟩ := concluded
  refine ⟨⟨i, submitter.trans here⟩, latched.keep (turn.recorded (by simp [here])) submitted, ?_⟩
  intro k j later there
  rw [submitted]
  rcases turn.woken k j there with same | ⟨old, before, blocked, rfl⟩
  · exact follows k j later same
  · intro kind
    simpa [blocked] using follows k old later before kind

theorem Concluded.step {n : Nat} {label : Label} (concluded : Concluded n rc e)
    (taken : Dag.step g e label = some e') : Concluded n rc e' := by
  cases label with
  | submitter env =>
    obtain ⟨i, here⟩ := concluded.done
    simp [Dag.step, loomDagSubmit, here] at taken
  | runner k env =>
    obtain ⟨r, here, taken⟩ := Option.bind_eq_some_iff.mp taken
    obtain ⟨submitted, -, submitter⟩ := runner_flags taken
    exact concluded.turn (turn_of_runner here taken) submitted submitter
  | join kind =>
    cases taken
    refine ⟨concluded.done, concluded.latched, ?_⟩
    intro k j later here
    rw [List.getElem?_append] at here
    split at here
    · exact concluded.follows k j later here
    · obtain ⟨inside, rfl⟩ := List.getElem?_eq_some_iff.mp here
      simp [Follows]
  | joiner k env =>
    obtain ⟨j, here, taken⟩ := Option.bind_eq_some_iff.mp taken
    obtain ⟨submitted, -, submitter, -⟩ := joiner_fields taken
    obtain ⟨i, finished⟩ := concluded.done
    refine ⟨⟨i, submitter.trans finished⟩, concluded.latched.keep (recorded_joiner taken) submitted, ?_⟩
    intro m x later there
    rw [submitted]
    by_cases same : m = k
    · subst same
      obtain ⟨new, set, follows⟩ :=
        (concluded.follows m j later here).joiner concluded.latched taken
      have inside := (List.getElem?_eq_some_iff.mp here).1
      rw [set, List.getElem?_set_self inside] at there
      cases there
      exact follows
    · refine concluded.follows m x later ?_
      obtain ⟨new, set⟩ := joiners_set taken
      rwa [set, List.getElem?_set_ne fun equal => same equal.symm] at there

/-- If no other failure with another code is on record when the root loop records its
own, a loom_dag_wait that is called after loom_dag_submit returned an error returns
that error: whatever it has returned, and as soon as it looks at a drained DAG. -/
theorem submit_and_wait_report_the_same (nodeCapacity : UInt32) (ops : List BuildOp)
    (first second : List Label) {middle final : Engine}
    (foremost : Meets (step (build nodeCapacity ops)) Foremost (start (build nodeCapacity ops)) first)
    (before : exec (step (build nodeCapacity ops)) (start (build nodeCapacity ops)) first = some middle)
    (after : exec (step (build nodeCapacity ops)) middle second = some final) {i k : Nat}
    {rc : LoomResult} (finished : middle.submitter = .finished i rc) (error : rc ≠ .ok) {j : Joiner}
    (later : middle.joiners.length ≤ k) (here : final.joiners[k]? = some j) (wait : j.kind = .wait) :
    (∀ code, waitResult j.pc = some code → code = rc) ∧
      ∀ env, j.pc = .checking → dagDrained final = true →
        dagWaitInternal final k j env = some (final.setJoiner k { j with pc := .returned rc }) := by
  have built := built_build nodeCapacity ops
  have reported : Running (build nodeCapacity ops) middle ∧ Reported middle := by
    have always := @always_of_meets _ _ (step (build nodeCapacity ops))
      (fun e => Running (build nodeCapacity ops) e ∧ Reported e)
      (fun e => Running (build nodeCapacity ops) e ∧ Reported e) Foremost ?_ (fun both => both) _
      first ⟨running_start built, trivial⟩ foremost
    · exact always.final before
    · rintro e e' label ⟨running, reported⟩ foremost taken
      exact ⟨running.taken built taken, reported.step running foremost taken⟩
  have latched : Latched middle rc := by
    have both := reported.2
    simp only [Reported, finished] at both
    exact both error
  have concluded : Concluded middle.joiners.length rc final := by
    refine exec_invariant (fun concluded taken => Concluded.step concluded taken)
      ⟨⟨i, finished⟩, latched, ?_⟩ after
    intro k j later here
    have inside := (List.getElem?_eq_some_iff.mp here).1
    omega
  have follows := concluded.follows k j later here wait
  constructor
  · intro code result
    cases pc : j.pc with
    | returned rc' => simp_all [waitResult]
    | notSubmitted => simp_all [waitResult]
    | _ => simp_all [waitResult]
  · intro env pc drained
    rw [pc] at follows
    rcases concluded.latched with ⟨-, failed, error⟩ | ⟨unsubmitted, -⟩
    · simp [dagWaitInternal, pc, drained, failed, error, wait]
    · have clash := follows.symm.trans unsubmitted
      cases clash

/-- The first root of the fork is refused, and a joiner waits. -/
def refusedRoot : List Label := List.replicate 8 (.submitter { submitRc := .errShutdown })

def laterWait : List Label := [.join .wait, .joiner 0 {}, .joiner 0 {}]

theorem refused_root_reported : ∃ middle final,
    exec (step (build 3 forkOps)) (start (build 3 forkOps)) refusedRoot = some middle ∧
    exec (step (build 3 forkOps)) middle laterWait = some final ∧
    middle.submitter = .finished 1 .errShutdown ∧
    ∃ j, final.joiners[0]? = some j ∧ (waitResult j.pc).isSome ∧
      ∀ code, waitResult j.pc = some code → code = .errShutdown := by
  have first : (exec (step (build 3 forkOps)) (start (build 3 forkOps)) refusedRoot).map
      (fun e => (e.submitter, e.joiners)) = some (.finished 1 .errShutdown, []) := by decide +kernel
  have whole : (exec (step (build 3 forkOps)) (start (build 3 forkOps))
      (refusedRoot ++ laterWait)).map Engine.joiners =
      some [{ kind := .wait, pc := .returned .errShutdown }] := by decide +kernel
  obtain ⟨middle, before, seen⟩ := Option.map_eq_some_iff.mp first
  obtain ⟨final, after, joined⟩ := Option.map_eq_some_iff.mp whole
  obtain ⟨other, same, after⟩ := exec_append.mp after
  cases before.symm.trans same
  obtain ⟨finished, joiners⟩ := Prod.mk.inj seen
  refine ⟨middle, final, before, after, finished, _, by rw [joined]; rfl, rfl, ?_⟩
  have foremost : Meets (step (build 3 forkOps)) Foremost (start (build 3 forkOps)) refusedRoot := by
    apply meets_of_decide
    decide +kernel
  exact (submit_and_wait_report_the_same 3 forkOps refusedRoot laterWait foremost before after finished
    (by decide) (by simp [joiners] : _ ≤ 0) (by rw [joined]; rfl) rfl).1

/-- Root 0 is released and the pool refuses its successor with LOOMWORKS_ERR_ALLOC; the
root loop then fails to release root 1 with LOOMWORKS_ERR_SHUTDOWN. -/
def twoFailures : List Label :=
  List.replicate 7 (.submitter {}) ++ List.replicate 7 (.runner 0 {}) ++
  [.runner 0 { submitRc := .errAlloc }] ++ List.replicate 4 (.runner 0 {}) ++
  List.replicate 6 (.submitter { submitRc := .errShutdown })

theorem wait_reports_the_runners_failure :
    (exec (step (build 3 forkOps)) (start (build 3 forkOps)) twoFailures).map
        (fun e => (e.submitter, e.joiners)) = some (.finished 2 .errShutdown, []) ∧
    (exec (step (build 3 forkOps)) (start (build 3 forkOps)) (twoFailures ++ laterWait)).map
        Engine.joiners = some [{ kind := .wait, pc := .returned .errAlloc }] := by
  decide +kernel

end Loomworks.Dag

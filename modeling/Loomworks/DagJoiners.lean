import Loomworks.DagOrder

/- Who wakes the threads blocked on done_cv. -/
namespace Loomworks.Dag

open Tally Transition

variable {g : Graph} {e e' : Engine} {env : Env} {label : Label}

/-- The joiners blocked on done_cv. A woken joiner is back at checking. -/
def sleepers (joiners : List Joiner) : Nat := tally (fun j => if j.isBlocked then 1 else 0) joiners

/-- Nobody sleeps on a drained DAG. -/
def NoneAsleep (e : Engine) : Prop := dagDrained e = true → ∀ j ∈ e.joiners, j.pc ≠ .blocked

/-- How many sleepers the step that drains the DAG can wake: it signals once, and the
store of failed by loom_dag_submit not at all. -/
def wakes (e : Engine) : Label → Nat
  | .submitter _ => match e.submitter with
    | .failing _ => 0
    | _ => 1
  | _ => 1

/-- The steps of a release that drain a DAG. -/
def ReleasePc.drains (e : Engine) : ReleasePc → Bool
  | .accepted => dagDrained { e with releasedTotal := e.releasedTotal + 1 }
  | .undoing _ => e.inFlight = 1
  | .preInit _ => e.inFlight = 0
  | .start | .owned | .counted | .refused _ => false

/-- The steps that drain a DAG which is not drained. -/
def drains (g : Graph) (e : Engine) : Label → Bool
  | .submitter _ => match e.submitter with
    | .failing _ => e.inFlight = 0
    | .releasing _ pc => pc.drains e
    | _ => false
  | .runner k _ => (e.runners[k]?).any fun r => match r.pc with
    | .releasing i pc => i < (g.nodes r.node).succs.length && pc.drains e
    | .epilogue _ => dagDrained { e with inFlight := e.inFlight - 1 }
    | _ => false
  | _ => false

/-- A step that drains the DAG finds no more sleepers than it wakes. -/
def FewAsleep (g : Graph) (e : Engine) (label : Label) : Prop :=
  dagDrained e = false → drains g e label = true → sleepers e.joiners ≤ wakes e label

theorem sleepers_eq_zero {joiners : List Joiner} :
    sleepers joiners = 0 ↔ ∀ j ∈ joiners, j.pc ≠ .blocked := by
  unfold sleepers
  rw [tally_eq_zero]
  simp [Joiner.isBlocked]

theorem sleepers_signalDone (joiners : List Joiner) (wake : Nat) :
    sleepers (signalDone joiners wake) = sleepers joiners - 1 := by
  unfold signalDone
  rw [List.modify_eq_set_getElem?]
  cases here : joiners[signalIndex joiners wake]? with
  | none =>
    have none : sleepers joiners = 0 := by
      apply sleepers_eq_zero.mpr
      intro j member blocked
      unfold signalIndex at here
      split at here
      · rename_i chosen
        rw [here] at chosen
        cases chosen
      · have beyond := List.getElem?_eq_none_iff.mp here
        have first := List.findIdx_lt_length_of_exists (p := Joiner.isBlocked)
          ⟨j, member, by simp [Joiner.isBlocked, blocked]⟩
        omega
    show sleepers joiners = sleepers joiners - 1
    omega
  | some j =>
    have blocked := signalIndex_blocked here
    have books := tally_set (fun j => if j.isBlocked then 1 else 0) { j with pc := .checking } here
    have old : (if j.isBlocked then 1 else 0) = 1 := by simp [Joiner.isBlocked, blocked]
    have new : (if Joiner.isBlocked { j with pc := .checking } then 1 else 0) = 0 := rfl
    show sleepers (joiners.set _ _) = sleepers joiners - 1
    unfold sleepers
    omega

theorem dagDrained_signalIfDrained : dagDrained (signalIfDrained e env.wake) = dagDrained e := by
  simp [dagDrained]

theorem signalIfDrained_joiners (drained : dagDrained e = true) :
    (signalIfDrained e env.wake).joiners = signalDone e.joiners env.wake := by
  rw [signalIfDrained, if_pos drained]

theorem dagRecordReleaseFailure_drains (x : Engine) (rc : LoomResult) :
    dagDrained (dagRecordReleaseFailure x rc env.wake) = decide (x.inFlight = 0) ∧
      (x.inFlight = 0 → (dagRecordReleaseFailure x rc env.wake).joiners = signalDone x.joiners env.wake) := by
  unfold dagRecordReleaseFailure
  dsimp only
  rw [dagDrained_signalIfDrained]
  split
  · rename_i failed
    refine ⟨by simp [dagDrained, failed], fun zero => ?_⟩
    exact signalIfDrained_joiners (by simp [dagDrained, failed, zero])
  · refine ⟨by simp [dagDrained], fun zero => ?_⟩
    exact signalIfDrained_joiners (by simp [dagDrained, zero])

/-- The step of a release that drains the DAG signals. -/
theorem dagReleaseNode_drains {n : NodeId} {pc : ReleasePc} (nonneg : 0 ≤ e.inFlight)
    (before : dagDrained e = false) :
    dagDrained (dagReleaseNode e n env pc).1 = pc.drains e ∧
      (pc.drains e = true → (dagReleaseNode e n env pc).1.joiners = signalDone e.joiners env.wake) := by
  cases pc with
  | start | counted =>
    refine ⟨?_, (fun clash => by cases clash)⟩
    rw [ReleasePc.drains, ← before]
    unfold dagReleaseNode
    dsimp only
    split_ifs <;> rfl
  | owned =>
    refine ⟨?_, (fun clash => by cases clash)⟩
    have positive : e.inFlight + 1 ≠ 0 := by omega
    simp [dagReleaseNode, ReleasePc.drains, dagDrained, positive]
  | accepted => exact ⟨dagDrained_signalIfDrained, signalIfDrained_joiners⟩
  | refused rc => exact ⟨before, (fun clash => by cases clash)⟩
  | undoing rc =>
    have last : e.inFlight - 1 = 0 ↔ e.inFlight = 1 := by omega
    have recorded := @dagRecordReleaseFailure_drains env
      { e with inFlight := e.inFlight - 1, log := .refused n rc :: e.log } rc
    simpa only [dagReleaseNode, last, ReleasePc.drains, decide_eq_true_eq] using recorded
  | preInit rc =>
    have recorded := @dagRecordReleaseFailure_drains env { e with log := .refused n rc :: e.log } rc
    simpa only [dagReleaseNode, ReleasePc.drains, decide_eq_true_eq] using recorded

/-- What drains reads off the state before a step, and that the step which drains the DAG signals. -/
theorem runner_drains {k : Nat} {r : Runner} (here : e.runners[k]? = some r) (nonneg : 0 ≤ e.inFlight)
    (before : dagDrained e = false) (taken : dagRunnerFn g e k r env = some e') :
    dagDrained e' = drains g e (.runner k env) ∧
      (drains g e (.runner k env) = true → e'.joiners = signalDone e.joiners env.wake) := by
  unfold dagRunnerFn at taken
  split at taken
  case h_6 i pc loop =>
    obtain ⟨succ, edge, same⟩ := Option.map_eq_some_iff.mp taken
    have inside : i < (g.nodes r.node).succs.length := (List.getElem?_eq_some_iff.mp edge).1
    have shape : drains g e (.runner k env) = pc.drains e := by simp [drains, here, loop, inside]
    rw [shape, ← same]
    exact dagReleaseNode_drains nonneg before
  case h_7 i loop =>
    cases taken
    have shape : drains g e (.runner k env) = dagDrained { e with inFlight := e.inFlight - 1 } := by
      simp [drains, here, loop]
    rw [shape]
    exact ⟨dagDrained_signalIfDrained, signalIfDrained_joiners⟩
  all_goals
    rename_i loop
    have none : drains g e (.runner k env) = false := by simp [drains, here, loop]
    refine ⟨?_, fun clash => absurd (none.symm.trans clash) Bool.false_ne_true⟩
    rw [none, ← before]
  · split at taken <;> cases taken <;> rfl
  · cases taken
    rfl
  · cases taken
    rfl
  · split at taken <;> cases taken <;> rfl
  · obtain ⟨succ, -, same⟩ := Option.map_eq_some_iff.mp taken
    simp only at same
    split_ifs at same <;> subst same <;> rfl
  · cases taken

theorem submitter_drains (added : e'.addedCount = e.addedCount) (nonneg : 0 ≤ e.inFlight)
    (before : dagDrained e = false) (taken : loomDagSubmit g e env = some e') :
    dagDrained e' = drains g e (.submitter env) ∧
      (drains g e (.submitter env) = true →
        sleepers e'.joiners = sleepers e.joiners - wakes e (.submitter env)) := by
  unfold loomDagSubmit at taken
  split at taken
  case h_3 rc pc =>
    cases taken
    have shape : drains g e (.submitter env) = decide (e.inFlight = 0) := by simp [drains, pc]
    rw [shape, wakes, pc]
    exact ⟨by simp [dagDrained], fun _ => rfl⟩
  case h_6 i release pc =>
    cases taken
    have shape : drains g e (.submitter env) = release.drains e := by simp [drains, pc]
    obtain ⟨same, signalled⟩ := @dagReleaseNode_drains e env i release nonneg before
    rw [shape, wakes, pc]
    refine ⟨same, fun last => ?_⟩
    show sleepers (dagReleaseNode e i env release).1.joiners = _
    rw [signalled last, sleepers_signalDone]
  all_goals
    rename_i pc
    have none : drains g e (.submitter env) = false := by simp [drains, pc]
    refine ⟨?_, fun clash => absurd (none.symm.trans clash) Bool.false_ne_true⟩
    rw [none, ← before]
  · cases taken
    unfold dagDrained
    rw [added]
    unfold submitPrologue
    split_ifs <;> rfl
  · cases taken
    rfl
  · cases taken
    exact dagDrained_signalIfDrained
  · split_ifs at taken <;> cases taken <;> rfl
  · cases taken

/-- A joiner blocks only while the DAG is not drained. -/
theorem joiner_awake {k : Nat} {j : Joiner} (taken : dagWaitInternal e k j env = some e') (drained : dagDrained e = true) :
    ∃ new, e'.joiners = e.joiners.set k new ∧ new.pc ≠ .blocked := by
  unfold dagWaitInternal at taken
  split at taken
  · cases taken
    refine ⟨_, rfl, ?_⟩
    dsimp only
    split_ifs <;> simp
  · cases taken
    refine ⟨_, rfl, ?_⟩
    dsimp only
    rw [if_pos drained]
    split_ifs <;> simp
  · cases taken
    refine ⟨_, rfl, ?_⟩
    dsimp only
    split_ifs <;> simp
  · split at taken <;> cases taken
    exact ⟨_, rfl, by simp⟩
  · cases taken
    exact ⟨_, rfl, by simp⟩
  all_goals cases taken

theorem drained_of_joiner {k : Nat} {j : Joiner} (taken : dagWaitInternal e k j env = some e') :
    dagDrained e' = dagDrained e := by
  obtain ⟨-, added, -, failed, flight, total, -⟩ := joiner_fields taken
  unfold dagDrained
  rw [added, failed, flight, total]

/-- A step that leaves the DAG drained lets nobody fall asleep. -/
theorem awake_of_drained (awake : ∀ j ∈ e.joiners, j.pc ≠ .blocked) (drained : dagDrained e = true)
    (taken : step g e label = some e') : ∀ j ∈ e'.joiners, j.pc ≠ .blocked := by
  intro j member
  have woken : Woken e.joiners e'.joiners → j.pc ≠ .blocked := by
    intro woken
    rcases woken.mem member with old | ⟨old, -, -, same⟩
    · exact awake j old
    · rw [same]
      simp
  cases label with
  | submitter | runner => exact woken (step_woken (by simp) (by simp) taken)
  | join kind =>
    cases taken
    rcases List.mem_append.mp member with old | fresh
    · exact awake j old
    · rw [List.mem_singleton.mp fresh]
      simp
  | joiner k env =>
    obtain ⟨old, -, taken⟩ := Option.bind_eq_some_iff.mp taken
    obtain ⟨new, joiners, up⟩ := joiner_awake taken drained
    rw [joiners] at member
    rcases List.mem_or_eq_of_mem_set member with other | same
    · exact awake j other
    · rw [same]
      exact up

/-- Which step drains the DAG, and how many are still asleep after it. -/
theorem sleepers_of_drains (running : Running g e) (running' : Running g e')
    (taken : step g e label = some e') (before : dagDrained e = false) :
    dagDrained e' = drains g e label ∧
      (drains g e label = true → sleepers e'.joiners = sleepers e.joiners - wakes e label) := by
  have flight := running.ledger.flight
  have nonneg : 0 ≤ e.inFlight := by omega
  cases label with
  | submitter env =>
    have added : e'.addedCount = e.addedCount := by
      rw [running'.addedCount, running.addedCount]
    exact submitter_drains added nonneg before taken
  | runner k env =>
    obtain ⟨r, here, taken⟩ := Option.bind_eq_some_iff.mp taken
    obtain ⟨same, signalled⟩ := runner_drains here nonneg before taken
    refine ⟨same, fun last => ?_⟩
    rw [signalled last, sleepers_signalDone]
    rfl
  | join kind =>
    cases taken
    exact ⟨before, nofun⟩
  | joiner k env =>
    obtain ⟨j, -, taken⟩ := Option.bind_eq_some_iff.mp taken
    exact ⟨(drained_of_joiner taken).trans before, nofun⟩

theorem enabled_of_drains (last : drains g e label = true) : ∃ e', step g e label = some e' := by
  rw [← Option.isSome_iff_exists]
  cases label with
  | submitter env =>
    simp only [drains] at last
    split at last
    · rename_i pc
      simp [step, loomDagSubmit, pc]
    · rename_i pc
      simp [step, loomDagSubmit, pc]
    · cases last
  | runner k env =>
    cases here : e.runners[k]? with
    | none => simp [drains, here] at last
    | some r =>
      simp only [drains, here, Option.any_some] at last
      split at last
      · rename_i i release loop
        have inside := of_decide_eq_true (Bool.and_eq_true_iff.mp last).1
        simp [step, here, dagRunnerFn, loop, List.getElem?_eq_getElem inside]
      · rename_i i loop
        simp [step, here, dagRunnerFn, loop]
      · cases last
  | join kind | joiner k env => cases last

/-- Exactly as long as every step that drains the DAG finds no more sleepers than it
wakes, nobody is left asleep on a drained DAG. -/
theorem none_asleep_iff_few_asleep (nodeCapacity : UInt32) (ops : List BuildOp) (labels : List Label) :
    Always (step (build nodeCapacity ops)) NoneAsleep (start (build nodeCapacity ops)) labels ↔
      Meets (step (build nodeCapacity ops)) (FewAsleep (build nodeCapacity ops))
        (start (build nodeCapacity ops)) labels := by
  have built := built_build nodeCapacity ops
  constructor
  · intro always
    apply @meets_of_always _ _ _ (Running (build nodeCapacity ops)) NoneAsleep (fun _ _ => True)
    · intro e e' label running _ _ taken
      exact running.taken built taken
    · intro e label running _ awake before last
      obtain ⟨e', taken⟩ := enabled_of_drains last
      obtain ⟨after, left⟩ := sleepers_of_drains running (running.taken built taken) taken before
      have none := sleepers_eq_zero.mpr (awake e' taken (after.trans last))
      have same := left last
      omega
    · exact running_start built
    · exact meets_of_forall (fun _ _ _ => trivial) _
    · exact always
  · intro few
    have keep : ∀ {e e' : Engine} {label : Label}, Running (build nodeCapacity ops) e ∧ NoneAsleep e →
        FewAsleep (build nodeCapacity ops) e label → step (build nodeCapacity ops) e label = some e' →
        Running (build nodeCapacity ops) e' ∧ NoneAsleep e' := by
      rintro e e' label ⟨running, awake⟩ few taken
      have running' := running.taken built taken
      refine ⟨running', fun after => ?_⟩
      cases before : dagDrained e with
      | true => exact awake_of_drained (awake before) before taken
      | false =>
        apply sleepers_eq_zero.mp
        obtain ⟨last, left⟩ := sleepers_of_drains running running' taken before
        rw [after] at last
        have enough := few before last.symm
        have same := left last.symm
        omega
    exact always_of_meets keep And.right
      ⟨running_start built, fun _ j none => absurd none List.not_mem_nil⟩ few

/-- One node, two threads that wait for it. -/
def twoWaits : List Label :=
  List.replicate 8 (.submitter {}) ++
  [.join .wait, .join .wait, .joiner 0 {}, .joiner 0 {}, .joiner 1 {}, .joiner 1 {}] ++
  List.replicate 5 (.runner 0 {})

/-- The runner's signal wakes the first; nobody is left to wake the second. -/
theorem second_joiner_left_asleep : ∃ e,
    exec (step (build 1 [.addNode 0 (some 10) 0 0 true])) (start (build 1 [.addNode 0 (some 10) 0 0 true]))
      twoWaits = some e ∧
    dagDrained e = true ∧ e.joiners = [⟨.wait, .checking⟩, ⟨.wait, .blocked⟩] ∧
    e.submitter = .finished 1 .ok ∧ e.runners = [⟨0, .finished 0⟩] := by
  have run : (exec (step (build 1 [.addNode 0 (some 10) 0 0 true]))
      (start (build 1 [.addNode 0 (some 10) 0 0 true])) twoWaits).map
        (fun e => (dagDrained e, e.joiners, e.submitter, e.runners)) =
      some (true, [⟨.wait, .checking⟩, ⟨.wait, .blocked⟩], .finished 1 .ok, [⟨0, .finished 0⟩]) := by
    decide +kernel
  obtain ⟨e, run, shape⟩ := Option.map_eq_some_iff.mp run
  simp only [Prod.mk.injEq] at shape
  exact ⟨e, run, shape.1, shape.2.1, shape.2.2.1, shape.2.2.2⟩

end Loomworks.Dag

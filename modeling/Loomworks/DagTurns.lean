import Loomworks.DagTrace

/- What one step of the submitter or of a runner is: a step of a release, the end
of a user task or of a runner, a verdict of loom_dag_submit, or a move that
touches nothing the counters, futures and joiners depend on. -/
namespace Loomworks.Dag

open Tally Transition

/-- The error codes of the releases that failed, newest first. -/
def failures (log : List Event) : List LoomResult :=
  log.filterMap fun
    | .refused _ rc => some rc
    | _ => none

structure Quiet (g : Graph) (e e' : Engine) : Prop where
  future : ∀ n, (e'.run n).future = (e.run n).future
  owner : ∀ n, (e'.run n).futureOwner = (e.run n).futureOwner
  nodes : e'.runners.map Runner.node = e.runners.map Runner.node
  releasing : ∀ n pc, Releasing g e n pc → Releasing g e' n pc
  failed : e'.failed = e.failed
  failError : e'.failError = e.failError
  failures : failures e'.log = failures e.log
  inFlight : e'.inFlight = e.inFlight
  releasedTotal : e'.releasedTotal = e.releasedTotal
  joiners : e'.joiners = e.joiners

inductive Turn (g : Graph) (e : Engine) (env : Env) : Engine → Prop
  | quiet {e' : Engine} (same : Quiet g e e') : Turn g e env e'
  | root {i : Nat} {pc : ReleasePc} (here : e.submitter = .releasing i pc) :
      Turn g e env { (dagReleaseNode e i env pc).1 with
        submitter := rootNext i (dagReleaseNode e i env pc).2 }
  | succ {k i : Nat} {r : Runner} {pc : ReleasePc} {n : NodeId} (here : e.runners[k]? = some r)
      (loop : r.pc = .releasing i pc) (edge : (g.nodes r.node).succs[i]? = some n) :
      Turn g e env ((dagReleaseNode e n env pc).1.setRunner k
        { r with pc := succNext i (dagReleaseNode e n env pc).2 })
  | completes {k : Nat} {r : Runner} {status : LoomResult} (here : e.runners[k]? = some r)
      (spent : r.pc = .completing status) :
      Turn g e env ((e.setRun r.node { e.run r.node with
          status := status, future := loomFutureComplete (e.run r.node).future status }).setRunner k
        { r with pc := .loop 0 })
  | finishes {k i : Nat} {r : Runner} (here : e.runners[k]? = some r) (spent : r.pc = .epilogue i) :
      Turn g e env ((signalIfDrained { e with inFlight := e.inFlight - 1 } env.wake).setRunner k
        { r with pc := .finished i })
  | fails {rc : LoomResult} (here : e.submitter = .failing rc) :
      Turn g e env { e with failError := rc, failed := true, submitter := .signalling rc }
  | signals {rc : LoomResult} (here : e.submitter = .signalling rc) :
      Turn g e env { signalIfDrained e env.wake with submitter := .finished 0 rc }

variable {g : Graph} {e e' : Engine} {k : Nat} {r : Runner} {env : Env} {n : NodeId}

theorem releasing_setRunner_of_ne (here : e.runners[k]? = some r) (r' : Runner) {pc : ReleasePc}
    (releasing : Releasing g e n pc)
    (other : ∀ i, r.pc = .releasing i pc → (g.nodes r.node).succs[i]? ≠ some n) :
    Releasing g (e.setRunner k r') n pc := by
  rcases releasing with inSubmitter | ⟨x, member, i, loop, edge⟩
  · exact Or.inl inSubmitter
  · right
    obtain ⟨j, slot⟩ := List.mem_iff_getElem?.mp member
    have apart : k ≠ j := by
      rintro rfl
      rw [here] at slot
      cases slot
      exact other i loop edge
    refine ⟨x, List.mem_iff_getElem?.mpr ⟨j, ?_⟩, i, loop, edge⟩
    show (e.runners.set k r')[j]? = some x
    rw [List.getElem?_set_ne apart]
    exact slot

theorem nodes_setRunner (here : e.runners[k]? = some r) (pc : RunnerPc) :
    ((e.setRunner k { r with pc }).runners).map Runner.node = e.runners.map Runner.node := by
  show (e.runners.set k { r with pc }).map Runner.node = e.runners.map Runner.node
  rw [List.map_set]
  apply set_eq_self
  rw [List.getElem?_map, here]
  rfl

theorem mem_setRunner (here : e.runners[k]? = some r) (r' : Runner) :
    r' ∈ (e.setRunner k r').runners := by
  apply List.mem_iff_getElem?.mpr
  exact ⟨k, List.getElem?_set_self (List.getElem?_eq_some_iff.mp here).1⟩

theorem quiet_setRunner (here : e.runners[k]? = some r) (outside : ∀ i pc, r.pc ≠ .releasing i pc)
    (pc : RunnerPc) : Quiet g e (e.setRunner k { r with pc }) := by
  refine ⟨fun _ => rfl, fun _ => rfl, nodes_setRunner here pc, ?_, rfl, rfl, rfl, rfl, rfl, rfl⟩
  intro n release releasing
  exact releasing_setRunner_of_ne here _ releasing fun i loop => absurd loop (outside i release)

theorem quiet_setSubmitter (outside : ∀ i pc, e.submitter ≠ .releasing i pc) (pc : SubmitPc) :
    Quiet g e { e with submitter := pc } := by
  refine ⟨fun _ => rfl, fun _ => rfl, rfl, ?_, rfl, rfl, rfl, rfl, rfl, rfl⟩
  intro n release releasing
  exact releasing.imp_left fun here => absurd here (outside n release)

theorem Quiet.trans {e₁ e₂ e₃ : Engine} (first : Quiet g e₁ e₂) (second : Quiet g e₂ e₃) :
    Quiet g e₁ e₃ where
  future n := (second.future n).trans (first.future n)
  owner n := (second.owner n).trans (first.owner n)
  nodes := second.nodes.trans first.nodes
  releasing n pc here := second.releasing n pc (first.releasing n pc here)
  failed := second.failed.trans first.failed
  failError := second.failError.trans first.failError
  failures := second.failures.trans first.failures
  inFlight := second.inFlight.trans first.inFlight
  releasedTotal := second.releasedTotal.trans first.releasedTotal
  joiners := second.joiners.trans first.joiners

theorem quiet_log {event : Event} (user : ∀ m rc, event ≠ .refused m rc) :
    Quiet g e { e with log := event :: e.log } := by
  refine ⟨fun _ => rfl, fun _ => rfl, rfl, fun _ _ here => here, rfl, rfl, ?_, rfl, rfl, rfl⟩
  cases event with
  | refused m rc => exact absurd rfl (user m rc)
  | called m => rfl
  | returned m status => rfl

theorem quiet_countdown (pending : Int) :
    Quiet g e (e.setRun n { e.run n with pendingPreds := pending }) := by
  refine ⟨?_, ?_, rfl, fun _ _ here => here, rfl, rfl, rfl, rfl, rfl, rfl⟩
  · intro m
    by_cases same : m = n <;> simp [Engine.setRun, same]
  · intro m
    by_cases same : m = n <;> simp [Engine.setRun, same]

theorem turn_of_runner (here : e.runners[k]? = some r) (taken : dagRunnerFn g e k r env = some e') :
    Turn g e env e' := by
  have moves : ∀ x : Engine, Quiet g e x → x.runners = e.runners →
      (∀ i pc, r.pc ≠ .releasing i pc) → ∀ pc, Turn g e env (x.setRunner k { r with pc }) := by
    intro x before runners outside pc
    rw [← runners] at here
    exact .quiet (before.trans (quiet_setRunner here outside pc))
  have same : Quiet g e e :=
    ⟨fun _ => rfl, fun _ => rfl, rfl, fun _ _ here => here, rfl, rfl, rfl, rfl, rfl, rfl⟩
  unfold dagRunnerFn at taken
  split at taken
  · rename_i pc
    have outside : ∀ i release, r.pc ≠ .releasing i release := by simp [pc]
    split at taken <;> cases taken
    · exact moves _ (quiet_log (by simp)) rfl outside _
    · exact moves e same rfl outside _
  · rename_i pc
    cases taken
    exact moves _ (quiet_log (by simp)) rfl (by simp [pc]) _
  · rename_i status pc
    cases taken
    exact .completes here pc
  · rename_i i pc
    split at taken <;> cases taken
    · exact moves e same rfl (by simp [pc]) _
    · exact moves e same rfl (by simp [pc]) _
  · rename_i i pc
    obtain ⟨succ, -, result⟩ := Option.map_eq_some_iff.mp taken
    dsimp only at result
    split_ifs at result <;> subst result
    · exact moves _ (quiet_countdown _) rfl (by simp [pc]) _
    · exact moves _ (quiet_countdown _) rfl (by simp [pc]) _
  · rename_i i release pc
    obtain ⟨succ, edge, result⟩ := Option.map_eq_some_iff.mp taken
    subst result
    exact .succ here pc edge
  · rename_i i pc
    cases taken
    exact .finishes here pc
  · cases taken

theorem turn_of_submitter (taken : loomDagSubmit g e env = some e') : Turn g e env e' := by
  unfold loomDagSubmit at taken
  split at taken
  · rename_i pc
    have outside : ∀ i release, e.submitter ≠ .releasing i release := by simp [pc]
    cases taken
    apply Turn.quiet
    unfold submitPrologue
    split_ifs
    · exact quiet_setSubmitter outside _
    · exact ⟨fun _ => rfl, fun _ => rfl, rfl, (quiet_setSubmitter outside _).releasing, rfl, rfl, rfl, rfl,
        rfl, rfl⟩
    · exact quiet_setSubmitter outside _
    · exact quiet_setSubmitter outside _
    · refine ⟨?_, ?_, rfl, (quiet_setSubmitter outside _).releasing, rfl, rfl, rfl, rfl, rfl, rfl⟩
      · intro n
        dsimp only
        split <;> rfl
      · intro n
        dsimp only
        split <;> rfl
  · rename_i verdict pc
    have outside : ∀ i release, e.submitter ≠ .releasing i release := by simp [pc]
    cases taken
    exact .quiet ⟨fun _ => rfl, fun _ => rfl, rfl, (quiet_setSubmitter outside _).releasing, rfl, rfl, rfl,
      rfl, rfl, rfl⟩
  · rename_i rc pc
    cases taken
    exact .fails pc
  · rename_i rc pc
    cases taken
    exact .signals pc
  · rename_i i pc
    have outside : ∀ i release, e.submitter ≠ .releasing i release := by simp [pc]
    split_ifs at taken <;> cases taken
    · exact .quiet (quiet_setSubmitter outside _)
    · exact .quiet (quiet_setSubmitter outside _)
    · exact .quiet (quiet_setSubmitter outside _)
  · rename_i i release pc
    cases taken
    exact .root pc
  · cases taken

theorem signalIndex_blocked {l : List Joiner} {wake : Nat} {j : Joiner}
    (here : l[signalIndex l wake]? = some j) : j.pc = .blocked := by
  have blocked : j.isBlocked = true := by
    unfold signalIndex at here
    split at here
    · rename_i chosen
      simpa [here] using chosen
    · obtain ⟨inside, same⟩ := List.getElem?_eq_some_iff.mp here
      rw [← same]
      exact List.findIdx_getElem
  simpa [Joiner.isBlocked] using blocked

/-- Blocked joiners are sent back to their check, no other moves. -/
def Woken (before after : List Joiner) : Prop :=
  ∀ (k : Nat) (j : Joiner), after[k]? = some j → before[k]? = some j ∨
    ∃ old : Joiner, before[k]? = some old ∧ old.pc = .blocked ∧ j = { old with pc := .checking }

theorem Woken.refl (l : List Joiner) : Woken l l := fun _ _ => Or.inl

theorem Woken.mem {before after : List Joiner} {j : Joiner} (woken : Woken before after) (member : j ∈ after) :
    j ∈ before ∨ ∃ old ∈ before, old.pc = .blocked ∧ j = { old with pc := .checking } := by
  obtain ⟨i, here⟩ := List.mem_iff_getElem?.mp member
  rcases woken i j here with same | ⟨old, there, moved⟩
  · exact Or.inl (List.mem_of_getElem? same)
  · exact Or.inr ⟨old, List.mem_of_getElem? there, moved⟩

theorem signalIfDrained_woken (e : Engine) (wake : Nat) :
    Woken e.joiners (signalIfDrained e wake).joiners := by
  unfold signalIfDrained
  split
  · intro k j here
    change (signalDone e.joiners wake)[k]? = some j at here
    rw [signalDone, List.getElem?_modify] at here
    obtain ⟨old, there, same⟩ := Option.map_eq_some_iff.mp here
    split at same
    · rename_i chosen
      exact Or.inr ⟨old, there, signalIndex_blocked (chosen ▸ there), same.symm⟩
    · exact Or.inl (same ▸ there)
  · exact Woken.refl _

theorem dagReleaseNode_woken (e : Engine) (n : NodeId) (env : Env) (pc : ReleasePc) :
    Woken e.joiners (dagReleaseNode e n env pc).1.joiners := by
  have records : ∀ x : Engine, x.joiners = e.joiners → ∀ rc,
      Woken e.joiners (dagRecordReleaseFailure x rc env.wake).joiners := by
    intro x same rc
    rw [← same]
    unfold dagRecordReleaseFailure
    simp only
    split <;> exact signalIfDrained_woken _ env.wake
  cases pc with
  | start | counted =>
    unfold dagReleaseNode
    simp only
    split_ifs <;> exact Woken.refl _
  | owned | refused rc => exact Woken.refl _
  | accepted =>
    exact signalIfDrained_woken { e with releasedTotal := e.releasedTotal + 1 } env.wake
  | undoing rc =>
    exact records { e with inFlight := e.inFlight - 1, log := .refused n rc :: e.log } rfl rc
  | preInit rc => exact records { e with log := .refused n rc :: e.log } rfl rc

theorem Turn.woken (turn : Turn g e env e') : Woken e.joiners e'.joiners := by
  cases turn with
  | quiet same =>
    rw [same.joiners]
    exact Woken.refl _
  | root | succ => exact dagReleaseNode_woken e _ env _
  | completes | fails => exact Woken.refl _
  | finishes => exact signalIfDrained_woken { e with inFlight := e.inFlight - 1 } env.wake
  | signals => exact signalIfDrained_woken e env.wake

/-- Only joiners enter, leave and block; the other threads at most wake one. -/
theorem step_woken {label : Label} (outside : ∀ kind, label ≠ .join kind)
    (other : ∀ k env, label ≠ .joiner k env) (taken : step g e label = some e') :
    Woken e.joiners e'.joiners := by
  cases label with
  | submitter env => exact (turn_of_submitter taken).woken
  | runner k env =>
    obtain ⟨r, here, taken⟩ := Option.bind_eq_some_iff.mp taken
    exact (turn_of_runner here taken).woken
  | join kind => exact absurd rfl (outside kind)
  | joiner k env => exact absurd rfl (other k env)

end Loomworks.Dag

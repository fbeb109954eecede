import Loomworks.TaskGroup
import Loomworks.Threads

/- Who sleeps on done_cond. Only the wrapper that takes pending to zero wakes the
waiters; task_group_cancel_node takes it down without a wakeup. -/
namespace Loomworks.TaskGroup

open Transition

/-- A thread sleeps and no wakeup has reached it. -/
def asleep : Option Waiter → Bool
  | some ⟨_, false⟩ => true
  | _ => false

/-- With group->lock free and nothing pending nobody sleeps without a wakeup. -/
def NoneAsleep (s : State) : Prop :=
  s.holder = none → s.pending = 0 → ∀ i, asleep (s.waiters i) = false

/-- A step that takes pending to zero without a broadcast: a cancel of the last
task, or a submit that wraps the counter. -/
def silent (s : State) : Label → Bool
  | .cancelNode ok => ok && s.pending == 1
  | .append => s.pending + 1 == 0
  | _ => false

/-- Nobody sleeps when pending goes to zero without a broadcast. -/
def Heard (s : State) (label : Label) : Prop :=
  silent s label = true → ∀ i, asleep (s.waiters i) = false

/-- The invariant: whoever holds the lock, a sleeper has something to wait for. -/
def Awaited (s : State) : Prop := s.pending = 0 → ∀ i, asleep (s.waiters i) = false

variable {s s' : State} {label : Label} {k i : Nat} {c : Context} {call : Call}

theorem Awaited.same (awaited : Awaited s) (pending : s'.pending = s.pending)
    (waiters : s'.waiters = s.waiters) : Awaited s' := by
  intro zero
  rw [waiters]
  exact awaited (pending.symm.trans zero)

theorem Awaited.leave (awaited : Awaited s) (pending : s'.pending = s.pending)
    (waiters : s'.waiters = Function.update s.waiters i none) : Awaited s' := by
  intro zero
  rw [waiters]
  apply Threads.forall_update (fun w => asleep w = false)
  · intro j _
    exact awaited (pending.symm.trans zero) j
  · rfl

theorem Awaited.waitOrReturn (awaited : Awaited s) : Awaited (waitOrReturn s i call) := by
  unfold TaskGroup.waitOrReturn
  split
  · rename_i busy
    intro zero
    exact absurd zero busy
  · exact awaited.leave rfl rfl

theorem awaited_wrapperSection (s : State) (k : Nat) (c : Context) :
    Awaited (wrapperSection s k c) := by
  intro zero j
  simp only [wrapperSection] at zero ⊢
  rw [if_pos zero]
  cases s.waiters j <;> rfl

theorem Awaited.wrapper (awaited : Awaited s) (taken : taskGroupWrapper s k c = some s') :
    Awaited s' := by
  unfold taskGroupWrapper at taken
  split at taken
  · cases taken
    exact awaited.same rfl rfl
  · cases taken
    exact awaited.same rfl rfl
  · obtain ⟨_, same⟩ := Option.ite_none_right_eq_some.mp taken
    cases same
    exact awaited_wrapperSection s k c
  · cases taken
    exact awaited.same rfl rfl
  · cases taken

theorem Awaited.submit (awaited : Awaited s) (context node : Bool) :
    Awaited (loomTaskGroupSubmit s context node) := by
  unfold loomTaskGroupSubmit
  repeat' split
  all_goals exact awaited.same rfl rfl

theorem Awaited.poolSubmit {rc : LoomResult} (awaited : Awaited s)
    (taken : poolSubmitReturns s k c rc = some s') : Awaited s' := by
  unfold poolSubmitReturns at taken
  split at taken
  · split at taken
    · cases taken
    · cases taken
      exact awaited.same rfl rfl
  · cases taken
    exact awaited.same rfl rfl

theorem Awaited.cancelNode {ok : Bool} (awaited : Awaited s)
    (heard : ok = true → s.pending = 1 → ∀ i, asleep (s.waiters i) = false)
    (taken : taskGroupCancelNode s k ok = some s') : Awaited s' := by
  unfold taskGroupCancelNode at taken
  split at taken
  · rename_i ok
    split at taken
    · split at taken
      · cases taken
      · cases taken
        intro zero
        exact heard ok (by grind)
    · cases taken
  · cases taken
    exact awaited

theorem Awaited.step (awaited : Awaited s) (heard : Heard s label)
    (taken : step s label = some s') : Awaited s' := by
  cases label with
  | submit context node =>
    obtain ⟨_, same⟩ := Option.ite_none_right_eq_some.mp taken
    cases same
    exact awaited.submit context node
  | poolSubmit rc =>
    dsimp only [TaskGroup.step] at taken
    split at taken
    · obtain ⟨c, _, returned⟩ := Option.bind_eq_some_iff.mp taken
      exact awaited.poolSubmit returned
    · cases taken
  | append =>
    dsimp only [TaskGroup.step] at taken
    split at taken
    · cases taken
      intro zero
      exact heard (beq_iff_eq.mpr zero)
    · cases taken
  | cancel =>
    obtain ⟨_, same⟩ := Option.ite_none_right_eq_some.mp taken
    cases same
    exact awaited.same rfl rfl
  | destroy i onWorker =>
    obtain ⟨_, same⟩ := Option.ite_none_right_eq_some.mp taken
    split at same <;> cases same <;> exact awaited.same rfl rfl
  | cancelNode ok =>
    dsimp only [TaskGroup.step] at taken
    split at taken
    · rename_i k rest _ _
      have same : Awaited { s with tracked := rest } := awaited.same rfl rfl
      apply same.cancelNode _ taken
      intro ok (one : s.pending = 1)
      exact heard (by simp [silent, ok, one])
    · cases taken
  | listEnds =>
    dsimp only [TaskGroup.step] at taken
    split at taken
    · cases taken
      exact awaited.same rfl rfl
    · cases taken
      have same : Awaited { s with holder := none } := awaited.same rfl rfl
      exact same.waitOrReturn
    · cases taken
  | wait i timed onWorker =>
    obtain ⟨_, same⟩ := Option.ite_none_right_eq_some.mp taken
    cases same
    unfold loomTaskGroupWaitTimeout
    split
    · exact awaited.same rfl rfl
    · exact awaited.waitOrReturn
  | wake i timedOut =>
    dsimp only [TaskGroup.step] at taken
    split at taken
    · split at taken
      · cases taken
      · split at taken
        · cases taken
          exact awaited.waitOrReturn
        · split at taken
          · cases taken
            exact awaited.leave rfl rfl
          · cases taken
    · cases taken
  | wrapper k =>
    obtain ⟨c, _, moved⟩ := Option.bind_eq_some_iff.mp taken
    exact awaited.wrapper moved
  | shutdown =>
    cases taken
    exact awaited.same rfl rfl

/-- If pending never goes to zero behind a sleeper's back, no waiter is left asleep. -/
theorem no_group_waiter_left_asleep (labels : List Label) (meets : Meets step Heard start labels) :
    Always step NoneAsleep start labels := by
  apply @always_of_meets _ _ step Awaited NoneAsleep Heard
  · intro s s' label awaited heard taken
    exact awaited.step heard taken
  · intro s awaited _
    exact awaited
  · intro _ i
    rfl
  · exact meets

/-- A task is submitted, two threads wait for it and its wrapper wakes them. -/
theorem no_group_waiter_left_asleep_after_run : Always step NoneAsleep start
    [.submit true true, .poolSubmit .ok, .append, .wait 0 false false, .wait 1 true false,
      .wrapper 0, .wrapper 0, .wrapper 0, .wake 1 false, .wake 0 false] := by
  apply no_group_waiter_left_asleep
  apply @Meets.of_invariant _ _ step (fun _ => True) (fun s l => silent s l = false) Heard
  · intros
    trivial
  · intro s label _ loud quiet
    rw [loud] at quiet
    cases quiet
  · trivial
  · apply meets_of_decide
    decide +kernel

/-- A thread waits for a queued task; loom_task_group_cancel cancels it, pending is
0 and nobody wakes the thread. -/
theorem cancel_leaves_waiter_asleep : ∃ s, Reachable step start s ∧ s.holder = none ∧
    s.pending = 0 ∧ s.waiters 0 = some ⟨.wait, false⟩ := by
  have run : ((exec step start [.submit true true, .poolSubmit .ok, .append, .wait 0 false false,
      .cancel, .cancelNode true, .listEnds]).map fun s => (s.holder, s.pending, s.waiters 0)) =
        some (none, 0, some ⟨.wait, false⟩) := by
    decide +kernel
  obtain ⟨s, reached, shape⟩ := Option.map_eq_some_iff.mp run
  simp only [Prod.mk.injEq] at shape
  exact ⟨s, ⟨_, reached⟩, shape⟩

end Loomworks.TaskGroup

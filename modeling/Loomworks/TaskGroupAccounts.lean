import Loomworks.TaskGroup

/- The books of a task group: what pending counts, who frees a context, and what
a wait that returns OK has seen. -/
namespace Loomworks.TaskGroup

open Tally Transition

/-- The calls that return OK only when they have seen pending at zero. -/
@[grind] def Call.drains (call : Call) : Bool := call != .submit

/-- Accepted by the pool and not yet counted. -/
@[grind] def State.entering (s : State) : UInt32 :=
  match s.holder with
  | some (.accepted _) => 1
  | _ => 0

/-- The wrapper will not touch the group. -/
@[grind] def Stage.spent (stage : Stage) : Bool := stage != .fresh && !stage.outstanding

structure Inv (s : State) : Prop where
  count : s.pending + s.entering = UInt32.ofNat s.outstanding
  fresh : ∀ (k : Nat) (c : Context), s.contexts[k]? = some c →
    (c.stage = .fresh ↔ s.holder = some (.created k))
  accepted : ∀ k, s.holder = some (.accepted k) → ∃ c : Context, s.contexts[k]? = some c ∧
    c.stage.outstanding = true
  frees : ∀ (k : Nat) (c : Context), s.contexts[k]? = some c → c.frees = c.stage.freed.toNat
  answered : ∀ a ∈ s.answers, a.result = .ok → a.call.drains = true → a.outstanding < 2 ^ 32 →
    ∀ k < a.submitted, ∃ c : Context, s.contexts[k]? = some c ∧ c.stage.spent = true

variable {s s' : State} {label : Label} {k i : Nat} {c d : Context} {call : Call}

@[grind =] theorem ofNat_weight (c : Context) :
    UInt32.ofNat c.weight = if c.stage.outstanding then 1 else 0 := by
  unfold Context.weight
  split <;> rfl

theorem inv_start : Inv start := by
  constructor <;> simp [start, State.entering, State.outstanding]

/-- The new answers are no news of the group: errors, and submits. -/
@[grind] def Plain (s s' : State) : Prop :=
  ∀ a ∈ s'.answers, a ∈ s.answers ∨ a.result ≠ .ok ∨ a.call = .submit

/-- The step of one context, and what it has to keep for the books to balance. -/
structure Moves (s s' : State) (k : Nat) (c d : Context) : Prop where
  contexts : s'.contexts = s.contexts.set k d
  count : s'.pending + s'.entering + UInt32.ofNat c.weight =
    s.pending + s.entering + UInt32.ofNat d.weight
  frees : c.frees = c.stage.freed.toNat → d.frees = d.stage.freed.toNat
  spent : c.stage.spent = true → d.stage.spent = true
  settled : d.stage ≠ .fresh
  created : ∀ j, s'.holder = some (.created j) ↔ s.holder = some (.created j) ∧ j ≠ k
  accepted : ∀ j, s'.holder = some (.accepted j) →
    (j = k ∨ s.holder = some (.accepted j)) ∧ (j = k → d.stage.outstanding = true)
  answers : Plain s s'

theorem Inv.moves (inv : Inv s) (here : s.contexts[k]? = some c) (moves : Moves s s' k c d) :
    Inv s' := by
  obtain ⟨contexts, count, frees, spent, settled, created, accepted, answers⟩ := moves
  have inside : k < s.contexts.length := (List.getElem?_eq_some_iff.mp here).1
  have own : s'.contexts[k]? = some d := by
    rw [contexts, List.getElem?_set_self inside]
  have other : ∀ j, j ≠ k → s'.contexts[j]? = s.contexts[j]? := by
    intro j differs
    rw [contexts, List.getElem?_set_ne differs.symm]
  constructor
  · have books : s'.outstanding + c.weight = s.outstanding + d.weight := by
      rw [State.outstanding, contexts]
      exact tally_set Context.weight d here
    have before := inv.count
    have total := congrArg UInt32.ofNat books
    rw [UInt32.ofNat_add, UInt32.ofNat_add] at total
    grind
  · grind [inv.fresh]
  · grind [inv.accepted]
  · grind [inv.frees]
  · intro a member ok drains few j before
    have old : a ∈ s.answers := by grind [answers a member]
    obtain ⟨e, there, done⟩ := inv.answered a old ok drains few j before
    grind

/-- A step that leaves the contexts and the count alone. -/
theorem Inv.rests (inv : Inv s) (contexts : s'.contexts = s.contexts)
    (pending : s'.pending = s.pending)
    (holder : s'.holder = s.holder ∨
      ∀ k, s.holder ≠ some (.created k) ∧ s.holder ≠ some (.accepted k) ∧
        s'.holder ≠ some (.created k) ∧ s'.holder ≠ some (.accepted k))
    (answers : Plain s s') : Inv s' := by
  have entering : s'.entering = s.entering := by
    rcases holder with same | neither
    · rw [State.entering, State.entering, same]
    · unfold State.entering
      grind
  constructor
  · rw [pending, entering, State.outstanding, contexts]
    exact inv.count
  · grind [inv.fresh]
  · grind [inv.accepted]
  · grind [inv.frees]
  · intro a member ok drains
    have old : a ∈ s.answers := by grind [answers a member]
    rw [contexts]
    exact inv.answered a old ok drains

theorem Inv.over_of_drained (inv : Inv s) (free : s.holder = none) (zero : s.pending = 0)
    (few : s.outstanding < 2 ^ 32) (here : s.contexts[k]? = some c) : c.stage.spent = true := by
  have count := congrArg UInt32.toNat inv.count
  rw [State.entering, free, zero, UInt32.toNat_ofNat_of_lt' few] at count
  have idle := tally_eq_zero.mp count.symm c (List.mem_of_getElem? here)
  have started : c.stage ≠ .fresh := by grind [inv.fresh k c here]
  grind

theorem open_free (free : s.open = true) : s.holder = none := by
  simp only [State.open, Bool.and_eq_true, Option.isNone_iff_eq_none] at free
  exact free.1

theorem plain_returns {result : LoomResult} (dull : result ≠ .ok ∨ call = .submit) :
    Plain s (s.returns call result) := by
  grind

theorem Inv.waitOrReturn (inv : Inv s) (free : s.holder = none) : Inv (waitOrReturn s i call) := by
  unfold TaskGroup.waitOrReturn
  split
  · exact inv.rests rfl rfl (.inl rfl) fun a member => .inl member
  · rename_i zero
    obtain ⟨count, fresh, accepted, frees, answered⟩ := inv
    refine ⟨count, fresh, accepted, frees, ?_⟩
    intro a member ok drains few k before
    rcases List.mem_cons.mp member with rfl | old
    · have here : s.contexts[k]? = some (s.contexts.get ⟨k, before⟩) := by simp
      have balanced : Inv s := ⟨count, fresh, accepted, frees, answered⟩
      exact ⟨_, here, balanced.over_of_drained free (not_not.mp zero) few here⟩
    · exact answered a old ok drains few k before

theorem Inv.submit (inv : Inv s) (free : s.holder = none) (context node : Bool) :
    Inv (loomTaskGroupSubmit s context node) := by
  unfold loomTaskGroupSubmit
  split
  · exact inv.rests rfl rfl (.inl rfl) (plain_returns (.inl nofun))
  · split
    · exact inv.rests rfl rfl (.inl rfl) (plain_returns (.inl nofun))
    · have longer : ∀ c, tally Context.weight (s.contexts ++ [c]) = s.outstanding + c.weight := by
        intro c
        simp [State.outstanding]
      obtain ⟨count, fresh, accepted, frees, answered⟩ := inv
      split
      · constructor <;> grind [State.outstanding]
      · constructor <;> grind [State.outstanding]

theorem Inv.poolSubmit {rc : LoomResult} (inv : Inv s) (holder : s.holder = some (.created k))
    (here : s.contexts[k]? = some c) (taken : poolSubmitReturns s k c rc = some s') : Inv s' := by
  have fresh : c.stage = .fresh := (inv.fresh k c here).mpr holder
  unfold poolSubmitReturns at taken
  split at taken
  · split at taken
    · cases taken
    · cases taken
      apply inv.moves (d := { c with stage := .queued }) here
      constructor <;> grind
  · rename_i failed
    cases taken
    apply inv.moves (d := ⟨.refused, c.frees + 1⟩) here
    constructor <;> grind

theorem Inv.append (inv : Inv s) (holder : s.holder = some (.accepted k)) :
    Inv (taskGroupAppend s k) := by
  obtain ⟨count, fresh, accepted, frees, answered⟩ := inv
  constructor <;> grind [taskGroupAppend, State.outstanding]

theorem Inv.cancelNode {ok : Bool} (inv : Inv s) {destroyer : Option Nat}
    (holder : s.holder = some (.cancelling destroyer))
    (taken : taskGroupCancelNode s k ok = some s') : Inv s' := by
  unfold taskGroupCancelNode at taken
  split at taken
  · split at taken
    · rename_i frees here
      split at taken
      · cases taken
      · cases taken
        apply inv.moves (d := ⟨.cancelled, frees + 1⟩) here
        constructor <;> grind
    · cases taken
  · cases taken
    exact inv

theorem Inv.wrapper (inv : Inv s) (here : s.contexts[k]? = some c)
    (taken : taskGroupWrapper s k c = some s') : Inv s' := by
  unfold taskGroupWrapper at taken
  split at taken
  · cases taken
    apply inv.moves (d := { c with stage := .inFn }) here
    constructor <;> grind [inv.fresh k c here]
  · cases taken
    apply inv.moves (d := { c with stage := .wantsLock }) here
    constructor <;> grind [inv.fresh k c here]
  · obtain ⟨free, same⟩ := Option.ite_none_right_eq_some.mp taken
    cases same
    apply inv.moves (d := { c with stage := .leaving }) here
    constructor <;> grind [wrapperSection]
  · cases taken
    apply inv.moves (d := ⟨.finished, c.frees + 1⟩) here
    constructor <;> grind [inv.fresh k c here, inv.accepted]
  · cases taken

theorem Inv.step (inv : Inv s) (taken : step s label = some s') : Inv s' := by
  cases label with
  | submit context node =>
    obtain ⟨free, same⟩ := Option.ite_none_right_eq_some.mp taken
    cases same
    exact inv.submit (open_free free) context node
  | poolSubmit rc =>
    dsimp only [TaskGroup.step] at taken
    split at taken
    · rename_i k holder
      obtain ⟨c, here, returned⟩ := Option.bind_eq_some_iff.mp taken
      exact inv.poolSubmit holder here returned
    · cases taken
  | append =>
    dsimp only [TaskGroup.step] at taken
    split at taken
    · rename_i k holder
      cases taken
      exact inv.append holder
    · cases taken
  | cancel =>
    obtain ⟨free, same⟩ := Option.ite_none_right_eq_some.mp taken
    cases same
    have idle := open_free free
    exact inv.rests rfl rfl (.inr (by grind)) fun a member => .inl member
  | destroy i onWorker =>
    obtain ⟨free, same⟩ := Option.ite_none_right_eq_some.mp taken
    have idle := open_free (Bool.and_eq_true_iff.mp free).1
    split at same
    · cases same
      exact inv.rests rfl rfl (.inl rfl) (plain_returns (.inl nofun))
    · cases same
      exact inv.rests rfl rfl (.inr (by grind)) fun a member => .inl member
  | cancelNode ok =>
    dsimp only [TaskGroup.step] at taken
    split at taken
    · rename_i k rest holder _
      have same : Inv { s with tracked := rest } :=
        inv.rests rfl rfl (.inl rfl) fun a member => .inl member
      exact same.cancelNode holder taken
    · cases taken
  | listEnds =>
    dsimp only [TaskGroup.step] at taken
    split at taken
    · cases taken
      exact inv.rests rfl rfl (.inr (by grind)) fun a member => .inl member
    · rename_i i holder _
      cases taken
      have same : Inv { s with holder := none } :=
        inv.rests rfl rfl (.inr (by grind)) fun a member => .inl member
      exact same.waitOrReturn rfl
    · cases taken
  | wait i timed onWorker =>
    obtain ⟨free, same⟩ := Option.ite_none_right_eq_some.mp taken
    cases same
    unfold loomTaskGroupWaitTimeout
    split
    · exact inv.rests rfl rfl (.inl rfl) (plain_returns (.inl nofun))
    · exact inv.waitOrReturn (open_free (Bool.and_eq_true_iff.mp free).1)
  | wake i timedOut =>
    dsimp only [TaskGroup.step] at taken
    split at taken
    · split at taken
      · cases taken
      · rename_i free
        split at taken
        · cases taken
          exact inv.waitOrReturn (open_free (Bool.eq_true_of_not_eq_false free))
        · split at taken
          · cases taken
            exact inv.rests rfl rfl (.inl rfl) (plain_returns (.inl nofun))
          · cases taken
    · cases taken
  | wrapper k =>
    obtain ⟨c, here, moved⟩ := Option.bind_eq_some_iff.mp taken
    exact inv.wrapper here moved
  | shutdown =>
    cases taken
    exact inv.rests rfl rfl (.inl rfl) fun a member => .inl member

/-- While group->lock is free pending is the number of outstanding tasks in 32
bits; a context that has ended was freed once, any other not at all; and when
wait or destroy returned OK, unless 2 ^ 32 tasks or more were outstanding, no
wrapper of a task submitted before can touch the group again. -/
structure Accounted (s : State) : Prop where
  pending : s.holder = none → s.pending.toNat = s.outstanding % 2 ^ 32
  frees : ∀ (k : Nat) (c : Context), s.contexts[k]? = some c → c.frees = c.stage.freed.toNat
  returned : ∀ a ∈ s.answers, a.result = .ok → a.call ≠ .submit → a.outstanding < 2 ^ 32 →
    ∀ (k : Nat) (c : Context), k < a.submitted → s.contexts[k]? = some c →
      c.stage ≠ .fresh ∧ c.stage.outstanding = false

theorem Inv.accounted (inv : Inv s) : Accounted s := by
  constructor
  · intro free
    have count := congrArg UInt32.toNat inv.count
    rw [State.entering, free, UInt32.add_zero, UInt32.toNat_ofNat'] at count
    exact count
  · exact inv.frees
  · intro a member ok drains few k c before here
    grind [inv.answered a member ok (by grind) few k before]

/-- However submits, cancels, waits, destroys and wrappers interleave, and
whenever the pool shuts down, the group's books are right. -/
theorem group_accounts_balance (labels : List Label) : Always step Accounted start labels := by
  apply @always_of_invariant _ _ step Inv Accounted
  · intro s s' label inv taken
    exact inv.step taken
  · intro s inv
    exact inv.accounted
  · exact inv_start

/-- n tasks are in the pool's queue and nobody is in a call. -/
structure Filled (n : Nat) (s : State) : Prop where
  contexts : s.contexts = List.replicate n ⟨.queued, 0⟩
  holder : s.holder = none
  freed : s.freed = false
  destroyed : s.destroyed = false
  shutdown : s.shutdown = false
  waiters : s.waiters 0 = none

theorem Filled.submit {n : Nat} (filled : Filled n s) :
    ∃ s', exec step s [.submit true true, .poolSubmit .ok, .append] = some s' ∧
      Filled (n + 1) s' := by
  obtain ⟨contexts, holder, freed, destroyed, shutdown, waiters⟩ := filled
  have first : step s (.submit true true) = some { s with
      contexts := s.contexts ++ [⟨.fresh, 0⟩]
      holder := some (.created s.contexts.length) } := by
    simp [step, State.open, holder, freed, loomTaskGroupSubmit, destroyed]
  have second : step { s with
      contexts := s.contexts ++ [⟨.fresh, 0⟩]
      holder := some (.created s.contexts.length) } (.poolSubmit .ok) = some { s with
        contexts := s.contexts ++ [⟨.queued, 0⟩]
        holder := some (.accepted s.contexts.length) } := by
    simp [step, poolSubmitReturns, shutdown, State.setContext]
  refine ⟨_, exec_cons.mpr ⟨_, first, exec_cons.mpr ⟨_, second, rfl⟩⟩, ?_⟩
  refine ⟨?_, rfl, freed, destroyed, shutdown, waiters⟩
  show s.contexts ++ [⟨.queued, 0⟩] = _
  rw [contexts, List.replicate_succ']

theorem filled_reachable (n : Nat) : ∃ s, Reachable step start s ∧ Filled n s := by
  induction n with
  | zero => exact ⟨start, Reachable.refl _, rfl, rfl, rfl, rfl, rfl, rfl⟩
  | succ n ih =>
    obtain ⟨s, ⟨labels, run⟩, filled⟩ := ih
    obtain ⟨s', more, filled'⟩ := filled.submit
    exact ⟨s', ⟨_, exec_append.mpr ⟨s, run, more⟩⟩, filled'⟩

/-- After 2 ^ 32 submits to a pool that runs none of the tasks pending, a uint32_t,
is back at 0, and loom_task_group_wait returns OK. -/
theorem pending_wraps : ∃ s a, Reachable step start s ∧ s.holder = none ∧ s.pending = 0 ∧
    s.outstanding = 2 ^ 32 ∧ a ∈ s.answers ∧ a.call = .wait ∧ a.result = .ok ∧
    a.submitted = 2 ^ 32 ∧ s.contexts[0]? = some ⟨.queued, 0⟩ := by
  obtain ⟨s, ⟨labels, run⟩, filled⟩ := filled_reachable (2 ^ 32)
  have inv := exec_invariant (fun inv taken => Inv.step inv taken) inv_start run
  have outstanding : s.outstanding = 2 ^ 32 := by
    rw [State.outstanding, filled.contexts, tally_replicate]
    rfl
  have zero : s.pending = 0 := by
    have count := inv.count
    rw [State.entering, filled.holder, outstanding, UInt32.add_zero] at count
    exact count
  have waits : step s (.wait 0 false false) = some (waitOrReturn s 0 .wait) := by
    simp [step, State.open, filled.holder, filled.freed, filled.waiters, loomTaskGroupWaitTimeout,
      waitCall]
  have returned : waitOrReturn s 0 .wait = State.returns { s with
      waiters := Function.update s.waiters 0 none, freed := false } .wait .ok := by
    rw [waitOrReturn, if_neg (not_not.mpr zero)]
    rfl
  rw [returned] at waits
  have reached := exec_append.mpr ⟨s, run, exec_cons.mpr ⟨_, waits, exec_nil _⟩⟩
  refine ⟨_, ⟨.wait, .ok, s.contexts.length, s.outstanding⟩, ⟨_, reached⟩, ?_⟩
  refine ⟨filled.holder, zero, outstanding, List.mem_cons_self, rfl, rfl, ?_, ?_⟩
  · show s.contexts.length = 2 ^ 32
    rw [filled.contexts, List.length_replicate]
  · show s.contexts[0]? = some ⟨.queued, 0⟩
    rw [filled.contexts, List.getElem?_replicate_of_lt (by decide)]

end Loomworks.TaskGroup

import Loomworks.FutureWait

/- The wakeups of a future's condition variable: threads in loom_future_wait and the
functions that resolve the future, with its mutex and each access under it as a step.
future_task_wrapper and loom_future_complete signal, the two cancellations broadcast. -/
namespace Loomworks.FutureWakeups

open Transition Loomworks.FutureWait

/-- Where a thread is in loom_future_wait. -/
inductive Pc where
  | outside
  /-- It holds the mutex, the head of the loop is next. -/
  | checking
  /-- It holds the mutex and found ready false, pthread_cond_wait is next. -/
  | parking
  | waiting
  deriving DecidableEq, Repr

/-- Who holds the mutex; a resolver writes, notifies and unlocks. -/
inductive Holder where
  | waiter (i : Nat)
  | locked (writer : Resolver)
  | written (writer : Resolver)
  | notified
  deriving DecidableEq, Repr

/-- sleepers are the threads in pthread_cond_wait that no wakeup was delivered to. -/
structure State where
  future : Future := {}
  holder : Option Holder := none
  pcs : Nat → Pc := fun _ => .outside
  sleepers : List Nat := []

inductive Label where
  /-- Thread i gets the mutex, in its call or on its way out of pthread_cond_wait. -/
  | lock (i : Nat)
  | check (i : Nat)
  | park (i : Nat)
  /-- pthread_cond_wait of thread i ends for no reason. -/
  | spurious (i : Nat)
  | resolve (writer : Resolver)
  | write
  /-- pick says which thread a signal reaches. -/
  | notify (pick : Nat)
  | unlock
  deriving DecidableEq, Repr

/-- pthread_cond_broadcast rather than pthread_cond_signal. -/
def broadcasts : Resolver → Bool
  | .markCancelled | .coroMarkCancelled => true
  | .taskWrapper _ | .complete _ => false

/-- loom_future_complete leaves a cancelled future alone. -/
def skips (fut : Future) : Resolver → Bool
  | .complete _ => fut.cancelled
  | _ => false

abbrev State.setPc (s : State) (i : Nat) (pc : Pc) : State :=
  { s with pcs := Function.update s.pcs i pc }

/-- The thread may take the mutex next. -/
def State.wants (s : State) (i : Nat) : Bool :=
  match s.pcs i with
  | .outside => true
  | .waiting => i ∉ s.sleepers
  | _ => false

def step (s : State) : Label → Option State
  | .lock i =>
    if s.holder = none ∧ s.wants i = true then
      some { s.setPc i .checking with holder := some (.waiter i) }
    else none
  | .check i =>
    if s.pcs i = .checking then
      if s.future.ready then some { s.setPc i .outside with holder := none }
      else some (s.setPc i .parking)
    else none
  | .park i =>
    if s.pcs i = .parking then
      some { s.setPc i .waiting with holder := none, sleepers := s.sleepers ++ [i] }
    else none
  | .spurious i =>
    if i ∈ s.sleepers then some { s with sleepers := s.sleepers.erase i } else none
  | .resolve writer =>
    if s.holder = none then some { s with holder := some (.locked writer) } else none
  | .write =>
    match s.holder with
    | some (.locked writer) =>
      if skips s.future writer then some { s with holder := some .notified }
      else some { s with
        future := writer.resolve s.future, holder := some (.written writer) }
    | _ => none
  | .notify pick =>
    match s.holder with
    | some (.written writer) =>
      some { s with
        sleepers := if broadcasts writer then []
          else s.sleepers.eraseIdx (pick % s.sleepers.length)
        holder := some .notified }
    | _ => none
  | .unlock =>
    match s.holder with
    | some .notified => some { s with holder := none }
    | _ => none

/-- Nobody waits, the future is as loom_future_init leaves it. -/
def start : State := {}

/-- With the future ready and its mutex free nobody is without a wakeup. -/
def AllNotified (s : State) : Prop :=
  s.future.ready = true → s.holder = none → s.sleepers = []

/-- A signal is sent to one thread at most. -/
def Lone (s : State) : Label → Prop
  | .notify _ =>
    match s.holder with
    | some (.written writer) => broadcasts writer = true ∨ s.sleepers.length ≤ 1
    | _ => True
  | _ => True

instance (s : State) : (label : Label) → Decidable (Lone s label)
  | .notify _ =>
    match holder : s.holder with
    | some (.written writer) =>
      decidable_of_iff (broadcasts writer = true ∨ s.sleepers.length ≤ 1) (by simp [Lone, holder])
    | none | some (.waiter _) | some (.locked _) | some .notified =>
      isTrue (by simp [Lone, holder])
  | .lock _ | .check _ | .park _ | .spurious _ | .resolve _ | .write | .unlock => isTrue trivial

/-- The mutex is respected, who is about to sleep has seen the future pending, and only
a resolver that has yet to notify keeps sleepers from a ready future. -/
structure Inv (s : State) : Prop where
  inside : ∀ i, s.pcs i = .checking ∨ s.pcs i = .parking → s.holder = some (.waiter i)
  pending : ∀ i, s.pcs i = .parking → s.future.ready = false
  told : s.future.ready = true → s.sleepers = [] ∨ ∃ writer, s.holder = some (.written writer)
  cancelled : s.future.cancelled = true → s.future.ready = true

variable {s s' : State} {label : Label}

theorem ready_resolve {fut : Future} {writer : Resolver} (written : skips fut writer = false) :
    (writer.resolve fut).ready = true := by
  cases writer with
  | complete status => exact loomFutureComplete_ready fut status written
  | _ => rfl

theorem Inv.step (inv : Inv s) (lone : Lone s label)
    (taken : FutureWakeups.step s label = some s') : Inv s' := by
  obtain ⟨inside, pending, told, cancelled⟩ := inv
  cases label with
  | lock i | park i | spurious i | resolve writer =>
    obtain ⟨here, same⟩ := Option.ite_none_right_eq_some.mp taken
    cases same
    constructor <;> grind [Function.update_apply]
  | check i =>
    obtain ⟨here, same⟩ := Option.ite_none_right_eq_some.mp taken
    split at same <;> cases same
    all_goals constructor <;> grind [Function.update_apply]
  | write =>
    simp only [FutureWakeups.step] at taken
    split at taken
    · rename_i writer holder
      split at taken <;> cases taken
      · constructor <;> grind
      · rename_i written
        have ready := ready_resolve (by simpa using written)
        constructor <;> grind
    · cases taken
  | notify pick =>
    simp only [FutureWakeups.step] at taken
    simp only [Lone] at lone
    split at taken
    · rename_i writer holder
      cases taken
      have heard : (if broadcasts writer = true then []
          else s.sleepers.eraseIdx (pick % s.sleepers.length)) = [] := by
        rw [holder] at lone
        split
        · rfl
        · rename_i signal
          have one := lone.resolve_left signal
          match sleepers : s.sleepers with
          | [] => rfl
          | [i] => simp [Nat.mod_one]
          | i :: j :: rest => simp [sleepers] at one
      constructor <;> grind
    · cases taken
  | unlock =>
    simp only [FutureWakeups.step] at taken
    split at taken
    · cases taken
      constructor <;> grind
    · cases taken

/-- As long as no signal is sent while several threads wait, every waiter of a ready
future has its wakeup once the mutex is free. -/
theorem waiters_notified (labels : List Label) (lone : Meets step Lone start labels) :
    Always step AllNotified start labels := by
  apply @always_of_meets _ _ step Inv AllNotified Lone
  · intro s s' label inv lone taken
    exact inv.step lone taken
  · intro s inv ready free
    rcases inv.told ready with none | ⟨writer, written⟩
    · exact none
    · rw [free] at written
      cases written
  · constructor <;> simp [start]
  · exact lone

/-- Two threads wait, one of them wakes up for no reason and returns to sleep; the
cancellation reaches both. -/
def twoCancelled : List Label :=
  [.lock 0, .check 0, .park 0, .lock 1, .check 1, .park 1, .spurious 0, .lock 0, .check 0, .park 0,
   .resolve .markCancelled, .write, .notify 0, .unlock, .lock 0, .check 0]

theorem waiters_notified_two_cancelled :
    (exec step start twoCancelled).isSome = true ∧ Always step AllNotified start twoCancelled := by
  refine ⟨by decide +kernel, ?_⟩
  apply waiters_notified
  apply meets_of_decide
  decide +kernel

/-- Two threads wait for one result: future_task_wrapper signals one of them and the
other sleeps on although the future is ready. -/
theorem signal_leaves_waiter_asleep :
    ∃ s, exec step start [.lock 0, .check 0, .park 0, .lock 1, .check 1, .park 1,
        .resolve (.taskWrapper 7), .write, .notify 0, .unlock, .lock 0, .check 0] = some s ∧
      s.future.ready = true ∧ s.holder = none ∧ s.sleepers = [1] ∧ s.pcs 1 = .waiting ∧
      s.wants 1 = false :=
  ⟨_, rfl, rfl, rfl, rfl, rfl, rfl⟩

end Loomworks.FutureWakeups

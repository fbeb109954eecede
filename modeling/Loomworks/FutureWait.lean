import Loomworks.Future
import Loomworks.Threads
import Loomworks.Transition

/- Threads that wait for one future (loom_future_wait, loom_future_wait_timeout)
while others resolve it. What a thread does between two waits on the condition
variable happens under the future's mutex and is one step. -/
namespace Loomworks.FutureWait

open Transition

/-- struct timespec. -/
structure Timespec where
  tvSec : Int
  tvNsec : Int
  deriving DecidableEq, Repr

/-- The difference loom_future_wait_timeout computes in a long, which wraps. -/
def remainingNs (deadline now : Timespec) : Int :=
  ((deadline.tvSec - now.tvSec) * 1000000000 + (deadline.tvNsec - now.tvNsec)).bmod (2 ^ 64)

/-- The writers of a future. -/
inductive Resolver where
  /-- future_task_wrapper, with what the task's function returned. -/
  | taskWrapper (result : Nat)
  /-- loom_future_complete. -/
  | complete (status : LoomResult)
  /-- future_mark_cancelled. -/
  | markCancelled
  /-- coro_future_mark_cancelled. -/
  | coroMarkCancelled
  deriving DecidableEq, Repr

/-- The locked section of future_task_wrapper. -/
def futureTaskWrapper (fut : Future) (result : Nat) : Future :=
  { fut with result, hasResult := true, ready := true }

def Resolver.resolve (fut : Future) : Resolver → Future
  | .taskWrapper result => futureTaskWrapper fut result
  | .complete status => loomFutureComplete fut status
  | .markCancelled => futureMarkCancelled fut
  | .coroMarkCancelled => coroFutureMarkCancelled fut

/-- A result code with what was stored through the result argument; none when the
argument is NULL or nothing is stored. -/
structure Outcome where
  code : LoomResult
  stored : Option Nat
  deriving DecidableEq, Repr

/-- if (result) *result = pointer. -/
def store (wanted : Bool) (pointer : Nat) : Option Nat := if wanted then some pointer else none

/-- loom_future_wait behind its loop. -/
def waitOutcome (fut : Future) (wanted : Bool) : Outcome :=
  if fut.cancelled then ⟨.errCancelled, store wanted 0⟩
  else if fut.failed then ⟨.errFailed, store wanted 0⟩
  else ⟨.ok, store wanted fut.result⟩

/-- Both exits of loom_future_wait_timeout that read the future. -/
def timedOutcome (fut : Future) (wanted : Bool) : Outcome :=
  if fut.cancelled then ⟨.errCancelled, store wanted 0⟩
  else ⟨.ok, store wanted fut.result⟩

/-- loom_future_wait from the head of its loop; none when it goes to sleep. -/
def untimedReturns (fut : Future) (wanted : Bool) : Option Outcome :=
  if fut.ready then some (waitOutcome fut wanted) else none

/-- loom_future_wait_timeout up to pthread_cond_timedwait; none when it goes to sleep. -/
def timedReturns (fut : Future) (wanted : Bool) (deadline now : Timespec) : Option Outcome :=
  if fut.ready then some (timedOutcome fut wanted)
  else if remainingNs deadline now ≤ 0 then some ⟨.errTimeout, none⟩
  else none

inductive Call where
  | untimed | timed
  deriving DecidableEq, Repr

/-- Where a waiting thread is. A call that has returned keeps the future as it was
when the call gave the mutex back. -/
inductive Pc where
  | outside
  | asleep (call : Call) (wanted : Bool)
  | returned (call : Call) (wanted : Bool) (outcome : Outcome) (seen : Future)
  deriving DecidableEq, Repr

structure State where
  future : Future := {}
  calls : Nat → Pc := fun _ => .outside

inductive Label where
  | resolve (writer : Resolver)
  /-- Thread i calls loom_future_wait. -/
  | wait (i : Nat) (wanted : Bool)
  /-- Thread i calls loom_future_wait_timeout. -/
  | waitTimeout (i : Nat) (wanted : Bool) (deadline now : Timespec)
  /-- The condition wait of thread i returns without ETIMEDOUT: after a signal, a
  broadcast or for no reason. -/
  | wakes (i : Nat)
  /-- pthread_cond_timedwait of thread i returns ETIMEDOUT. -/
  | expires (i : Nat)
  deriving DecidableEq, Repr

def State.setCall (s : State) (i : Nat) (pc : Pc) : State :=
  { s with calls := Function.update s.calls i pc }

def Pc.isAsleep : Pc → Bool
  | .asleep _ _ => true
  | _ => false

/-- In pthread_cond_timedwait. -/
def Pc.inTimedwait : Pc → Bool
  | .asleep .timed _ => true
  | _ => false

/-- The call goes to sleep or returns. -/
def settle (s : State) (i : Nat) (call : Call) (wanted : Bool) : Option Outcome → State
  | none => s.setCall i (.asleep call wanted)
  | some outcome => s.setCall i (.returned call wanted outcome s.future)

def step (s : State) : Label → Option State
  | .resolve writer => some { s with future := writer.resolve s.future }
  | .wait i wanted =>
    if (s.calls i).isAsleep then none
    else some (settle s i .untimed wanted (untimedReturns s.future wanted))
  | .waitTimeout i wanted deadline now =>
    if (s.calls i).isAsleep then none
    else some (settle s i .timed wanted (timedReturns s.future wanted deadline now))
  | .wakes i =>
    match s.calls i with
    -- while (!future->ready)
    | .asleep .untimed wanted =>
      some (settle s i .untimed wanted (untimedReturns s.future wanted))
    -- no loop: the flags are read whatever the reason of the wakeup
    | .asleep .timed wanted =>
      some (settle s i .timed wanted (some (timedOutcome s.future wanted)))
    | _ => none
  | .expires i =>
    match s.calls i with
    | .asleep .timed wanted => some (settle s i .timed wanted (some ⟨.errTimeout, none⟩))
    | _ => none

/-- The future after loom_future_init or its allocation, nobody waiting. -/
def start : State := {}

/-- A timed call that returned timed out, or returned what loom_future_wait called
on the same future returns without sleeping. -/
def Agrees : Pc → Prop
  | .returned .timed wanted outcome seen =>
    outcome.code = .errTimeout ∨ untimedReturns seen wanted = some outcome
  | _ => True

def WaitsAgree (s : State) : Prop := ∀ i, Agrees (s.calls i)

/-- A timed wait reads no future that failed without being cancelled, and its
condition wait only returns early on a future that is ready. -/
def Plain (s : State) : Label → Prop
  | .waitTimeout _ _ _ _ => s.future.failed → s.future.cancelled
  | .wakes i => (s.calls i).inTimedwait → s.future.ready ∧ (s.future.failed → s.future.cancelled)
  | _ => True

instance (s : State) (label : Label) : Decidable (Plain s label) := by
  cases label <;> unfold Plain <;> infer_instance

variable {s s' : State} {label : Label} {i : Nat} {wanted : Bool} {fut : Future}

/-- The two decodings of the flags differ only for a failed future. -/
theorem timedOutcome_eq (plain : fut.failed → fut.cancelled) :
    timedOutcome fut wanted = waitOutcome fut wanted := by
  unfold timedOutcome waitOutcome
  cases cancelled : fut.cancelled with
  | true => rfl
  | false =>
    cases failed : fut.failed with
    | false => rfl
    | true =>
      have contrary := plain failed
      rw [cancelled] at contrary
      cases contrary

theorem untimedReturns_timedOutcome (ready : fut.ready = true) (plain : fut.failed → fut.cancelled) :
    untimedReturns fut wanted = some (timedOutcome fut wanted) := by
  rw [untimedReturns, if_pos ready, timedOutcome_eq plain]

theorem agrees_settle_untimed (outcome : Option Outcome) (before : WaitsAgree s) :
    WaitsAgree (settle s i .untimed wanted outcome) := by
  cases outcome <;> exact Threads.forall_update Agrees (fun j _ => before j) trivial

theorem agrees_settle_timed {outcome : Option Outcome} (before : WaitsAgree s)
    (own : ∀ o, outcome = some o →
      o.code = .errTimeout ∨ untimedReturns s.future wanted = some o) :
    WaitsAgree (settle s i .timed wanted outcome) := by
  cases outcome with
  | none => exact Threads.forall_update Agrees (fun j _ => before j) trivial
  | some o => exact Threads.forall_update Agrees (fun j _ => before j) (own o rfl)

/-- The entry of the timed wait: a future that is not ready lets it time out or sleep. -/
theorem timedReturns_agrees {deadline now : Timespec} {o : Outcome}
    (plain : fut.failed → fut.cancelled) (returns : timedReturns fut wanted deadline now = some o) :
    o.code = .errTimeout ∨ untimedReturns fut wanted = some o := by
  unfold timedReturns at returns
  split at returns
  · rename_i ready
    cases returns
    exact Or.inr (untimedReturns_timedOutcome ready plain)
  · split at returns
    · cases returns
      exact Or.inl rfl
    · cases returns

theorem waitsAgree_step (before : WaitsAgree s) (plain : Plain s label)
    (taken : step s label = some s') : WaitsAgree s' := by
  cases label with
  | resolve writer =>
    cases taken
    exact before
  | wait i wanted =>
    simp only [step, Option.ite_none_left_eq_some] at taken
    cases taken.2
    exact agrees_settle_untimed _ before
  | waitTimeout i wanted deadline now =>
    simp only [step, Option.ite_none_left_eq_some] at taken
    cases taken.2
    apply agrees_settle_timed before
    intro o returns
    exact timedReturns_agrees plain returns
  | wakes i =>
    simp only [step] at taken
    split at taken
    · cases taken
      exact agrees_settle_untimed _ before
    · rename_i wanted at_
      cases taken
      have readable := plain (by rw [at_]; rfl)
      apply agrees_settle_timed before
      intro o returns
      cases returns
      exact Or.inr (untimedReturns_timedOutcome readable.1 readable.2)
    · cases taken
  | expires i =>
    simp only [step] at taken
    split at taken
    · cases taken
      apply agrees_settle_timed before
      intro o returns
      cases returns
      exact Or.inl rfl
    · cases taken

/-- As long as no timed wait reads a failed future and none is woken before the
future is ready, every timed wait that returns has timed out or has the result
code and the result pointer of loom_future_wait. -/
theorem timed_wait_agrees_with_wait (labels : List Label)
    (plain : Meets step Plain start labels) : Always step WaitsAgree start labels := by
  apply @always_of_meets _ _ step WaitsAgree WaitsAgree Plain
  · intro s s' label before plain taken
    exact waitsAgree_step before plain taken
  · intro s agree
    exact agree
  · intro i
    trivial
  · exact plain

/-- Two timed waits and an untimed one for a value, then one after a cancellation. -/
def valueThenCancelled : List Label :=
  [.waitTimeout 0 true ⟨2, 0⟩ ⟨1, 0⟩, .wait 1 true, .waitTimeout 2 true ⟨2, 0⟩ ⟨1, 0⟩,
   .wakes 1, .expires 2, .resolve (.taskWrapper 77), .wakes 0, .wakes 1, .resolve .markCancelled,
   .waitTimeout 3 true ⟨2, 0⟩ ⟨1, 0⟩]

theorem timed_wait_agrees_value_then_cancelled :
    (exec step start valueThenCancelled).isSome = true ∧
      Always step WaitsAgree start valueThenCancelled := by
  refine ⟨by decide +kernel, ?_⟩
  apply timed_wait_agrees_with_wait
  apply meets_of_decide
  decide +kernel

/-- A DAG node that failed: the timed wait reports success, with the status code as
the result pointer, where loom_future_wait reports the failure. A spurious wakeup
makes the timed wait report success for a future nobody has resolved. -/
theorem timed_wait_hides_failure :
    (∃ s, exec step start [.resolve (.complete .errInvalid), .waitTimeout 0 true ⟨2, 0⟩ ⟨1, 0⟩,
        .wait 1 true] = some s ∧
      s.calls 0 = .returned .timed true ⟨.ok, some 3⟩ s.future ∧
      s.calls 1 = .returned .untimed true ⟨.errFailed, some 0⟩ s.future ∧ ¬WaitsAgree s) ∧
    (∃ s, exec step start [.waitTimeout 0 true ⟨2, 0⟩ ⟨1, 0⟩, .wakes 0] = some s ∧
      s.future.ready = false ∧
      s.calls 0 = .returned .timed true ⟨.ok, some 0⟩ s.future ∧ ¬WaitsAgree s) := by
  constructor
  · refine ⟨_, rfl, rfl, rfl, fun agree => ?_⟩
    have own : Agrees (.returned .timed true ⟨.ok, some 3⟩
        (loomFutureComplete {} .errInvalid)) := agree 0
    simp [Agrees, untimedReturns, waitOutcome, loomFutureComplete, store] at own
  · refine ⟨_, rfl, rfl, rfl, fun agree => ?_⟩
    have own : Agrees (.returned .timed true ⟨.ok, some 0⟩ {}) := agree 0
    simp [Agrees, untimedReturns] at own

end Loomworks.FutureWait

import Loomworks.Pipeline
import Loomworks.Threads

/- Who sleeps on the pipeline's condition variable. Producers and consumers share
it and wait for opposite conditions, so whoever changes the queue or shuts the
pipeline down wakes them all. -/
namespace Loomworks.Pipeline

open Transition

/-- A blocked thread that no wakeup has reached is right to sleep: a consumer
because the queue is empty, a producer because it is full, and both because the
pipeline is not shut down. -/
def Justified (s : State) : Pc → Prop
  | .empty false => s.head = 0 ∧ s.shutdown = false
  | .full _ false => s.capacity ≤ s.len ∧ s.shutdown = false
  | _ => True

/-- No sleeper is forgotten. -/
def Attended (s : State) : Prop := ∀ i, Justified s (s.threads i)

/-- What the sleepers wait for is the same in both states. -/
structure Unmoved (s s' : State) : Prop where
  head : s'.head = s.head
  len : s'.len = s.len
  shutdown : s'.shutdown = s.shutdown
  config : s'.config = s.config

variable {s s' : State} {label : Label} {i pi : Nat} {pc : Pc}

/-- A broadcast leaves nobody without a wakeup, whatever it was made for. -/
theorem justified_wake (s : State) (pc : Pc) : Justified s pc.wake := by
  cases pc <;> trivial

theorem Justified.unmoved (justified : Justified s pc) (same : Unmoved s s') : Justified s' pc := by
  have capacity : s'.capacity = s.capacity := by simp only [State.capacity, same.config]
  unfold Justified at justified ⊢
  split
  · rw [same.head, same.shutdown]
    exact justified
  · rw [capacity, same.len, same.shutdown]
    exact justified
  · trivial

theorem Attended.unmoved (attended : Attended s) (same : Unmoved s s')
    (threads : s'.threads = s.threads) : Attended s' := by
  intro j
  rw [threads]
  exact (attended j).unmoved same

/-- Thread i goes on without changing what the others wait for. -/
theorem Attended.move (attended : Attended s) (same : Unmoved s s')
    (threads : s'.threads = Function.update s.threads i pc) (own : Justified s' pc) :
    Attended s' := by
  intro j
  rw [threads]
  apply Threads.forall_update (Justified s')
  · intro k _
    exact (attended k).unmoved same
  · exact own

/-- Thread i changes the queue and wakes everyone. -/
theorem attended_of_broadcast
    (threads : s'.threads = Function.update (fun j => (s.threads j).wake) i pc)
    (own : Justified s' pc) : Attended s' := by
  intro j
  rw [threads]
  apply Threads.forall_update (Justified s')
  · intro k _
    exact justified_wake s' (s.threads k)
  · exact own

theorem attended_append (s : State) (i pi : Nat) : Attended (appendItem s i pi) := by
  apply @attended_of_broadcast s _ i .appended
  · rfl
  · trivial

theorem attended_unlink (s : State) (i : Nat) : Attended (unlinkHead s i) := by
  apply @attended_of_broadcast s _ i (.took s.head)
  · rfl
  · trivial

theorem attended_shutdown (s : State) : Attended (loomPcShutdown s) :=
  fun i => justified_wake _ (s.threads i)

theorem attended_conclude (attended : Attended s) {result : LoomResult} {item : Nat}
    (own : Justified s pc) : Attended (s.conclude i result item pc) := by
  have same : Unmoved s (s.conclude i result item pc) := ⟨rfl, rfl, rfl, rfl⟩
  apply attended.move same rfl
  exact own.unmoved same

theorem attended_submit (attended : Attended s) (x : Nat) (memory : Option Nat) :
    Attended (loomPcSubmit s i x memory) := by
  unfold loomPcSubmit
  split
  · exact attended_conclude attended trivial
  · rename_i running
    cases memory with
    | none => exact attended_conclude attended trivial
    | some pi =>
      dsimp only
      split
      · rename_i full
        have live : s.shutdown = false := Bool.eq_false_iff.mpr running
        exact attended.move ⟨rfl, rfl, rfl, rfl⟩ rfl ⟨full.2, live⟩
      · apply attended_append

theorem attended_submitWakes (attended : Attended s) (timedOut : Bool) :
    Attended (submitWakes s i pi timedOut) := by
  unfold submitWakes
  split
  · exact attended.move ⟨rfl, rfl, rfl, rfl⟩ rfl trivial
  · rename_i running
    have live : s.shutdown = false := by
      rw [Bool.or_eq_true, not_or] at running
      exact Bool.eq_false_iff.mpr running.2
    split
    · rename_i full
      exact attended.move ⟨rfl, rfl, rfl, rfl⟩ rfl ⟨full, live⟩
    · apply attended_append

theorem attended_take (attended : Attended s) : Attended (loomPcTake s i) := by
  unfold loomPcTake
  split
  · rename_i empty
    split
    · apply attended_conclude attended
      unfold afterLastTake
      split <;> trivial
    · rename_i running
      have live : s.shutdown = false := Bool.eq_false_iff.mpr running
      exact attended.move ⟨rfl, rfl, rfl, rfl⟩ rfl ⟨empty, live⟩
  · apply attended_unlink

theorem attended_advance (attended : Attended s) (taken : advance s i = some s') : Attended s' := by
  unfold advance at taken
  split at taken
  · cases taken
    exact attended_conclude attended trivial
  · cases taken
    exact attended.move ⟨rfl, rfl, rfl, rfl⟩ rfl trivial
  · cases taken
    exact attended.move ⟨rfl, rfl, rfl, rfl⟩ rfl trivial
  · cases taken
    exact attended.move ⟨rfl, rfl, rfl, rfl⟩ rfl trivial
  · cases taken

theorem attended_destroy (attended : Attended s) (taken : loomPcDestroy s = some s') :
    Attended s' := by
  unfold loomPcDestroy at taken
  split at taken
  · split at taken
    · cases taken
      split
      · exact (attended_shutdown s).unmoved ⟨rfl, rfl, rfl, rfl⟩ rfl
      · exact attended.unmoved ⟨rfl, rfl, rfl, rfl⟩ rfl
    · cases taken
  · split at taken
    · cases taken
      exact attended.unmoved ⟨rfl, rfl, rfl, rfl⟩ rfl
    · cases taken
  · split at taken
    · cases taken
      exact attended.unmoved ⟨rfl, rfl, rfl, rfl⟩ rfl
    · cases taken
      exact attended.unmoved ⟨rfl, rfl, rfl, rfl⟩ rfl
  · cases taken

theorem attended_step (attended : Attended s) (taken : step s label = some s') : Attended s' := by
  cases label with
  | submit i x memory =>
    obtain ⟨_, same⟩ := Option.ite_none_right_eq_some.mp taken
    cases same
    exact attended_submit attended x memory
  | take i =>
    obtain ⟨_, same⟩ := Option.ite_none_right_eq_some.mp taken
    cases same
    exact attended_take attended
  | wake i timedOut =>
    unfold step at taken
    dsimp only at taken
    split at taken
    · cases taken
      exact attended_submitWakes attended timedOut
    · cases timedOut with
      | true => cases taken
      | false =>
        cases taken
        exact attended_take attended
    · cases taken
  | advance i => exact attended_advance attended taken
  | shutdown =>
    obtain ⟨_, same⟩ := Option.ite_none_right_eq_some.mp taken
    cases same
    exact attended_shutdown s
  | destroy => exact attended_destroy attended taken

/-- A blocked consumer without a wakeup sees an empty queue, a blocked producer
without one a full queue, and neither a pipeline that is shut down. -/
def NoneForgotten (s : State) : Prop :=
  (∀ i, s.threads i = .empty false → ¬(s.head ≠ 0 ∨ s.shutdown = true)) ∧
    ∀ i pi, s.threads i = .full pi false → ¬(s.len < s.capacity ∨ s.shutdown = true)

theorem Attended.noneForgotten (attended : Attended s) : NoneForgotten s := by
  constructor
  · intro i asleep
    have justified := attended i
    rw [asleep] at justified
    rintro (nonempty | shut)
    · exact nonempty justified.1
    · exact Bool.false_ne_true (justified.2.symm.trans shut)
  · intro i pi asleep
    have justified := attended i
    rw [asleep] at justified
    rintro (room | shut)
    · exact absurd room (Nat.not_lt.mpr justified.1)
    · exact Bool.false_ne_true (justified.2.symm.trans shut)

/-- However producers and consumers, shutdown and destroy interleave, nobody sleeps
on when there is something to do. -/
theorem no_pipeline_sleeper_forgotten (config : Config) (labels : List Label) :
    Always step NoneForgotten (start config) labels := by
  apply @always_of_invariant _ _ step Attended NoneForgotten
  · intro s label s' attended taken
    exact attended_step attended taken
  · intro s attended
    exact attended.noneForgotten
  · intro i
    trivial

end Loomworks.Pipeline

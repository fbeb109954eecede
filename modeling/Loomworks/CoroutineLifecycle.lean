import Loomworks.CoroutineNesting

/- The life of a coroutine: when it may be entered, and when its stack may be released. -/
namespace Loomworks.Coro.Calls

open Transition

/-- Control arrives in a coroutine with a stack: by a resume that found it new, suspended or asleep
past its deadline, or by the return of a resume that it made and that left it running. -/
def Switch.Allowed (switch : Switch) : Prop :=
  switch.freed = false ∧
    if switch.resumed then
      switch.state = .new ∨ switch.state = .suspended ∨ switch.state = .sleeping ∧ switch.due = true
    else switch.state = .running

structure Lifecycle (s : State) : Prop where
  once : s.entered.Nodup
  switched : ∀ switch ∈ s.log, switch.Allowed
  stack : ∀ c, s.base.executing = .body c → c ∉ s.freed

/-- A finished coroutine and one that is running: the resume of it fails and switches to nobody. -/
def Rejects (s : State) : Label → Prop
  | .act (.resume c env) =>
    (s.base.coros c).state = .done ∨ (s.base.coros c).state = .error ∨
      (s.base.coros c).state = .timeout ∨ (s.base.coros c).state = .running →
    ∀ s', step s (.act (.resume c env)) = some s' →
      s'.base.result ≠ .ok ∧ s'.log = s.log ∧ s'.base.executing = s.base.executing
  | _ => True

/-- Nobody resumes a coroutine that has timed out. -/
def Unexpired (s : State) : Label → Prop
  | .act (.resume c _) => (s.base.coros c).state ≠ .timeout
  | _ => True

/-- What the books have to do with the states. -/
structure Kept (s : State) : Prop where
  once : s.entered.Nodup
  started : ∀ c ∈ s.entered, (s.base.coros c).state ≠ .new
  switched : ∀ switch ∈ s.log, switch.Allowed
  released : ∀ c ∈ s.freed, (s.base.coros c).state ≠ .running

variable {s s' : State} {c : CoroId}

theorem Kept.quiet (kept : Kept s) (quiet : Quiet s s') : Kept s' := by
  have idle : ∀ c, (s.base.coros c).state ≠ .running → (s'.base.coros c).state ≠ .running := by
    intro c idle
    rcases quiet.coros c with same | ⟨-, -, ⟨-, new⟩ | ⟨done, -⟩⟩
    · rw [same]
      exact idle
    · simp [new]
    · simp [done]
  refine ⟨?_, ?_, ?_, ?_⟩
  · rw [quiet.books.1]
    exact kept.once
  · intro c member
    rw [quiet.books.1] at member
    have started := kept.started c member
    rcases quiet.coros c with same | ⟨-, -, ⟨new, -⟩ | ⟨done, -⟩⟩
    · rw [same]
      exact started
    · exact absurd new started
    · simp [done]
  · rw [quiet.books.2]
    exact kept.switched
  · intro c member
    rcases quiet.freed with same | ⟨d, added, stopped⟩
    · rw [same] at member
      exact idle c (kept.released c member)
    · rw [added] at member
      rcases List.mem_cons.mp member with rfl | old
      · exact idle c stopped
      · exact idle c (kept.released c old)

theorem Kept.enters (kept : Kept s) (enters : Enters s s' c) (unexpired : (s.base.coros c).state ≠ .timeout) :
    Kept s' := by
  refine ⟨?_, ?_, ?_, ?_⟩
  · rw [enters.entered]
    split
    · rename_i new
      exact List.nodup_cons.mpr ⟨fun member => kept.started c member new, kept.once⟩
    · exact kept.once
  · intro d member
    by_cases same : d = c
    · rw [same, enters.coro.1]
      exact fun running => CoroState.noConfusion running
    · rw [enters.others d same]
      rw [enters.entered] at member
      split at member
      · exact kept.started d ((List.mem_cons.mp member).resolve_left same)
      · exact kept.started d member
  · obtain ⟨due, log, awake⟩ := enters.log
    intro switch member
    rw [log] at member
    rcases List.mem_cons.mp member with rfl | old
    · refine ⟨rfl, ?_⟩
      have idle := enters.idle
      obtain ⟨undone, sound⟩ := enters.unfinished
      cases state : (s.base.coros c).state <;> simp_all
    · exact kept.switched switch old
  · intro d member
    rw [enters.freed.1] at member
    have other : d ≠ c := by
      rintro rfl
      exact enters.freed.2 member
    rw [enters.others d other]
    exact kept.released d member

theorem Kept.leaves (kept : Kept s) (inv : Nested s) {call : Call} {rest : List Call}
    (leaves : Leaves s s' call rest) : Kept s' := by
  have states : ∀ d, (s'.base.coros d).state = .running → (s.base.coros d).state = .running := by
    intro d active
    by_cases same : d = call.coro
    · rw [same] at active
      exact absurd active leaves.coro.1
    · rw [leaves.others d same] at active
      exact active
  refine ⟨?_, ?_, ?_, ?_⟩
  · rw [leaves.books.1]
    exact kept.once
  · intro d member
    rw [leaves.books.1] at member
    by_cases same : d = call.coro
    · rw [same]
      exact leaves.used
    · rw [leaves.others d same]
      exact kept.started d member
  · intro switch member
    rw [leaves.log] at member
    cases caller : call.caller with
    | caller =>
      rw [caller] at member
      exact kept.switched switch member
    | body p =>
      rw [caller] at member
      rcases List.mem_cons.mp member with rfl | old
      · have active := (inv.leaves leaves).active (leaves.executing.trans caller)
        refine ⟨?_, active⟩
        simp only [decide_eq_false_iff_not]
        intro freed
        exact kept.released p freed (states p active)
      · exact kept.switched switch old
  · intro d member active
    rw [leaves.books.2] at member
    exact kept.released d member (states d active)

theorem Kept.step (kept : Kept s) (inv : Nested s) {label : Label} (orderly : Orderly s label)
    (current : Current s label) (unexpired : Unexpired s label) (after : step s label = some s') : Kept s' := by
  rcases inv.effect orderly current after with quiet | ⟨c, env, rfl, enters⟩ | ⟨call, rest, leaves⟩
  · exact kept.quiet quiet
  · exact kept.enters enters unexpired
  · exact kept.leaves inv leaves

theorem Kept.lifecycle (kept : Kept s) (inv : Nested s) : Lifecycle s := by
  refine ⟨kept.once, kept.switched, ?_⟩
  intro c here freed
  exact kept.released c freed (inv.active here)

theorem Nested.rejects (inv : Nested s) {label : Label} (orderly : Orderly s label)
    (unexpired : Unexpired s label) : Rejects s label := by
  cases label with
  | create | destroy => trivial
  | act action =>
    cases action with
    | yield | sleepUntil | fail | terminate | ret => trivial
    | resume c env =>
      intro spent s' after
      have finished : (s.base.coros c).state = .done ∨ (s.base.coros c).state = .error := by
        rcases spent with done | error | timeout | running
        · exact Or.inl done
        · exact Or.inr error
        · exact absurd timeout unexpired
        · exact absurd running orderly
      have refused : resumable (s.base.coros c) env = false := by
        rcases finished with state | state <;> simp [resumable, state]
      simp only [Calls.step, Option.ite_none_right_eq_some, Option.map_eq_some_iff] at after
      obtain ⟨-, base, taken, rfl⟩ := after
      obtain rfl := Option.some.inj taken
      have mine : ¬ (s.base.coros c).owner ≠ s.base.self := fun other => other (inv.owned c)
      simp only [State.note, State.resumes, loomCoroResume, mine, refused, Bool.and_false, if_false,
        Bool.false_eq_true]
      refine ⟨?_, rfl, rfl⟩
      show resumeError s.base c env ≠ .ok
      rcases finished with state | state <;> simp only [resumeError, state] <;> split <;> decide

/-- A coroutine lives as it should in every run in which nobody resumes a running or timed out
coroutine, a running one is terminated by itself only, and coroutines that are in charge give up
the processor. -/
theorem coroutines_live_once (self : Nat) (labels : List Label)
    (orderly : Meets step Orderly (start self) labels) (current : Meets step Current (start self) labels)
    (unexpired : Meets step Unexpired (start self) labels) :
    Always step Lifecycle (start self) labels ∧ Meets step Rejects (start self) labels := by
  have conditions := orderly.and (current.and unexpired)
  have initial : Nested (start self) ∧ Kept (start self) := by
    refine ⟨nested_start self, List.nodup_nil, ?_, ?_, ?_⟩
    · intro c member
      cases member
    · intro switch member
      cases member
    · intro c member
      cases member
  constructor
  · apply @always_of_meets _ _ _ (fun s => Nested s ∧ Kept s) Lifecycle _ _ _ _ labels initial conditions
    · rintro s s' label ⟨inv, kept⟩ ⟨orderly, current, unexpired⟩ after
      exact ⟨inv.step orderly current after, kept.step inv orderly current unexpired after⟩
    · rintro s ⟨inv, kept⟩
      exact kept.lifecycle inv
  · apply Meets.of_invariant _ _ (nested_start self) conditions
    · rintro s s' label inv ⟨orderly, current, -⟩ after
      exact inv.step orderly current after
    · rintro s label inv ⟨orderly, -, unexpired⟩
      exact inv.rejects orderly unexpired

instance (s : State) : (label : Label) → Decidable (Unexpired s label)
  | .create _ | .destroy _ | .act (.yield _) | .act (.sleepUntil ..) | .act (.fail _) | .act .ret
  | .act (.terminate _) => .isTrue trivial
  | .act (.resume c _) => inferInstanceAs (Decidable ((s.base.coros c).state ≠ .timeout))

/-- One coroutine sleeps and returns, another one fails; both are destroyed. -/
def twoLives : List Label :=
  [.create {}, .act (.resume 0 {}), .act (.sleepUntil 5 .ok), .act (.resume 0 { nowNs := 4 }),
    .act (.resume 0 { nowNs := 5 }), .act .ret, .act (.resume 0 {}), .create {}, .act (.resume 1 {}),
    .act (.fail 3), .destroy 0, .destroy 1]

theorem coroutines_live_once_two : ∃ s,
    exec step (start 0) twoLives = some s ∧ s.entered = [1, 0] ∧ s.freed = [1, 0] ∧ Lifecycle s := by
  have orderly : Meets step Orderly (start 0) twoLives := by
    apply meets_of_decide
    decide +kernel
  have current : Meets step Current (start 0) twoLives := by
    apply meets_of_decide
    decide +kernel
  have unexpired : Meets step Unexpired (start 0) twoLives := by
    apply meets_of_decide
    decide +kernel
  have run : ((exec step (start 0) twoLives).map fun s => (s.entered, s.freed)) = some ([1, 0], [1, 0]) := by
    decide +kernel
  obtain ⟨s, run, shape⟩ := Option.map_eq_some_iff.mp run
  simp only [Prod.mk.injEq] at shape
  exact ⟨s, run, shape.1, shape.2, (coroutines_live_once 0 twoLives orderly current unexpired).1.final run⟩

/-- A coroutine that resumes itself runs its entry function again; a timed out coroutine is
resumed; a coroutine that another one terminated and destroyed under it gets control back. -/
theorem coroutines_live_twice :
    ((exec step (start 0) [.create {}, .act (.resume 0 {}), .act (.resume 0 {})]).map State.entered =
      some [0, 0]) ∧
    ((exec step (start 0) [.create { maxExecutionNs := 1 }, .act (.resume 0 {}), .act (.yield (some 5)),
      .act (.resume 0 {})]).map fun s => s.log.head?) = some (some ⟨0, true, .timeout, true, false⟩) ∧
    ((exec step (start 0) [.create {}, .create {}, .act (.resume 0 {}), .act (.resume 1 {}),
      .act (.terminate 0), .destroy 0, .act (.yield none)]).map fun s => (s.base.executing, s.freed, s.log.head?)) =
      some (.body 0, [0], some ⟨0, false, .done, false, true⟩) := by
  refine ⟨?_, ?_, ?_⟩ <;> decide +kernel

end Loomworks.Coro.Calls

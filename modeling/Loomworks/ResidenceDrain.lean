import Loomworks.ResidenceShrink

/- Shutdown: the workers leave through the drained exit and are joined, then the timer
thread. -/
namespace Loomworks.Pool.Residence

open Loomworks.Timer (Entry TimerHeap)
open Sites Transition

variable {s s' : State} {w t : Nat} {label : Label}

/-- No resize, and cancel_by_id gets its ready node. -/
def Label.steady : Label → Bool
  | .resize _ | .handOver false => false
  | _ => true

/-- The worker has seen the pool closed and its lane empty. -/
def WorkerPc.closing : WorkerPc → Bool
  | .drainHeap | .drainReady _ | .exited | .absent => true
  | _ => false

/-- How many slots the shutdown call is done with. -/
def ShutdownPc.joined (workerCount : Nat) : ShutdownPc → Nat
  | .idle => 0
  | .joining i => i
  | .joinTimer | .returned => workerCount

/-- A steady step keeps the slots and, once the pool is closed, an empty lane. -/
structure Holds (s s' : State) : Prop where
  count : s'.workerCount = s.workerCount
  room : s'.maxWorkerCount = s.maxWorkerCount
  closed : s.shutdown = true ∧ s.lane = [] → s'.shutdown = true ∧ s'.lane = []

theorem Holds.of_eq (count : s'.workerCount = s.workerCount)
    (room : s'.maxWorkerCount = s.maxWorkerCount) (shutdown : s'.shutdown = s.shutdown)
    (lane : s'.lane = s.lane) : Holds s s' := by
  refine ⟨count, room, ?_⟩
  rw [shutdown, lane]
  exact id

theorem holds_terminate (x : Nat) (pc : WorkerPc) : Holds s ((s.terminate x).setWorker w pc) := by
  obtain ⟨tasks, futures, -, shape⟩ := State.terminate_eq s x
  rw [shape]
  exact .of_eq rfl rfl rfl rfl

theorem holds_worker (stepped : WorkerStep s w label s') : Holds s s' := by
  cases stepped with
  | skips t rest here lane | dispatches t rest here lane =>
    refine ⟨rfl, rfl, ?_⟩
    rintro ⟨-, empty⟩
    rw [lane] at empty
    cases empty
  | drops | leaveNext | leaveTimer => exact holds_terminate _ _
  | takes | chooses | displaced | drained | looks | peeks | exits | stays | runs | idles | finishes
  | uncreated | creates | resumes | sleeps | yields | ends | parked | leaveReady | leaveScan | leavePick
  | leaveSpill | leaves => exact .of_eq rfl rfl rfl rfl

theorem holds_caller (stepped : CallerStep s label s') (steady : label.steady = true) : Holds s s' := by
  cases stepped with
  | submits arg withFuture timer alive free running =>
    refine ⟨rfl, rfl, ?_⟩
    rintro ⟨closing, -⟩
    rw [running] at closing
    cases closing
  | flags | seizes =>
    unfold State.resolveCancelled
    split <;> exact .of_eq rfl rfl rfl rfl
  | unlinks _ found t picked =>
    refine ⟨?_, ?_, ?_⟩
    · unfold State.resolveCancelled
      split <;> rfl
    · unfold State.resolveCancelled
      split <;> rfl
    · rintro ⟨-, empty⟩
      rw [empty] at picked
      cases picked
  | closes here => exact ⟨rfl, rfl, fun closed => ⟨rfl, closed.2⟩⟩
  | resizes => cases steady
  | refused | hands | loses | joins | passes | awaits | untimed | stops | returns =>
    exact .of_eq rfl rfl rfl rfl

theorem holds_step (steady : label.steady = true) (stepped : step s label = some s') : Holds s s' := by
  cases own : label.actor with
  | worker w => exact holds_worker (worker_step own stepped)
  | timer =>
    have timed := timer_step own stepped
    cases timed <;> exact .of_eq rfl rfl rfl rfl
  | caller => exact holds_caller (caller_step own stepped) steady

/-- A worker comes to its exit only past the test of the drained exit. -/
theorem closing_worker (stepped : WorkerStep s w label s') (staying : (s.workers w).leaving = false)
    (closing : (s'.workers w).closing = true) :
    (s.workers w).closing = true ∨ s.shutdown = true ∧ s.lane = [] := by
  have moved : ∀ {s₁ : State} {pc : WorkerPc}, ((s₁.setWorker w pc).workers w).closing = true →
      pc.closing = true := by
    intro s₁ pc closing
    change (Function.update s₁.workers w pc w).closing = true at closing
    rwa [Function.update_self] at closing
  cases stepped with
  | drained here closed empty => exact Or.inr ⟨closed, empty⟩
  | peeks here | exits here =>
    rw [here]
    exact Or.inl rfl
  | leaveReady here | leaveNext _ _ here | leaveScan here | leavePick _ _ _ here | leaveTimer _ here
  | leaveSpill here | leaves here =>
    rw [here] at staying
    cases staying
  | takes | chooses | displaced | looks | stays | runs | idles | skips | dispatches | finishes
  | uncreated | creates | drops | resumes | sleeps | yields | ends | parked => cases moved closing

/-- A worker within worker_count is not displaced. -/
theorem staying_worker (stepped : WorkerStep s w label s') (staying : (s.workers w).leaving = false)
    (inside : w < s.workerCount) : (s'.workers w).leaving = false := by
  have moved : ∀ {s₁ : State} {pc : WorkerPc}, pc.leaving = false →
      ((s₁.setWorker w pc).workers w).leaving = false := by
    intro s₁ pc still
    change (Function.update s₁.workers w pc w).leaving = false
    rwa [Function.update_self]
  cases stepped with
  | displaced here beyond => exact absurd inside (Nat.not_lt.mpr beyond)
  | leaveReady here | leaveNext _ _ here | leaveScan here | leavePick _ _ _ here | leaveTimer _ here
  | leaveSpill here =>
    rw [here] at staying
    cases staying
  | takes | chooses | drained | looks | peeks | exits | stays | runs | idles | skips | dispatches
  | finishes | uncreated | creates | drops | resumes | sleeps | yields | ends | parked | leaves =>
    exact moved rfl

/-- The slots the shutdown call has passed are empty. -/
def Joined (s : State) : Prop :=
  ∀ w < s.shutdownCall.joined s.workerCount, s.workers w = .absent

theorem Joined.of_call (joined : Joined s) (call : s'.shutdownCall = s.shutdownCall)
    (count : s'.workerCount = s.workerCount)
    (workers : ∀ w, s.workers w = .absent → s'.workers w = .absent) : Joined s' := by
  intro w low
  rw [call, count] at low
  exact workers w (joined w low)

theorem Joined.caller (joined : Joined s) (room : s.maxWorkerCount = s.workerCount)
    (stepped : CallerStep s label s') (steady : label.steady = true) : Joined s' := by
  have vacated : ∀ {s₁ : State} v w, s₁.workers w = .absent → (s₁.setWorker v .absent).workers w = .absent := by
    intro s₁ v w absent
    change Function.update s₁.workers v .absent w = .absent
    by_cases own : w = v
    · rw [own, Function.update_self]
    · rwa [Function.update_of_ne own]
  cases stepped with
  | flags | unlinks | seizes =>
    unfold State.resolveCancelled
    split <;> exact joined
  | resizes => cases steady
  | joins v here beyond => exact joined.of_call rfl rfl (vacated v)
  | closes here =>
    intro w low
    cases low
  | passes i here absent =>
    intro w low
    rcases Nat.lt_succ_iff_lt_or_eq.mp low with before | last
    · apply joined w
      rw [here]
      exact before
    · rw [last]
      exact absent
  | awaits i here exited =>
    intro w low
    rcases Nat.lt_succ_iff_lt_or_eq.mp low with before | last
    · apply vacated i w
      apply joined w
      rw [here]
      exact before
    · rw [last]
      exact Function.update_self _ _ _
  | untimed i here all | stops i here all =>
    intro w low
    apply joined w
    rw [here]
    rw [room] at all
    exact Nat.lt_of_lt_of_le low all
  | returns here exited =>
    intro w low
    apply joined w
    rw [here]
    exact low
  | refused | submits | hands | loses => exact joined

theorem Joined.step (joined : Joined s) (room : s.maxWorkerCount = s.workerCount)
    (steady : label.steady = true) (stepped : step s label = some s') : Joined s' := by
  cases own : label.actor with
  | worker v =>
    have ran := worker_step own stepped
    have turns := turns_worker ran
    have call : s'.shutdownCall = s.shutdownCall := by
      cases ran with
      | drops t | leaveNext t | leaveTimer t =>
        obtain ⟨tasks, futures, -, shape⟩ := State.terminate_eq s t
        rw [shape]
        rfl
      | _ => rfl
    apply joined.of_call call (holds_step steady stepped).count
    intro w absent
    rw [turns.others w]
    · exact absent
    · intro same
      rw [same] at absent
      exact turns.live.1 absent
  | timer =>
    have timed := timer_step own stepped
    cases timed <;> exact joined
  | caller => exact joined.caller room (caller_step own stepped) steady

/-- A pool whose worker set is not changed. -/
structure Draining (s : State) : Prop where
  manned : 0 < s.workerCount
  room : s.maxWorkerCount = s.workerCount
  staying : ∀ w, (s.workers w).leaving = false
  closed : ∀ w < s.workerCount, (s.workers w).closing = true → s.shutdown = true ∧ s.lane = []
  joined : Joined s

theorem Draining.undisturbed (draining : Draining s) (label : Label) : Undisturbed s label := by
  have undrained : ∀ w, (s.workers w).drained = false := by
    intro w
    have staying := draining.staying w
    cases here : s.workers w <;> rw [here] at staying <;> first | rfl | cases staying
  cases label with
  | timerFire alloc =>
    cases alloc with
    | true => exact fun entry _ => undrained entry.workerIdx
    | false => trivial
  | _ => trivial

theorem Draining.step (draining : Draining s) (placed : Placed s) (steady : label.steady = true)
    (stepped : step s label = some s') : Draining s' := by
  have holds := holds_step steady stepped
  refine ⟨?_, ?_, ?_, ?_, draining.joined.step draining.room steady stepped⟩
  · rw [holds.count]
    exact draining.manned
  · rw [holds.room, holds.count]
    exact draining.room
  · intro w
    have staying := draining.staying w
    by_cases own : label.actor = .worker w
    · have ran := worker_step own stepped
      have inside := placed.slots (turns_worker ran).live.1
      rw [draining.room] at inside
      exact staying_worker ran staying inside
    · rcases workers_foreign own stepped with same | ⟨-, top⟩ | ⟨-, absent⟩
      · rw [same]
        exact staying
      · rw [top]
        rfl
      · rw [absent]
        rfl
  · intro w inside closing
    rw [holds.count] at inside
    apply holds.closed
    by_cases own : label.actor = .worker w
    · rcases closing_worker (worker_step own stepped) (draining.staying w) closing with before | closed
      · exact draining.closed w inside before
      · exact closed
    · apply draining.closed w inside
      rcases workers_foreign own stepped with same | ⟨-, top⟩ | ⟨exited, -⟩
      · rwa [same] at closing
      · rw [top] at closing
        cases closing
      · rw [exited]
        rfl

/-- loom_pool_shutdown has come to the timer thread. -/
def ShutdownPc.pastWorkers : ShutdownPc → Bool
  | .joinTimer | .returned => true
  | _ => false

/-- A worker that has left owns no coroutine that is not at its end, and when the timer
thread is joined the heap is empty and every accepted task is at its end. -/
structure Drained (s : State) : Prop where
  places : ∀ w, s.workers w = .exited → s.coroReady w = [] ∧ s.sleeping w = []
  owned : ∀ w t, s.workers w = .exited → s.owner t = some w → s.ended t ≠ none
  heap : s.shutdownCall.pastWorkers = true → s.timerHeap.entries = []
  tasks : s.shutdownCall.pastWorkers = true → ∀ t, 1 < t → t ≤ s.nextTaskId → s.ended t ≠ none

theorem Draining.absent (draining : Draining s) (placed : Placed s)
    (past : s.shutdownCall.pastWorkers = true) (w : Nat) : s.workers w = .absent := by
  by_contra present
  have inside := placed.slots present
  rw [draining.room] at inside
  apply present
  apply draining.joined w
  cases call : s.shutdownCall with
  | idle | joining =>
    rw [call] at past
    cases past
  | joinTimer | returned => exact inside

theorem Draining.drained (draining : Draining s) (placed : Placed s) (complete : Complete s.homes)
    (cleared : Cleared s) : Drained s := by
  refine ⟨?_, ?_, ?_, ?_⟩
  · intro w exited
    have empty := fun p owner => cleared.places (p := p) (Or.inl exited) owner
    exact ⟨empty (.ready w) rfl, empty (.timer w) rfl⟩
  · intro w t exited owner unended
    obtain ⟨low, high⟩ := placed.housed.born owner
    obtain ⟨p, member⟩ := complete t low high unended
    have agree : s.owner t = p.owner := (placed.known member).2.2.2
    rw [owner] at agree
    change t ∈ s.site p at member
    rw [cleared.places (Or.inl exited) agree.symm] at member
    cases member
  · intro past
    apply List.eq_nil_iff_forall_not_mem.mpr
    intro entry member
    have absent := draining.absent placed past entry.workerIdx
    have empty : s.site (.timer entry.workerIdx) = [] := cleared.places (Or.inr absent) rfl
    have asleep : entry.taskId ∈ s.site (.timer entry.workerIdx) := by
      apply List.mem_map.mpr
      exact ⟨entry, List.mem_filter.mpr ⟨member, by simp⟩, rfl⟩
    rw [empty] at asleep
    cases asleep
  · intro past t low high unended
    have absent := draining.absent placed past
    have lane : s.lane = [] := by
      have closing : (s.workers 0).closing = true := by
        rw [absent 0]
        rfl
      exact (draining.closed 0 draining.manned closing).2
    obtain ⟨p, member⟩ := complete t low high unended
    change t ∈ s.site p at member
    cases p with
    | queued =>
      change t ∈ s.lane at member
      rw [lane] at member
      cases member
    | dispatching w =>
      change t ∈ (s.workers w).dispatches at member
      rw [absent w] at member
      cases member
    | held w | ready w | timer w | handed w =>
      rw [cleared.places (Or.inr (absent w)) rfl] at member
      cases member

end Loomworks.Pool.Residence

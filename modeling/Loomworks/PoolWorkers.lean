import Loomworks.PoolMoves

/- Each step of a worker, and of the timer thread, is a run of moves of the
abstract placement machine. -/
namespace Loomworks.Pool

namespace ThreadPool

variable {tame steady : Prop} {s s' : ThreadPool} {live live' : Finset Nat} {w t : Nat}

namespace Tracked

theorem runLane (tracked : s.Tracked live) (inside : w < s.maxWorkerCount)
    {lanes : Nat → List Nat} (left : (laneTasks s.lanes).Perm (t :: laneTasks lanes)) :
    Refines tame steady s live
      (runBoundary { s with lanes, queueLen := s.queueLen - 1 } w t false) := by
  have shaped : Shaped { s with lanes, queueLen := s.queueLen - 1 } :=
    ⟨tracked.shaped.counts, tracked.shaped.vacant, tracked.shaped.heap, tracked.shaped.fits⟩
  unfold runBoundary
  simp only [Bool.false_eq_true, if_false]
  split
  · rename_i flagged
    have skipped : Refines tame steady s live { s with lanes, queueLen := s.queueLen - 1 } :=
      ⟨shaped, live, tracked.holds, .single (Move.skipLane left flagged)⟩
    exact skipped.unseen ((unseen_markFutureCancelled _ t).trans (unseen_taskDestroy _ t _))
  · rename_i unflagged
    have unflagged : (s.tasks t).cancelled = false := Bool.eq_false_iff.mpr unflagged
    split
    · refine ⟨(shaped.setWorker inside _).emit _, live, tracked.holds, ?_⟩
      exact .single
        (Move.runLane left unflagged (tokens_setWorker (s := s) (w := w) (.dispatching t)))
    · have destroyed := (unseen_taskDestroy _ t .dispatched).shaped shaped
      refine ⟨(destroyed.setWorker inside _).emit _, live, tracked.holds, ?_⟩
      refine .single (Move.runLane left unflagged ?_)
      exact List.subset_cons_of_subset t (tokens_setWorker (s := s) (.running t))

/-- The run boundary of a task from the ring or a deque. -/
theorem runRing (tracked : s.Tracked live) (inside : w < s.maxWorkerCount)
    {ring : List Nat} {deques : Option (Nat → List Nat)} {dequeTotal : Int}
    (left : s.pooled.Perm (t :: pooled { s with ring, deques, dequeTotal }))
    (fits : s.Fits → Fits { s with ring, deques, dequeTotal }) :
    Refines tame steady s live (runBoundary { s with ring, deques, dequeTotal } w t true) := by
  have present : t ∈ s.pooled := left.mem_iff.mpr List.mem_cons_self
  have positive : 0 < t := tracked.safe.pos_of_placed (List.mem_append_left _ present)
  have older : ∀ x, (cancelIndexRemove s.index t).Stale x → s.index.Stale x ∨ x = t :=
    fun x stale => tracked.holds.stale_remove positive stale
  have holds := tracked.holds.remove positive
  have plain : (s.tasks t).isCoro = false := tracked.safe.plain t (Or.inl present)
  let taken : ThreadPool := { s with ring, deques, dequeTotal, index := cancelIndexRemove s.index t }
  have shaped : taken.Shaped :=
    ⟨tracked.shaped.counts, tracked.shaped.vacant, tracked.shaped.heap, fits tracked.shaped.fits⟩
  have seen : taken.view (live.erase t) =
      { s.view live with
        pooled := pooled { s with ring, deques, dequeTotal }
        live := live.erase t
        stale := (cancelIndexRemove s.index t).Stale } := by
    show { s.view live with
      pooled := pooled { s with ring, deques, dequeTotal }
      live := live.erase t
      stale := (cancelIndexRemove s.index t).Stale
      cap := (cancelIndexRemove s.index t).cap } = _
    rw [cancelIndexRemove_cap]
    rfl
  unfold runBoundary
  simp only [if_true]
  split
  · rename_i flagged
    have skipped : Refines tame steady s live taken := by
      refine ⟨shaped, live.erase t, holds, .single ?_⟩
      rw [seen]
      exact Move.skipPooled left flagged older
    exact skipped.unseen ((unseen_markFutureCancelled _ t).trans (unseen_taskDestroy _ t _))
  · rename_i unflagged
    have unflagged : (s.tasks t).cancelled = false := Bool.eq_false_iff.mpr unflagged
    rw [if_neg (by simp [plain])]
    refine ⟨⟨shaped.counts, (shaped.setWorker inside (.running t)).vacant, shaped.heap,
      shaped.fits⟩, live.erase t, holds, ?_⟩
    refine .single (?_ : Move tame steady _ ({ taken.view (live.erase t) with
      tokens := (s.setWorker w (.running t)).tokens, queueLen := s.queueLen - 1 }.emit
        (.dispatched t)))
    rw [seen]
    refine Move.runPooled left unflagged older ?_
    exact List.subset_cons_of_subset t (tokens_setWorker (s := s) (.running t))

theorem takeReady (tracked : s.Tracked live) (inside : w < s.maxWorkerCount) {rest : List Nat}
    (ready : s.coroReady w = t :: rest) : Refines tame steady s live
      ({ s with coroReady := Function.update s.coroReady w rest }.setWorker w (.ready t)) := by
  refine Refines.retoken tracked.idle ?_ rfl rfl ?_ fun _ => rfl
  · have shaped : Shaped { s with coroReady := Function.update s.coroReady w rest } :=
      ⟨tracked.shaped.counts, tracked.shaped.vacant, tracked.shaped.heap, tracked.shaped.fits⟩
    exact shaped.setWorker inside _
  · intro x member
    rcases List.mem_append.mp (tokens_setWorker _ member) with new | old
    · rw [List.mem_singleton.mp new]
      exact ready_mem_tokens inside (by simp [ready])
    · rcases List.mem_append.mp (tokens_setReady rest old) with kept | others
      · exact ready_mem_tokens inside (by simp [ready, kept])
      · exact others

/-- The run boundary of what Steps 0 to 4 have found. -/
theorem runFetched (tracked : s.Tracked live) (inside : w < s.maxWorkerCount) {fromRing : Bool}
    (fetched : Fetched s (s', some (t, fromRing))) :
    Refines tame steady s live (s'.runBoundary w t fromRing) := by
  cases fetched with
  | lane left => exact tracked.runLane inside left
  | ring left fits => exact tracked.runRing inside left fits

theorem workerPass (tracked : s.Tracked live) {cas : Bool} (passed : s.workerPass w cas = some s') :
    Refines tame steady s live s' := by
  unfold ThreadPool.workerPass at passed
  split at passed
  · rename_i looping
    have inside : w < s.maxWorkerCount := tracked.shaped.lt_of_alive (by simp [looping])
    split at passed
    · rename_i t rest ready
      cases passed
      exact tracked.takeReady inside ready
    · split at passed
      · cases passed
        exact tracked.idle.release inside rfl
      · have fetched := fetched_fetchTask tracked.shaped.counts inside cas
        split at passed
        · rename_i after nothing
          rw [nothing] at fetched
          cases fetched
          cases passed
          exact tracked.idle.release inside rfl
        · rename_i after t fromRing found
          rw [found] at fetched
          cases passed
          exact tracked.runFetched inside fetched
  · cases passed

theorem finish (tracked : s.Tracked live) {result : Nat} (ended : s.finish w result = some s') :
    Refines tame steady s live s' := by
  unfold ThreadPool.finish at ended
  split at ended
  · rename_i t running
    have inside : w < s.maxWorkerCount := tracked.shaped.lt_of_alive (by simp [running])
    cases ended
    dsimp only
    split
    · exact (tracked.idle.unseen (unseen_setFuture s t _)).release inside rfl
    · exact tracked.idle.release inside rfl
  · cases ended

/-- A coroutine task at hand is out of the index. -/
theorem dead_of_token (tracked : s.Tracked live) (token : t ∈ s.tokens) : t ∉ live :=
  fun listed => tracked.safe.not_token (Or.inl (tracked.safe.live t listed)) token

theorem create (tracked : s.Tracked live) {handle : Option Nat}
    (made : s.create w handle = some s') : Refines tame steady s live s' := by
  unfold ThreadPool.create at made
  split at made
  · rename_i t dispatching
    have inside : w < s.maxWorkerCount := tracked.shaped.lt_of_alive (by simp [dispatching])
    cases made
    exact (tracked.idle.unseen (unseen_taskDestroy s t .failed)).release inside rfl
  · rename_i t coro dispatching
    have inside : w < s.maxWorkerCount := tracked.shaped.lt_of_alive (by simp [dispatching])
    have token : t ∈ s.tokens := held_mem_tokens inside (by simp [dispatching, WorkerPc.held])
    cases made
    have renamed : Refines tame steady s live (s.setTask t { s.tasks t with userData := coro }) := by
      refine ⟨tracked.shaped.setTask t _, live, tracked.holds.congr ?_, ?_⟩
      · intro x listed
        have differs : x ≠ t := fun same => tracked.dead_of_token token (same ▸ listed)
        exact congrArg Task.userData (Function.update_of_ne differs _ _)
      · have same : (s.setTask t { s.tasks t with userData := coro }).view live = s.view live :=
          view_setTask rfl rfl
        rw [same]
    exact renamed.setWorker inside (List.cons_subset.mpr ⟨token, List.nil_subset _⟩)
  · cases made

theorem checkReady (tracked : s.Tracked live) (checked : s.checkReady w = some s') :
    Refines tame steady s live s' := by
  unfold ThreadPool.checkReady at checked
  split at checked
  · rename_i t ready
    have inside : w < s.maxWorkerCount := tracked.shaped.lt_of_alive (by simp [ready])
    have token : t ∈ s.tokens := held_mem_tokens inside (by simp [ready, WorkerPc.held])
    split at checked
    · cases checked
      have ended := (unseen_resolveCancelled s t).trans (unseen_taskDestroy _ t .cancelled)
      exact (tracked.idle.unseen ended).release (by rwa [ended.limit]) rfl
    · rename_i unflagged
      cases checked
      have unflagged : (s.tasks t).cancelled = false := Bool.eq_false_iff.mpr unflagged
      have resumed : Refines tame steady s live (s.emit (.resumed t)) :=
        ⟨tracked.shaped.emit _, live, tracked.holds,
          .single (Move.resume token unflagged)⟩
      show Refines tame steady s live ((s.emit (.resumed t)).setWorker w (.inBody t false))
      exact resumed.setWorker inside (List.cons_subset.mpr ⟨token, List.nil_subset _⟩)
  · cases checked

theorem afterFirst (tracked : s.Tracked live) (inside : w < s.maxWorkerCount) (token : t ∈ s.tokens)
    (crc : Coro.CoroResult) (state : Coro.CoroState) (alloc : Bool) :
    Refines tame steady s live (s.afterFirst w t crc state alloc) := by
  have failed : Refines tame steady s live ((s.resolve t .errFailed).taskDestroy t .failed) :=
    tracked.idle.unseen ((unseen_resolve s t .errFailed).trans (unseen_taskDestroy _ t .failed))
  have dropped : Refines tame steady s live (s.taskDestroy t .failed) :=
    tracked.idle.unseen (unseen_taskDestroy s t .failed)
  unfold ThreadPool.afterFirst
  split
  · split
    · split
      · exact tracked.idle.pushReady inside token
      · exact failed
    · exact tracked.idle.timerPush inside token
    · exact tracked.idle.unseen ((unseen_resolve s t .ok).trans (unseen_taskDestroy _ t .returned))
    · exact dropped
  · split
    · exact failed
    · exact dropped

theorem afterResume (tracked : s.Tracked live) (inside : w < s.maxWorkerCount)
    (token : t ∈ s.tokens) (crc : Coro.CoroResult) (state : Coro.CoroState) :
    Refines tame steady s live (s.afterResume w t crc state) := by
  have dropped : ∀ how, Refines tame steady s live (s.taskDestroy t how) :=
    fun how => tracked.idle.unseen (unseen_taskDestroy s t how)
  unfold ThreadPool.afterResume
  split
  · split
    · exact tracked.idle.pushReady inside token
    · exact tracked.idle.timerPush inside token
    · exact dropped .returned
    · exact dropped .failed
  · exact dropped .failed

theorem limit_afterFirst (s : ThreadPool) (w t : Nat) (crc : Coro.CoroResult)
    (state : Coro.CoroState) (alloc : Bool) :
    (s.afterFirst w t crc state alloc).maxWorkerCount = s.maxWorkerCount := by
  have resolved : ∀ status, (s.resolve t status).maxWorkerCount = s.maxWorkerCount :=
    fun status => (unseen_resolve s t status).limit
  unfold ThreadPool.afterFirst
  split
  · split
    · split
      · rfl
      · exact resolved .errFailed
    · rfl
    · exact resolved .ok
    · rfl
  · split
    · exact resolved .errFailed
    · rfl

theorem limit_afterResume (s : ThreadPool) (w t : Nat) (crc : Coro.CoroResult)
    (state : Coro.CoroState) :
    (s.afterResume w t crc state).maxWorkerCount = s.maxWorkerCount := by
  unfold ThreadPool.afterResume
  split
  · split <;> rfl
  · rfl

theorem bodyEnds (tracked : s.Tracked live) {behaviour : Behaviour} {alloc : Bool}
    (ended : s.bodyEnds w behaviour alloc = some s') : Refines tame steady s live s' := by
  unfold ThreadPool.bodyEnds at ended
  split at ended
  · rename_i t body
    have inside : w < s.maxWorkerCount := tracked.shaped.lt_of_alive (by simp [body])
    have token : t ∈ s.tokens := held_mem_tokens inside (by simp [body, WorkerPc.held])
    cases ended
    refine (tracked.afterFirst inside token _ _ alloc).release ?_ rfl
    rwa [limit_afterFirst]
  · rename_i t body
    have inside : w < s.maxWorkerCount := tracked.shaped.lt_of_alive (by simp [body])
    have token : t ∈ s.tokens := held_mem_tokens inside (by simp [body, WorkerPc.held])
    cases ended
    refine (tracked.afterResume inside token _ _).release ?_ rfl
    rwa [limit_afterResume]
  · cases ended

theorem timerFire (tracked : s.Tracked live) {i : Nat} {alloc : TimerAlloc}
    (fired : s.timerFire i alloc = some s') : Refines tame steady s live s' := by
  unfold ThreadPool.timerFire at fired
  split at fired
  · cases fired
  · rename_i entry due
    have listed : entry ∈ s.timerHeap := List.mem_of_getElem? due
    have token : entry.task ∈ s.tokens := mem_tokens.mpr (Or.inr (Or.inl ⟨entry, listed, rfl⟩))
    have inside := tracked.shaped.heap entry listed
    have fewer : s.timerHeap.eraseIdx i ⊆ s.timerHeap := List.eraseIdx_subset
    cases alloc with
    | ready =>
      -- the entry leaves the heap after the push: its task is at hand throughout
      simp only [if_pos inside] at fired
      cases fired
      exact ((tracked.idle.pushReady inside token).resetHeap fewer).semaphore _ _
    | rearmed =>
      cases fired
      refine tracked.idle.resetHeap ?_
      intro other member
      rcases List.mem_append.mp member with old | added
      · exact fewer old
      · rw [List.mem_singleton.mp added]
        exact listed
    | dropped =>
      cases fired
      exact tracked.idle.resetHeap fewer

theorem wake (tracked : s.Tracked live) (alive : s.workers w ≠ .absent) (workSem posts : Nat) :
    Refines tame steady s live { s.setWorker w .looping with workSem, posts } :=
  (tracked.idle.release (tracked.shaped.lt_of_alive alive) rfl).semaphore workSem posts


end Tracked

end ThreadPool

end Loomworks.Pool

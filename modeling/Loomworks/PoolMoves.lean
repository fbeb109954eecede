import Loomworks.PoolFetch

/- The pool against the abstract placement machine: what a step has to establish,
and the submits. -/
namespace Loomworks.Pool

namespace ThreadPool

def view (s : ThreadPool) (live : Finset Nat) : View :=
  { pooled := s.pooled
    lanes := laneTasks s.lanes
    tokens := s.tokens
    live
    stale := s.index.Stale
    flag := fun t => (s.tasks t).cancelled
    coro := fun t => (s.tasks t).isCoro
    events := s.events
    queueLen := s.queueLen
    nextTaskId := s.nextTaskId
    cap := s.index.cap }

/-- The user_data pointers the index was filled from. -/
def dataOf (s : ThreadPool) (t : Nat) : Nat := (s.tasks t).userData

/-- What the arrays of the pool always satisfy: threads and timer entries belong
to existing slots, and the queues keep within their sizes. -/
structure Shaped (s : ThreadPool) : Prop where
  counts : s.workerCount ≤ s.maxWorkerCount
  vacant : ∀ w, s.maxWorkerCount ≤ w → s.workers w = .absent
  heap : ∀ entry ∈ s.timerHeap, entry.workerIdx < s.maxWorkerCount
  fits : s.Fits

/-- The pool between two steps, against the abstract machine. -/
structure Tracked (s : ThreadPool) (live : Finset Nat) : Prop where
  shaped : s.Shaped
  holds : Holds s.dataOf s.index live
  safe : Safe (s.view live)

/-- What a step has to establish. -/
structure Refines (tame steady : Prop) (s : ThreadPool) (live : Finset Nat) (s' : ThreadPool) :
    Prop where
  shaped : s'.Shaped
  moved : ∃ live', Holds s'.dataOf s'.index live' ∧
    Moves tame steady (s.view live) (s'.view live')

variable {tame steady : Prop} {s s' : ThreadPool} {live live' : Finset Nat} {w t : Nat}

theorem mem_tokens {x : Nat} : x ∈ s.tokens ↔
    (∃ w < s.maxWorkerCount, x ∈ s.coroReady w) ∨ (∃ entry ∈ s.timerHeap, entry.task = x) ∨
      ∃ w < s.maxWorkerCount, x ∈ (s.workers w).held := by
  simp only [tokens, List.mem_append, Bins.mem_all, List.mem_map]

/-- A worker changes hands: only what it holds now can be new. -/
theorem tokens_setWorker (pc : WorkerPc) : (s.setWorker w pc).tokens ⊆ pc.held ++ s.tokens := by
  intro x member
  rw [List.mem_append]
  rcases mem_tokens.mp member with ready | asleep | ⟨v, inside, held⟩
  · exact Or.inr (mem_tokens.mpr (Or.inl ready))
  · exact Or.inr (mem_tokens.mpr (Or.inr (Or.inl asleep)))
  · by_cases same : v = w
    · subst same
      simp only [setWorker, Function.update_self] at held
      exact Or.inl held
    · simp only [setWorker, Function.update_of_ne same] at held
      exact Or.inr (mem_tokens.mpr (Or.inr (Or.inr ⟨v, inside, held⟩)))

theorem tokens_setReady (list : List Nat) :
    tokens { s with coroReady := Function.update s.coroReady w list } ⊆ list ++ s.tokens := by
  intro x member
  rw [List.mem_append]
  rcases mem_tokens.mp member with ⟨v, inside, ready⟩ | others
  · have ready : x ∈ Function.update s.coroReady w list v := ready
    by_cases same : v = w
    · rw [same, Function.update_self] at ready
      exact Or.inl ready
    · rw [Function.update_of_ne same] at ready
      exact Or.inr (mem_tokens.mpr (Or.inl ⟨v, inside, ready⟩))
  · exact Or.inr (mem_tokens.mpr (Or.inr others))

theorem ready_mem_tokens (inside : w < s.maxWorkerCount) (ready : t ∈ s.coroReady w) :
    t ∈ s.tokens :=
  mem_tokens.mpr (Or.inl ⟨w, inside, ready⟩)

theorem held_mem_tokens (inside : w < s.maxWorkerCount) (held : t ∈ (s.workers w).held) :
    t ∈ s.tokens :=
  mem_tokens.mpr (Or.inr (Or.inr ⟨w, inside, held⟩))

theorem Shaped.lt_of_alive (shaped : s.Shaped) (alive : s.workers w ≠ .absent) :
    w < s.maxWorkerCount := by
  by_contra beyond
  exact alive (shaped.vacant w (by omega))

theorem field_update {α : Type} (field : Task → α) (task : Task) (t : Nat) :
    (fun x => field ((s.setTask t task).tasks x)) =
      Function.update (fun x => field (s.tasks x)) t (field task) :=
  Function.comp_update field s.tasks t task

theorem field_kept {α : Type} {field : Task → α} {task : Task}
    (same : field task = field (s.tasks t)) :
    (fun x => field ((s.setTask t task).tasks x)) = fun x => field (s.tasks x) := by
  rw [field_update, same]
  exact Function.update_eq_self t fun x => field (s.tasks x)

/-- A change of a task's node that keeps its kind and its flag is not seen. -/
theorem view_setTask {task : Task} (flag : task.cancelled = (s.tasks t).cancelled)
    (kind : task.isCoro = (s.tasks t).isCoro) : (s.setTask t task).view live = s.view live := by
  show { s.view live with
    flag := fun x => ((s.setTask t task).tasks x).cancelled
    coro := fun x => ((s.setTask t task).tasks x).isCoro } = _
  rw [field_kept flag, field_kept kind]
  rfl

theorem view_flag : (s.flag t).view live = (s.view live).raise t := by
  have kind : (fun x => ((s.flag t).tasks x).isCoro) = fun x => (s.tasks x).isCoro := field_kept rfl
  have flags : (fun x => ((s.flag t).tasks x).cancelled) =
      Function.update (fun x => (s.tasks x).cancelled) t true :=
    field_update Task.cancelled { s.tasks t with cancelled := true } t
  show { s.view live with
    flag := fun x => ((s.flag t).tasks x).cancelled
    coro := fun x => ((s.flag t).tasks x).isCoro } = _
  rw [flags, kind]
  rfl

/-- An index of the same capacity is seen by its tombstones only. -/
theorem view_index {index : CancelIndex} (same : index.cap = s.index.cap) :
    ThreadPool.view { s with index } live = { s.view live with stale := index.Stale } := by
  show { s.view live with stale := index.Stale, cap := index.cap } = _
  rw [same]
  rfl

theorem view_taskCreate {task : Task} (unflagged : task.cancelled = false) :
    (s.taskCreate task).view live = (s.view live).create task.isCoro := by
  have flags := field_update (s := s) Task.cancelled task (s.nextTaskId + 1)
  have kinds := field_update (s := s) Task.isCoro task (s.nextTaskId + 1)
  rw [unflagged] at flags
  show { s.view live with
    flag := fun x => ((s.setTask (s.nextTaskId + 1) task).tasks x).cancelled
    coro := fun x => ((s.setTask (s.nextTaskId + 1) task).tasks x).isCoro
    nextTaskId := s.nextTaskId + 1 } = _
  rw [flags, kinds]
  rfl

theorem Shaped.setWorker (shaped : s.Shaped) (inside : w < s.maxWorkerCount) (pc : WorkerPc) :
    (s.setWorker w pc).Shaped := by
  refine ⟨shaped.counts, ?_, shaped.heap, shaped.fits⟩
  intro v beyond
  have beyond : s.maxWorkerCount ≤ v := beyond
  have differs : v ≠ w := by omega
  simpa [ThreadPool.setWorker, differs] using shaped.vacant v beyond

theorem Shaped.setTask (shaped : s.Shaped) (t : Nat) (task : Task) : (s.setTask t task).Shaped :=
  ⟨shaped.counts, shaped.vacant, shaped.heap, shaped.fits⟩

theorem dataOf_setTask {task : Task} (same : task.userData = (s.tasks t).userData) :
    (s.setTask t task).dataOf = s.dataOf :=
  field_kept same

/-- The second pool differs only in what the abstract machine does not see. -/
structure Unseen (s s' : ThreadPool) : Prop where
  view : ∀ live, s'.view live = s.view live
  data : s'.dataOf = s.dataOf
  index : s'.index = s.index
  limit : s'.maxWorkerCount = s.maxWorkerCount
  shaped : s.Shaped → s'.Shaped

theorem Unseen.refl (s : ThreadPool) : Unseen s s := ⟨fun _ => rfl, rfl, rfl, rfl, fun shaped => shaped⟩

theorem Unseen.trans {first second third : ThreadPool} (left : Unseen first second)
    (right : Unseen second third) : Unseen first third :=
  ⟨fun live => (right.view live).trans (left.view live), right.data.trans left.data,
    right.index.trans left.index, right.limit.trans left.limit, fun shaped => right.shaped (left.shaped shaped)⟩

theorem unseen_setFuture (s : ThreadPool) (t : Nat) (fut : Future) : Unseen s (s.setFuture t fut) :=
  ⟨fun _ => rfl, rfl, rfl, rfl, fun shaped =>
    ⟨shaped.counts, shaped.vacant, shaped.heap, shaped.fits⟩⟩

theorem unseen_taskDestroy (s : ThreadPool) (t : Nat) (how : Ending) :
    Unseen s (s.taskDestroy t how) :=
  ⟨fun _ => rfl, rfl, rfl, rfl, fun shaped =>
    ⟨shaped.counts, shaped.vacant, shaped.heap, shaped.fits⟩⟩

theorem unseen_setTask {task : Task} (flag : task.cancelled = (s.tasks t).cancelled)
    (data : task.userData = (s.tasks t).userData) (kind : task.isCoro = (s.tasks t).isCoro) :
    Unseen s (s.setTask t task) :=
  ⟨fun _ => view_setTask flag kind, dataOf_setTask data, rfl, rfl, fun shaped => shaped.setTask t task⟩

theorem unseen_resolveCancelled (s : ThreadPool) (t : Nat) : Unseen s (s.resolveCancelled t) := by
  unfold resolveCancelled
  split
  · exact (unseen_setFuture s t _).trans (unseen_setTask rfl rfl rfl)
  · exact Unseen.refl s

theorem unseen_resolve (s : ThreadPool) (t : Nat) (status : LoomResult) :
    Unseen s (s.resolve t status) := by
  unfold resolve
  split
  · exact (unseen_setFuture s t _).trans (unseen_setTask rfl rfl rfl)
  · exact Unseen.refl s

theorem unseen_markFutureCancelled (s : ThreadPool) (t : Nat) : Unseen s (s.markFutureCancelled t) := by
  unfold markFutureCancelled
  split
  · exact unseen_setFuture s t _
  · exact Unseen.refl s

namespace Tracked

theorem notMem_live (tracked : s.Tracked live) : s.nextTaskId + 1 ∉ live := by
  intro member
  have bound := tracked.safe.le_of_phase (t := s.nextTaskId + 1)
    (by rw [tracked.safe.live _ member]; decide)
  have bound : s.nextTaskId + 1 ≤ s.nextTaskId := bound
  omega

theorem idle (tracked : s.Tracked live) : Refines tame steady s live s :=
  ⟨tracked.shaped, live, tracked.holds, .refl⟩

/-- task_create leaves the queues and the index alone. -/
theorem taskCreate (tracked : s.Tracked live) (task : Task) :
    (s.taskCreate task).Shaped ∧ Holds (s.taskCreate task).dataOf s.index live := by
  constructor
  · exact ⟨tracked.shaped.counts, tracked.shaped.vacant, tracked.shaped.heap, tracked.shaped.fits⟩
  · refine tracked.holds.congr ?_
    intro t member
    have differs : t ≠ s.nextTaskId + 1 := fun same => tracked.notMem_live (same ▸ member)
    simp [dataOf, ThreadPool.taskCreate, setTask, differs]

theorem joinLane (tracked : s.Tracked live) {task : Task} (unflagged : task.cancelled = false)
    (posts : Nat) :
    Refines tame steady s live
      ({ (s.taskCreate task).loomEnqueueUnlocked (s.nextTaskId + 1) with posts }.emit
        (.submitted (s.nextTaskId + 1))) := by
  obtain ⟨shaped, holds⟩ := tracked.taskCreate task
  refine ⟨⟨shaped.counts, shaped.vacant, shaped.heap, shaped.fits⟩, live, holds, ?_⟩
  have created : (s.taskCreate task).view live = (s.view live).create task.isCoro :=
    view_taskCreate unflagged
  have joined := laneTasks_append ((s.taskCreate task).tasks (s.nextTaskId + 1)).priority s.lanes
    (s.nextTaskId + 1)
  refine .single (?_ : Move tame steady _ ({ (s.taskCreate task).view live with
    lanes := _, queueLen := _ }.emit _))
  rw [created]
  exact Move.submitLane joined

theorem enqueueLaneTask (tracked : s.Tracked live) {task : Task} (unflagged : task.cancelled = false) :
    Refines tame steady s live (s.enqueueLaneTask task).1 := by
  unfold ThreadPool.enqueueLaneTask
  split
  · exact tracked.idle
  · exact tracked.joinLane unflagged (s.posts + 1)

theorem enqueueRingTask (tracked : s.Tracked live) {task : Task} (unflagged : task.cancelled = false)
    (plain : task.isCoro = false)
    (spare : steady → 0 < s.ringSize → s.ringSize + s.maxWorkerCount * dequeRest ≤ s.index.cap) :
    Refines tame steady s live (s.enqueueRingTask task).1 := by
  obtain ⟨shaped, holds⟩ := tracked.taskCreate task
  have created : (s.taskCreate task).view live = (s.view live).create task.isCoro :=
    view_taskCreate unflagged
  unfold ThreadPool.enqueueRingTask ringTryEnqueue
  dsimp only
  split
  · rename_i published enqueued
    split at enqueued
    · rename_i room
      cases enqueued
      have room : s.ring.length < s.ringSize := room
      have fresh := tracked.notMem_live
      obtain ⟨live', inserted, grown⟩ := holds.insert (Nat.succ_pos s.nextTaskId) fresh
      have few : s.dequeTasks.length ≤ s.maxWorkerCount * dequeRest :=
        Bins.length_all_le fun i _ => tracked.shaped.fits.2 i
      have joined : ((s.ring ++ [s.nextTaskId + 1]) ++ s.dequeTasks).Perm
          ((s.nextTaskId + 1) :: s.pooled) := by
        rw [List.append_assoc]
        exact List.perm_middle
      refine ⟨⟨shaped.counts, shaped.vacant, shaped.heap, ?_⟩, live', inserted, ?_⟩
      · refine ⟨?_, shaped.fits.2⟩
        show (s.ring ++ [s.nextTaskId + 1]).length ≤ s.ringSize
        rw [List.length_append, List.length_singleton]
        omega
      · have indexed := cancelIndexInsert_cap s.index (s.nextTaskId + 1)
          ((s.taskCreate task).tasks (s.nextTaskId + 1)).userData
        have seen := @view_index (s.taskCreate task) live _ indexed
        rw [created, plain] at seen
        refine .single (?_ : Move tame steady _
          ({ ThreadPool.view { s.taskCreate task with index := cancelIndexInsert s.index _ _ } live with
            pooled := (s.ring ++ [s.nextTaskId + 1]) ++ s.dequeTasks
            live := live'
            queueLen := s.queueLen + 1 }.emit (.submitted (s.nextTaskId + 1))))
        rw [seen]
        refine Move.submitPooled joined grown (fun x stale => stale_insert (Nat.succ_pos _) stale) ?_
        intro calm
        have enough := spare calm (by omega)
        show s.pooled.length < s.index.cap
        rw [pooled, List.length_append]
        omega
    · cases enqueued
  · unfold spillToNormalLane
    split
    · refine ⟨⟨shaped.counts, shaped.vacant, shaped.heap, shaped.fits⟩, live, holds,
        .single ?_⟩
      show Move tame steady _ ((s.taskCreate task).view live)
      rw [created]
      exact Move.refuse
    · exact tracked.joinLane unflagged (s.posts + 1)

theorem enqueueTask (tracked : s.Tracked live) {task : Task} (unflagged : task.cancelled = false)
    (plain : task.isCoro = false) (alloc : Bool)
    (spare : steady → 0 < s.ringSize → s.ringSize + s.maxWorkerCount * dequeRest ≤ s.index.cap) :
    Refines tame steady s live (s.enqueueTask task alloc).1 := by
  unfold ThreadPool.enqueueTask
  split
  · exact tracked.idle
  split
  · exact tracked.idle
  split
  · exact tracked.enqueueRingTask unflagged plain spare
  · exact tracked.enqueueLaneTask unflagged

theorem submitCoroutine (tracked : s.Tracked live) (arg : Nat) (withFuture alloc : Bool) :
    Refines tame steady s live (s.loomPoolSubmitCoroutine arg withFuture alloc).1 := by
  unfold loomPoolSubmitCoroutine
  split
  · exact tracked.idle
  · exact tracked.enqueueLaneTask rfl

end Tracked

namespace Refines

theorem unseen {final : ThreadPool} (refines : Refines tame steady s live s')
    (same : Unseen s' final) : Refines tame steady s live final := by
  obtain ⟨live', holds, moved⟩ := refines.moved
  refine ⟨same.shaped refines.shaped, live', ?_, ?_⟩
  · rw [same.data, same.index]
    exact holds
  · rw [same.view]
    exact moved

theorem retoken {final : ThreadPool} (refines : Refines tame steady s live s')
    (shaped : final.Shaped) (data : final.dataOf = s'.dataOf) (index : final.index = s'.index)
    (fewer : final.tokens ⊆ s'.tokens)
    (same : ∀ live, final.view live = { s'.view live with tokens := final.tokens }) :
    Refines tame steady s live final := by
  obtain ⟨live', holds, moved⟩ := refines.moved
  refine ⟨shaped, live', ?_, ?_⟩
  · rw [data, index]
    exact holds
  · rw [same]
    exact moved.tail (Move.coroutines fewer)

theorem setWorker (refines : Refines tame steady s live s') (inside : w < s'.maxWorkerCount)
    {pc : WorkerPc} (held : pc.held ⊆ s'.tokens) :
    Refines tame steady s live (s'.setWorker w pc) := by
  refine refines.retoken (refines.shaped.setWorker inside pc) rfl rfl ?_ fun _ => rfl
  intro x member
  rcases List.mem_append.mp (tokens_setWorker pc member) with new | old
  · exact held new
  · exact old

theorem release (refines : Refines tame steady s live s') (inside : w < s'.maxWorkerCount)
    {pc : WorkerPc} (free : pc.held = []) : Refines tame steady s live (s'.setWorker w pc) :=
  refines.setWorker inside (by simp [free])

theorem pushReady (refines : Refines tame steady s live s') (inside : w < s'.maxWorkerCount)
    (token : t ∈ s'.tokens) : Refines tame steady s live (s'.pushReady w t) := by
  have shaped := refines.shaped
  refine refines.retoken ⟨shaped.counts, shaped.vacant, shaped.heap, shaped.fits⟩
    rfl rfl ?_ fun _ => rfl
  intro x member
  rcases List.mem_append.mp (tokens_setReady _ member) with new | old
  · rcases List.mem_append.mp new with ready | added
    · exact ready_mem_tokens inside ready
    · rw [List.mem_singleton.mp added]
      exact token
  · exact old

theorem timerPush (refines : Refines tame steady s live s') {entry : TimerEntry}
    (inside : entry.workerIdx < s'.maxWorkerCount) (token : entry.task ∈ s'.tokens) :
    Refines tame steady s live (s'.timerPush entry) := by
  have shaped := refines.shaped
  refine refines.retoken ⟨shaped.counts, shaped.vacant, ?_, shaped.fits⟩
    rfl rfl ?_ fun _ => rfl
  · intro other member
    rcases List.mem_append.mp member with old | added
    · exact shaped.heap other old
    · rw [List.mem_singleton.mp added]
      exact inside
  · intro x member
    rcases mem_tokens.mp member with ready | ⟨other, listed, same⟩ | held
    · exact mem_tokens.mpr (Or.inl ready)
    · rcases List.mem_append.mp listed with old | added
      · exact mem_tokens.mpr (Or.inr (Or.inl ⟨other, old, same⟩))
      · rw [← same, List.mem_singleton.mp added]
        exact token
    · exact mem_tokens.mpr (Or.inr (Or.inr held))

theorem resetHeap (refines : Refines tame steady s live s') {timerHeap : List TimerEntry}
    (fewer : timerHeap ⊆ s'.timerHeap) : Refines tame steady s live { s' with timerHeap } := by
  have shaped := refines.shaped
  refine refines.retoken ⟨shaped.counts, shaped.vacant, ?_, shaped.fits⟩
    rfl rfl ?_ fun _ => rfl
  · exact fun entry member => shaped.heap entry (fewer member)
  · intro x member
    rcases mem_tokens.mp member with ready | ⟨entry, listed, same⟩ | held
    · exact mem_tokens.mpr (Or.inl ready)
    · exact mem_tokens.mpr (Or.inr (Or.inl ⟨entry, fewer listed, same⟩))
    · exact mem_tokens.mpr (Or.inr (Or.inr held))

theorem semaphore (refines : Refines tame steady s live s') (workSem posts : Nat) :
    Refines tame steady s live { s' with workSem, posts } :=
  refines.unseen ⟨fun _ => rfl, rfl, rfl, rfl, fun shaped =>
    ⟨shaped.counts, shaped.vacant, shaped.heap, shaped.fits⟩⟩

end Refines

theorem Shaped.emit (shaped : s.Shaped) (event : Event) : (s.emit event).Shaped :=
  ⟨shaped.counts, shaped.vacant, shaped.heap, shaped.fits⟩

end ThreadPool

end Loomworks.Pool

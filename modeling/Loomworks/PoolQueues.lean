import Loomworks.PoolControl
import Loomworks.PoolMoves

/- Which queue a task is in: the ring, the deques and the lanes of a pool, without
the threads and the futures. -/
namespace Loomworks.Pool

structure Queues where
  ring : List Nat
  deques : Option (Nat → List Nat)
  dequeTotal : Int
  lanes : Nat → List Nat
  maxWorkerCount : Nat
  priority : Nat → UInt8

def ThreadPool.queues (s : ThreadPool) : Queues :=
  { ring := s.ring
    deques := s.deques
    dequeTotal := s.dequeTotal
    lanes := s.lanes
    maxWorkerCount := s.maxWorkerCount
    priority := fun t => (s.tasks t).priority }

namespace Queues

def deque (q : Queues) (i : Nat) : List Nat :=
  match q.deques with
  | some deques => deques i
  | none => []

/-- The number of tasks in the deques. -/
def stashed (q : Queues) : Nat := (Bins.all q.maxWorkerCount q.deque).length

/-- A task waits in the lane b, or in the ring or a deque, whose tasks have normal
priority. -/
def Holds (q : Queues) (t b : Nat) : Prop :=
  t ∈ q.lanes b ∨ b = priorityNormal.toNat ∧ (t ∈ q.ring ∨ ∃ i, t ∈ q.deque i)

end Queues

/-- What a step can do to the queues: a task that is new in a queue is in the one
of its priority, only the given deques are filled, and without deques the ring gets
nothing. -/
structure Shuffles (filled : Nat → Prop) (q q' : Queues) : Prop where
  mode : q'.deques.isSome = q.deques.isSome
  dry : q.deques.isSome = false → q'.ring ⊆ q.ring
  priority : q'.priority = q.priority
  held : ∀ t b, q'.Holds t b → q.Holds t b ∨ b = (q.priority t).toNat
  fills : ∀ i, q'.deque i ≠ [] → q.deque i ≠ [] ∨ filled i
  total : q'.dequeTotal - q'.stashed = q.dequeTotal - q.stashed

variable {filled : Nat → Prop} {q q' q'' : Queues}

namespace Shuffles

theorem refl (filled : Nat → Prop) (q : Queues) : Shuffles filled q q :=
  ⟨rfl, fun _ => List.Subset.refl _, rfl, fun _ _ held => Or.inl held, fun _ some => Or.inl some, rfl⟩

theorem of_eq (same : q' = q) : Shuffles filled q q' := by
  rw [same]
  exact refl filled q

theorem trans (first : Shuffles filled q q') (second : Shuffles filled q' q'') :
    Shuffles filled q q'' := by
  refine ⟨second.mode.trans first.mode, ?_, second.priority.trans first.priority, ?_, ?_,
    second.total.trans first.total⟩
  · intro none_ x member
    exact first.dry none_ (second.dry (first.mode.trans none_) member)
  · intro t b held
    rcases second.held t b held with before | own
    · exact first.held t b before
    · right
      rw [own, first.priority]
  · intro i some
    rcases second.fills i some with before | new
    · exact first.fills i before
    · exact Or.inr new

theorem lanes {lanes : Nat → List Nat} (fewer : ∀ b, lanes b ⊆ q.lanes b) :
    Shuffles filled q { q with lanes } := by
  refine ⟨rfl, fun _ => List.Subset.refl _, rfl, ?_, fun _ some => Or.inl some, rfl⟩
  intro t b held
  left
  rcases held with lane | pooled
  · exact Or.inl (fewer b lane)
  · exact Or.inr pooled

theorem enqueue (q : Queues) (t : Nat) : Shuffles filled q
    { q with lanes :=
      Function.update q.lanes (q.priority t).toNat (q.lanes (q.priority t).toNat ++ [t]) } := by
  refine ⟨rfl, fun _ => List.Subset.refl _, rfl, ?_, fun _ some => Or.inl some, rfl⟩
  intro x b held
  rcases held with lane | pooled
  · have lane : x ∈ Function.update q.lanes (q.priority t).toNat _ b := lane
    by_cases here : b = (q.priority t).toNat
    · rw [here, Function.update_self, List.mem_append, List.mem_singleton] at lane
      rcases lane with before | rfl
      · left
        rw [here]
        exact Or.inl before
      · exact Or.inr here
    · rw [Function.update_of_ne here] at lane
      exact Or.inl (Or.inl lane)
  · exact Or.inl (Or.inr pooled)

theorem publish {t : Nat} (mode : q.deques.isSome = true) (normal : q.priority t = priorityNormal) :
    Shuffles filled q { q with ring := q.ring ++ [t] } := by
  refine ⟨rfl, fun none_ => absurd (mode.symm.trans none_) Bool.true_eq_false.mp, rfl, ?_,
    fun _ some => Or.inl some, rfl⟩
  intro x b held
  rcases held with lane | ⟨same, ring | deque⟩
  · exact Or.inl (Or.inl lane)
  · rcases List.mem_append.mp ring with before | new
    · exact Or.inl (Or.inr ⟨same, Or.inl before⟩)
    · rw [List.mem_singleton.mp new, normal]
      exact Or.inr same
  · exact Or.inl (Or.inr ⟨same, Or.inr deque⟩)

/-- One deque changes, at most by tasks from the ring. -/
theorem setDeque {deques : Nat → List Nat} {ring list : List Nat} {w : Nat}
    (shape : q.deques = some deques) (inside : w < q.maxWorkerCount) (fewer : ring ⊆ q.ring)
    (moved : ∀ x ∈ list, x ∈ q.ring ∨ x ∈ deques w) (fills : list ≠ [] → deques w ≠ [] ∨ filled w) :
    Shuffles filled q { q with
      ring
      deques := some (Function.update deques w list)
      dequeTotal := q.dequeTotal + list.length - (deques w).length } := by
  have before : q.deque = deques := by
    funext i
    simp [Queues.deque, shape]
  refine ⟨by rw [shape]; rfl, fun _ => fewer, rfl, ?_, ?_, ?_⟩
  · intro x b held
    left
    rcases held with lane | ⟨same, there | ⟨i, deque⟩⟩
    · exact Or.inl lane
    · exact Or.inr ⟨same, Or.inl (fewer there)⟩
    · have deque : x ∈ Function.update deques w list i := deque
      by_cases here : i = w
      · rw [here, Function.update_self] at deque
        rcases moved x deque with ring | own
        · exact Or.inr ⟨same, Or.inl ring⟩
        · exact Or.inr ⟨same, Or.inr ⟨w, by rw [before]; exact own⟩⟩
      · rw [Function.update_of_ne here] at deque
        exact Or.inr ⟨same, Or.inr ⟨i, by rw [before]; exact deque⟩⟩
  · intro i some
    have some : Function.update deques w list i ≠ [] := some
    rw [before]
    by_cases here : i = w
    · rw [here, Function.update_self] at some
      rw [here]
      exact fills some
    · rw [Function.update_of_ne here] at some
      exact Or.inl some
  · have exchange : (Bins.all q.maxWorkerCount (Function.update deques w list) ++ deques w).length =
        (Bins.all q.maxWorkerCount deques ++ list).length := (Bins.all_update inside list).length_eq
    have now : ({ q with
      ring
      deques := some (Function.update deques w list)
      dequeTotal := q.dequeTotal + list.length - (deques w).length } : Queues).stashed =
        (Bins.all q.maxWorkerCount (Function.update deques w list)).length := rfl
    have old : q.stashed = (Bins.all q.maxWorkerCount deques).length := by
      rw [Queues.stashed, before]
    rw [List.length_append, List.length_append] at exchange
    rw [now, old]
    show q.dequeTotal + list.length - (deques w).length - _ = _
    omega

end Shuffles

namespace ThreadPool

variable {s s' : ThreadPool} {w t : Nat}

theorem Settles.queues (settles : Settles s s') : s'.queues = s.queues := by
  obtain ⟨tasks, _, _, _, _, _, rfl, -, priority⟩ := settles
  show { s.queues with priority := fun x => (tasks x).priority } = s.queues
  rw [funext priority]
  rfl

theorem Sheds.shuffles (sheds : Sheds s s') : Shuffles filled s.queues s'.queues := by
  obtain ⟨lanes, fewer, settles⟩ := sheds
  exact (Shuffles.lanes fewer).trans (Shuffles.of_eq settles.queues)

theorem Stirs.shuffles (stirs : Stirs s s') : Shuffles filled s.queues s'.queues := by
  obtain ⟨_, _, _, _, sheds⟩ := stirs
  exact sheds.shuffles

theorem shuffles_takeLane {maxPriority : Nat} (taken : s.takeLane maxPriority = some (t, s')) :
    Shuffles filled s.queues s'.queues := by
  unfold takeLane at taken
  split at taken
  · cases taken
  · rename_i found
    cases taken
    exact Shuffles.lanes (lanes_dequeueLowestPriority found)

theorem queues_setDeque (s : ThreadPool) (w : Nat) (list : List Nat) :
    (s.setDeque w list).queues = { s.queues with
      deques := s.deques.map fun deques => Function.update deques w list
      dequeTotal := s.dequeTotal + list.length - (s.deque w).length } := rfl

theorem shuffles_setDeque {list : List Nat} (inside : w < s.maxWorkerCount)
    (fewer : list ⊆ s.deque w) : Shuffles filled s.queues (s.setDeque w list).queues := by
  cases shape : s.deques with
  | some deques =>
    have own : s.deque w = deques w := by rw [deque_of_some shape]
    have same : (s.setDeque w list).queues = { s.queues with
        ring := s.queues.ring
        deques := some (Function.update deques w list)
        dequeTotal := s.queues.dequeTotal + list.length - (deques w).length } := by
      rw [queues_setDeque, own, shape]
      rfl
    rw [same]
    rw [own] at fewer
    apply Shuffles.setDeque shape inside (List.Subset.refl _)
    · intro x member
      exact Or.inr (fewer member)
    · intro some
      left
      intro empty
      rw [empty] at fewer
      exact some (List.eq_nil_of_subset_nil fewer)
  | none =>
    have own : s.deque w = [] := deque_of_none shape w
    rw [own] at fewer
    apply Shuffles.of_eq
    rw [queues_setDeque, own, List.eq_nil_of_subset_nil fewer, shape]
    simp [queues, shape]

theorem shuffles_dequePop (inside : w < s.maxWorkerCount) (popped : s.dequePop w = some (t, s')) :
    Shuffles filled s.queues s'.queues := by
  unfold dequePop at popped
  split at popped
  · cases popped
  · rename_i shape
    cases popped
    apply shuffles_setDeque inside
    rw [shape]
    exact List.subset_cons_self _ _

theorem shuffles_dequeSteal (inside : w < s.maxWorkerCount)
    (stolen : s.dequeSteal w = some (t, s')) : Shuffles filled s.queues s'.queues := by
  unfold dequeSteal at stolen
  split at stolen
  · cases stolen
  · cases stolen
    exact shuffles_setDeque inside (List.dropLast_subset _)

theorem shuffles_fetchRing (cas : Bool) (inside : w < s.maxWorkerCount)
    (mode : s.deques.isSome = true) (empty : s.deque w = []) :
    Shuffles (fun i => i = w) s.queues (s.fetchRing w cas).1.queues := by
  obtain ⟨deques, shape⟩ := Option.isSome_iff_exists.mp mode
  rw [deque_of_some shape] at empty
  rcases fetchRing_cases cas shape empty with ⟨same, -⟩ | ⟨t, rest, batch, same⟩
  · rw [same]
    exact Shuffles.refl _ _
  · have from_ring : ∀ x ∈ rest, x ∈ s.ring := by
      intro x member
      apply List.mem_of_mem_take
      apply List.mem_reverse.mp
      rw [batch]
      exact List.mem_cons_of_mem t member
    have total : s.dequeTotal + rest.length - (deques w).length = s.dequeTotal + rest.length := by
      rw [empty, List.length_nil]
      omega
    have shuffle : Shuffles (fun i => i = w) s.queues { s.queues with
        ring := s.ring.drop bulkDequeue
        deques := some (Function.update deques w rest)
        dequeTotal := s.dequeTotal + rest.length - (deques w).length } :=
      Shuffles.setDeque shape inside (List.drop_subset _ _)
        (fun x member => Or.inl (from_ring x member)) fun _ => Or.inr rfl
    rw [total] at shuffle
    rw [same]
    exact shuffle

theorem shuffles_fetchElsewhere (counts : s.workerCount ≤ s.maxWorkerCount) (w : Nat) :
    Shuffles filled s.queues (s.fetchElsewhere w).1.queues := by
  unfold fetchElsewhere
  split
  · rename_i t s' found
    obtain ⟨v, member, stolen⟩ := List.exists_of_findSome?_eq_some found
    exact shuffles_dequeSteal (Nat.lt_of_lt_of_le (victims_lt member) counts) stolen
  · split
    · exact Shuffles.refl _ _
    · split
      · rename_i taken
        exact shuffles_takeLane taken
      · exact Shuffles.refl _ _

theorem empty_of_dequePop (missed : s.dequePop w = none) : s.deque w = [] := by
  unfold dequePop at missed
  split at missed
  · assumption
  · cases missed

theorem shuffles_fetchTask (counts : s.workerCount ≤ s.maxWorkerCount) (inside : w < s.workerCount)
    (cas : Bool) : Shuffles (fun i => i = w) s.queues (s.fetchTask w cas).1.queues := by
  have within : w < s.maxWorkerCount := by omega
  unfold fetchTask
  split
  · rename_i urgent
    split at urgent
    · exact shuffles_takeLane urgent
    · cases urgent
  · split
    · rename_i mode
      split
      · rename_i popped
        exact shuffles_dequePop within popped
      · rename_i missed
        have same : (if s.ringSize ≠ 0 then s.fetchRing w cas else (s, none)).1.control = s.control := by
          split
          · exact control_fetchRing s w cas
          · rfl
        have ring : Shuffles (fun i => i = w) s.queues
            (if s.ringSize ≠ 0 then s.fetchRing w cas else (s, none)).1.queues := by
          split
          · exact shuffles_fetchRing cas within mode (empty_of_dequePop missed)
          · exact Shuffles.refl _ _
        split
        · rename_i result
          rw [result] at ring
          exact ring
        · rename_i after result
          rw [result] at ring same
          have counted : after.control.workerCount ≤ after.control.maxWorkerCount := by
            rw [show after.control = s.control from same]
            exact counts
          exact ring.trans (shuffles_fetchElsewhere counted w)
    · split
      · exact Shuffles.refl _ _
      · split
        · rename_i taken
          exact shuffles_takeLane taken
        · exact Shuffles.refl _ _

theorem queues_runBoundary (s : ThreadPool) (w t : Nat) (fromRing : Bool) :
    (s.runBoundary w t fromRing).queues = s.queues := by
  unfold runBoundary
  dsimp only
  have removed : (if fromRing then { s with index := cancelIndexRemove s.index t }
      else s).queues = s.queues := by
    split <;> rfl
  rw [← removed]
  generalize (if fromRing then { s with index := cancelIndexRemove s.index t } else s) = boundary
  split
  · exact (Settles.markFutureCancelled boundary t).queues
  · split
    · rfl
    · split <;> rfl

theorem shuffles_workerPass {cas : Bool} (counts : s.workerCount ≤ s.maxWorkerCount)
    (passed : s.workerPass w cas = some s') :
    Shuffles (fun i => i = w) s.queues s'.queues := by
  unfold workerPass at passed
  split at passed
  · split at passed
    · cases passed
      exact Shuffles.refl _ _
    · split at passed
      · cases passed
        exact Shuffles.refl _ _
      · rename_i inside
        have fetched := shuffles_fetchTask counts (Nat.lt_of_not_le inside) cas
        split at passed
        · rename_i result
          rw [result] at fetched
          cases passed
          exact fetched
        · rename_i result
          rw [result] at fetched
          cases passed
          exact fetched.trans (Shuffles.of_eq (queues_runBoundary _ _ _ _))
  · cases passed

theorem queues_finish {result : Nat} (ended : s.finish w result = some s') :
    s'.queues = s.queues := by
  unfold finish at ended
  split at ended
  · cases ended
    split <;> rfl
  · cases ended

theorem queues_create {handle : Option Nat} (made : s.create w handle = some s') :
    s'.queues = s.queues := by
  unfold create at made
  split at made
  · cases made
    rfl
  · rename_i _ t coro _
    cases made
    have settles : Settles s (s.setTask t { s.tasks t with userData := coro }) := Settles.setTask rfl
    exact settles.queues
  · cases made

theorem queues_checkReady (checked : s.checkReady w = some s') : s'.queues = s.queues := by
  unfold checkReady at checked
  split at checked
  · split at checked
    · cases checked
      exact (Settles.resolveCancelled _ _).queues
    · cases checked
      rfl
  · cases checked

theorem shuffles_bodyEnds {behaviour : Behaviour} {alloc : Bool}
    (ended : s.bodyEnds w behaviour alloc = some s') : Shuffles filled s.queues s'.queues := by
  unfold bodyEnds at ended
  split at ended
  · rename_i t _
    cases ended
    have stirs := Stirs.afterFirst s w t behaviour.crc behaviour.state alloc
    exact stirs.shuffles
  · rename_i t _
    cases ended
    have stirs := Stirs.afterResume s w t behaviour.crc behaviour.state
    exact stirs.shuffles
  · cases ended

theorem shuffles_spill (list : List Nat) (s : ThreadPool) :
    Shuffles filled s.queues (list.foldl spillDequeTask s).queues := by
  induction list generalizing s with
  | nil => exact Shuffles.refl _ _
  | cons t rest ih => exact (Shuffles.enqueue s.queues t).trans (ih (s.spillDequeTask t))

theorem shuffles_leave (inside : w < s.maxWorkerCount) (left : s.leave w = some s') :
    Shuffles filled s.queues s'.queues := by
  unfold leave at left
  split at left
  · cases left
    let cleared : ThreadPool := { s with
      coroReady := Function.update s.coroReady w []
      timerHeap := s.timerHeap.filter fun e => e.workerIdx ≠ w }
    let ended := (s.coroReady w ++
      (s.timerHeap.filter fun e => e.workerIdx = w).map TimerEntry.task).foldl terminate cleared
    have same : ended.queues = s.queues := (Settles.terminate _ cleared).queues
    have within : w < ended.maxWorkerCount := by
      rw [show ended.maxWorkerCount = s.maxWorkerCount from congrArg Queues.maxWorkerCount same]
      exact inside
    have emptied : Shuffles filled ended.queues (ended.setDeque w []).queues :=
      shuffles_setDeque within (List.nil_subset _)
    rw [same] at emptied
    exact emptied.trans (shuffles_spill (ended.deque w) (ended.setDeque w []))
  · cases left

theorem queues_taskCreate (s : ThreadPool) (task : Task) :
    (s.taskCreate task).queues = { s.queues with
      priority := Function.update s.queues.priority (s.nextTaskId + 1) task.priority } := by
  have priorities := field_update (s := s) Task.priority task (s.nextTaskId + 1)
  show { s.queues with
    priority := fun x => ((s.setTask (s.nextTaskId + 1) task).tasks x).priority } = _
  rw [priorities]
  rfl

theorem shuffles_enqueueLaneTask (s : ThreadPool) (task : Task) :
    (s.enqueueLaneTask task).1 = s ∨
      Shuffles filled (s.taskCreate task).queues (s.enqueueLaneTask task).1.queues := by
  unfold enqueueLaneTask
  split
  · exact Or.inl rfl
  · exact Or.inr (Shuffles.enqueue (s.taskCreate task).queues (s.nextTaskId + 1))

theorem shuffles_enqueueTask (s : ThreadPool) (task : Task) (alloc : Bool) :
    (s.enqueueTask task alloc).1 = s ∨
      Shuffles filled (s.taskCreate task).queues (s.enqueueTask task alloc).1.queues := by
  unfold enqueueTask
  split
  · exact Or.inl rfl
  · split
    · exact Or.inl rfl
    · split
      · rename_i normal
        right
        unfold enqueueRingTask ringTryEnqueue spillToNormalLane
        dsimp only
        split
        · rename_i published
          split at published
          · cases published
            apply @Shuffles.publish _ (s.taskCreate task).queues _ normal.2.2
            rw [queues_taskCreate]
            exact (Function.update_self _ _ _).trans normal.1
          · cases published
        · split
          · exact Shuffles.refl _ _
          · exact Shuffles.enqueue (s.taskCreate task).queues (s.nextTaskId + 1)
      · exact shuffles_enqueueLaneTask s task

theorem shuffles_submitCoroutine (s : ThreadPool) (arg : Nat) (withFuture alloc : Bool) :
    (s.loomPoolSubmitCoroutine arg withFuture alloc).1 = s ∨
      ∃ task, Shuffles filled (s.taskCreate task).queues
        (s.loomPoolSubmitCoroutine arg withFuture alloc).1.queues := by
  unfold loomPoolSubmitCoroutine
  split
  · exact Or.inl rfl
  · exact (shuffles_enqueueLaneTask s _).imp id fun shuffles => ⟨_, shuffles⟩

end ThreadPool

/-- Every step but a resize, after the creation of a task where it has one. -/
theorem shuffles_step {s s' : ThreadPool} {label : Label} (shaped : s.Shaped)
    (fixed : label.resizes = false) (stepped : step s label = some s') :
    (∃ w, s.workers w = .looping ∧ Shuffles (fun i => i = w) s.queues s'.queues) ∨
      Shuffles (fun _ => False) s.queues s'.queues ∨
      ∃ task, Shuffles (fun _ => False) (s.taskCreate task).queues s'.queues := by
  have idle : ∀ {final : ThreadPool}, final.queues = s.queues →
      (∃ w, s.workers w = .looping ∧ Shuffles (fun i => i = w) s.queues final.queues) ∨
      Shuffles (fun _ => False) s.queues final.queues ∨
      ∃ task, Shuffles (fun _ => False) (s.taskCreate task).queues final.queues :=
    fun same => Or.inr (Or.inl (Shuffles.of_eq same))
  cases label with
  | submit userData priority isFuture alloc =>
    cases stepped
    rcases ThreadPool.shuffles_enqueueTask s { userData, priority, isFuture } alloc with same | made
    · exact idle (by rw [same])
    · exact Or.inr (Or.inr ⟨_, made⟩)
  | submitCoroutine arg withFuture alloc =>
    cases stepped
    rcases ThreadPool.shuffles_submitCoroutine s arg withFuture alloc with same | made
    · exact idle (by rw [same])
    · exact Or.inr (Or.inr made)
  | pass w cas =>
    left
    have passed : s.workerPass w cas = some s' := stepped
    refine ⟨w, ?_, ThreadPool.shuffles_workerPass shaped.counts passed⟩
    unfold ThreadPool.workerPass at passed
    split at passed
    · assumption
    · cases passed
  | finish w result => exact idle (ThreadPool.queues_finish stepped)
  | create w handle => exact idle (ThreadPool.queues_create stepped)
  | checkReady w => exact idle (ThreadPool.queues_checkReady stepped)
  | bodyEnds w behaviour alloc => exact Or.inr (Or.inl (ThreadPool.shuffles_bodyEnds stepped))
  | leave w =>
    right
    left
    have left : s.leave w = some s' := stepped
    apply ThreadPool.shuffles_leave _ left
    unfold ThreadPool.leave at left
    split at left
    · rename_i leaving
      exact shaped.lt_of_alive (by simp [leaving])
    · cases left
  | wake | post | repost | join =>
    simp only [step] at stepped
    split at stepped
    · cases stepped
      exact idle rfl
    · cases stepped
  | timerFire i alloc => exact Or.inr (Or.inl (ThreadPool.Stirs.timerFire stepped).shuffles)
  | cancel data =>
    cases stepped
    exact Or.inr (Or.inl (ThreadPool.Sheds.cancel s data).shuffles)
  | cancelById id alloc =>
    cases stepped
    obtain ⟨_, _, _, sheds⟩ := ThreadPool.Sheds.cancelById s id alloc
    exact Or.inr (Or.inl sheds.shuffles)
  | cancelAll =>
    cases stepped
    exact Or.inr (Or.inl (ThreadPool.Sheds.cancelAll s).shuffles)
  | resize count env => cases fixed

end Loomworks.Pool

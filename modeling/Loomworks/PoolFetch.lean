import Loomworks.Pool
import Loomworks.Placement

/- The tasks a pool holds, and what one pass of a worker takes out of them. -/
namespace Loomworks.Pool

/-- The coroutine task a worker has in its hands. -/
def WorkerPc.held : WorkerPc → List Nat
  | .dispatching t | .ready t | .inBody t _ => [t]
  | _ => []

/-- What a bulk dequeue leaves in a deque once its newest task is taken. -/
def dequeRest : Nat := bulkDequeue - 1

namespace ThreadPool

def dequeTasks (s : ThreadPool) : List Nat := Bins.all s.maxWorkerCount s.deque

/-- The tasks in the ring and the deques. -/
def pooled (s : ThreadPool) : List Nat := s.ring ++ s.dequeTasks

def tokens (s : ThreadPool) : List Nat :=
  Bins.all s.maxWorkerCount s.coroReady ++ (s.timerHeap.map TimerEntry.task ++
    Bins.all s.maxWorkerCount fun w => (s.workers w).held)

/-- The ring keeps within its size, and no deque holds more than a bulk dequeue leaves. -/
def Fits (s : ThreadPool) : Prop :=
  s.ring.length ≤ s.ringSize ∧ ∀ w, (s.deque w).length ≤ dequeRest

variable {s s' : ThreadPool} {w t : Nat}

theorem deque_of_some {deques : Nat → List Nat} (some_ : s.deques = some deques) :
    s.deque = deques := by
  funext i
  simp [deque, some_]

theorem deque_of_none (none_ : s.deques = none) (i : Nat) : s.deque i = [] := by
  simp [deque, none_]

theorem deque_setDeque (mode : s.deques.isSome = true) (w : Nat) (list : List Nat) :
    (s.setDeque w list).deque = Function.update s.deque w list := by
  obtain ⟨deques, shape⟩ := Option.isSome_iff_exists.mp mode
  rw [deque_of_some shape]
  exact deque_of_some (by simp [setDeque, shape])

theorem mode_of_deque (filled : s.deque w ≠ []) : s.deques.isSome = true := by
  by_contra missing
  exact filled (deque_of_none (by simpa using missing) w)

theorem pooled_setDeque (inside : w < s.maxWorkerCount) {rest : List Nat}
    (shape : (s.deque w).Perm (t :: rest)) : s.pooled.Perm (t :: (s.setDeque w rest).pooled) := by
  have filled : s.deque w ≠ [] := by
    intro empty
    rw [empty] at shape
    exact absurd shape.nil_eq (by simp)
  have mode := mode_of_deque filled
  have taken : s.dequeTasks.Perm (t :: (s.setDeque w rest).dequeTasks) := by
    unfold dequeTasks
    rw [deque_setDeque mode]
    exact Bins.all_take inside shape
  exact (taken.append_left s.ring).trans List.perm_middle

theorem Fits.setDeque (fits : s.Fits) {list : List Nat} (short : list.length ≤ dequeRest) :
    (s.setDeque w list).Fits := by
  refine ⟨fits.1, ?_⟩
  intro i
  cases mode : s.deques.isSome with
  | true =>
    rw [deque_setDeque mode]
    by_cases here : i = w
    · rw [here, Function.update_self]
      exact short
    · simpa [here] using fits.2 i
  | false =>
    have none_ : (s.setDeque w list).deques = none := by simpa [ThreadPool.setDeque] using mode
    rw [deque_of_none none_]
    exact Nat.zero_le _

/-- What Steps 0 to 4 can come back with. -/
inductive Fetched (s : ThreadPool) : ThreadPool × Option (Nat × Bool) → Prop
  | nothing : Fetched s (s, none)
  | lane {t : Nat} {lanes : Nat → List Nat}
      (left : (laneTasks s.lanes).Perm (t :: laneTasks lanes)) :
      Fetched s ({ s with lanes, queueLen := s.queueLen - 1 }, some (t, false))
  | ring {t : Nat} {ring : List Nat} {deques : Option (Nat → List Nat)} {dequeTotal : Int}
      (left : s.pooled.Perm (t :: pooled { s with ring, deques, dequeTotal }))
      (fits : s.Fits → Fits { s with ring, deques, dequeTotal }) :
      Fetched s ({ s with ring, deques, dequeTotal }, some (t, true))

theorem Fetched.of_setDeque (inside : w < s.maxWorkerCount) {rest : List Nat}
    (shape : (s.deque w).Perm (t :: rest)) :
    Fetched s (s.setDeque w rest, some (t, true)) := by
  refine Fetched.ring (pooled_setDeque inside shape) ?_
  intro fits
  refine fits.setDeque ?_
  have bound := fits.2 w
  have size := shape.length_eq
  rw [List.length_cons] at size
  omega

theorem fetched_takeLane {maxPriority : Nat} (taken : s.takeLane maxPriority = some (t, s')) :
    Fetched s (s', some (t, false)) := by
  unfold takeLane at taken
  split at taken
  · cases taken
  · rename_i head lanes found
    cases taken
    exact Fetched.lane (dequeueLowestPriority_perm found)

theorem fetched_dequePop (inside : w < s.maxWorkerCount) (popped : s.dequePop w = some (t, s')) :
    Fetched s (s', some (t, true)) := by
  unfold dequePop at popped
  split at popped
  · cases popped
  · rename_i head rest shape
    cases popped
    exact Fetched.of_setDeque inside (by rw [shape])

theorem fetched_dequeSteal (inside : w < s.maxWorkerCount) (stolen : s.dequeSteal w = some (t, s')) :
    Fetched s (s', some (t, true)) := by
  unfold dequeSteal at stolen
  split at stolen
  · cases stolen
  · rename_i oldest last
    cases stolen
    refine Fetched.of_setDeque inside ?_
    have split := List.dropLast_append_getLast? t last
    nth_rewrite 1 [← split]
    exact List.perm_append_singleton t _

theorem dequePush_eq {deques : Nat → List Nat} (shape : s.deques = some deques)
    (room : (deques w).length < dequeCapacity) :
    s.dequePush w t = some { s with
      deques := some (Function.update deques w (t :: deques w))
      dequeTotal := s.dequeTotal + 1 } := by
  have total : s.dequeTotal + ((deques w).length + 1) - (deques w).length = s.dequeTotal + 1 := by
    omega
  simp [dequePush, deque_of_some shape, room, setDeque, shape, total]

/-- A batch for which the deque has room is pushed as a whole. -/
theorem stash_eq (batch : List Nat) (i : Nat) (task : Option Nat) {deques : Nat → List Nat}
    (shape : s.deques = some deques) (room : (deques w).length + batch.length ≤ dequeCapacity) :
    stash w batch i (s, task) =
      ({ s with
        deques := some (Function.update deques w (batch.reverse ++ deques w))
        dequeTotal := s.dequeTotal + batch.length }, task) := by
  induction batch generalizing s i deques with
  | nil =>
    simp only [stash, List.reverse_nil, List.nil_append, Function.update_eq_self, List.length_nil,
      Int.natCast_zero, Int.add_zero]
    rw [← shape]
  | cons t rest ih =>
    have short : (deques w).length < dequeCapacity := by
      rw [List.length_cons] at room
      omega
    simp only [stash, dequePush_eq shape short]
    have total : s.dequeTotal + 1 + rest.length = s.dequeTotal + (t :: rest).length := by
      rw [List.length_cons]
      omega
    rw [ih (i + 1) rfl]
    · simp only [Function.update_self, Function.update_idem, List.reverse_cons, List.append_assoc,
        List.singleton_append, total]
    · rw [Function.update_self, List.length_cons]
      rw [List.length_cons] at room
      omega

/-- A batch moves from the ring to an empty deque, all but its last task. -/
theorem pooled_bulk {deques : Nat → List Nat} (total : Int) (shape : s.deques = some deques)
    (inside : w < s.maxWorkerCount) (empty : deques w = []) {rest : List Nat}
    (batch : (s.ring.take bulkDequeue).reverse = t :: rest) :
    s.pooled.Perm (t :: pooled { s with
      ring := s.ring.drop bulkDequeue, deques := some (Function.update deques w rest),
      dequeTotal := total }) := by
  have old : s.dequeTasks = Bins.all s.maxWorkerCount deques := by
    rw [dequeTasks, deque_of_some shape]
  have new : dequeTasks { s with
      ring := s.ring.drop bulkDequeue, deques := some (Function.update deques w rest),
      dequeTotal := total } =
      Bins.all s.maxWorkerCount (Function.update deques w rest) := by
    rw [dequeTasks, deque_of_some rfl]
  have joined : (Bins.all s.maxWorkerCount (Function.update deques w rest)).Perm
      (Bins.all s.maxWorkerCount deques ++ rest) := by
    have exchanged : (Bins.all s.maxWorkerCount (Function.update deques w rest) ++ deques w).Perm
        (Bins.all s.maxWorkerCount deques ++ rest) := Bins.all_update inside rest
    rwa [empty, List.append_nil] at exchanged
  have taken : (s.ring.take bulkDequeue).Perm (t :: rest) := by
    rw [← batch]
    exact (List.reverse_perm _).symm
  apply List.perm_iff_count.mpr
  intro x
  have ring : s.ring.count x =
      (s.ring.take bulkDequeue).count x + (s.ring.drop bulkDequeue).count x := by
    rw [← List.count_append, List.take_append_drop]
  have first := List.perm_iff_count.mp taken x
  have second := List.perm_iff_count.mp joined x
  simp only [pooled, old, new, List.count_append, List.count_cons] at first second ⊢
  omega

/-- Step 2 with an empty own deque: nothing, or a batch of which all but the last
task stay in the deque. -/
theorem fetchRing_cases (cas : Bool) {deques : Nat → List Nat} (shape : s.deques = some deques)
    (empty : deques w = []) :
    (s.fetchRing w cas = (s, none) ∧ (cas = true → s.ring = [])) ∨
      ∃ t rest, (s.ring.take bulkDequeue).reverse = t :: rest ∧
        s.fetchRing w cas = ({ s with
          ring := s.ring.drop bulkDequeue
          deques := some (Function.update deques w rest)
          dequeTotal := s.dequeTotal + rest.length }, some (t, true)) := by
  cases cas with
  | false =>
    left
    refine ⟨?_, fun impossible => absurd impossible Bool.false_ne_true⟩
    simp [fetchRing, ringBulkTryDequeue, stash, dequePop, deque_of_some shape, empty]
  | true =>
    have size : (s.ring.take bulkDequeue).length ≤ bulkDequeue := List.length_take_le _ _
    have small : bulkDequeue ≤ dequeCapacity := by decide
    have stashed := stash_eq (s := { s with ring := s.ring.drop bulkDequeue }) (w := w)
      (s.ring.take bulkDequeue) 0 none shape (by rw [empty, List.length_nil]; omega)
    rw [empty, List.append_nil] at stashed
    unfold fetchRing ringBulkTryDequeue
    simp only [if_true, stashed]
    cases batch : (s.ring.take bulkDequeue).reverse with
    | nil =>
      left
      -- the ring was empty: nothing has moved
      have bare : s.ring = [] := by
        have none_ : s.ring.take bulkDequeue = [] := by simpa using batch
        simpa [bulkDequeue] using none_
      have unchanged : Function.update deques w [] = deques := by
        rw [← empty, Function.update_eq_self]
      have same : { s with
          ring := s.ring.drop bulkDequeue
          deques := some deques
          dequeTotal := s.dequeTotal + (s.ring.take bulkDequeue).length } = s := by
        rw [bare, ← shape]
        cases s
        simp_all
      simp only [unchanged, same, dequePop, deque_of_some shape, empty]
      exact ⟨trivial, fun _ => bare⟩
    | cons t rest =>
      right
      have length := congrArg List.length batch
      rw [List.length_reverse, List.length_cons] at length
      have total : s.dequeTotal + (s.ring.take bulkDequeue).length + rest.length -
          (t :: rest).length = s.dequeTotal + rest.length := by
        rw [length, List.length_cons]
        omega
      have popped : dequePop { s with
          ring := s.ring.drop bulkDequeue
          deques := some (Function.update deques w (t :: rest))
          dequeTotal := s.dequeTotal + (s.ring.take bulkDequeue).length } w =
          some (t, { s with
            ring := s.ring.drop bulkDequeue
            deques := some (Function.update deques w rest)
            dequeTotal := s.dequeTotal + rest.length }) := by
        rw [← total]
        simp [dequePop, deque, setDeque]
      simp only [popped]
      exact ⟨t, rest, rfl, rfl⟩

theorem fetched_fetchRing (cas : Bool) (inside : w < s.maxWorkerCount)
    (mode : s.deques.isSome = true) (empty : s.deque w = []) : Fetched s (s.fetchRing w cas) := by
  obtain ⟨deques, shape⟩ := Option.isSome_iff_exists.mp mode
  rw [deque_of_some shape] at empty
  rcases fetchRing_cases cas shape empty with ⟨same, -⟩ | ⟨t, rest, batch, same⟩
  · rw [same]
    exact Fetched.nothing
  · rw [same]
    refine Fetched.ring (pooled_bulk _ shape inside empty batch) ?_
    intro fits
    refine ⟨?_, ?_⟩
    · have bound := fits.1
      simp only [List.length_drop]
      omega
    · intro i
      rw [deque_of_some rfl]
      by_cases here : i = w
      · have length := congrArg List.length batch
        have size : (s.ring.take bulkDequeue).length ≤ bulkDequeue := List.length_take_le _ _
        have small : bulkDequeue ≤ dequeRest + 1 := by decide
        rw [List.length_reverse, List.length_cons] at length
        rw [here, Function.update_self]
        omega
      · have bound := fits.2 i
        rw [deque_of_some shape] at bound
        simpa [here] using bound

theorem victims_lt {v : Nat} (member : v ∈ s.victims w) : v < s.workerCount := by
  unfold victims at member
  split at member
  · simp at member
  · rename_i several
    split at member
    · obtain ⟨listed, -⟩ := List.mem_filter.mp member
      obtain ⟨k, -, rfl⟩ := List.mem_map.mp listed
      exact Nat.mod_lt _ (by omega)
    · obtain ⟨listed, -⟩ := List.mem_filter.mp member
      obtain ⟨k, -, rfl⟩ := List.mem_map.mp listed
      exact Nat.mod_lt _ (by omega)

theorem fetched_fetchElsewhere (counts : s.workerCount ≤ s.maxWorkerCount) (w : Nat) :
    Fetched s (s.fetchElsewhere w) := by
  unfold fetchElsewhere
  split
  · rename_i t s' found
    obtain ⟨v, member, stolen⟩ := List.exists_of_findSome?_eq_some found
    exact fetched_dequeSteal (Nat.lt_of_lt_of_le (victims_lt member) counts) stolen
  · split
    · exact Fetched.nothing
    · split
      · rename_i t s' taken
        exact fetched_takeLane taken
      · exact Fetched.nothing

theorem fetched_fetchTask (counts : s.workerCount ≤ s.maxWorkerCount) (within : w < s.maxWorkerCount)
    (cas : Bool) : Fetched s (s.fetchTask w cas) := by
  unfold fetchTask
  split
  · rename_i t s' urgent
    split at urgent
    · exact fetched_takeLane urgent
    · cases urgent
  · split
    · rename_i mode
      split
      · rename_i t s' popped
        exact fetched_dequePop within popped
      · rename_i missed
        have empty : s.deque w = [] := by
          unfold dequePop at missed
          split at missed
          · assumption
          · cases missed
        have step2 : Fetched s (if s.ringSize ≠ 0 then s.fetchRing w cas else (s, none)) := by
          split
          · exact fetched_fetchRing cas within mode empty
          · exact Fetched.nothing
        revert step2
        generalize (if s.ringSize ≠ 0 then s.fetchRing w cas else (s, none)) = result
        intro step2
        cases step2 with
        | nothing => exact fetched_fetchElsewhere counts w
        | lane left => exact Fetched.lane left
        | ring left fits => exact Fetched.ring left fits
    · split
      · exact Fetched.nothing
      · split
        · rename_i t s' taken
          exact fetched_takeLane taken
        · exact Fetched.nothing

end ThreadPool

end Loomworks.Pool

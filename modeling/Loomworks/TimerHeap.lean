import Loomworks.BinaryHeap

/- The timer heap (src/timer.c): an array-backed min-heap on the deadline, used
under timer_lock. -/
namespace Loomworks.Timer

open BinaryHeap

/-- loom_timer_entry_t; the task id also names the task node and its coroutine. -/
structure Entry where
  deadlineNs : Int
  taskId : Nat
  workerIdx : Nat
  deriving DecidableEq, Repr

/-- timer_heap, timer_len and timer_cap. -/
structure TimerHeap where
  slots : Nat → Entry
  len : Nat
  cap : Nat
  ordered : Ordered Entry.deadlineNs slots len
  fits : len ≤ cap

namespace TimerHeap

def empty : TimerHeap where
  slots := fun _ => ⟨0, 0, 0⟩
  len := 0
  cap := 0
  ordered := fun _ _ inside => absurd inside (Nat.not_lt_zero _)
  fits := Nat.le_refl 0

def entries (heap : TimerHeap) : List Entry := contents heap.slots heap.len

def insert (heap : TimerHeap) (e : Entry) (room : heap.len < heap.cap) : TimerHeap where
  slots := siftUp Entry.deadlineNs (Function.update heap.slots heap.len e) heap.len
  len := heap.len + 1
  cap := heap.cap
  ordered := push_ordered heap.ordered e
  fits := room

/-- The capacity doubles from 64. -/
def grow (heap : TimerHeap) : TimerHeap where
  slots := heap.slots
  len := heap.len
  cap := if heap.cap = 0 then 64 else heap.cap * 2
  ordered := heap.ordered
  fits := by
    have fits := heap.fits
    split <;> omega

theorem len_lt_grow (heap : TimerHeap) : heap.grow.len < heap.grow.cap := by
  have fits := heap.fits
  show heap.len < if heap.cap = 0 then 64 else heap.cap * 2
  split <;> omega

/-- alloc is the outcome of the reallocation, if there is one. -/
def loomTimerPush (heap : TimerHeap) (e : Entry) (alloc : Bool) : Option TimerHeap :=
  if full : heap.len = heap.cap then
    if alloc then some (heap.grow.insert e heap.len_lt_grow) else none
  else some (heap.insert e (Nat.lt_of_le_of_ne heap.fits full))

theorem ordered_pred (heap : TimerHeap) (filled : heap.len ≠ 0) :
    Ordered Entry.deadlineNs heap.slots (heap.len - 1 + 1) := by
  rw [Nat.sub_add_cancel (Nat.pos_of_ne_zero filled)]
  exact heap.ordered

/-- The root is taken out. The source skips the sift of an array that has become
empty, where it does nothing. -/
def loomTimerPopDue (heap : TimerHeap) : Option (Entry × TimerHeap) :=
  if filled : heap.len = 0 then none
  else
    some (heap.slots 0,
      { slots := siftDown Entry.deadlineNs
          (Function.update heap.slots 0 (heap.slots (heap.len - 1))) (heap.len - 1) 0
        len := heap.len - 1
        cap := heap.cap
        ordered := (removeRoot_spec (heap.ordered_pred filled)).2
        fits := Nat.le_trans (Nat.sub_le _ _) heap.fits })

/-- The position of a task's entry. -/
def position (heap : TimerHeap) (taskId : Nat) : Option Nat :=
  (List.range heap.len).find? fun i => (heap.slots i).taskId == taskId

theorem position_lt {heap : TimerHeap} {taskId i : Nat} (found : heap.position taskId = some i) :
    i < heap.len :=
  List.mem_range.mp (List.mem_of_find?_eq_some found)

/-- The entry at i is taken out; what was last takes its place. -/
def remove (heap : TimerHeap) (i : Nat) (inside : i < heap.len) : TimerHeap where
  slots := removeAt Entry.deadlineNs heap.slots (heap.len - 1) i
  len := heap.len - 1
  cap := heap.cap
  ordered := (removeAt_spec (heap.ordered_pred (by omega)) (by omega)).2
  fits := Nat.le_trans (Nat.sub_le _ _) heap.fits

def loomTimerRemoveByTask (heap : TimerHeap) (taskId : Nat) : Option (Entry × TimerHeap) :=
  match found : heap.position taskId with
  | none => none
  | some i => some (heap.slots i, heap.remove i (position_lt found))

variable {heap heap' : TimerHeap} {e : Entry} {taskId : Nat} {alloc : Bool}

@[simp] theorem length_entries (heap : TimerHeap) : heap.entries.length = heap.len :=
  length_contents _ _

theorem entries_eq_nil : heap.entries = [] ↔ heap.len = 0 := by
  rw [← List.length_eq_zero_iff, length_entries]

theorem loomTimerPush_eq_none : heap.loomTimerPush e alloc = none ↔ heap.len = heap.cap ∧ alloc = false := by
  unfold loomTimerPush
  split
  · rename_i full
    cases alloc with
    | true => simp
    | false => simp [full]
  · rename_i room
    simp [room]

theorem entries_push (pushed : heap.loomTimerPush e alloc = some heap') :
    heap'.entries.Perm (e :: heap.entries) := by
  unfold loomTimerPush at pushed
  split at pushed
  · split at pushed
    · cases pushed
      exact push_perm e
    · cases pushed
  · cases pushed
    exact push_perm e

theorem perm_of_remove {heap : TimerHeap} {slots : Nat → Entry} {i : Nat} (inside : i < heap.len)
    (kept : (contents slots (heap.len - 1)).Perm
      (contents (Function.update heap.slots i (heap.slots (heap.len - 1))) (heap.len - 1))) :
    (heap.slots i :: contents slots (heap.len - 1)).Perm heap.entries := by
  have all := replace_perm (h := heap.slots) (n := heap.len - 1) (i := i) (by omega)
  have count : heap.len - 1 + 1 = heap.len := by omega
  rw [count] at all
  exact (kept.cons _).trans all

theorem entries_popDue (popped : heap.loomTimerPopDue = some (e, heap')) :
    heap.entries.Perm (e :: heap'.entries) ∧ e = heap.slots 0 ∧ heap'.len < heap'.cap := by
  unfold loomTimerPopDue at popped
  split at popped
  · cases popped
  · rename_i filled
    cases popped
    have fits := heap.fits
    refine ⟨?_, rfl, ?_⟩
    · exact (perm_of_remove (Nat.pos_of_ne_zero filled)
        (removeRoot_spec (heap.ordered_pred filled)).1).symm
    · show heap.len - 1 < heap.cap
      omega

/-- A push after a pop needs no memory: it succeeds whatever the allocator does, and in
the array as it is. -/
theorem push_after_pop (popped : heap.loomTimerPopDue = some (e, heap')) (other : Entry) (alloc : Bool) :
    ∃ final, heap'.loomTimerPush other alloc = some final ∧ final.cap = heap'.cap := by
  have room := (entries_popDue popped).2.2
  exact ⟨heap'.insert other room, dif_neg (Nat.ne_of_lt room), rfl⟩

theorem entries_removeByTask (removed : heap.loomTimerRemoveByTask taskId = some (e, heap')) :
    e.taskId = taskId ∧ heap.entries.Perm (e :: heap'.entries) := by
  unfold loomTimerRemoveByTask at removed
  split at removed
  · cases removed
  · rename_i i found
    cases removed
    have inside := position_lt found
    refine ⟨?_, ?_⟩
    · have matched := List.find?_some found
      exact beq_iff_eq.mp matched
    · exact (perm_of_remove inside (removeAt_spec (heap.ordered_pred (by omega)) (by omega)).1).symm

end TimerHeap

end Loomworks.Timer

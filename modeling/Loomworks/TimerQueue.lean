import Loomworks.TimerHeap
import Loomworks.Transition

/- The timer heap as a priority queue: what every sequence of its operations does to
the multiset of its entries. -/
namespace Loomworks.Timer

open BinaryHeap Transition

/-- An operation with the outcome of its reallocation, if it makes one. -/
inductive Op where
  | push (e : Entry) (alloc : Bool)
  | popDue
  | removeByTask (taskId : Nat)
  deriving DecidableEq, Repr

/-- What loom_timer_push returns, or the entry the others hand out: none is false. -/
inductive Reply where
  | pushed (ok : Bool)
  | taken (e : Option Entry)
  deriving DecidableEq, Repr

namespace TimerHeap

def apply (heap : TimerHeap) : Op → Reply × TimerHeap
  | .push e alloc =>
    match heap.loomTimerPush e alloc with
    | some after => (.pushed true, after)
    | none => (.pushed false, heap)
  | .popDue =>
    match heap.loomTimerPopDue with
    | some (e, after) => (.taken (some e), after)
    | none => (.taken none, heap)
  | .removeByTask taskId =>
    match heap.loomTimerRemoveByTask taskId with
    | some (e, after) => (.taken (some e), after)
    | none => (.taken none, heap)

end TimerHeap

/-- The queue this is to be: a multiset of entries from which the earliest deadline is
popped and which holds one entry per task. A push is refused when the array is full and
does not grow, and only then. -/
def Allows (cap : Nat) (m : Multiset Entry) : Op → Reply → Multiset Entry → Prop
  | .push e alloc, reply, m' =>
    if m.card = cap ∧ alloc = false then reply = .pushed false ∧ m' = m
    else reply = .pushed true ∧ m' = e ::ₘ m
  | .popDue, reply, m' =>
    m = 0 ∧ reply = .taken none ∧ m' = m ∨
      ∃ e, (∀ x ∈ m, e.deadlineNs ≤ x.deadlineNs) ∧ reply = .taken (some e) ∧ m = e ::ₘ m'
  | .removeByTask taskId, reply, m' =>
    (∀ x ∈ m, x.taskId ≠ taskId) ∧ reply = .taken none ∧ m' = m ∨
      ∃ e, e.taskId = taskId ∧ reply = .taken (some e) ∧ m = e ::ₘ m' ∧
        ∀ x ∈ m', x.taskId ≠ taskId

def step (heap : TimerHeap) (op : Op) : Option TimerHeap := some (heap.apply op).2

/-- An entry is pushed for a task that has none. -/
def Fresh (heap : TimerHeap) : Op → Prop
  | .push e _ => ∀ x ∈ heap.entries, x.taskId ≠ e.taskId
  | _ => True

/-- An operation leaves a heap, answers as the queue does and changes nothing if it is a
push that fails. After one that pops an entry, a push of any entry succeeds without
memory and leaves the array its size. -/
def Refines (heap : TimerHeap) (op : Op) : Prop :=
  Ordered Entry.deadlineNs (heap.apply op).2.slots (heap.apply op).2.len ∧
    Allows heap.cap heap.entries op (heap.apply op).1 (heap.apply op).2.entries ∧
    ((heap.apply op).1 = .pushed false → (heap.apply op).2 = heap) ∧
    (op = .popDue → (heap.apply op).1 ≠ .taken none → ∀ (other : Entry) (alloc : Bool),
      ∃ final, (heap.apply op).2.loomTimerPush other alloc = some final ∧
        final.cap = (heap.apply op).2.cap)

def Distinct (heap : TimerHeap) : Prop := (heap.entries.map Entry.taskId).Nodup

variable {heap heap' : TimerHeap} {e : Entry} {taskId : Nat} {op : Op}

theorem mem_entries : e ∈ heap.entries ↔ ∃ i < heap.len, heap.slots i = e := by
  simp [TimerHeap.entries, contents]

theorem root_le (member : e ∈ heap.entries) : (heap.slots 0).deadlineNs ≤ e.deadlineNs := by
  obtain ⟨i, inside, rfl⟩ := mem_entries.mp member
  exact heap.ordered.root_le inside

theorem popDue_eq_none : heap.loomTimerPopDue = none ↔ heap.entries = [] := by
  rw [TimerHeap.entries_eq_nil]
  unfold TimerHeap.loomTimerPopDue
  split <;> simp [*]

theorem removeByTask_eq_none (missing : heap.loomTimerRemoveByTask taskId = none) :
    ∀ x ∈ heap.entries, x.taskId ≠ taskId := by
  intro x member same
  obtain ⟨i, inside, rfl⟩ := mem_entries.mp member
  have absent : heap.position taskId = none := by
    unfold TimerHeap.loomTimerRemoveByTask at missing
    split at missing
    · assumption
    · cases missing
  have all := List.find?_eq_none.mp absent i (List.mem_range.mpr inside)
  simp [same] at all

/-- What is left beside an entry belongs to other tasks. -/
theorem Distinct.others (distinct : Distinct heap) {rest : List Entry}
    (split : heap.entries.Perm (e :: rest)) :
    (rest.map Entry.taskId).Nodup ∧ ∀ x ∈ rest, x.taskId ≠ e.taskId := by
  have all := (split.map Entry.taskId).nodup_iff.mp distinct
  rw [List.map_cons, List.nodup_cons] at all
  refine ⟨all.2, fun x member same => all.1 ?_⟩
  rw [← same]
  exact List.mem_map_of_mem member

theorem refines_push (e : Entry) (alloc : Bool) : Refines heap (.push e alloc) := by
  unfold Refines
  simp only [TimerHeap.apply]
  have refused : heap.loomTimerPush e alloc = none ↔
      Multiset.card (heap.entries : Multiset Entry) = heap.cap ∧ alloc = false := by
    rw [Multiset.coe_card, TimerHeap.length_entries]
    exact TimerHeap.loomTimerPush_eq_none
  cases pushed : heap.loomTimerPush e alloc with
  | some after =>
    have room := mt refused.mpr (by simp [pushed])
    refine ⟨after.ordered, ?_, nofun, nofun⟩
    rw [Allows, if_neg room]
    exact ⟨rfl, Multiset.coe_eq_coe.mpr (TimerHeap.entries_push pushed)⟩
  | none =>
    refine ⟨heap.ordered, ?_, fun _ => rfl, nofun⟩
    rw [Allows, if_pos (refused.mp pushed)]
    exact ⟨rfl, rfl⟩

theorem refines_popDue : Refines heap .popDue := by
  unfold Refines
  simp only [TimerHeap.apply]
  cases popped : heap.loomTimerPopDue with
  | none =>
    have empty := popDue_eq_none.mp popped
    refine ⟨heap.ordered, Or.inl ⟨?_, rfl, rfl⟩, nofun, fun _ some => absurd rfl some⟩
    rw [empty]
    rfl
  | some taken =>
    obtain ⟨e, after⟩ := taken
    obtain ⟨kept, root, -⟩ := TimerHeap.entries_popDue popped
    refine ⟨after.ordered, Or.inr ⟨e, ?_, rfl, Multiset.coe_eq_coe.mpr kept⟩, nofun,
      fun _ _ => TimerHeap.push_after_pop popped⟩
    intro x member
    rw [root]
    exact root_le member

theorem refines_removeByTask (distinct : Distinct heap) : Refines heap (.removeByTask taskId) := by
  unfold Refines
  simp only [TimerHeap.apply]
  cases removed : heap.loomTimerRemoveByTask taskId with
  | none =>
    exact ⟨heap.ordered, Or.inl ⟨removeByTask_eq_none removed, rfl, rfl⟩, nofun, nofun⟩
  | some taken =>
    obtain ⟨e, after⟩ := taken
    obtain ⟨own, kept⟩ := TimerHeap.entries_removeByTask removed
    refine ⟨after.ordered, Or.inr ⟨e, own, rfl, Multiset.coe_eq_coe.mpr kept, ?_⟩, nofun, nofun⟩
    intro x member
    rw [← own]
    exact (distinct.others kept).2 x member

/-- An operation changes nothing, adds the entry it pushes or takes one out. -/
theorem apply_cases (heap : TimerHeap) (op : Op) :
    (heap.apply op).2 = heap ∨
      (∃ e alloc, op = .push e alloc ∧ (heap.apply op).2.entries.Perm (e :: heap.entries)) ∨
      ∃ e, heap.entries.Perm (e :: (heap.apply op).2.entries) := by
  cases op with
  | push e alloc =>
    simp only [TimerHeap.apply]
    cases pushed : heap.loomTimerPush e alloc with
    | none => exact Or.inl rfl
    | some after => exact Or.inr (Or.inl ⟨e, alloc, rfl, TimerHeap.entries_push pushed⟩)
  | popDue =>
    simp only [TimerHeap.apply]
    cases popped : heap.loomTimerPopDue with
    | none => exact Or.inl rfl
    | some taken => exact Or.inr (Or.inr ⟨taken.1, (TimerHeap.entries_popDue popped).1⟩)
  | removeByTask taskId =>
    simp only [TimerHeap.apply]
    cases removed : heap.loomTimerRemoveByTask taskId with
    | none => exact Or.inl rfl
    | some taken => exact Or.inr (Or.inr ⟨taken.1, (TimerHeap.entries_removeByTask removed).2⟩)

theorem distinct_apply (distinct : Distinct heap) (fresh : Fresh heap op) :
    Distinct (heap.apply op).2 := by
  obtain same | ⟨e, alloc, rfl, added⟩ | ⟨e, taken⟩ := apply_cases heap op
  · rw [same]
    exact distinct
  · refine (added.map Entry.taskId).nodup_iff.mpr ?_
    rw [List.map_cons, List.nodup_cons]
    refine ⟨fun member => ?_, distinct⟩
    obtain ⟨x, inside, same⟩ := List.mem_map.mp member
    exact fresh x inside same
  · exact (distinct.others taken).1

/-- Along every sequence of operations that pushes at most one entry per task, whatever
the allocator does, the timer heap is a priority queue. -/
theorem timer_heap_is_priority_queue (ops : List Op)
    (fresh : Meets step Fresh TimerHeap.empty ops) : Meets step Refines TimerHeap.empty ops := by
  apply @Meets.of_invariant _ _ step Distinct Fresh Refines
  · intro heap next op distinct fresh taken
    cases taken
    exact distinct_apply distinct fresh
  · intro heap op distinct _
    cases op with
    | push e alloc => exact refines_push e alloc
    | popDue => exact refines_popDue
    | removeByTask taskId => exact refines_removeByTask distinct
  · exact List.nodup_nil
  · exact fresh

/-- The tasks an operation pushes an entry for. -/
def Op.tasks : Op → List Nat
  | .push e _ => [e.taskId]
  | _ => []

theorem mem_apply (member : e ∈ (heap.apply op).2.entries) :
    e ∈ heap.entries ∨ e.taskId ∈ op.tasks := by
  obtain same | ⟨other, alloc, rfl, added⟩ | ⟨other, taken⟩ := apply_cases heap op
  · rw [same] at member
    exact Or.inl member
  · rcases List.mem_cons.mp (added.mem_iff.mp member) with rfl | old
    · exact Or.inr List.mem_cons_self
    · exact Or.inl old
  · exact Or.inl (taken.mem_iff.mpr (List.mem_cons_of_mem _ member))

/-- Where no task id is used twice, every push is fresh. -/
theorem fresh_of_nodup {ops : List Op} (nodup : (ops.flatMap Op.tasks).Nodup)
    (unused : ∀ x ∈ heap.entries, x.taskId ∉ ops.flatMap Op.tasks) :
    Meets step Fresh heap ops := by
  induction ops generalizing heap with
  | nil => trivial
  | cons op rest ih =>
    rw [List.flatMap_cons] at nodup unused
    have apart := List.nodup_append'.mp nodup
    refine ⟨?_, fun next taken => ih apart.2.1 ?_⟩
    · cases op with
      | push e alloc =>
        intro x member same
        exact unused x member (List.mem_append_left _ (List.mem_singleton.mpr same))
      | _ => trivial
    · cases taken
      intro x member
      rcases mem_apply member with old | new
      · exact fun later => unused x old (List.mem_append_right _ later)
      · exact fun later => apart.2.2 new later

/-- The 64 entries the array has at first, latest deadline first; a push without memory
for a larger one; a removal from the middle, a pop, and a push in the room they leave. -/
def fullHeapOps : List Op :=
  (List.range 64).map (fun i => .push ⟨100 - i, i + 2, 0⟩ true) ++
    [.push ⟨10, 66, 0⟩ false, .removeByTask 40, .popDue, .push ⟨20, 67, 0⟩ false, .popDue]

theorem timer_heap_is_priority_queue_full : Meets step Refines TimerHeap.empty fullHeapOps := by
  apply timer_heap_is_priority_queue
  apply fresh_of_nodup
  · decide
  · exact fun x member => absurd member List.not_mem_nil

end Loomworks.Timer

import Loomworks.Transition
import Loomworks.WorkDeque

/- deque_push, deque_pop and deque_steal as the worker loop calls them, under
pool->lock: each call is one step on one of the pool's deques, and each deque is a
list of at most LOOMWORKS_DEQUE_CAPACITY tasks, the oldest first. -/
namespace Loomworks.Pool.DequeList

open Transition
open WorkDeque (Deque sizeSub)

/-- LOOMWORKS_DEQUE_CAPACITY. -/
def dequeSlots : Nat := 256

/-- loom_work_deque_t: the indices and slots, and the counter len. -/
structure Counted where
  deque : Deque := { capacity := dequeSlots }
  len : Int := 0

/-- The deques of a pool and deque_total. -/
structure Deques where
  at_ : Nat → Counted := fun _ => {}
  dequeTotal : Int := 0

inductive Call where
  | push (d task : Nat)
  | pop (d : Nat)
  | steal (d : Nat)
  deriving DecidableEq, Repr

inductive Answer where
  | pushed (ok : Bool)
  | taken (task : Option Nat)
  deriving DecidableEq, Repr

def Call.deque : Call → Nat
  | .push d _ | .pop d | .steal d => d

def Deques.set (s : Deques) (d : Nat) (deque : Deque) (change : Int) : Deques :=
  { at_ := Function.update s.at_ d ⟨deque, (s.at_ d).len + change⟩
    dequeTotal := s.dequeTotal + change }

def dequePush (s : Deques) (i task : Nat) : Answer × Deques :=
  let d := (s.at_ i).deque
  if d.capacity ≤ sizeSub d.bottom d.top then (.pushed false, s)
  else
    (.pushed true, s.set i
      { d with slots := Function.update d.slots (d.cell d.bottom) (some task), bottom := d.bottom + 1 }
      1)

def dequePop (s : Deques) (i : Nat) : Answer × Deques :=
  let d := (s.at_ i).deque
  if d.bottom = 0 then (.taken none, s)
  else if d.top < d.bottom - 1 then
    (.taken (d.slot (d.bottom - 1)), s.set i { d with bottom := d.bottom - 1 } (-1))
  else
    -- the slow path has stored bottom - 1 before it looks at top again
    let b := d.bottom - 1
    if b < d.top then (.taken none, s.set i { d with bottom := d.top } 0)
    else if d.top < b then (.taken (d.slot b), s.set i { d with bottom := b } (-1))
    -- the compare-exchange of top succeeds: nobody else is inside
    else (.taken (d.slot b), s.set i { d with top := d.top + 1, bottom := d.top + 1 } (-1))

def dequeSteal (s : Deques) (i : Nat) : Answer × Deques :=
  let d := (s.at_ i).deque
  if d.bottom ≤ d.top then (.taken none, s)
  else (.taken (d.slot d.top), s.set i { d with top := d.top + 1 } (-1))

def call (s : Deques) : Call → Answer × Deques
  | .push d task => dequePush s d task
  | .pop d => dequePop s d
  | .steal d => dequeSteal s d

/-- The bounded double-ended list each deque is to be. -/
def listCall (lists : Nat → List Nat) : Call → Answer × (Nat → List Nat)
  | .push d task =>
    if (lists d).length < dequeSlots then
      (.pushed true, Function.update lists d (lists d ++ [task]))
    else (.pushed false, lists)
  | .pop d => (.taken (lists d).getLast?, Function.update lists d (lists d).dropLast)
  | .steal d => (.taken (lists d).head?, Function.update lists d (lists d).tail)

/-- The slots from top to bottom hold the list, and len counts it. -/
structure Holds (c : Counted) (list : List Nat) : Prop where
  capacity : c.deque.capacity = dequeSlots
  ends : c.deque.bottom = c.deque.top + list.length
  short : list.length ≤ dequeSlots
  slots : ∀ i < list.length, c.deque.slot (c.deque.top + i) = list[i]?
  len : c.len = list.length

/-- Deques and lists side by side. -/
structure Beside where
  deques : Deques := {}
  lists : Nat → List Nat := fun _ => []

def step (s : Beside) (c : Call) : Option Beside :=
  some ⟨(call s.deques c).2, (listCall s.lists c).2⟩

/-- The pool has n deques. -/
def Within (n : Nat) (_ : Beside) (c : Call) : Prop := c.deque < n

/-- A call answers as the list does, and after it every deque holds its list. -/
def Agrees (n : Nat) (s : Beside) (c : Call) : Prop :=
  (call s.deques c).1 = (listCall s.lists c).1 ∧
    (∀ d, Holds ((call s.deques c).2.at_ d) ((listCall s.lists c).2 d)) ∧
    (∀ d, ((call s.deques c).2.at_ d).deque.top ≤ ((call s.deques c).2.at_ d).deque.bottom ∧
      ((call s.deques c).2.at_ d).len =
        ((call s.deques c).2.at_ d).deque.bottom - ((call s.deques c).2.at_ d).deque.top) ∧
    (call s.deques c).2.dequeTotal = ∑ d ∈ Finset.range n, ((call s.deques c).2.at_ d).len

structure Inv (n : Nat) (s : Beside) : Prop where
  holds : ∀ d, Holds (s.deques.at_ d) (s.lists d)
  total : s.deques.dequeTotal = ∑ d ∈ Finset.range n, (s.deques.at_ d).len

variable {n d task : Nat} {s : Beside} {c : Call} {counted : Counted} {list : List Nat}

theorem Holds.push (holds : Holds counted list) (room : list.length < dequeSlots) (task : Nat) :
    Holds ⟨{ counted.deque with
        slots := Function.update counted.deque.slots (counted.deque.cell counted.deque.bottom) (some task)
        bottom := counted.deque.bottom + 1 }, counted.len + 1⟩ (list ++ [task]) := by
  obtain ⟨capacity, ends, short, slots, len⟩ := holds
  simp only [Deque.slot, Deque.cell, dequeSlots] at *
  refine ⟨capacity, ?_, ?_, ?_, ?_⟩
  · simp
    omega
  · simp [dequeSlots]
    omega
  · intro i inside
    simp only [List.length_append, List.length_singleton, capacity] at inside slots ⊢
    by_cases last : i = list.length
    · subst last
      simp [Deque.slot, Deque.cell, ends]
    · have other : (counted.deque.top + i) % 256 ≠ counted.deque.bottom % 256 := by omega
      rw [List.getElem?_append_left (by omega)]
      simpa [Deque.slot, Deque.cell, capacity, other] using slots i (by omega)
  · simp [len]

/-- The newest task is taken, whichever way the two ends then stand. -/
theorem Holds.pop (holds : Holds counted list) (filled : list ≠ []) {top bottom : Nat}
    (shape : top = counted.deque.top ∧ bottom = counted.deque.bottom - 1 ∨
      list.length = 1 ∧ top = bottom) :
    Holds ⟨{ counted.deque with top, bottom }, counted.len - 1⟩ list.dropLast ∧
      counted.deque.slot (counted.deque.bottom - 1) = list.getLast? := by
  obtain ⟨capacity, ends, short, slots, len⟩ := holds
  have positive := List.length_pos_iff.mpr filled
  refine ⟨⟨capacity, ?_, ?_, ?_, ?_⟩, ?_⟩
  · simp only [List.length_dropLast]
    omega
  · simp only [List.length_dropLast]
    omega
  · intro i inside
    simp only [List.length_dropLast] at inside
    have same : top = counted.deque.top := by omega
    rw [List.getElem?_dropLast, if_pos inside]
    rw [same]
    exact slots i (by omega)
  · simp only [List.length_dropLast, len]
    omega
  · rw [List.getLast?_eq_getElem?, ← slots (list.length - 1) (by omega), ends]
    congr 1
    omega

theorem Holds.steal (holds : Holds counted list) (filled : list ≠ []) :
    Holds ⟨{ counted.deque with top := counted.deque.top + 1 }, counted.len - 1⟩ list.tail ∧
      counted.deque.slot counted.deque.top = list.head? := by
  obtain ⟨capacity, ends, short, slots, len⟩ := holds
  have positive := List.length_pos_iff.mpr filled
  refine ⟨⟨capacity, ?_, ?_, ?_, ?_⟩, ?_⟩
  · simp only [List.length_tail]
    omega
  · simp only [List.length_tail]
    omega
  · intro i inside
    simp only [List.length_tail] at inside
    rw [List.getElem?_tail, ← slots (i + 1) (by omega)]
    simp [Deque.slot, Deque.cell, Nat.add_comm 1 i, Nat.add_assoc]
  · simp only [List.length_tail, len]
    omega
  · rw [List.head?_eq_getElem?, ← slots 0 positive, Nat.add_zero]

/-- One deque and its list change, and the totals move along. -/
theorem Inv.set (inv : Inv n s) (inside : d < n) {deque : Deque} {change : Int}
    (own : Holds ⟨deque, (s.deques.at_ d).len + change⟩ list) :
    Inv n ⟨s.deques.set d deque change, Function.update s.lists d list⟩ := by
  constructor
  · intro i
    by_cases same : i = d
    · subst same
      simpa [Deques.set] using own
    · simpa [Deques.set, same] using inv.holds i
  · have sum : ∑ i ∈ Finset.range n, ((s.deques.set d deque change).at_ i).len =
        ∑ i ∈ Finset.range n, ((s.deques.at_ i).len + if i = d then change else 0) := by
      apply Finset.sum_congr rfl
      intro i _
      by_cases same : i = d <;> simp [Deques.set, same]
    rw [sum, Finset.sum_add_distrib, Finset.sum_ite_eq' (Finset.range n) d, if_pos (by simpa using inside),
      ← inv.total]
    rfl

theorem Inv.same (inv : Inv n s) (empty : list = s.lists d) :
    Inv n ⟨s.deques, Function.update s.lists d list⟩ := by
  rw [empty, Function.update_eq_self]
  exact inv

theorem Inv.push (inv : Inv n s) (inside : d < n) :
    (dequePush s.deques d task).1 = (listCall s.lists (.push d task)).1 ∧
      Inv n ⟨(dequePush s.deques d task).2, (listCall s.lists (.push d task)).2⟩ := by
  have holds := inv.holds d
  have full : (s.deques.at_ d).deque.capacity ≤
      sizeSub (s.deques.at_ d).deque.bottom (s.deques.at_ d).deque.top ↔
        ¬(s.lists d).length < dequeSlots := by
    rw [holds.capacity, holds.ends, sizeSub, if_pos (by omega)]
    omega
  unfold dequePush listCall
  by_cases room : (s.lists d).length < dequeSlots
  · simp only [full, room, not_true, ↓reduceIte]
    exact ⟨trivial, inv.set inside (holds.push room task)⟩
  · simp only [full, room, not_false_iff, ↓reduceIte]
    exact ⟨trivial, inv⟩

theorem Inv.pop (inv : Inv n s) (inside : d < n) :
    (dequePop s.deques d).1 = (listCall s.lists (.pop d)).1 ∧
      Inv n ⟨(dequePop s.deques d).2, (listCall s.lists (.pop d)).2⟩ := by
  have holds := inv.holds d
  have ends := holds.ends
  unfold dequePop listCall
  by_cases empty : s.lists d = []
  · have stays := @Inv.same n d s [] inv empty.symm
    have level : (s.deques.at_ d).deque.bottom = (s.deques.at_ d).deque.top := by
      simpa [empty] using ends
    simp only [empty, List.getLast?_nil, List.dropLast_nil]
    split
    · exact ⟨rfl, stays⟩
    · rename_i positive
      rw [if_neg (by omega), if_pos (by omega)]
      refine ⟨rfl, inv.set inside ?_⟩
      exact ⟨holds.capacity, rfl, Nat.zero_le _, nofun, by simpa [empty] using holds.len⟩
  · have positive := List.length_pos_iff.mpr empty
    rw [if_neg (by omega)]
    split
    · obtain ⟨after, newest⟩ := holds.pop empty (Or.inl ⟨rfl, rfl⟩)
      exact ⟨congrArg _ newest, inv.set inside after⟩
    · rw [if_neg (by omega), if_neg (by omega)]
      obtain ⟨after, newest⟩ := holds.pop empty (Or.inr ⟨by omega, rfl⟩)
      exact ⟨congrArg _ newest, inv.set inside after⟩

theorem Inv.steal (inv : Inv n s) (inside : d < n) :
    (dequeSteal s.deques d).1 = (listCall s.lists (.steal d)).1 ∧
      Inv n ⟨(dequeSteal s.deques d).2, (listCall s.lists (.steal d)).2⟩ := by
  have holds := inv.holds d
  have ends := holds.ends
  unfold dequeSteal listCall
  by_cases empty : s.lists d = []
  · have stays := @Inv.same n d s [] inv empty.symm
    rw [if_pos (by simp [ends, empty])]
    simp only [empty, List.head?_nil, List.tail_nil]
    exact ⟨trivial, stays⟩
  · have positive := List.length_pos_iff.mpr empty
    rw [if_neg (by omega)]
    obtain ⟨after, oldest⟩ := holds.steal empty
    exact ⟨congrArg _ oldest, inv.set inside after⟩

theorem Inv.call (inv : Inv n s) (within : Within n s c) :
    (call s.deques c).1 = (listCall s.lists c).1 ∧
      Inv n ⟨(DequeList.call s.deques c).2, (listCall s.lists c).2⟩ := by
  cases c with
  | push d task => exact inv.push within
  | pop d => exact inv.pop within
  | steal d => exact inv.steal within

/-- Along every sequence of calls on the deques of a pool each deque is a bounded
double-ended list: pushes append until it is full, pops take the newest and steals the
oldest task; the indices, the lengths and the total agree with the lists. -/
theorem deques_are_bounded_lists (n : Nat) (calls : List Call)
    (within : Meets step (Within n) {} calls) : Meets step (Agrees n) {} calls := by
  apply @Meets.of_invariant _ _ step (Inv n) (Within n) (Agrees n)
  · intro s next c inv within taken
    cases taken
    exact (inv.call within).2
  · intro s c inv within
    obtain ⟨same, after⟩ := inv.call within
    refine ⟨same, after.holds, fun d => ?_, after.total⟩
    have holds := after.holds d
    have ends := holds.ends
    have len := holds.len
    simp only at ends len
    omega
  · constructor
    · intro d
      exact ⟨rfl, rfl, Nat.zero_le _, nofun, rfl⟩
    · simp
  · exact within

/-- Two deques; the last task of the first is popped, then it is popped empty. -/
theorem deques_are_bounded_lists_two :
    Meets step (Agrees 2) {}
      [.push 0 5, .push 0 6, .push 1 7, .steal 0, .pop 0, .pop 0, .push 0 8, .steal 1] := by
  apply deques_are_bounded_lists
  apply meets_of_forall
  simp [Within, Call.deque]

end Loomworks.Pool.DequeList

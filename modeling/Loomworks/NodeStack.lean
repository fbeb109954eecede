import Loomworks.Links
import Loomworks.Transition

/- The free list of task nodes (src/thread_pool.c: node_stack_batch_pop,
node_stack_batch_push and the seeding in pool_init). Every atomic access is one step; a slot is
the index of a node in node_pool. -/
namespace Loomworks.Pool.NodeStack

open Links

/-- LOOMWORKS_NODE_FREE_END. -/
def freeEnd : Nat := 2 ^ 32 - 1

/-- The word node_stack: the tag in its high half, the head slot in its low half. -/
structure Head where
  tag : Nat
  slot : Nat
  deriving DecidableEq, Repr

/-- The word an update writes over head. -/
def Head.swap (head : Head) (slot : Nat) : Head := ⟨(head.tag + 1) % 2 ^ 32, slot⟩

/-- The next access of a call. In a pop n counts the slots up to cur, which the walk has
reached, or in popOut those still to be read. -/
inductive OpPc where
  | idle
  | popLoad (want : Nat)
  | popWalk (want : Nat) (head : Head) (cur n : Nat)
  | popSuccessor (want : Nat) (head : Head) (cur n : Nat)
  | popSwap (want : Nat) (head : Head) (n successor : Nat)
  | popOut (want det n : Nat) (out : List Nat)
  | pushLink (slots rest : List Nat)
  | pushLoad (slots : List Nat)
  | pushStore (slots : List Nat) (head : Head)
  | pushSwap (slots : List Nat) (head : Head)
  deriving DecidableEq, Repr

/-- out and linked are what the last pop and the last push returned. since and seen are the
numbers of updates made when the call began and when it last read node_stack; no step reads
them. -/
structure Caller where
  pc : OpPc := .idle
  out : List Nat := []
  linked : Bool := true
  since : Nat := 0
  seen : Nat := 0
  deriving DecidableEq, Repr

/-- held are the slots each caller has got and not given back; updates counts the successful
exchanges of node_stack. No step reads them. -/
structure State where
  cap : Nat
  head : Head
  next : Nat → Nat
  callers : Nat → Caller := fun _ => {}
  held : Nat → List Nat := fun _ => []
  updates : Nat := 0

/-- ok: the weak compare-exchange does not fail spuriously. give: caller i passes a slot on,
as a task node passes from the thread that creates it to the one that destroys it. -/
inductive Label where
  | pop (i want : Nat)
  | push (i : Nat) (slots : List Nat)
  | step (i : Nat) (ok : Bool)
  | give (i j slot : Nat)
  deriving DecidableEq, Repr

namespace State

def setPc (s : State) (i : Nat) (pc : OpPc) : State :=
  { s with callers := Function.update s.callers i { s.callers i with pc } }

def popReturns (s : State) (i : Nat) (out : List Nat) : State :=
  { s with callers := Function.update s.callers i { s.callers i with pc := .idle, out } }

def pushReturns (s : State) (i : Nat) (linked : Bool) : State :=
  { s with callers := Function.update s.callers i { s.callers i with pc := .idle, linked } }

/-- Caller i has read node_stack and goes to pc. -/
def reads (s : State) (i : Nat) (pc : OpPc) : State :=
  { s with callers := Function.update s.callers i { s.callers i with pc, seen := s.updates } }

/-- Caller i begins a call. -/
def begins (s : State) (i : Nat) (pc : OpPc) : State :=
  { s with callers := Function.update s.callers i { s.callers i with pc, since := s.updates } }

section Fields

variable (s : State) (i : Nat)

@[simp] theorem setPc_pc (pc : OpPc) : ((s.setPc i pc).callers i).pc = pc := by
  simp [setPc]

@[simp] theorem reads_pc (pc : OpPc) : ((s.reads i pc).callers i).pc = pc := by
  simp [reads]

@[simp] theorem begins_pc (pc : OpPc) : ((s.begins i pc).callers i).pc = pc := by
  simp [begins]

@[simp] theorem popReturns_out (out : List Nat) : ((s.popReturns i out).callers i).out = out := by
  simp [popReturns]

@[simp] theorem pushReturns_pc (linked : Bool) : ((s.pushReturns i linked).callers i).pc = .idle := by
  simp [pushReturns]

@[simp] theorem pushReturns_linked (linked : Bool) :
    ((s.pushReturns i linked).callers i).linked = linked := by
  simp [pushReturns]

end Fields

/-- The loop of a pop at its n-th slot. -/
def advance (want : Nat) (head : Head) (cur n : Nat) : OpPc :=
  if n < want then .popWalk want head cur n else .popSuccessor want head cur n

/-- A pop looks at the word it has just read. -/
def inspect (s : State) (i want : Nat) : State :=
  if s.head.slot = freeEnd then s.popReturns i []
  else s.reads i (advance want s.head s.head.slot 1)

def nodeStackBatchPop (s : State) (i : Nat) (ok : Bool) : OpPc → Option State
  | .popLoad want => some (s.inspect i want)
  | .popWalk want head cur n =>
    if s.next cur = freeEnd then some (s.setPc i (.popSuccessor want head cur n))
    else some (s.setPc i (advance want head (s.next cur) (n + 1)))
  | .popSuccessor want head cur n => some (s.setPc i (.popSwap want head n (s.next cur)))
  | .popSwap want head n successor =>
    if s.head = head ∧ ok = true then
      some ({ s with
        head := head.swap successor
        held := Function.update s.held i (follow s.next head.slot n ++ s.held i)
        updates := s.updates + 1 }.setPc i (.popOut want head.slot n []))
    else some (s.inspect i want)
  | .popOut want det n out =>
    if n = 1 then some (s.popReturns i (out ++ [det]))
    else some (s.setPc i (.popOut want (s.next det) (n - 1) (out ++ [det])))
  | _ => none

/-- The loop that links the slots of a push, with rest of them ahead of it. -/
def linking (slots : List Nat) : List Nat → OpPc
  | x :: y :: rest => .pushLink slots (x :: y :: rest)
  | _ => .pushLoad slots

def nodeStackBatchPush (s : State) (i : Nat) (ok : Bool) : OpPc → Option State
  | .pushLink slots (x :: y :: rest) =>
    some ({ s with next := Function.update s.next x y }.setPc i (linking slots (y :: rest)))
  | .pushLoad slots => some (s.reads i (.pushStore slots s.head))
  | .pushStore slots head =>
    some ({ s with
      next := Function.update s.next (slots.getLastD freeEnd) head.slot }.setPc i (.pushSwap slots head))
  | .pushSwap slots head =>
    if s.head = head ∧ ok = true then
      some ({ s with
        head := head.swap (slots.headD freeEnd)
        held := Function.update s.held i ((s.held i).filter fun x => x ∉ slots)
        updates := s.updates + 1 }.pushReturns i true)
    else some (s.reads i (.pushStore slots s.head))
  | _ => none

/-- The chain from the head to the END marker. -/
def chain (s : State) : List Nat := walk s.next freeEnd s.head.slot s.cap

end State

open State in
def step (s : State) : Label → Option State
  | .pop i want =>
    if (s.callers i).pc = .idle then
      if s.cap = 0 ∨ want = 0 then some (s.popReturns i [])
      else some (s.begins i (.popLoad want))
    else none
  | .push i slots =>
    if (s.callers i).pc = .idle ∧ slots.Nodup ∧ ∀ x ∈ slots, x ∈ s.held i then
      if slots = [] then some (s.pushReturns i true)
      else if s.cap = 0 then some (s.pushReturns i false)
      else some (s.begins i (linking slots slots))
    else none
  | .step i ok =>
    match (s.callers i).pc with
    | .idle => none
    | .popLoad _ | .popWalk .. | .popSuccessor .. | .popSwap .. | .popOut .. =>
      s.nodeStackBatchPop i ok (s.callers i).pc
    | .pushLink .. | .pushLoad _ | .pushStore .. | .pushSwap .. =>
      s.nodeStackBatchPush i ok (s.callers i).pc
  | .give i j slot =>
    if (s.callers i).pc = .idle ∧ slot ∈ s.held i ∧ i ≠ j then
      some { s with
        held := Function.update (Function.update s.held i ((s.held i).erase slot)) j
          (slot :: s.held j) }
    else none

/-- The free list pool_init leaves, for a node array of cap nodes or for none. -/
def start (cap : UInt32) : State where
  cap := cap.toNat
  head := ⟨0, if cap = 0 then freeEnd else 0⟩
  next i := if i + 1 < cap.toNat then i + 1 else freeEnd

/-- Fewer than 2^32 updates happen during one call. -/
def Quick (s : State) : Label → Prop
  | .step i _ => s.updates < (s.callers i).since + 2 ^ 32
  | _ => True

instance (s : State) : (label : Label) → Decidable (Quick s label)
  | .step i _ => inferInstanceAs (Decidable (s.updates < (s.callers i).since + 2 ^ 32))
  | .pop _ _ | .push _ _ | .give _ _ _ => isTrue trivial

end Loomworks.Pool.NodeStack

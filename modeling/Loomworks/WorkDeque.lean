import Mathlib

/- deque_push, deque_pop and deque_steal (src/thread_pool.c) of one work-stealing
deque, one load, store or compare-exchange a step: one owner pushes and pops at the
bottom, any number of thieves steal at the top. top and bottom are taken not to
wrap. -/
namespace Loomworks.Pool.WorkDeque

inductive OwnerPc where
  | idle
  | pushLoadBottom (task : Nat)
  | pushLoadTop (task b : Nat)
  | pushStoreSlot (task b : Nat)
  | pushStoreBottom (task b : Nat)
  | pushAddLen
  | pushAddTotal
  | popLoadBottom
  | popLoadTop (b : Nat)
  /-- the fast path: b is still the bottom that was read -/
  | popFastStore (b : Nat)
  | popFastSlot (b : Nat)
  /-- the slow path: b is still the bottom that was read -/
  | popSlowStore (b : Nat)
  | popReload (b : Nat)
  | popResync (t : Nat)
  | popSlot (b t : Nat)
  | popCas (t : Nat) (task : Option Nat)
  | popWon (t : Nat)
  | popLost (t : Nat)
  | popSubLen
  | popSubTotal
  deriving DecidableEq, Repr

inductive ThiefPc where
  | idle
  | loadTop
  | loadBottom (t : Nat)
  | loadSlot (t : Nat)
  | cas (t : Nat) (task : Option Nat)
  | subLen
  | subTotal
  deriving DecidableEq, Repr

/-- The shared part of loom_work_deque_t. -/
structure Deque where
  capacity : Nat
  top : Nat := 0
  bottom : Nat := 0
  slots : Nat → Option Nat := fun _ => none

namespace Deque

def cell (d : Deque) (p : Nat) : Nat := p % d.capacity

/-- The slot of a position. -/
def slot (d : Deque) (p : Nat) : Option Nat := d.slots (d.cell p)

end Deque

/-- len is the deque's length counter and dequeTotal the pool's. pushed logs the tasks
of the pushes that stored their bottom; returned logs what each pop or steal gives
back, at the step that decides it. -/
structure State where
  deque : Deque
  len : Int := 0
  dequeTotal : Int := 0
  owner : OwnerPc := .idle
  thieves : Nat → ThiefPc := fun _ => .idle
  pushed : List Nat := []
  returned : List (Option Nat) := []

inductive Label where
  | dequePush (task : Nat)
  | dequePop
  | owner
  | dequeSteal (i : Nat)
  | thief (i : Nat)
  deriving DecidableEq, Repr

/-- Subtraction of size_t. -/
def sizeSub (a b : Nat) : Nat := if b ≤ a then a - b else 2 ^ 64 - (b - a)

def State.setThief (s : State) (i : Nat) (pc : ThiefPc) : State :=
  { s with thieves := Function.update s.thieves i pc }

/-- One access of deque_push or deque_pop. -/
def ownerStep (s : State) : Option State :=
  let d := s.deque
  match s.owner with
  | .idle => none
  | .pushLoadBottom task => some { s with owner := .pushLoadTop task d.bottom }
  | .pushLoadTop task b =>
    if d.capacity ≤ sizeSub b d.top then some { s with owner := .idle }
    else some { s with owner := .pushStoreSlot task b }
  | .pushStoreSlot task b =>
    some { s with
      deque := { d with slots := Function.update d.slots (d.cell b) (some task) },
      owner := .pushStoreBottom task b }
  | .pushStoreBottom task b =>
    some { s with
      deque := { d with bottom := b + 1 }, pushed := s.pushed ++ [task], owner := .pushAddLen }
  | .pushAddLen => some { s with len := s.len + 1, owner := .pushAddTotal }
  | .pushAddTotal => some { s with dequeTotal := s.dequeTotal + 1, owner := .idle }
  | .popLoadBottom =>
    if d.bottom = 0 then some { s with owner := .idle }
    else some { s with owner := .popLoadTop d.bottom }
  | .popLoadTop b =>
    if d.top < b - 1 then some { s with owner := .popFastStore b }
    else some { s with owner := .popSlowStore b }
  | .popFastStore b =>
    some { s with deque := { d with bottom := b - 1 }, owner := .popFastSlot (b - 1) }
  | .popFastSlot b => some { s with returned := s.returned ++ [d.slot b], owner := .popSubLen }
  | .popSlowStore b =>
    some { s with deque := { d with bottom := b - 1 }, owner := .popReload (b - 1) }
  | .popReload b =>
    if b < d.top then some { s with owner := .popResync d.top }
    else some { s with owner := .popSlot b d.top }
  | .popResync t => some { s with deque := { d with bottom := t }, owner := .idle }
  | .popSlot b t =>
    if t < b then some { s with returned := s.returned ++ [d.slot b], owner := .popSubLen }
    else some { s with owner := .popCas t (d.slot b) }
  | .popCas t task =>
    if d.top = t then
      some { s with
        deque := { d with top := t + 1 }, returned := s.returned ++ [task], owner := .popWon t }
    -- the failed compare-exchange has stored the actual top in t
    else some { s with owner := .popLost d.top }
  | .popWon t => some { s with deque := { d with bottom := t + 1 }, owner := .popSubLen }
  | .popLost t => some { s with deque := { d with bottom := t }, owner := .idle }
  | .popSubLen => some { s with len := s.len - 1, owner := .popSubTotal }
  | .popSubTotal => some { s with dequeTotal := s.dequeTotal - 1, owner := .idle }

/-- One access of deque_steal. -/
def thiefStep (s : State) (i : Nat) : Option State :=
  let d := s.deque
  match s.thieves i with
  | .idle => none
  | .loadTop => some (s.setThief i (.loadBottom d.top))
  | .loadBottom t =>
    if d.bottom ≤ t then some (s.setThief i .idle) else some (s.setThief i (.loadSlot t))
  | .loadSlot t => some (s.setThief i (.cas t (d.slot t)))
  | .cas t task =>
    if d.top = t then
      some ({ s with
        deque := { d with top := t + 1 }, returned := s.returned ++ [task] }.setThief i .subLen)
    else some (s.setThief i .idle)
  | .subLen => some ({ s with len := s.len - 1 }.setThief i .subTotal)
  | .subTotal => some ({ s with dequeTotal := s.dequeTotal - 1 }.setThief i .idle)

def step (s : State) : Label → Option State
  | .dequePush task => if s.owner = .idle then some { s with owner := .pushLoadBottom task } else none
  | .dequePop => if s.owner = .idle then some { s with owner := .popLoadBottom } else none
  | .owner => ownerStep s
  | .dequeSteal i => if s.thieves i = .idle then some (s.setThief i .loadTop) else none
  | .thief i => thiefStep s i

/-- An empty deque; its capacity is a power of two (LOOMWORKS_DEQUE_CAPACITY is 2 ^ 8). -/
def start (bits : Nat) : State := { deque := { capacity := 2 ^ bits } }

end Loomworks.Pool.WorkDeque

import Loomworks.SeqRing
import Loomworks.Transition

/- ring_try_enqueue and ring_bulk_try_dequeue (src/thread_pool.c) called by any
number of threads, one atomic access a step. Positions are 64-bit counters and
are taken not to wrap. The insert into the cancel index, between the store of the
task and the publish, does not touch the ring. -/
namespace Loomworks.Pool.RingQueue

open SeqRing

inductive ProducerPc where
  | idle
  | loadTail (task : Nat)
  | loadSeq (task tail : Nat)
  | casTail (task tail : Nat)
  | storeTask (task pos : Nat)
  | publish (task pos : Nat)
  | addCount (task pos : Nat)
  deriving DecidableEq, Repr

/-- out is what the call has read so far; a cell that was never written reads NULL. -/
inductive ConsumerPc where
  | idle
  | loadHead (max : Nat)
  | loadSeq (max head : Nat) (out : List (Option Nat))
  | loadTask (max head : Nat) (out : List (Option Nat))
  | casHead (head : Nat) (out : List (Option Nat))
  | release (want : Nat) (out : List (Option Nat)) (k : Nat)
  | subCount (out : List (Option Nat))
  deriving DecidableEq, Repr

/-- accepted logs the task and the position of each ring_try_enqueue that returned
true, batches what each ring_bulk_try_dequeue returns, in the order in which they
moved ring_head. -/
structure State where
  ring : SeqRing.Ring Nat
  history : History Nat := {}
  ringCount : Int := 0
  producers : Nat → ProducerPc := fun _ => .idle
  consumers : Nat → ConsumerPc := fun _ => .idle
  accepted : List (Nat × Nat) := []
  batches : List (List (Option Nat)) := []

/-- spurious: a weak compare-exchange fails although the value matches. -/
inductive Label where
  | ringTryEnqueue (i task : Nat)
  | produce (i : Nat) (spurious : Bool)
  | ringBulkTryDequeue (i max : Nat)
  | consume (i : Nat) (spurious : Bool)
  deriving DecidableEq, Repr

namespace State

def setProducer (s : State) (i : Nat) (pc : ProducerPc) : State :=
  { s with producers := Function.update s.producers i pc }

def setConsumer (s : State) (i : Nat) (pc : ConsumerPc) : State :=
  { s with consumers := Function.update s.consumers i pc }

end State

/-- One access of ring_try_enqueue. -/
def produce (s : State) (i : Nat) (spurious : Bool) : Option State :=
  match s.producers i with
  | .idle => none
  | .loadTail task => some (s.setProducer i (.loadSeq task s.ring.tail))
  | .loadSeq task tail =>
    if s.ring.seq (s.ring.cell tail) = tail then some (s.setProducer i (.casTail task tail))
    -- full or claimed: the call returns false
    else some (s.setProducer i .idle)
  | .casTail task tail =>
    if s.ring.tail = tail ∧ spurious = false then
      some ({ s with ring := s.ring.claim, history := s.history.claim task }.setProducer i
        (.storeTask task tail))
    else some (s.setProducer i (.loadSeq task s.ring.tail))
  | .storeTask task pos =>
    some ({ s with ring := s.ring.fill pos task }.setProducer i (.publish task pos))
  | .publish task pos =>
    some ({ s with ring := s.ring.publish pos, history := s.history.publish pos }.setProducer i
      (.addCount task pos))
  | .addCount task pos =>
    some ({ s with
      ringCount := s.ringCount + 1, accepted := (task, pos) :: s.accepted }.setProducer i .idle)

/-- The end of the scan: nothing found, or the batch is to be claimed. -/
def stop (head : Nat) (out : List (Option Nat)) : ConsumerPc :=
  if out = [] then .idle else .casHead head out

/-- The loop condition of the scan. -/
def scan (max head : Nat) (out : List (Option Nat)) : ConsumerPc :=
  if out.length < max then .loadSeq max head out else stop head out

/-- One access of ring_bulk_try_dequeue. -/
def consume (s : State) (i : Nat) (spurious : Bool) : Option State :=
  match s.consumers i with
  | .idle => none
  | .loadHead max => some (s.setConsumer i (scan max s.ring.head []))
  | .loadSeq max head out =>
    let pos := head + out.length
    if s.ring.seq (s.ring.cell pos) = pos + 1 then some (s.setConsumer i (.loadTask max head out))
    else some (s.setConsumer i (stop head out))
  | .loadTask max head out =>
    some (s.setConsumer i
      (scan max head (out ++ [s.ring.slot (s.ring.cell (head + out.length))])))
  | .casHead head out =>
    if s.ring.head = head ∧ spurious = false then
      some ({ s with
        ring := s.ring.take out.length, batches := s.batches ++ [out] }.setConsumer i
          (.release head out 0))
    else some (s.setConsumer i .idle)
  | .release want out k =>
    some ({ s with
      ring := s.ring.release (want + k), history := s.history.release (want + k) }.setConsumer i
        (if k + 1 < out.length then .release want out (k + 1) else .subCount out))
  | .subCount out =>
    some ({ s with ringCount := s.ringCount - out.length }.setConsumer i .idle)

def step (s : State) : Label → Option State
  | .ringTryEnqueue i task =>
    if s.producers i = .idle then some (s.setProducer i (.loadTail task)) else none
  | .produce i spurious => produce s i spurious
  | .ringBulkTryDequeue i max =>
    if s.consumers i = .idle then some (s.setConsumer i (.loadHead max)) else none
  | .consume i spurious => consume s i spurious

/-- pool_init: ring_size is a power of two, at least 2, and cell i starts with
sequence number i. -/
def start (bits : Nat) : State := { ring := { size := 2 ^ (bits + 1) } }

end Loomworks.Pool.RingQueue

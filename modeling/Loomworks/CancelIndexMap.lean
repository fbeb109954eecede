import Loomworks.CancelIndex
import Loomworks.Transition

/- The cancel index as a finite map: every sequence of its operations, each of them
atomic, answers as a set of live tasks does. -/
namespace Loomworks.Pool

open Transition

inductive IndexOp where
  | insert (t : Nat)
  | remove (t : Nat)
  | claim (t : Nat)
  | find (t : Nat)
  deriving DecidableEq, Repr

inductive IndexReply where
  | done
  | claimed (won : Bool)
  | found (task : Option Nat)
  deriving DecidableEq, Repr

def IndexOp.task : IndexOp → Nat
  | .insert t | .remove t | .claim t | .find t => t

/-- dataOf is the user data of each task. -/
def applyIndex (dataOf : Nat → Nat) (ix : CancelIndex) : IndexOp → IndexReply × CancelIndex
  | .insert t => (.done, cancelIndexInsert ix t (dataOf t))
  | .remove t => (.done, cancelIndexRemove ix t)
  | .claim t => (.claimed (cancelIndexClaim ix t).2, (cancelIndexClaim ix t).1)
  | .find t => (.found (cancelIndexFind ix t), ix)

/-- The map this is to be: the tasks inserted and neither removed nor claimed since,
beside all tasks ever inserted. -/
structure TaskMap where
  live : Finset Nat := ∅
  used : Finset Nat := ∅

def applyMap (m : TaskMap) : IndexOp → IndexReply × TaskMap
  | .insert t => (.done, ⟨insert t m.live, insert t m.used⟩)
  | .remove t => (.done, { m with live := m.live.erase t })
  | .claim t => (.claimed (decide (t ∈ m.live)), { m with live := m.live.erase t })
  | .find t => (.found (if t ∈ m.live then some t else none), m)

/-- Rounds of the probe for an occupied slot. -/
def CancelIndex.lookupRounds (ix : CancelIndex) (id : Nat) : Nat :=
  Probe.rounds (fun h => (ix.slots h).taskId == id + 1) (fun h => (ix.slots h).taskId == 0)
    (nextSlot ix.cap) ix.cap (cancelIndexHash (id + 1) ix.cap)

/-- Rounds of the probe for a reusable slot. -/
def CancelIndex.vacantRounds (ix : CancelIndex) (id : Nat) : Nat :=
  Probe.rounds (fun h => (ix.slots h).taskId == 0 || (ix.slots h).taskId == 1) (fun _ => false)
    (nextSlot ix.cap) ix.cap (cancelIndexHash (id + 1) ix.cap)

/-- The index and the map side by side. -/
structure Paired where
  index : CancelIndex
  map : TaskMap := {}

def pairedStep (dataOf : Nat → Nat) (p : Paired) (op : IndexOp) : Option Paired :=
  some ⟨(applyIndex dataOf p.index op).2, (applyMap p.map op).2⟩

/-- Ids start at 2, a task is inserted once and only if the table is not full of live
entries. -/
def Proper (p : Paired) : IndexOp → Prop
  | .insert t => 2 ≤ t ∧ t ∉ p.map.used ∧ p.map.live.card < p.index.cap
  | .remove t | .claim t | .find t => 2 ≤ t

instance (p : Paired) (op : IndexOp) : Decidable (Proper p op) := by
  cases op <;> unfold Proper <;> infer_instance

/-- The index answers as the map does, a remove of an absent task changes nothing, and
the probes end within cancel_cap rounds. -/
def Answers (dataOf : Nat → Nat) (p : Paired) (op : IndexOp) : Prop :=
  (applyIndex dataOf p.index op).1 = (applyMap p.map op).1 ∧
    (∀ t, op = .remove t → t ∉ p.map.live → (applyIndex dataOf p.index op).2 = p.index) ∧
    p.index.lookupRounds op.task ≤ p.index.cap ∧ p.index.vacantRounds op.task ≤ p.index.cap

/-- The index lists the live tasks of the map. -/
structure Represents (dataOf : Nat → Nat) (bits : Nat) (p : Paired) : Prop where
  indexes : Indexes dataOf bits p.index p.map.live
  used : p.map.live ⊆ p.map.used

variable {dataOf : Nat → Nat} {bits : Nat} {p : Paired} {op : IndexOp} {t : Nat}

theorem Proper.positive (proper : Proper p op) : 0 < op.task := by
  cases op with
  | insert t => exact Nat.lt_of_lt_of_le (by omega) proper.1
  | remove t | claim t | find t => exact Nat.lt_of_lt_of_le (by omega) proper

theorem Represents.step (represents : Represents dataOf bits p) (proper : Proper p op) :
    Represents dataOf bits ⟨(applyIndex dataOf p.index op).2, (applyMap p.map op).2⟩ := by
  obtain ⟨indexes, used⟩ := represents
  have positive := proper.positive
  cases op with
  | insert t =>
    obtain ⟨-, unused, room⟩ := proper
    rw [indexes.size] at room
    obtain ⟨live, after, grown⟩ := indexes.insert_fresh positive fun member => unused (used member)
    rcases grown with rfl | ⟨-, full⟩
    · exact ⟨after, Finset.insert_subset_insert _ used⟩
    · omega
  | remove t =>
    refine ⟨?_, (Finset.erase_subset _ _).trans used⟩
    by_cases member : t ∈ p.map.live
    · exact indexes.remove_live member
    · have kept : cancelIndexRemove p.index t = p.index := indexes.remove_dead positive member
      simp only [applyIndex, applyMap, kept, Finset.erase_eq_of_notMem member]
      exact indexes
  | claim t =>
    refine ⟨?_, (Finset.erase_subset _ _).trans used⟩
    by_cases member : t ∈ p.map.live
    · exact (indexes.claim_live member).2
    · have lost : cancelIndexClaim p.index t = (p.index, false) :=
        indexes.claim_dead positive member
      simp only [applyIndex, applyMap, lost, Finset.erase_eq_of_notMem member]
      exact indexes
  | find t => exact ⟨indexes, used⟩

theorem Represents.reply (represents : Represents dataOf bits p) (positive : 0 < op.task) :
    (applyIndex dataOf p.index op).1 = (applyMap p.map op).1 := by
  have indexes := represents.indexes
  cases op with
  | insert t => rfl
  | remove t => rfl
  | claim t =>
    by_cases member : t ∈ p.map.live
    · simp [applyIndex, applyMap, member, (indexes.claim_live member).1]
    · have lost : cancelIndexClaim p.index t = (p.index, false) :=
        indexes.claim_dead positive member
      simp [applyIndex, applyMap, member, lost]
  | find t =>
    by_cases member : t ∈ p.map.live
    · simp [applyIndex, applyMap, member, indexes.find_live member]
    · have missed : cancelIndexFind p.index t = none := indexes.find_dead positive member
      simp [applyIndex, applyMap, member, missed]

theorem Represents.answers (represents : Represents dataOf bits p) (proper : Proper p op) :
    Answers dataOf p op := by
  have positive := proper.positive
  refine ⟨represents.reply positive, ?_, Probe.rounds_le, Probe.rounds_le⟩
  rintro t rfl absent
  exact represents.indexes.remove_dead positive absent

/-- For every power-of-two capacity and every proper sequence of operations the index
answers as the map of the live tasks does. -/
theorem cancel_index_is_map (dataOf : Nat → Nat) (bits : Nat) (ops : List IndexOp)
    (proper : Meets (pairedStep dataOf) Proper ⟨{ cap := 2 ^ bits }, {}⟩ ops) :
    Meets (pairedStep dataOf) (Answers dataOf) ⟨{ cap := 2 ^ bits }, {}⟩ ops := by
  apply @Meets.of_invariant _ _ (pairedStep dataOf) (Represents dataOf bits) Proper (Answers dataOf)
  · intro p next op represents proper taken
    cases taken
    exact represents.step proper
  · intro p op represents proper
    exact represents.answers proper
  · exact ⟨Indexes.empty dataOf bits, Finset.empty_subset _⟩
  · exact proper

/-- A table of two slots: ids 2 and 4 share a home slot, and after the claim and the
remove it holds tombstones only. -/
theorem cancel_index_is_map_without_empty_slot :
    Meets (pairedStep fun _ => 0) (Answers fun _ => 0) ⟨{ cap := 2 ^ 1 }, {}⟩
      [.insert 2, .insert 4, .claim 2, .claim 2, .remove 4, .find 4, .insert 3, .find 3] := by
  apply cancel_index_is_map
  apply meets_of_decide
  decide +kernel

end Loomworks.Pool

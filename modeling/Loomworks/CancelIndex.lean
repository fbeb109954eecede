import Loomworks.Probe

/- The cancel index of a pool (src/thread_pool.c): an open-addressing map from
task ids to tasks. A task is named by its id; ids are never reused. -/
namespace Loomworks.Pool

/-- cancel_slot_t; task_id is 0 for EMPTY, 1 for TOMBSTONE and id + 1 when
occupied. -/
structure CancelSlot where
  taskId : Nat := 0
  task : Option Nat := none
  data : Nat := 0
  userDataHash : UInt64 := 0
  deriving DecidableEq, Repr

/-- cap is 0 for a pool without a ring. -/
structure CancelIndex where
  cap : Nat := 0
  slots : Nat → CancelSlot := fun _ => {}

def hashPtr (p : Nat) : UInt64 :=
  let x := UInt64.ofNat p
  let x := x ^^^ (x >>> 16)
  let x := x * 0x85ebca6b
  let x := x ^^^ (x >>> 13)
  let x := x * 0xc2b2ae35
  x ^^^ (x >>> 16)

def cancelIndexHash (id cap : Nat) : Nat := id &&& (cap - 1)

def nextSlot (cap h : Nat) : Nat := (h + 1) &&& (cap - 1)

def CancelIndex.setSlot (ix : CancelIndex) (h : Nat) (slot : CancelSlot) : CancelIndex :=
  { ix with slots := Function.update ix.slots h slot }

@[simp] theorem CancelIndex.setSlot_self (ix : CancelIndex) (h : Nat) (slot : CancelSlot) :
    (ix.setSlot h slot).slots h = slot := by
  simp [CancelIndex.setSlot]

theorem CancelIndex.setSlot_of_ne (ix : CancelIndex) {h x : Nat} (slot : CancelSlot)
    (other : x ≠ h) : (ix.setSlot h slot).slots x = ix.slots x := by
  simp [CancelIndex.setSlot, other]

/-- The probe for an occupied slot: an EMPTY slot ends it. -/
def CancelIndex.lookup (ix : CancelIndex) (id : Nat) : Option Nat :=
  Probe.search (fun h => (ix.slots h).taskId == id + 1) (fun h => (ix.slots h).taskId == 0)
    (nextSlot ix.cap) ix.cap (cancelIndexHash (id + 1) ix.cap)

/-- The probe for a reusable slot. -/
def CancelIndex.vacant (ix : CancelIndex) (id : Nat) : Option Nat :=
  Probe.search (fun h => (ix.slots h).taskId == 0 || (ix.slots h).taskId == 1) (fun _ => false)
    (nextSlot ix.cap) ix.cap (cancelIndexHash (id + 1) ix.cap)

def cancelIndexInsert (ix : CancelIndex) (id : Nat) (userData : Nat) : CancelIndex :=
  match ix.vacant id with
  | some h => ix.setSlot h
      { taskId := id + 1, task := some id, data := userData, userDataHash := hashPtr userData }
  | none => ix

def cancelIndexRemove (ix : CancelIndex) (id : Nat) : CancelIndex :=
  match ix.lookup id with
  | some h => ix.setSlot h { ix.slots h with taskId := 1 }
  | none => ix

def cancelIndexFind (ix : CancelIndex) (id : Nat) : Option Nat :=
  match ix.lookup id with
  | some h => (ix.slots h).task
  | none => none

def cancelIndexClaim (ix : CancelIndex) (id : Nat) : CancelIndex × Bool :=
  match ix.lookup id with
  | some h => (ix.setSlot h { ix.slots h with taskId := 1, task := none }, true)
  | none => (ix, false)

@[simp] theorem cancelIndexInsert_cap (ix : CancelIndex) (id userData : Nat) :
    (cancelIndexInsert ix id userData).cap = ix.cap := by
  unfold cancelIndexInsert
  split <;> rfl

@[simp] theorem cancelIndexRemove_cap (ix : CancelIndex) (id : Nat) :
    (cancelIndexRemove ix id).cap = ix.cap := by
  unfold cancelIndexRemove
  split <;> rfl

@[simp] theorem cancelIndexClaim_cap (ix : CancelIndex) (id : Nat) :
    (cancelIndexClaim ix id).1.cap = ix.cap := by
  unfold cancelIndexClaim
  split <;> rfl

/-- The i-th slot a probe for the task visits. -/
def probeSlot (cap : Nat) (id : Nat) (i : Nat) : Nat := Probe.place cap (id + 1) i

theorem nextSlot_probeSlot (bits : Nat) (id : Nat) (i : Nat) :
    nextSlot (2 ^ bits) (probeSlot (2 ^ bits) id i) = probeSlot (2 ^ bits) id (i + 1) :=
  Probe.place_next bits (id + 1) i

theorem cancelIndexHash_eq (bits : Nat) (id : Nat) :
    cancelIndexHash (id + 1) (2 ^ bits) = probeSlot (2 ^ bits) id 0 :=
  Probe.and_mask bits (id + 1)

theorem probeSlot_lt (bits : Nat) (id : Nat) (i : Nat) :
    probeSlot (2 ^ bits) id i < 2 ^ bits :=
  Probe.place_lt (Nat.two_pow_pos bits) _ _

/-- The index holds exactly the live tasks: each is in one slot, and no EMPTY
slot stands between its home slot and that one. -/
structure Indexes (dataOf : Nat → Nat) (bits : Nat) (ix : CancelIndex)
    (live : Finset Nat) : Prop where
  size : ix.cap = 2 ^ bits
  named : ∀ t ∈ live, 0 < t
  entry : ∀ t ∈ live, ∃ d < 2 ^ bits,
    ix.slots (probeSlot (2 ^ bits) t d) =
      { taskId := t + 1, task := some t, data := dataOf t, userDataHash := hashPtr (dataOf t) } ∧
    ∀ j < d, (ix.slots (probeSlot (2 ^ bits) t j)).taskId ≠ 0
  only : ∀ h < 2 ^ bits, 1 < (ix.slots h).taskId → ∃ t ∈ live, (ix.slots h).taskId = t + 1
  once : ∀ h h', h < 2 ^ bits → h' < 2 ^ bits → 1 < (ix.slots h).taskId →
    (ix.slots h).taskId = (ix.slots h').taskId → h = h'

namespace Indexes

variable {dataOf : Nat → Nat} {bits : Nat} {ix : CancelIndex} {live : Finset Nat}
  {t : Nat}

theorem empty (dataOf : Nat → Nat) (bits : Nat) : Indexes dataOf bits { cap := 2 ^ bits } ∅ := by
  constructor <;> simp

theorem lookup_live (valid : Indexes dataOf bits ix live) (member : t ∈ live) :
    ∃ h < 2 ^ bits, ix.lookup t = some h ∧ ix.slots h =
      { taskId := t + 1, task := some t, data := dataOf t, userDataHash := hashPtr (dataOf t) } := by
  obtain ⟨d, bound, slot, chain⟩ := valid.entry t member
  have positive := valid.named t member
  refine ⟨probeSlot (2 ^ bits) t d, probeSlot_lt bits t d, ?_, slot⟩
  unfold CancelIndex.lookup
  rw [valid.size, cancelIndexHash_eq]
  refine Probe.search_hit (nextSlot_probeSlot bits t) (Nat.zero_le d) (by omega) (by simp [slot]) ?_
  intro j _ earlier
  have other : probeSlot (2 ^ bits) t d ≠ probeSlot (2 ^ bits) t j := by
    intro same
    have equal := Probe.place_injective bound (by omega) same
    omega
  refine ⟨?_, by simpa using chain j earlier⟩
  by_contra again
  have again : (ix.slots (probeSlot (2 ^ bits) t j)).taskId = t + 1 := by simpa using again
  refine other (valid.once _ _ (probeSlot_lt bits t d) (probeSlot_lt bits t j) ?_ ?_)
  · simp [slot]
    omega
  · simp [slot, again]

theorem lookup_dead (valid : Indexes dataOf bits ix live) (positive : 0 < t) (absent : t ∉ live) :
    ix.lookup t = none := by
  unfold CancelIndex.lookup
  rw [valid.size, cancelIndexHash_eq]
  by_contra found
  obtain ⟨h, result⟩ := Option.ne_none_iff_exists'.mp found
  obtain ⟨d, -, -, -, hit, -⟩ := Probe.search_eq_some (nextSlot_probeSlot bits t) result
  have occupied : (ix.slots (probeSlot (2 ^ bits) t d)).taskId = t + 1 := by simpa using hit
  obtain ⟨owner, member, same⟩ := valid.only _ (probeSlot_lt bits t d) (by omega)
  have equal : owner = t := by omega
  exact absurd (equal ▸ member) absent

/-- An occupied slot holds the whole entry of its owner. -/
theorem occupied (valid : Indexes dataOf bits ix live) {h : Nat} (inside : h < 2 ^ bits)
    (taken : 1 < (ix.slots h).taskId) :
    ∃ t ∈ live, (ix.slots h).taskId = t + 1 ∧ (ix.slots h).task = some t := by
  obtain ⟨t, member, holds⟩ := valid.only h inside taken
  obtain ⟨d, -, entry, -⟩ := valid.entry t member
  have same : h = probeSlot (2 ^ bits) t d :=
    valid.once h _ inside (probeSlot_lt bits t d) taken (by rw [holds, entry])
  exact ⟨t, member, holds, by rw [same, entry]⟩

theorem find_live (valid : Indexes dataOf bits ix live) (member : t ∈ live) :
    cancelIndexFind ix t = some t := by
  obtain ⟨h, -, found, slot⟩ := valid.lookup_live member
  simp [cancelIndexFind, found, slot]

theorem find_dead (valid : Indexes dataOf bits ix live) (positive : 0 < t) (absent : t ∉ live) :
    cancelIndexFind ix t = none := by
  simp [cancelIndexFind, valid.lookup_dead positive absent]

/-- Turning the slot of a live task into a tombstone forgets that task only. -/
theorem tombstone (valid : Indexes dataOf bits ix live) (member : t ∈ live) {h : Nat}
    (inside : h < 2 ^ bits) (here : (ix.slots h).taskId = t + 1) {slot : CancelSlot}
    (grave : slot.taskId = 1) : Indexes dataOf bits (ix.setSlot h slot) (live.erase t) := by
  have positive := valid.named t member
  have elsewhere := fun x other => ix.setSlot_of_ne (h := h) (x := x) slot other
  have atHome := ix.setSlot_self h slot
  constructor
  · exact valid.size
  · exact fun x inLive => valid.named x (Finset.mem_of_mem_erase inLive)
  · intro x inLive
    obtain ⟨other, inLive⟩ := Finset.mem_erase.mp inLive
    obtain ⟨d, bound, entry, chain⟩ := valid.entry x inLive
    refine ⟨d, bound, ?_, ?_⟩
    · rw [elsewhere _ ?_, entry]
      intro same
      rw [same] at entry
      rw [entry] at here
      exact other (Nat.succ.inj here)
    · intro j earlier
      by_cases same : probeSlot (2 ^ bits) x j = h
      · rw [same, atHome, grave]
        simp
      · rw [elsewhere _ same]
        exact chain j earlier
  · intro x bound occupied
    by_cases same : x = h
    · rw [same, atHome, grave] at occupied
      omega
    · rw [elsewhere x same] at occupied ⊢
      obtain ⟨owner, inLive, holds⟩ := valid.only x bound occupied
      refine ⟨owner, Finset.mem_erase.mpr ⟨?_, inLive⟩, holds⟩
      intro equal
      exact same (valid.once x h bound inside occupied (by rw [holds, here, equal]))
  · intro x y boundX boundY occupied holds
    by_cases sameX : x = h
    · rw [sameX, atHome, grave] at occupied
      omega
    · by_cases sameY : y = h
      · rw [sameY, atHome, grave] at holds
        omega
      · rw [elsewhere x sameX] at occupied holds
        rw [elsewhere y sameY] at holds
        exact valid.once x y boundX boundY occupied holds

theorem remove_live (valid : Indexes dataOf bits ix live) (member : t ∈ live) :
    Indexes dataOf bits (cancelIndexRemove ix t) (live.erase t) := by
  obtain ⟨h, inside, found, slot⟩ := valid.lookup_live member
  simp only [cancelIndexRemove, found]
  exact valid.tombstone member inside (by simp [slot]) rfl

theorem remove_dead (valid : Indexes dataOf bits ix live) (positive : 0 < t) (absent : t ∉ live) :
    cancelIndexRemove ix t = ix := by
  simp [cancelIndexRemove, valid.lookup_dead positive absent]

theorem claim_live (valid : Indexes dataOf bits ix live) (member : t ∈ live) :
    (cancelIndexClaim ix t).2 = true ∧
      Indexes dataOf bits (cancelIndexClaim ix t).1 (live.erase t) := by
  obtain ⟨h, inside, found, slot⟩ := valid.lookup_live member
  simp only [cancelIndexClaim, found]
  exact ⟨trivial, valid.tombstone member inside (by simp [slot]) rfl⟩

theorem claim_dead (valid : Indexes dataOf bits ix live) (positive : 0 < t) (absent : t ∉ live) :
    cancelIndexClaim ix t = (ix, false) := by
  simp [cancelIndexClaim, valid.lookup_dead positive absent]

theorem reusable_iff {n : Nat} : (n == 0 || n == 1) = true ↔ n ≤ 1 := by
  simp only [Bool.or_eq_true, beq_iff_eq]
  omega

theorem vacant_some (valid : Indexes dataOf bits ix live) {h : Nat} (found : ix.vacant t = some h) :
    ∃ d < 2 ^ bits, h = probeSlot (2 ^ bits) t d ∧
      (ix.slots (probeSlot (2 ^ bits) t d)).taskId ≤ 1 ∧
      ∀ j < d, (ix.slots (probeSlot (2 ^ bits) t j)).taskId ≠ 0 := by
  unfold CancelIndex.vacant at found
  rw [valid.size, cancelIndexHash_eq] at found
  obtain ⟨d, -, upper, same, free, clear⟩ :=
    Probe.search_eq_some (nextSlot_probeSlot bits t) found
  refine ⟨d, by omega, same, reusable_iff.mp free, ?_⟩
  intro j earlier empty
  have taken := (clear j (Nat.zero_le j) earlier).1
  rw [empty] at taken
  exact absurd taken (by decide)

/-- With a slot to spare an insert finds a reusable one. -/
theorem vacant_ne_none (valid : Indexes dataOf bits ix live) (room : live.card < 2 ^ bits) :
    ix.vacant t ≠ none := by
  intro result
  unfold CancelIndex.vacant at result
  rw [valid.size, cancelIndexHash_eq] at result
  have full := Probe.search_eq_none (nextSlot_probeSlot bits t) result (fun _ => rfl)
  -- every slot is occupied, so the owners fill the table
  have everywhere : ∀ h < 2 ^ bits, 1 < (ix.slots h).taskId := by
    intro h inside
    obtain ⟨i, bound, same⟩ := Probe.exists_place inside (t + 1)
    have taken := full i (Nat.zero_le i) (by omega)
    rw [show probeSlot (2 ^ bits) t i = h from same] at taken
    by_contra free
    rw [reusable_iff.mpr (by omega)] at taken
    cases taken
  have image : (Finset.range (2 ^ bits)).card ≤ live.card := by
    refine Finset.card_le_card_of_injOn (fun h => (ix.slots h).taskId - 1) ?_ ?_
    · intro h inside
      have inside := Finset.mem_range.mp inside
      obtain ⟨owner, inLive, holds⟩ := valid.only h inside (everywhere h inside)
      simpa [holds] using inLive
    · intro h inside h' inside' same
      have inside := Finset.mem_range.mp inside
      have inside' := Finset.mem_range.mp inside'
      have first := everywhere h inside
      have second := everywhere h' inside'
      simp only at same
      exact valid.once h h' inside inside' first (by omega)
  rw [Finset.card_range] at image
  omega

/-- Writing the entry of a new task into a reusable slot of its probe chain. -/
theorem settle (valid : Indexes dataOf bits ix live) (positive : 0 < t) (fresh : t ∉ live) {d : Nat}
    (bound : d < 2 ^ bits) (free : (ix.slots (probeSlot (2 ^ bits) t d)).taskId ≤ 1)
    (chain : ∀ j < d, (ix.slots (probeSlot (2 ^ bits) t j)).taskId ≠ 0) :
    Indexes dataOf bits (ix.setSlot (probeSlot (2 ^ bits) t d)
      { taskId := t + 1, task := some t, data := dataOf t, userDataHash := hashPtr (dataOf t) })
      (insert t live) := by
  let h := probeSlot (2 ^ bits) t d
  let slot : CancelSlot :=
    { taskId := t + 1, task := some t, data := dataOf t, userDataHash := hashPtr (dataOf t) }
  change Indexes dataOf bits (ix.setSlot h slot) (insert t live)
  have elsewhere := fun x other => ix.setSlot_of_ne (h := h) (x := x) slot other
  have atHome := ix.setSlot_self h slot
  have vacated : ∀ x, (ix.slots x).taskId ≠ 0 → ((ix.setSlot h slot).slots x).taskId ≠ 0 := by
    intro x nonzero
    by_cases same : x = h
    · simp [same, slot]
    · rwa [elsewhere x same]
  have unused : ∀ x < 2 ^ bits, (ix.slots x).taskId ≠ t + 1 := by
    intro x inside holds
    obtain ⟨owner, inLive, same⟩ := valid.only x inside (by omega)
    have equal : owner = t := by omega
    exact fresh (equal ▸ inLive)
  constructor
  · exact valid.size
  · intro x member
    rcases Finset.mem_insert.mp member with rfl | member
    · exact positive
    · exact valid.named x member
  · intro x member
    rcases Finset.mem_insert.mp member with rfl | member
    · refine ⟨d, bound, atHome, ?_⟩
      intro j earlier
      exact vacated _ (chain j earlier)
    · obtain ⟨d', bound', entry, chain'⟩ := valid.entry x member
      have named := valid.named x member
      refine ⟨d', bound', ?_, fun j earlier => vacated _ (chain' j earlier)⟩
      rw [elsewhere _ ?_, entry]
      intro same
      rw [same] at entry
      change (ix.slots h).taskId ≤ 1 at free
      rw [entry] at free
      simp only at free
      omega
  · intro x inside occupied
    by_cases same : x = h
    · exact ⟨t, Finset.mem_insert_self t live, by simp [same, slot]⟩
    · rw [elsewhere x same] at occupied ⊢
      obtain ⟨owner, inLive, holds⟩ := valid.only x inside occupied
      exact ⟨owner, Finset.mem_insert_of_mem inLive, holds⟩
  · intro x y boundX boundY occupied holds
    by_cases sameX : x = h
    · by_cases sameY : y = h
      · rw [sameX, sameY]
      · rw [sameX, atHome, elsewhere y sameY] at holds
        exact absurd holds.symm (unused y boundY)
    · by_cases sameY : y = h
      · rw [sameY, atHome, elsewhere x sameX] at holds
        exact absurd holds (unused x boundX)
      · rw [elsewhere x sameX] at occupied holds
        rw [elsewhere y sameY] at holds
        exact valid.once x y boundX boundY occupied holds

/-- An insert enters the task unless every slot is occupied. -/
theorem insert_fresh (valid : Indexes dataOf bits ix live) (positive : 0 < t) (fresh : t ∉ live) :
    ∃ live', Indexes dataOf bits (cancelIndexInsert ix t (dataOf t)) live' ∧
      (live' = insert t live ∨ live' = live ∧ 2 ^ bits ≤ live.card) := by
  unfold cancelIndexInsert
  cases found : ix.vacant t with
  | some h =>
    obtain ⟨d, bound, same, free, chain⟩ := valid.vacant_some found
    refine ⟨insert t live, ?_, Or.inl rfl⟩
    simp only [same]
    exact valid.settle positive fresh bound free chain
  | none =>
    refine ⟨live, valid, Or.inr ⟨rfl, ?_⟩⟩
    by_contra room
    exact valid.vacant_ne_none (by omega) found

theorem congr {other : Nat → Nat} (valid : Indexes dataOf bits ix live)
    (same : ∀ t ∈ live, other t = dataOf t) : Indexes other bits ix live := by
  refine { valid with entry := ?_ }
  intro t member
  rw [same t member]
  exact valid.entry t member

end Indexes

/-- The index of a pool lists the live tasks; without a ring it has no slots. -/
def Holds (dataOf : Nat → Nat) (ix : CancelIndex) (live : Finset Nat) : Prop :=
  ix.cap = 0 ∧ live = ∅ ∨ ∃ bits, Indexes dataOf bits ix live

/-- A tombstone, or a slot that was never used, still names the task. -/
def CancelIndex.Stale (ix : CancelIndex) (t : Nat) : Prop :=
  ∃ h < ix.cap, (ix.slots h).taskId ≤ 1 ∧ (ix.slots h).task = some t

theorem CancelIndex.lookup_of_cap_zero {ix : CancelIndex} (none : ix.cap = 0) (t : Nat) :
    ix.lookup t = Option.none := by
  unfold CancelIndex.lookup
  rw [none]
  rfl

theorem CancelIndex.vacant_of_cap_zero {ix : CancelIndex} (none : ix.cap = 0) (t : Nat) :
    ix.vacant t = Option.none := by
  unfold CancelIndex.vacant
  rw [none]
  rfl

/-- A write that leaves no task in a slot that is not occupied adds nothing stale. -/
theorem CancelIndex.Stale.of_setSlot {ix : CancelIndex} {h t : Nat} {slot : CancelSlot}
    (stale : (ix.setSlot h slot).Stale t) (settled : 1 < slot.taskId ∨ slot.task = none) :
    ix.Stale t := by
  obtain ⟨x, inside, free, named⟩ := stale
  by_cases here : x = h
  · rw [here, CancelIndex.setSlot_self] at free named
    rcases settled with taken | empty
    · omega
    · rw [empty] at named
      cases named
  · rw [ix.setSlot_of_ne slot here] at free named
    exact ⟨x, inside, free, named⟩

namespace Holds

variable {dataOf : Nat → Nat} {ix : CancelIndex} {live : Finset Nat} {t : Nat}

theorem congr {other : Nat → Nat} (holds : Holds dataOf ix live)
    (same : ∀ t ∈ live, other t = dataOf t) : Holds other ix live :=
  holds.imp (fun none => none) fun ⟨bits, valid⟩ => ⟨bits, valid.congr same⟩

theorem named (holds : Holds dataOf ix live) (member : t ∈ live) : 0 < t := by
  rcases holds with ⟨-, empty⟩ | ⟨bits, valid⟩
  · rw [empty] at member
    exact absurd member (Finset.notMem_empty t)
  · exact valid.named t member

theorem slot_of_live (holds : Holds dataOf ix live) (member : t ∈ live) :
    ∃ h < ix.cap, (ix.slots h).taskId = t + 1 ∧ (ix.slots h).task = some t := by
  rcases holds with ⟨-, empty⟩ | ⟨bits, valid⟩
  · rw [empty] at member
    exact absurd member (Finset.notMem_empty t)
  · obtain ⟨d, bound, entry, -⟩ := valid.entry t member
    exact ⟨probeSlot (2 ^ bits) t d, valid.size ▸ probeSlot_lt bits t d, by rw [entry], by rw [entry]⟩

theorem occupied (holds : Holds dataOf ix live) {h : Nat} (inside : h < ix.cap)
    (taken : 1 < (ix.slots h).taskId) :
    ∃ t ∈ live, (ix.slots h).taskId = t + 1 ∧ (ix.slots h).task = some t := by
  rcases holds with ⟨none, -⟩ | ⟨bits, valid⟩
  · omega
  · exact valid.occupied (valid.size ▸ inside) taken

theorem find_live (holds : Holds dataOf ix live) (member : t ∈ live) :
    cancelIndexFind ix t = some t := by
  rcases holds with ⟨-, empty⟩ | ⟨bits, valid⟩
  · rw [empty] at member
    exact absurd member (Finset.notMem_empty t)
  · exact valid.find_live member

theorem find_dead (holds : Holds dataOf ix live) (positive : 0 < t) (absent : t ∉ live) :
    cancelIndexFind ix t = none := by
  rcases holds with ⟨none, -⟩ | ⟨bits, valid⟩
  · simp [cancelIndexFind, CancelIndex.lookup_of_cap_zero none]
  · exact valid.find_dead positive absent

/-- What a find returns is the live task with that id, or for id 0 a task that
a tombstone still names. -/
theorem find_some (holds : Holds dataOf ix live) {id : Nat} (found : cancelIndexFind ix id = some t) :
    t = id ∧ t ∈ live ∨ id = 0 ∧ ix.Stale t := by
  rcases Nat.eq_zero_or_pos id with zero | positive
  · subst zero
    right
    refine ⟨rfl, ?_⟩
    rcases holds with ⟨none, -⟩ | ⟨bits, valid⟩
    · simp [cancelIndexFind, CancelIndex.lookup_of_cap_zero none] at found
    · unfold cancelIndexFind at found
      cases result : ix.lookup 0 with
      | none => simp [result] at found
      | some h =>
        simp only [result] at found
        unfold CancelIndex.lookup at result
        rw [valid.size, cancelIndexHash_eq] at result
        obtain ⟨d, -, -, same, hit, -⟩ := Probe.search_eq_some (nextSlot_probeSlot bits 0) result
        have mark : (ix.slots (probeSlot (2 ^ bits) 0 d)).taskId = 0 + 1 := by simpa using hit
        refine ⟨h, ?_, ?_, found⟩
        · rw [same, valid.size]
          exact probeSlot_lt bits 0 d
        · rw [same, mark]
  · left
    by_cases member : id ∈ live
    · rw [holds.find_live member] at found
      cases found
      exact ⟨rfl, member⟩
    · rw [holds.find_dead positive member] at found
      cases found

theorem remove (holds : Holds dataOf ix live) (positive : 0 < t) :
    Holds dataOf (cancelIndexRemove ix t) (live.erase t) := by
  rcases holds with ⟨none, empty⟩ | ⟨bits, valid⟩
  · left
    refine ⟨?_, by rw [empty]; rfl⟩
    simp [cancelIndexRemove, CancelIndex.lookup_of_cap_zero none, none]
  · right
    by_cases member : t ∈ live
    · exact ⟨bits, valid.remove_live member⟩
    · rw [valid.remove_dead positive member, Finset.erase_eq_of_notMem member]
      exact ⟨bits, valid⟩

theorem stale_remove (holds : Holds dataOf ix live) (positive : 0 < t) {x : Nat}
    (stale : (cancelIndexRemove ix t).Stale x) : ix.Stale x ∨ x = t := by
  rcases holds with ⟨none, -⟩ | ⟨bits, valid⟩
  · left
    simpa [cancelIndexRemove, CancelIndex.lookup_of_cap_zero none] using stale
  · by_cases member : t ∈ live
    · obtain ⟨h, inside, found, slot⟩ := valid.lookup_live member
      simp only [cancelIndexRemove, found] at stale
      obtain ⟨y, bound, free, named⟩ := stale
      by_cases here : y = h
      · right
        rw [here, CancelIndex.setSlot_self, slot] at named
        exact (Option.some.inj named).symm
      · left
        rw [ix.setSlot_of_ne _ here] at free named
        exact ⟨y, bound, free, named⟩
    · left
      rwa [valid.remove_dead positive member] at stale

theorem claim_live (holds : Holds dataOf ix live) (member : t ∈ live) :
    (cancelIndexClaim ix t).2 = true ∧ Holds dataOf (cancelIndexClaim ix t).1 (live.erase t) ∧
      ∀ x, (cancelIndexClaim ix t).1.Stale x → ix.Stale x := by
  rcases holds with ⟨-, empty⟩ | ⟨bits, valid⟩
  · rw [empty] at member
    exact absurd member (Finset.notMem_empty t)
  · obtain ⟨won, after⟩ := valid.claim_live member
    refine ⟨won, Or.inr ⟨bits, after⟩, ?_⟩
    intro x stale
    obtain ⟨h, -, found, -⟩ := valid.lookup_live member
    simp only [cancelIndexClaim, found] at stale
    exact stale.of_setSlot (Or.inr rfl)

theorem claim_dead (holds : Holds dataOf ix live) (positive : 0 < t) (absent : t ∉ live) :
    (cancelIndexClaim ix t).2 = false := by
  rcases holds with ⟨none, -⟩ | ⟨bits, valid⟩
  · simp [cancelIndexClaim, CancelIndex.lookup_of_cap_zero none]
  · rw [valid.claim_dead positive absent]

theorem tombstone (holds : Holds dataOf ix live) {h : Nat} (inside : h < ix.cap) (member : t ∈ live)
    (here : (ix.slots h).taskId = t + 1) {slot : CancelSlot} (grave : slot.taskId = 1) :
    Holds dataOf (ix.setSlot h slot) (live.erase t) := by
  rcases holds with ⟨none, -⟩ | ⟨bits, valid⟩
  · omega
  · exact Or.inr ⟨bits, valid.tombstone member (valid.size ▸ inside) here grave⟩

theorem insert (holds : Holds dataOf ix live) (positive : 0 < t) (fresh : t ∉ live) :
    ∃ live', Holds dataOf (cancelIndexInsert ix t (dataOf t)) live' ∧
      (live' = Insert.insert t live ∨ live' = live ∧ ix.cap ≤ live.card) := by
  rcases holds with ⟨none, empty⟩ | ⟨bits, valid⟩
  · refine ⟨live, Or.inl ⟨?_, empty⟩, Or.inr ⟨rfl, by omega⟩⟩
    simp [cancelIndexInsert, CancelIndex.vacant_of_cap_zero none, none]
  · obtain ⟨live', after, grown⟩ := valid.insert_fresh positive fresh
    rw [valid.size]
    exact ⟨live', Or.inr ⟨bits, after⟩, grown⟩

end Holds

theorem stale_insert {ix : CancelIndex} {t data x : Nat} (positive : 0 < t)
    (stale : (cancelIndexInsert ix t data).Stale x) : ix.Stale x := by
  unfold cancelIndexInsert at stale
  cases found : ix.vacant t with
  | none => simpa only [found] using stale
  | some h =>
    simp only [found] at stale
    exact stale.of_setSlot (Or.inl (by simpa using positive))

end Loomworks.Pool

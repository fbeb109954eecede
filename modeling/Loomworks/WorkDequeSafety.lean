import Loomworks.SeqRing
import Loomworks.Threads
import Loomworks.Transition
import Loomworks.WorkDeque

/- What one owner and any number of thieves keep of a work-stealing deque. -/
namespace Loomworks.Pool.WorkDeque

open Transition Threads

/-- Between its store to bottom and its decision a pop has set one position apart. -/
def OwnerPc.popping : OwnerPc → Bool
  | .popFastSlot _ => true
  | .popReload _ => true
  | .popResync _ => true
  | .popSlot _ _ => true
  | .popCas _ _ => true
  | .popWon _ => true
  | .popLost _ => true
  | _ => false

/-- The position set apart is out of the thieves' reach. -/
def OwnerPc.certain : OwnerPc → Bool
  | .popFastSlot _ => true
  | .popSlot b t => decide (t < b)
  | _ => false

namespace Deque

/-- The end of the positions that are not returned: bottom, and past it the one a pop
in progress has set apart. -/
def ceiling (d : Deque) (pc : OwnerPc) : Nat := if pc.popping then d.bottom + 1 else d.bottom

/-- The end of the positions a thief may still win. -/
def reach (d : Deque) (pc : OwnerPc) : Nat := if pc.certain then d.bottom else d.ceiling pc

def contents (d : Deque) (low high : Nat) : List (Option Nat) :=
  (List.range' low (high - low)).map d.slot

end Deque

variable {d d' : Deque}

theorem contents_cons {low high : Nat} (less : low < high) :
    d.contents low high = d.slot low :: d.contents (low + 1) high := by
  unfold Deque.contents
  rw [show high - low = high - (low + 1) + 1 by omega, List.range'_succ, List.map_cons]

theorem contents_concat {low high : Nat} (le : low ≤ high) :
    d.contents low (high + 1) = d.contents low high ++ [d.slot high] := by
  unfold Deque.contents
  rw [show high + 1 - low = high - low + 1 by omega, List.range'_concat, List.map_append,
    Nat.one_mul, Nat.add_sub_cancel' le, List.map_singleton]

theorem contents_congr {low high : Nat} (same : ∀ p, low ≤ p → p < high → d'.slot p = d.slot p) :
    d'.contents low high = d.contents low high := by
  unfold Deque.contents
  apply List.map_congr_left
  intro p member
  have inside := List.mem_range'_1.mp member
  exact same p inside.1 (by omega)

def OwnerOk (d : Deque) : OwnerPc → Prop
  | .pushLoadTop _ b => b = d.bottom
  | .pushStoreSlot _ b => b = d.bottom ∧ b < d.top + d.capacity
  | .pushStoreBottom task b => b = d.bottom ∧ b < d.top + d.capacity ∧ d.slot b = some task
  | .popLoadTop b => b = d.bottom ∧ 0 < b
  | .popFastStore b => b = d.bottom ∧ 0 < b
  | .popFastSlot b => b = d.bottom ∧ d.top ≤ b
  | .popSlowStore b => b = d.bottom ∧ 0 < b ∧ b ≤ d.top + 1
  | .popReload b => b = d.bottom
  | .popResync t => t = d.top ∧ d.top = d.bottom + 1
  | .popSlot b t => b = d.bottom ∧ t ≤ b ∧ t ≤ d.top ∧ (t < b → d.top ≤ b)
  | .popCas t task => t = d.bottom ∧ t ≤ d.top ∧ (d.top = t → task = d.slot t)
  | .popWon t => t = d.bottom ∧ d.top = d.bottom + 1
  | .popLost t => t = d.top ∧ d.top = d.bottom + 1
  | _ => True

/-- What a thief has read is worth something only while the top stands. -/
def ThiefOk (d : Deque) (reach : Nat) : ThiefPc → Prop
  | .loadBottom t => t ≤ d.top
  | .loadSlot t => t ≤ d.top ∧ (d.top = t → d.top < reach)
  | .cas t task => t ≤ d.top ∧ (d.top = t → d.top < reach ∧ task = d.slot d.top)
  | _ => True

structure Sound (s : State) : Prop where
  size : 0 < s.deque.capacity
  low : s.deque.top ≤ s.deque.ceiling s.owner
  high : s.deque.ceiling s.owner ≤ s.deque.top + s.deque.capacity
  owner : OwnerOk s.deque s.owner
  thieves : ∀ i, ThiefOk s.deque (s.deque.reach s.owner) (s.thieves i)
  balance : (s.pushed.map some).Perm
    (s.returned ++ s.deque.contents s.deque.top (s.deque.ceiling s.owner))

/-- A thief keeps its facts while the position at the top stays where it is. -/
theorem ThiefOk.mono {reach reach' : Nat} (later : d.top ≤ d'.top)
    (keep : d'.top = d.top → d.top < reach → d.top < reach' ∧ d'.slot d.top = d.slot d.top)
    {pc : ThiefPc} (ok : ThiefOk d reach pc) : ThiefOk d' reach' pc := by
  cases pc with
  | loadBottom t => exact Nat.le_trans ok later
  | loadSlot t =>
    refine ⟨Nat.le_trans ok.1 later, fun same => ?_⟩
    have early := ok.1
    have still : d'.top = d.top := by omega
    rw [still]
    exact (keep still (ok.2 (by omega))).1
  | cas t task =>
    refine ⟨Nat.le_trans ok.1 later, fun same => ?_⟩
    have early := ok.1
    have still : d'.top = d.top := by omega
    have found := ok.2 (by omega)
    have kept := keep still found.1
    rw [still]
    exact ⟨kept.1, found.2.trans kept.2.symm⟩
  | _ => trivial

theorem bottom_le_ceiling (d : Deque) (pc : OwnerPc) : d.bottom ≤ d.ceiling pc := by
  unfold Deque.ceiling
  split
  · exact Nat.le_succ _
  · exact Nat.le_refl _

theorem bottom_le_reach (d : Deque) (pc : OwnerPc) : d.bottom ≤ d.reach pc := by
  unfold Deque.reach
  split
  · exact Nat.le_refl _
  · exact bottom_le_ceiling d pc

theorem reach_le_ceiling (d : Deque) (pc : OwnerPc) : d.reach pc ≤ d.ceiling pc := by
  unfold Deque.reach
  split
  · exact bottom_le_ceiling d pc
  · exact Nat.le_refl _

/-- What the owner knows survives a steal of the position at the top. -/
theorem OwnerOk.stolen {pc : OwnerPc} (ok : OwnerOk d pc) (inside : d.top < d.reach pc) :
    OwnerOk { d with top := d.top + 1 } pc := by
  cases pc with
  | pushStoreSlot task b =>
    refine ⟨ok.1, ?_⟩
    have room := ok.2
    show b < d.top + 1 + d.capacity
    omega
  | pushStoreBottom task b =>
    refine ⟨ok.1, ?_, ok.2.2⟩
    have room := ok.2.1
    show b < d.top + 1 + d.capacity
    omega
  | popFastSlot b =>
    refine ⟨ok.1, ?_⟩
    rw [ok.1]
    exact inside
  | popSlowStore b => exact ⟨ok.1, ok.2.1, Nat.le_succ_of_le ok.2.2⟩
  | popSlot b t =>
    refine ⟨ok.1, ok.2.1, Nat.le_succ_of_le ok.2.2.1, fun less => ?_⟩
    unfold Deque.reach at inside
    rw [show OwnerPc.certain (.popSlot b t) = true from decide_eq_true less, if_pos rfl,
      ← ok.1] at inside
    exact inside
  | popCas t task =>
    refine ⟨ok.1, Nat.le_succ_of_le ok.2.1, fun same => ?_⟩
    have early := ok.2.1
    have same : d.top + 1 = t := same
    omega
  | popResync | popWon | popLost =>
    have empty := ok.2
    have inside : d.top < d.bottom + 1 := inside
    omega
  | _ => exact ok

variable {s : State}

/-- The owner moves: the thieves keep what they know. -/
theorem Sound.ownerMoves (sound : Sound s) {pc : OwnerPc} {len total : Int} {pushed : List Nat}
    {returned : List (Option Nat)} (size : d.capacity = s.deque.capacity)
    (later : s.deque.top ≤ d.top) (low : d.top ≤ d.ceiling pc)
    (high : d.ceiling pc ≤ d.top + d.capacity) (own : OwnerOk d pc)
    (keep : d.top = s.deque.top → s.deque.top < s.deque.reach s.owner →
      s.deque.top < d.reach pc ∧ d.slot s.deque.top = s.deque.slot s.deque.top)
    (balance : (pushed.map some).Perm (returned ++ d.contents d.top (d.ceiling pc))) :
    Sound { s with
      deque := d, owner := pc, len := len, dequeTotal := total, pushed := pushed,
      returned := returned } := by
  refine ⟨?_, low, high, own, ?_, balance⟩
  · show 0 < d.capacity
    rw [size]
    exact sound.size
  · intro i
    exact (sound.thieves i).mono later keep

theorem Sound.setOwner (sound : Sound s) {old pc : OwnerPc} {len total : Int} (here : s.owner = old)
    (flag : pc.popping = old.popping) (own : OwnerOk s.deque pc)
    (reach : s.deque.top < s.deque.reach old → s.deque.top < s.deque.reach pc) :
    Sound { s with owner := pc, len := len, dequeTotal := total } := by
  have ceiling : s.deque.ceiling pc = s.deque.ceiling s.owner := by
    unfold Deque.ceiling
    rw [flag, here]
  apply sound.ownerMoves
  · rfl
  · exact Nat.le_refl _
  · rw [ceiling]
    exact sound.low
  · rw [ceiling]
    exact sound.high
  · exact own
  · intro _ inside
    rw [here] at inside
    exact ⟨reach inside, rfl⟩
  · rw [ceiling]
    exact sound.balance

theorem Sound.setThief (sound : Sound s) {i : Nat} {pc : ThiefPc} {len total : Int}
    (own : ThiefOk s.deque (s.deque.reach s.owner) pc) :
    Sound ({ s with len := len, dequeTotal := total }.setThief i pc) := by
  refine ⟨sound.size, sound.low, sound.high, sound.owner, ?_, sound.balance⟩
  apply forall_update (ThiefOk s.deque (s.deque.reach s.owner)) _ own
  intro j _
  exact sound.thieves j

theorem slot_update {p b : Nat} (x : Option Nat) (low : d.top ≤ p) (less : p < b)
    (high : b < d.top + d.capacity) :
    { d with slots := Function.update d.slots (d.cell b) x }.slot p = d.slot p := by
  apply Function.update_of_ne
  intro same
  have equal := SeqRing.eq_of_mod_eq ⟨low, by omega⟩ ⟨by omega, high⟩ same
  omega

theorem Sound.storesSlot (sound : Sound s) {task b : Nat} (here : s.owner = .pushStoreSlot task b) :
    Sound { s with
      deque := { s.deque with slots := Function.update s.deque.slots (s.deque.cell b) (some task) },
      owner := .pushStoreBottom task b } := by
  have own := sound.owner
  have low := sound.low
  have high := sound.high
  have balance := sound.balance
  rw [here] at own low high balance
  obtain ⟨same, room⟩ := own
  have low : s.deque.top ≤ s.deque.bottom := low
  apply sound.ownerMoves
  · rfl
  · exact Nat.le_refl _
  · exact low
  · exact high
  · exact ⟨same, room, Function.update_self _ _ _⟩
  · intro _ inside
    rw [here] at inside
    have inside : s.deque.top < s.deque.bottom := inside
    exact ⟨inside, slot_update _ (Nat.le_refl _) (by omega) room⟩
  · show (s.pushed.map some).Perm (s.returned ++ Deque.contents _ s.deque.top s.deque.bottom)
    rw [@contents_congr s.deque]
    · exact balance
    · intro p early inside
      exact slot_update _ early (by omega) room

theorem Sound.storesBottom (sound : Sound s) {task b : Nat}
    (here : s.owner = .pushStoreBottom task b) :
    Sound { s with
      deque := { s.deque with bottom := b + 1 }, pushed := s.pushed ++ [task],
      owner := .pushAddLen } := by
  have own := sound.owner
  have low := sound.low
  have balance := sound.balance
  rw [here] at own low balance
  obtain ⟨same, room, written⟩ := own
  have low : s.deque.top ≤ s.deque.bottom := low
  have balance : (s.pushed.map some).Perm
      (s.returned ++ s.deque.contents s.deque.top s.deque.bottom) := balance
  rw [← same] at balance
  apply sound.ownerMoves
  · rfl
  · exact Nat.le_refl _
  · show s.deque.top ≤ b + 1
    omega
  · show b + 1 ≤ s.deque.top + s.deque.capacity
    omega
  · trivial
  · intro _ inside
    rw [here] at inside
    have inside : s.deque.top < s.deque.bottom := inside
    refine ⟨?_, rfl⟩
    show s.deque.top < b + 1
    omega
  · show ((s.pushed ++ [task]).map some).Perm
      (s.returned ++ s.deque.contents s.deque.top (b + 1))
    rw [contents_concat (by omega), written, List.map_append, ← List.append_assoc]
    exact balance.append_right _

/-- The store of the fast path, when the thieves have left it its element. -/
theorem Sound.fastStores (sound : Sound s) {b : Nat} (here : s.owner = .popFastStore b)
    (still : s.deque.top < b - 1) :
    Sound { s with
      deque := { s.deque with bottom := b - 1 }, owner := .popFastSlot (b - 1) } := by
  have own := sound.owner
  have high := sound.high
  have balance := sound.balance
  rw [here] at own high balance
  obtain ⟨same, positive⟩ := own
  have high : s.deque.bottom ≤ s.deque.top + s.deque.capacity := high
  have back : b - 1 + 1 = s.deque.bottom := by omega
  apply sound.ownerMoves
  · rfl
  · exact Nat.le_refl _
  · show s.deque.top ≤ b - 1 + 1
    omega
  · show b - 1 + 1 ≤ s.deque.top + s.deque.capacity
    omega
  · exact ⟨rfl, Nat.le_of_lt still⟩
  · intro _ _
    exact ⟨still, rfl⟩
  · show (s.pushed.map some).Perm (s.returned ++ s.deque.contents s.deque.top (b - 1 + 1))
    rw [back]
    exact balance

/-- The store of the slow path leaves the last element contested. -/
theorem Sound.slowStores (sound : Sound s) {b : Nat} (here : s.owner = .popSlowStore b) :
    Sound { s with deque := { s.deque with bottom := b - 1 }, owner := .popReload (b - 1) } := by
  have own := sound.owner
  have low := sound.low
  have high := sound.high
  have balance := sound.balance
  rw [here] at own low high balance
  obtain ⟨same, positive, last⟩ := own
  have low : s.deque.top ≤ s.deque.bottom := low
  have high : s.deque.bottom ≤ s.deque.top + s.deque.capacity := high
  have back : b - 1 + 1 = s.deque.bottom := by omega
  apply sound.ownerMoves
  · rfl
  · exact Nat.le_refl _
  · show s.deque.top ≤ b - 1 + 1
    omega
  · show b - 1 + 1 ≤ s.deque.top + s.deque.capacity
    omega
  · rfl
  · intro _ inside
    rw [here] at inside
    have inside : s.deque.top < s.deque.bottom := inside
    refine ⟨?_, rfl⟩
    show s.deque.top < b - 1 + 1
    omega
  · show (s.pushed.map some).Perm (s.returned ++ s.deque.contents s.deque.top (b - 1 + 1))
    rw [back]
    exact balance

/-- A pop returns the position that only the owner can take. -/
theorem Sound.returns (sound : Sound s) (popping : s.owner.popping = true)
    (certain : s.owner.certain = true) (low : s.deque.top ≤ s.deque.bottom) :
    Sound { s with
      returned := s.returned ++ [s.deque.slot s.deque.bottom], owner := .popSubLen } := by
  have high := sound.high
  have balance := sound.balance
  unfold Deque.ceiling at high balance
  rw [if_pos popping] at high balance
  apply sound.ownerMoves
  · rfl
  · exact Nat.le_refl _
  · exact low
  · show s.deque.bottom ≤ s.deque.top + s.deque.capacity
    omega
  · trivial
  · intro _ inside
    unfold Deque.reach at inside
    rw [if_pos certain] at inside
    exact ⟨inside, rfl⟩
  · show (s.pushed.map some).Perm (s.returned ++ [s.deque.slot s.deque.bottom] ++
      s.deque.contents s.deque.top s.deque.bottom)
    rw [contents_concat low] at balance
    rw [List.append_assoc]
    exact balance.trans (List.perm_append_comm.append_left _)

/-- The position at the top is taken by a compare-exchange. -/
theorem perm_take {pushed : List (Option Nat)} {returned : List (Option Nat)} {top high : Nat}
    (less : top < high) (balance : pushed.Perm (returned ++ d.contents top high)) :
    pushed.Perm (returned ++ [d.slot top] ++ d.contents (top + 1) high) := by
  rw [contents_cons less] at balance
  rw [List.append_assoc]
  exact balance

theorem Sound.wins (sound : Sound s) {t : Nat} {task : Option Nat} (here : s.owner = .popCas t task)
    (swapped : s.deque.top = t) :
    Sound { s with
      deque := { s.deque with top := t + 1 }, returned := s.returned ++ [task],
      owner := .popWon t } := by
  have own := sound.owner
  have high := sound.high
  have balance := sound.balance
  rw [here] at own high balance
  obtain ⟨same, _, read⟩ := own
  have high : s.deque.bottom + 1 ≤ s.deque.top + s.deque.capacity := high
  apply sound.ownerMoves
  · rfl
  · show s.deque.top ≤ t + 1
    omega
  · show t + 1 ≤ s.deque.bottom + 1
    omega
  · show s.deque.bottom + 1 ≤ t + 1 + s.deque.capacity
    omega
  · refine ⟨same, ?_⟩
    show t + 1 = s.deque.bottom + 1
    omega
  · intro stands
    have stands : t + 1 = s.deque.top := stands
    omega
  · show (s.pushed.map some).Perm (s.returned ++ [task] ++
      s.deque.contents (t + 1) (s.deque.bottom + 1))
    have less : s.deque.top < s.deque.bottom + 1 := by omega
    rw [read swapped, ← swapped]
    exact perm_take less balance

/-- The end of a pop of the last element: bottom is set to the top. -/
theorem Sound.resyncs (sound : Sound s) {pc : OwnerPc} (popping : s.owner.popping = true)
    (certain : s.owner.certain = false) (empty : s.deque.top = s.deque.bottom + 1)
    (rests : pc.popping = false) (own : ∀ d, OwnerOk d pc) :
    Sound { s with deque := { s.deque with bottom := s.deque.top }, owner := pc } := by
  have balance := sound.balance
  unfold Deque.ceiling at balance
  rw [if_pos popping, ← empty] at balance
  have ceiling : { s.deque with bottom := s.deque.top }.ceiling pc = s.deque.top := by
    unfold Deque.ceiling
    rw [rests]
    rfl
  apply sound.ownerMoves
  · rfl
  · exact Nat.le_refl _
  · exact Nat.le_of_eq ceiling.symm
  · rw [ceiling]
    exact Nat.le_add_right _ _
  · exact own _
  · intro _ inside
    unfold Deque.reach Deque.ceiling at inside
    rw [certain, popping] at inside
    have inside : s.deque.top < s.deque.bottom + 1 := inside
    omega
  · rw [ceiling]
    exact balance

theorem Sound.steals (sound : Sound s) {i t : Nat} {task : Option Nat}
    (here : s.thieves i = .cas t task) (swapped : s.deque.top = t) :
    Sound ({ s with
      deque := { s.deque with top := t + 1 }, returned := s.returned ++ [task] }.setThief i
        .subLen) := by
  have own := sound.thieves i
  rw [here] at own
  obtain ⟨inside, read⟩ := own.2 swapped
  have high := sound.high
  have less := Nat.lt_of_lt_of_le inside (reach_le_ceiling s.deque s.owner)
  rw [← swapped, read]
  refine ⟨sound.size, less, ?_, sound.owner.stolen inside, ?_, perm_take less sound.balance⟩
  · show s.deque.ceiling s.owner ≤ s.deque.top + 1 + s.deque.capacity
    omega
  · have done : ThiefOk { s.deque with top := s.deque.top + 1 } (s.deque.reach s.owner) .subLen :=
      trivial
    apply forall_update (ThiefOk _ _) _ done
    intro j _
    apply (sound.thieves j).mono (Nat.le_succ _)
    intro stands
    exact absurd stands (Nat.succ_ne_self _)

def OwnerPc.fastHolds (top : Nat) : OwnerPc → Bool
  | .popFastStore b => decide (top < b - 1)
  | _ => true

/-- The fast path of deque_pop stores the decremented bottom only while top is still
below it. -/
def FastPathHolds (s : State) (label : Label) : Prop :=
  label = .owner → s.owner.fastHolds s.deque.top = true

instance (s : State) (label : Label) : Decidable (FastPathHolds s label) :=
  inferInstanceAs (Decidable (_ → _))

theorem Sound.ownerStep (sound : Sound s) {s' : State} (holds : FastPathHolds s .owner)
    (taken : ownerStep s = some s') : Sound s' := by
  have own := sound.owner
  have low := sound.low
  unfold WorkDeque.ownerStep at taken
  dsimp only at taken
  split at taken
  · cases taken
  · rename_i task here
    cases taken
    exact sound.setOwner here rfl rfl id
  · rename_i task b here
    rw [here] at own low
    have low : s.deque.top ≤ s.deque.bottom := low
    have same : b = s.deque.bottom := own
    split at taken
    · cases taken
      exact sound.setOwner here rfl trivial id
    · rename_i room
      cases taken
      unfold sizeSub at room
      rw [if_pos (by omega)] at room
      exact sound.setOwner here rfl ⟨same, by omega⟩ id
  · rename_i task b here
    cases taken
    exact sound.storesSlot here
  · rename_i task b here
    cases taken
    exact sound.storesBottom here
  · rename_i here
    cases taken
    exact sound.setOwner here rfl trivial id
  · rename_i here
    cases taken
    exact sound.setOwner here rfl trivial id
  · rename_i here
    split at taken
    · cases taken
      exact sound.setOwner here rfl trivial id
    · rename_i some
      cases taken
      exact sound.setOwner here rfl ⟨rfl, Nat.pos_of_ne_zero some⟩ id
  · rename_i b here
    rw [here] at own
    split at taken
    · cases taken
      exact sound.setOwner here rfl own id
    · rename_i last
      cases taken
      have positive := own.2
      exact sound.setOwner here rfl ⟨own.1, own.2, by omega⟩ id
  · rename_i b here
    cases taken
    have still := holds rfl
    rw [here] at still
    exact sound.fastStores here (of_decide_eq_true still)
  · rename_i b here
    rw [here] at own
    cases taken
    rw [own.1]
    apply sound.returns
    · rw [here]
      rfl
    · rw [here]
      rfl
    · rw [← own.1]
      exact own.2
  · rename_i b here
    cases taken
    exact sound.slowStores here
  · rename_i b here
    rw [here] at own low
    have low : s.deque.top ≤ s.deque.bottom + 1 := low
    have same : b = s.deque.bottom := own
    split at taken
    · rename_i lost
      cases taken
      exact sound.setOwner here rfl ⟨rfl, by omega⟩ id
    · rename_i left
      cases taken
      apply sound.setOwner here
      · rfl
      · exact ⟨same, by omega, Nat.le_refl _, fun less => Nat.le_of_lt less⟩
      · intro inside
        unfold Deque.reach
        split
        · rename_i certain
          have less := of_decide_eq_true certain
          omega
        · exact inside
  · rename_i t here
    rw [here] at own
    cases taken
    rw [own.1]
    exact sound.resyncs (by rw [here]; rfl) (by rw [here]; rfl) own.2 rfl fun _ => trivial
  · rename_i b t here
    rw [here] at own
    split at taken
    · rename_i less
      cases taken
      rw [own.1]
      apply sound.returns
      · rw [here]
        rfl
      · rw [here]
        exact decide_eq_true less
      · rw [← own.1]
        exact own.2.2.2 less
    · rename_i last
      cases taken
      have same : t = b := by
        have le := own.2.1
        omega
      apply sound.setOwner here
      · rfl
      · rw [same]
        exact ⟨own.1, same ▸ own.2.2.1, fun _ => rfl⟩
      · intro inside
        unfold Deque.reach at inside
        rw [show OwnerPc.certain (.popSlot b t) = false from decide_eq_false last] at inside
        exact inside
  · rename_i t task here
    rw [here] at own low
    have low : s.deque.top ≤ s.deque.bottom + 1 := low
    split at taken
    · rename_i swapped
      cases taken
      exact sound.wins here swapped
    · rename_i lost
      cases taken
      have early := own.2.1
      have same := own.1
      exact sound.setOwner here rfl ⟨rfl, by omega⟩ id
  · rename_i t here
    rw [here] at own
    cases taken
    rw [own.1, ← own.2]
    exact sound.resyncs (by rw [here]; rfl) (by rw [here]; rfl) own.2 rfl fun _ => trivial
  · rename_i t here
    rw [here] at own
    cases taken
    rw [own.1]
    exact sound.resyncs (by rw [here]; rfl) (by rw [here]; rfl) own.2 rfl fun _ => trivial
  · rename_i here
    cases taken
    exact sound.setOwner here rfl trivial id
  · rename_i here
    cases taken
    exact sound.setOwner here rfl trivial id

theorem Sound.thiefStep (sound : Sound s) {i : Nat} {s' : State} (taken : thiefStep s i = some s') :
    Sound s' := by
  have own := sound.thieves i
  unfold WorkDeque.thiefStep at taken
  dsimp only at taken
  split at taken
  · cases taken
  · cases taken
    exact sound.setThief (Nat.le_refl _)
  · rename_i t here
    rw [here] at own
    split at taken
    · cases taken
      exact sound.setThief trivial
    · rename_i filled
      cases taken
      have inside := bottom_le_reach s.deque s.owner
      exact sound.setThief ⟨own, fun same => by omega⟩
  · rename_i t here
    rw [here] at own
    cases taken
    exact sound.setThief ⟨own.1, fun same => ⟨own.2 same, by rw [same]⟩⟩
  · rename_i t task here
    split at taken
    · rename_i swapped
      cases taken
      exact sound.steals here swapped
    · cases taken
      exact sound.setThief trivial
  · cases taken
    exact sound.setThief trivial
  · cases taken
    exact sound.setThief trivial

theorem Sound.step (sound : Sound s) {label : Label} {s' : State} (holds : FastPathHolds s label)
    (taken : step s label = some s') : Sound s' := by
  cases label with
  | dequePush | dequePop =>
    simp only [WorkDeque.step] at taken
    split at taken
    · rename_i here
      cases taken
      exact sound.setOwner here rfl trivial id
    · cases taken
  | owner => exact sound.ownerStep holds taken
  | dequeSteal i =>
    simp only [WorkDeque.step] at taken
    split at taken
    · cases taken
      exact sound.setThief trivial
    · cases taken
  | thief i => exact sound.thiefStep taken

theorem sound_start (bits : Nat) : Sound (start bits) :=
  ⟨Nat.two_pow_pos bits, Nat.le_refl _, Nat.zero_le _, trivial, fun _ => trivial, List.Perm.refl _⟩

/-- No operation is in progress. -/
def State.quiet (s : State) : Prop := s.owner = .idle ∧ ∀ i, s.thieves i = .idle

structure DequeSafe (s : State) : Prop where
  /-- What was pushed is returned, each push once, or still between top and bottom
  (or the one position a pop in progress has set apart). -/
  balance : (s.pushed.map some).Perm
    (s.returned ++ s.deque.contents s.deque.top (s.deque.ceiling s.owner))
  /-- A push writes no slot of a position that is not returned. -/
  unreused : ∀ task b, s.owner = .pushStoreSlot task b →
    ∀ p, s.deque.top ≤ p → p < s.deque.ceiling s.owner → s.deque.cell p ≠ s.deque.cell b
  ordered : s.quiet → s.deque.top ≤ s.deque.bottom

theorem Sound.safe (sound : Sound s) : DequeSafe s := by
  have low := sound.low
  refine ⟨sound.balance, ?_, ?_⟩
  · intro task b here p early inside same
    have own := sound.owner
    rw [here] at own inside
    have inside : p < s.deque.bottom := inside
    have room := own.2
    have last := own.1
    have equal := SeqRing.eq_of_mod_eq ⟨early, by omega⟩ ⟨by omega, room⟩ same
    omega
  · intro quiet
    rw [quiet.1] at low
    exact low

/-- One owner and any number of thieves, in every run in which the fast path holds. -/
theorem deque_safe (bits : Nat) (labels : List Label)
    (meets : Meets step FastPathHolds (start bits) labels) :
    Always step DequeSafe (start bits) labels := by
  apply @always_of_meets _ _ step Sound DequeSafe FastPathHolds
  · intro s s' label sound holds taken
    exact sound.step holds taken
  · intro s sound
    exact sound.safe
  · exact sound_start bits
  · exact meets

def pushOf (task : Nat) : List Label := .dequePush task :: List.replicate 6 .owner

def stealOf (i : Nat) : List Label := .dequeSteal i :: List.replicate 6 (.thief i)

/-- Three pushes, a pop on the fast path, a steal, and a pop that races a thief for
the last task. -/
theorem deque_safe_of_pops_and_steals :
    Always step DequeSafe (start 2) (pushOf 7 ++ pushOf 8 ++ pushOf 9 ++
      .dequePop :: List.replicate 6 .owner ++ stealOf 0 ++
      [.dequeSteal 1, .thief 1, .thief 1, .dequePop, .owner, .owner, .owner, .thief 1, .thief 1,
        .owner, .owner]) := by
  apply deque_safe
  apply meets_of_decide
  decide +kernel

/-- Two thieves take both tasks between the fast path's load of top and its store to
bottom: task 8 is returned twice, and top ends above bottom. -/
theorem deque_returns_twice :
    ∃ labels s, exec step (start 2) labels = some s ∧ s.pushed = [7, 8] ∧
      s.returned = [some 7, some 8, some 8] ∧ s.owner = .idle ∧ s.deque.bottom < s.deque.top ∧
      ¬DequeSafe s := by
  let labels := pushOf 7 ++ pushOf 8 ++ [.dequePop, .owner, .owner] ++ stealOf 0 ++ stealOf 1 ++
    List.replicate 4 .owner
  have run : (exec step (start 2) labels).map
      (fun s => (s.pushed, s.returned, s.owner, s.deque.top, s.deque.bottom)) =
      some ([7, 8], [some 7, some 8, some 8], .idle, 2, 1) := by
    decide +kernel
  obtain ⟨s, reached, shape⟩ := Option.map_eq_some_iff.mp run
  simp only [Prod.mk.injEq] at shape
  obtain ⟨pushed, returned, owner, top, bottom⟩ := shape
  refine ⟨labels, s, reached, pushed, returned, owner, by omega, fun safe => ?_⟩
  have balance := safe.balance.length_eq
  rw [pushed, returned, List.length_append] at balance
  simp only [List.map_cons, List.map_nil, List.length_cons, List.length_nil] at balance
  omega

end Loomworks.Pool.WorkDeque

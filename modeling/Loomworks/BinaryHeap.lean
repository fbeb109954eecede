import Mathlib

/- Binary min-heaps in an array. An array is a function from positions; a heap of n
entries is its first n positions, and what is beyond them is left over from earlier
operations. -/
namespace BinaryHeap

open Function (update update_of_ne update_self)

variable {α κ : Type} [LinearOrder κ]

def parent (i : Nat) : Nat := (i - 1) / 2

def swap (h : Nat → α) (i j : Nat) : Nat → α :=
  update (update h i (h j)) j (h i)

/-- Move the entry at i up while its parent is larger. -/
def siftUp (key : α → κ) (h : Nat → α) (i : Nat) : Nat → α :=
  if i = 0 then h
  else if key (h (parent i)) ≤ key (h i) then h
  else siftUp key (swap h (parent i) i) (parent i)
termination_by i
decreasing_by
  unfold parent
  omega

/-- The position of the smallest of the entry at i and its children below n. -/
def smallest (key : α → κ) (h : Nat → α) (n i : Nat) : Nat :=
  let m := if 2 * i + 1 < n ∧ key (h (2 * i + 1)) < key (h i) then 2 * i + 1 else i
  if 2 * i + 2 < n ∧ key (h (2 * i + 2)) < key (h m) then 2 * i + 2 else m

theorem smallest_cases (key : α → κ) (h : Nat → α) (n i : Nat) :
    smallest key h n i = i ∨
      (smallest key h n i = 2 * i + 1 ∨ smallest key h n i = 2 * i + 2) ∧
        smallest key h n i < n ∧ key (h (smallest key h n i)) < key (h i) := by
  unfold smallest
  by_cases left : 2 * i + 1 < n ∧ key (h (2 * i + 1)) < key (h i)
  · rw [if_pos left]
    by_cases right : 2 * i + 2 < n ∧ key (h (2 * i + 2)) < key (h (2 * i + 1))
    · rw [if_pos right]
      exact Or.inr ⟨Or.inr rfl, right.1, right.2.trans left.2⟩
    · rw [if_neg right]
      exact Or.inr ⟨Or.inl rfl, left⟩
  · rw [if_neg left]
    by_cases right : 2 * i + 2 < n ∧ key (h (2 * i + 2)) < key (h i)
    · rw [if_pos right]
      exact Or.inr ⟨Or.inr rfl, right⟩
    · rw [if_neg right]
      exact Or.inl rfl

/-- Move the entry at i down while a child is smaller. -/
def siftDown (key : α → κ) (h : Nat → α) (n i : Nat) : Nat → α :=
  if smallest key h n i = i then h
  else siftDown key (swap h i (smallest key h n i)) n (smallest key h n i)
termination_by n - i
decreasing_by
  rcases smallest_cases key h n i with same | ⟨child, inside, -⟩
  · contradiction
  · omega

/-- The entries of a heap. -/
def contents (h : Nat → α) (n : Nat) : List α := (List.range n).map h

variable {key : α → κ} {h h' : Nat → α} {n i j : Nat}

theorem contents_succ (h : Nat → α) (n : Nat) : contents h (n + 1) = contents h n ++ [h n] := by
  simp [contents, List.range_succ]

@[simp] theorem length_contents (h : Nat → α) (n : Nat) : (contents h n).length = n := by
  simp [contents]

theorem contents_congr (same : ∀ k < n, h k = h' k) : contents h n = contents h' n := by
  apply List.map_congr_left
  intro k member
  exact same k (List.mem_range.mp member)

theorem swap_apply (h : Nat → α) (i j k : Nat) : swap h i j k = h (Equiv.swap i j k) := by
  unfold swap
  by_cases right : k = j
  · rw [right, update_self, Equiv.swap_apply_right]
  · rw [update_of_ne right]
    by_cases left : k = i
    · rw [left, update_self, Equiv.swap_apply_left]
    · rw [update_of_ne left, Equiv.swap_apply_of_ne_of_ne left right]

theorem swap_left (h : Nat → α) (i j : Nat) : swap h i j i = h j := by
  rw [swap_apply, Equiv.swap_apply_left]

theorem swap_right (h : Nat → α) (i j : Nat) : swap h i j j = h i := by
  rw [swap_apply, Equiv.swap_apply_right]

theorem swap_of_ne {k : Nat} (left : k ≠ i) (right : k ≠ j) : swap h i j k = h k := by
  rw [swap_apply, Equiv.swap_apply_of_ne_of_ne left right]

theorem contents_swap (first : i < n) (second : j < n) :
    (contents (swap h i j) n).Perm (contents h n) := by
  have indices : ((List.range n).map (Equiv.swap i j)).Perm (List.range n) := by
    apply (List.perm_ext_iff_of_nodup _ List.nodup_range).mpr
    · intro k
      rw [List.mem_map, List.mem_range]
      constructor
      · rintro ⟨k', inside, rfl⟩
        rw [Equiv.swap_apply_def]
        have inside := List.mem_range.mp inside
        split
        · exact second
        · split
          · exact first
          · exact inside
      · intro inside
        refine ⟨Equiv.swap i j k, List.mem_range.mpr ?_, Equiv.swap_apply_self i j k⟩
        rw [Equiv.swap_apply_def]
        split
        · exact second
        · split
          · exact first
          · exact inside
    · exact List.nodup_range.map (Equiv.swap i j).injective
  have mapped : contents (swap h i j) n = ((List.range n).map (Equiv.swap i j)).map h := by
    rw [List.map_map]
    apply List.map_congr_left
    intro k _
    exact swap_apply h i j k
  rw [mapped]
  exact indices.map h

theorem parent_lt (positive : 0 < i) : parent i < i := by
  unfold parent
  omega

theorem siftUp_perm (inside : i < n) : (contents (siftUp key h i) n).Perm (contents h n) := by
  induction h, i using siftUp.induct key with
  | case1 h =>
    rw [siftUp, if_pos rfl]
  | case2 h i positive ordered =>
    rw [siftUp, if_neg positive, if_pos ordered]
  | case3 h i positive smaller ih =>
    rw [siftUp, if_neg positive, if_neg smaller]
    have above := parent_lt (Nat.pos_of_ne_zero positive)
    exact (ih (by omega)).trans (contents_swap (by omega) inside)

theorem siftDown_perm : (contents (siftDown key h n i) n).Perm (contents h n) := by
  induction h, i using siftDown.induct key n with
  | case1 h i least =>
    rw [siftDown, if_pos least]
  | case2 h i larger ih =>
    rw [siftDown, if_neg larger]
    rcases smallest_cases key h n i with same | ⟨child, inside, -⟩
    · contradiction
    · exact ih.trans (contents_swap (by omega) inside)

/-- No entry is smaller than its parent. -/
def Ordered (key : α → κ) (h : Nat → α) (n : Nat) : Prop :=
  ∀ i, 0 < i → i < n → key (h (parent i)) ≤ key (h i)

theorem Ordered.root_le (ordered : Ordered key h n) (inside : i < n) : key (h 0) ≤ key (h i) := by
  induction i using Nat.strongRecOn with
  | ind i ih =>
    by_cases zero : i = 0
    · rw [zero]
    · have positive : 0 < i := by omega
      have below := parent_lt positive
      exact (ih (parent i) below (by omega)).trans (ordered i positive inside)

/-- The order of a heap whose entry at hole may be smaller than its parent. -/
structure UpTo (key : α → κ) (h : Nat → α) (n hole : Nat) : Prop where
  apart : ∀ i, 0 < i → i < n → i ≠ hole → key (h (parent i)) ≤ key (h i)
  across : 0 < hole → ∀ i, 0 < i → i < n → parent i = hole → key (h (parent hole)) ≤ key (h i)

/-- The order of a heap whose entry at hole may be larger than its children. -/
structure DownFrom (key : α → κ) (h : Nat → α) (n hole : Nat) : Prop where
  apart : ∀ i, 0 < i → i < n → parent i ≠ hole → key (h (parent i)) ≤ key (h i)
  across : 0 < hole → ∀ i, 0 < i → i < n → parent i = hole → key (h (parent hole)) ≤ key (h i)

theorem UpTo.ordered (upTo : UpTo key h n i)
    (own : 0 < i → i < n → key (h (parent i)) ≤ key (h i)) : Ordered key h n := by
  intro k positive inside
  by_cases here : k = i
  · rw [here]
    exact own (by omega) (by omega)
  · exact upTo.apart k positive inside here

theorem UpTo.swap (upTo : UpTo key h n i) (inside : i < n) (positive : 0 < i)
    (smaller : key (h i) < key (h (parent i))) :
    UpTo key (swap h (parent i) i) n (parent i) := by
  have above := parent_lt positive
  constructor
  · intro k later within elsewhere
    by_cases here : k = i
    · rw [here, swap_right, swap_left]
      exact smaller.le
    · rw [swap_of_ne elsewhere here]
      by_cases below : parent k = i
      · rw [below, swap_right]
        exact upTo.across positive k later within below
      · by_cases beside : parent k = parent i
        · rw [beside, swap_left]
          have known := upTo.apart k later within here
          rw [beside] at known
          exact smaller.le.trans known
        · rw [swap_of_ne beside below]
          exact upTo.apart k later within here
  · intro top k later within beside
    have higher := parent_lt top
    have known := upTo.apart (parent i) top (by omega) (by omega)
    rw [swap_of_ne (k := parent (parent i)) (by omega) (by omega)]
    by_cases here : k = i
    · rw [here, swap_right]
      exact known
    · have lower := parent_lt later
      rw [swap_of_ne (by omega) here]
      have sibling := upTo.apart k later within here
      rw [beside] at sibling
      exact known.trans sibling

theorem siftUp_ordered (inside : i < n) (upTo : UpTo key h n i) : Ordered key (siftUp key h i) n := by
  induction h, i using siftUp.induct key with
  | case1 h =>
    rw [siftUp, if_pos rfl]
    exact upTo.ordered fun positive _ => absurd positive (Nat.lt_irrefl 0)
  | case2 h i positive ordered =>
    rw [siftUp, if_neg positive, if_pos ordered]
    exact upTo.ordered fun _ _ => ordered
  | case3 h i positive smaller ih =>
    rw [siftUp, if_neg positive, if_neg smaller]
    have top := Nat.pos_of_ne_zero positive
    have above := parent_lt top
    exact ih (by omega) (upTo.swap inside top (not_le.mp smaller))

/-- Neither the entry nor a child of it is smaller than the smallest of them. -/
theorem smallest_le (key : α → κ) (h : Nat → α) (n i : Nat) {k : Nat}
    (family : k = i ∨ (0 < k ∧ k < n ∧ parent k = i)) :
    key (h (smallest key h n i)) ≤ key (h k) := by
  have position : k = i ∨ k < n ∧ k = 2 * i + 1 ∨ k < n ∧ k = 2 * i + 2 := by
    unfold parent at family
    omega
  unfold smallest
  by_cases left : 2 * i + 1 < n ∧ key (h (2 * i + 1)) < key (h i)
  · rw [if_pos left]
    by_cases right : 2 * i + 2 < n ∧ key (h (2 * i + 2)) < key (h (2 * i + 1))
    · rw [if_pos right]
      rcases position with rfl | ⟨-, rfl⟩ | ⟨-, rfl⟩
      · exact (right.2.trans left.2).le
      · exact right.2.le
      · exact le_rfl
    · rw [if_neg right]
      rcases position with rfl | ⟨-, rfl⟩ | ⟨inside, rfl⟩
      · exact left.2.le
      · exact le_rfl
      · exact not_lt.mp fun less => right ⟨inside, less⟩
  · rw [if_neg left]
    by_cases right : 2 * i + 2 < n ∧ key (h (2 * i + 2)) < key (h i)
    · rw [if_pos right]
      rcases position with rfl | ⟨inside, rfl⟩ | ⟨-, rfl⟩
      · exact right.2.le
      · exact right.2.le.trans (not_lt.mp fun less => left ⟨inside, less⟩)
      · exact le_rfl
    · rw [if_neg right]
      rcases position with rfl | ⟨inside, rfl⟩ | ⟨inside, rfl⟩
      · exact le_rfl
      · exact not_lt.mp fun less => left ⟨inside, less⟩
      · exact not_lt.mp fun less => right ⟨inside, less⟩

theorem DownFrom.ordered (downFrom : DownFrom key h n i)
    (own : ∀ k, 0 < k → k < n → parent k = i → key (h i) ≤ key (h k)) : Ordered key h n := by
  intro k positive inside
  by_cases child : parent k = i
  · rw [child]
    exact own k positive inside child
  · exact downFrom.apart k positive inside child

theorem DownFrom.swap {m : Nat} (downFrom : DownFrom key h n i) (child : parent m = i) (later : 0 < m)
    (inside : m < n) (least : ∀ k, 0 < k → k < n → parent k = i → key (h m) ≤ key (h k))
    (less : key (h m) < key (h i)) : DownFrom key (swap h i m) n m := by
  have below : i < m := by
    have known := parent_lt later
    omega
  constructor
  · intro k positive within elsewhere
    by_cases here : k = i
    · have top : 0 < i := by omega
      have higher := parent_lt top
      rw [here, swap_left, swap_of_ne (by omega) (by omega)]
      exact downFrom.across top m later inside child
    · by_cases moved : k = m
      · rw [moved, swap_right, child, swap_left]
        exact less.le
      · rw [swap_of_ne here moved]
        by_cases beside : parent k = i
        · rw [beside, swap_left]
          exact least k positive within beside
        · rw [swap_of_ne beside elsewhere]
          exact downFrom.apart k positive within beside
  · intro _ k positive within lower
    have known := parent_lt positive
    rw [child, swap_left, swap_of_ne (by omega) (by omega)]
    have below := downFrom.apart k positive within (by omega)
    rwa [lower] at below

theorem siftDown_ordered (downFrom : DownFrom key h n i) : Ordered key (siftDown key h n i) n := by
  induction h, i using siftDown.induct key n with
  | case1 h i least =>
    rw [siftDown, if_pos least]
    apply downFrom.ordered
    intro k positive inside child
    have smaller := smallest_le key h n i (Or.inr ⟨positive, inside, child⟩)
    rwa [least] at smaller
  | case2 h i larger ih =>
    rw [siftDown, if_neg larger]
    rcases smallest_cases key h n i with same | ⟨child, inside, less⟩
    · contradiction
    · apply ih
      apply downFrom.swap
      · unfold parent
        omega
      · omega
      · exact inside
      · intro k positive within beside
        exact smallest_le key h n i (Or.inr ⟨positive, within, beside⟩)
      · exact less

theorem siftDown_of_le (least : ∀ k, 0 < k → k < n → parent k = i → key (h i) ≤ key (h k)) :
    siftDown key h n i = h := by
  rw [siftDown, if_pos]
  rcases smallest_cases key h n i with same | ⟨child, inside, less⟩
  · exact same
  · have known := least (smallest key h n i) (by omega) inside (by unfold parent; omega)
    exact absurd less (not_lt.mpr known)

theorem siftUp_of_le (ordered : 0 < i → key (h (parent i)) ≤ key (h i)) : siftUp key h i = h := by
  rw [siftUp]
  split
  · rfl
  · rename_i positive
    rw [if_pos (ordered (Nat.pos_of_ne_zero positive))]

theorem push_ordered (ordered : Ordered key h n) (e : α) :
    Ordered key (siftUp key (update h n e) n) (n + 1) := by
  apply siftUp_ordered (Nat.lt_succ_self n)
  constructor
  · intro k positive inside elsewhere
    have above := parent_lt positive
    rw [update_of_ne elsewhere, update_of_ne (by omega)]
    exact ordered k positive (by omega)
  · intro _ k positive inside child
    have above := parent_lt positive
    omega

theorem push_perm (e : α) :
    (contents (siftUp key (update h n e) n) (n + 1)).Perm (e :: contents h n) := by
  apply (siftUp_perm (Nat.lt_succ_self n)).trans
  rw [contents_succ, update_self]
  have kept : contents (update h n e) n = contents h n :=
    contents_congr fun k inside => update_of_ne (by omega) _ _
  rw [kept]
  exact List.perm_append_singleton e _

/-- The array in which the last entry has taken the place of the one at i. -/
theorem replace_perm (inside : i < n + 1) :
    (h i :: contents (update h i (h n)) n).Perm (contents h (n + 1)) := by
  rw [contents_succ]
  by_cases last : i = n
  · have kept : contents (update h i (h n)) n = contents h n :=
      contents_congr fun k within => update_of_ne (by omega) _ _
    rw [kept, last]
    exact (List.perm_append_singleton (h n) _).symm
  · have swapped := contents_swap (h := h) (n := n + 1) (i := i) (j := n) inside (Nat.lt_succ_self n)
    rw [contents_succ, swap_right, contents_succ] at swapped
    have same : contents (update h i (h n)) n = contents (swap h i n) n :=
      contents_congr fun k within => by
        unfold swap
        have before : k ≠ n := by omega
        rw [update_of_ne before]
    rw [same]
    exact (List.perm_append_singleton (h i) _).symm.trans swapped

/-- Remove the entry at i: the last one takes its place and is sifted both ways. -/
def removeAt (key : α → κ) (h : Nat → α) (n i : Nat) : Nat → α :=
  siftUp key (siftDown key (update h i (h n)) n i) i

/-- In a heap one of the two sifts of a removal does nothing. -/
theorem removeAt_spec (ordered : Ordered key h (n + 1)) (inside : i < n + 1) :
    (contents (removeAt key h n i) n).Perm (contents (update h i (h n)) n) ∧
      Ordered key (removeAt key h n i) n := by
  unfold removeAt
  have before : ∀ k, 0 < k → k < n → k ≠ i → parent k ≠ i →
      key (update h i (h n) (parent k)) ≤ key (update h i (h n) k) := by
    intro k positive within here above
    rw [update_of_ne here, update_of_ne above]
    exact ordered k positive (by omega)
  have across : 0 < i → ∀ k, 0 < k → k < n → parent k = i →
      key (update h i (h n) (parent i)) ≤ key (update h i (h n) k) := by
    intro top k positive within child
    have above := parent_lt top
    have lower := parent_lt positive
    rw [update_of_ne (by omega), update_of_ne (by omega)]
    have first := ordered i top inside
    have second := ordered k positive (by omega)
    rw [child] at second
    exact first.trans second
  by_cases down : 0 < i → key (h (parent i)) ≤ key (h n)
  · -- the last entry is not too small for the place: only the way down can move it
    have settled : DownFrom key (update h i (h n)) n i := by
      constructor
      · intro k positive within child
        by_cases here : k = i
        · have top : 0 < i := by omega
          have above := parent_lt top
          rw [here, update_self, update_of_ne (by omega)]
          exact down top
        · exact before k positive within here child
      · exact across
    have result := siftDown_ordered settled
    have still : siftUp key (siftDown key (update h i (h n)) n i) i =
        siftDown key (update h i (h n)) n i := by
      apply siftUp_of_le
      intro top
      by_cases beyond : i < n
      · exact result i top beyond
      · have last : i = n := by omega
        have above := parent_lt top
        rw [siftDown_of_le fun k positive within child => by
          have lower := parent_lt positive
          omega]
        rw [update_of_ne (by omega), update_self]
        exact down top
    rw [still]
    exact ⟨siftDown_perm, result⟩
  · -- it is smaller than the parent of the place, hence than the children
    have top : 0 < i := by
      by_contra zero
      exact down fun positive => absurd positive zero
    have less : key (h n) < key (h (parent i)) := not_le.mp fun le => down fun _ => le
    have within : i < n := by
      by_contra beyond
      have last : i = n := by omega
      have known := ordered i top inside
      rw [last] at known less
      exact absurd less (not_lt.mpr known)
    have above := parent_lt top
    have still : siftDown key (update h i (h n)) n i = update h i (h n) := by
      apply siftDown_of_le
      intro k positive inner child
      have known := across top k positive inner child
      rw [update_of_ne (by omega)] at known
      rw [update_self]
      exact less.le.trans known
    rw [still]
    refine ⟨siftUp_perm within, siftUp_ordered within ⟨?_, across⟩⟩
    intro k positive inner here
    by_cases child : parent k = i
    · have lower := across top k positive inner child
      rw [child, update_self]
      rw [update_of_ne (by omega)] at lower
      exact less.le.trans lower
    · exact before k positive inner here child

/-- Removal of the root, which is only sifted down. -/
theorem removeRoot_spec (ordered : Ordered key h (n + 1)) :
    (contents (siftDown key (update h 0 (h n)) n 0) n).Perm
        (contents (update h 0 (h n)) n) ∧
      Ordered key (siftDown key (update h 0 (h n)) n 0) n := by
  have both := removeAt_spec ordered (Nat.succ_pos n)
  unfold removeAt at both
  rwa [siftUp, if_pos rfl] at both

end BinaryHeap

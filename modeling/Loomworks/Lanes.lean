import Loomworks.Bins

/- The priority lanes of a pool (src/thread_pool.c): one FIFO bucket of task ids
per priority, smaller priorities first. A bit of nonempty_bits is set exactly
when its bucket has a task, so the bitmap is read off the buckets. -/
namespace Loomworks.Pool

def priorityBuckets : Nat := 256

def lowestBucket (lanes : Nat → List Nat) : Option Nat :=
  (List.range priorityBuckets).find? fun b => !(lanes b).isEmpty

def laneHasPriority (lanes : Nat → List Nat) (maxPriority : Nat) : Bool :=
  match lowestBucket lanes with
  | some b => b ≤ maxPriority
  | none => false

def dequeueLowestPriority (lanes : Nat → List Nat) (maxPriority : Nat) :
    Option (Nat × (Nat → List Nat)) :=
  match lowestBucket lanes with
  | none => none
  | some b =>
    if maxPriority < b then none
    else match lanes b with
      | [] => none
      | t :: rest => some (t, Function.update lanes b rest)

/-- The walk of the cancel paths: unlink the first task that matches. -/
def unlinkFirst (found : Nat → Bool) (lanes : Nat → List Nat) : Option (Nat × (Nat → List Nat)) :=
  match (List.range priorityBuckets).find? fun b => (lanes b).any found with
  | none => none
  | some b =>
    match (lanes b).find? found with
    | none => none
    | some t => some (t, Function.update lanes b ((lanes b).eraseP found))

/-- Every task in a lane, in the order a drain of the buckets meets them. -/
def laneTasks (lanes : Nat → List Nat) : List Nat := Bins.all priorityBuckets lanes

variable {lanes lanes' : Nat → List Nat} {t : Nat}

theorem lowestBucket_lt {b : Nat} (lowest : lowestBucket lanes = some b) : b < priorityBuckets := by
  simpa using List.mem_of_find?_eq_some lowest

theorem dequeueLowestPriority_perm {maxPriority : Nat}
    (taken : dequeueLowestPriority lanes maxPriority = some (t, lanes')) :
    (laneTasks lanes).Perm (t :: laneTasks lanes') := by
  unfold dequeueLowestPriority at taken
  split at taken
  · cases taken
  · rename_i b lowest
    split at taken
    · cases taken
    · split at taken
      · cases taken
      · rename_i head rest shape
        cases taken
        exact Bins.all_take (lowestBucket_lt lowest) (by rw [shape])

theorem perm_eraseP {α : Type} {found : α → Bool} {l : List α} {x : α} (here : l.find? found = some x) :
    l.Perm (x :: l.eraseP found) := by
  induction l with
  | nil => cases here
  | cons head rest ih =>
    by_cases hit : found head = true
    · rw [List.find?_cons_of_pos hit] at here
      cases here
      rw [List.eraseP_cons_of_pos hit]
    · rw [List.find?_cons_of_neg hit] at here
      rw [List.eraseP_cons_of_neg hit]
      exact ((ih here).cons head).trans (List.Perm.swap x head _)

theorem unlinkFirst_perm {found : Nat → Bool} (taken : unlinkFirst found lanes = some (t, lanes')) :
    (laneTasks lanes).Perm (t :: laneTasks lanes') ∧ found t = true := by
  unfold unlinkFirst at taken
  split at taken
  · cases taken
  · rename_i b bucket
    split at taken
    · cases taken
    · rename_i head here
      cases taken
      have inside : b < priorityBuckets := by simpa using List.mem_of_find?_eq_some bucket
      exact ⟨Bins.all_take inside (perm_eraseP here), List.find?_some here⟩

theorem unlinkFirst_eq_none {f : Nat → Bool} (none : ∀ t ∈ laneTasks lanes, f t = false) :
    unlinkFirst f lanes = Option.none := by
  have unmet : (List.range priorityBuckets).find? (fun b => (lanes b).any f) = Option.none := by
    apply List.find?_eq_none.mpr
    intro b member hit
    obtain ⟨t, here, hit⟩ := List.any_eq_true.mp hit
    rw [none t (Bins.mem_all.mpr ⟨b, List.mem_range.mp member, here⟩)] at hit
    cases hit
  simp [unlinkFirst, unmet]

theorem laneTasks_append (priority : UInt8) (lanes : Nat → List Nat) (t : Nat) :
    (laneTasks (Function.update lanes priority.toNat (lanes priority.toNat ++ [t]))).Perm
      (t :: laneTasks lanes) :=
  Bins.all_put (UInt8.toNat_lt priority) (List.perm_append_singleton t _)

theorem lanes_unlinkFirst {found : Nat → Bool}
    (taken : unlinkFirst found lanes = some (t, lanes')) (b : Nat) : lanes' b ⊆ lanes b := by
  unfold unlinkFirst at taken
  split at taken
  · cases taken
  · rename_i bucket _
    split at taken
    · cases taken
    · cases taken
      by_cases here : b = bucket
      · rw [here, Function.update_self]
        exact List.eraseP_subset
      · rw [Function.update_of_ne here]
        exact List.Subset.refl _

theorem lanes_dequeueLowestPriority {maxPriority : Nat}
    (taken : dequeueLowestPriority lanes maxPriority = some (t, lanes')) (b : Nat) :
    lanes' b ⊆ lanes b := by
  unfold dequeueLowestPriority at taken
  split at taken
  · cases taken
  · rename_i bucket _
    split at taken
    · cases taken
    · split at taken
      · cases taken
      · rename_i shape
        cases taken
        by_cases here : b = bucket
        · rw [here, Function.update_self, shape]
          exact List.subset_cons_self _ _
        · rw [Function.update_of_ne here]
          exact List.Subset.refl _

/-- The lowest bucket with a task, and its oldest task. -/
theorem dequeueLowestPriority_some {maxPriority : Nat}
    (taken : dequeueLowestPriority lanes maxPriority = some (t, lanes')) :
    ∃ b rest, lowestBucket lanes = some b ∧ b ≤ maxPriority ∧ lanes b = t :: rest := by
  unfold dequeueLowestPriority at taken
  split at taken
  · cases taken
  · rename_i b lowest
    split at taken
    · cases taken
    · rename_i within
      split at taken
      · cases taken
      · rename_i rest shape
        cases taken
        exact ⟨b, rest, lowest, Nat.le_of_not_lt within, shape⟩

theorem lowestBucket_le {b u c : Nat} (lowest : lowestBucket lanes = some b)
    (queued : u ∈ lanes c) : b ≤ c := by
  by_contra below
  have skipped := (List.find?_range_eq_some.mp lowest).2.2 c (by omega)
  have empty : lanes c = [] := by simpa using skipped
  rw [empty] at queued
  exact absurd queued List.not_mem_nil

/-- Step 0 found nothing: the lanes up to a priority are empty. -/
theorem lanes_above {maxPriority u c : Nat}
    (nothing : dequeueLowestPriority lanes maxPriority = none ∨
      laneHasPriority lanes maxPriority = false)
    (inside : c < priorityBuckets) (queued : u ∈ lanes c) : maxPriority < c := by
  have present : lowestBucket lanes ≠ none := by
    intro missing
    have every := List.find?_eq_none.mp missing c (by simpa using inside)
    have filled : lanes c ≠ [] := List.ne_nil_of_mem queued
    simp [filled] at every
  obtain ⟨b, lowest⟩ := Option.ne_none_iff_exists'.mp present
  have below := lowestBucket_le lowest queued
  have filled : lanes b ≠ [] := by simpa using List.find?_some lowest
  rcases nothing with nothing | nothing
  · unfold dequeueLowestPriority at nothing
    simp only [lowest] at nothing
    split at nothing
    · omega
    · split at nothing
      · rename_i empty
        exact absurd empty filled
      · cases nothing
  · unfold laneHasPriority at nothing
    simp only [lowest, decide_eq_false_iff_not] at nothing
    omega

end Loomworks.Pool

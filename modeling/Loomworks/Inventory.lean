import Mathlib

/- An inventory of resources: which ones are held, and which were released without being held. -/

structure Inventory (α : Type) where
  held : α → Bool
  wrong : List α

namespace Inventory

variable {α : Type}

def empty : Inventory α := ⟨fun _ => false, []⟩

/-- Everything acquired has been released, and nothing twice. -/
def Balanced (l : Inventory α) : Prop := l.wrong = [] ∧ ∀ x, l.held x = false

theorem empty_balanced : (empty : Inventory α).Balanced :=
  ⟨rfl, fun _ => rfl⟩

variable [DecidableEq α]

def acquire (l : Inventory α) (r : α) : Inventory α :=
  { l with held := Function.update l.held r true }

/-- A release of what is not held is kept as a fault. -/
def release (l : Inventory α) (r : α) : Inventory α :=
  if l.held r then { l with held := Function.update l.held r false }
  else { l with wrong := r :: l.wrong }

def releaseAll (l : Inventory α) (rs : List α) : Inventory α := rs.foldl release l

variable (l : Inventory α) (r x : α) (rs : List α)

@[simp] theorem acquire_held : (l.acquire r).held x = (decide (x = r) || l.held x) := by
  by_cases same : x = r
  · subst same
    simp [acquire]
  · simp [acquire, same]

theorem release_held : (l.release r).held x = (decide (x ≠ r) && l.held x) := by
  unfold release
  by_cases same : x = r
  · subst same
    split <;> simp_all
  · split <;> simp [same]

theorem release_wrong (present : l.held r = true) : (l.release r).wrong = l.wrong := by
  simp [release, present]

theorem release_faulty (absent : l.held r = false) : ¬(l.release r).Balanced := by
  intro balanced
  have kept := balanced.1
  simp [release, absent] at kept

theorem releaseAll_held : (l.releaseAll rs).held x = (decide (x ∉ rs) && l.held x) := by
  induction rs generalizing l with
  | nil => simp [releaseAll]
  | cons r rs ih =>
    have rest := ih (l.release r)
    rw [release_held] at rest
    rw [show l.releaseAll (r :: rs) = (l.release r).releaseAll rs from rfl, rest]
    by_cases same : x = r <;> simp [same]

theorem releaseAll_wrong (once : rs.Nodup) (present : ∀ y ∈ rs, l.held y = true) :
    (l.releaseAll rs).wrong = l.wrong := by
  induction rs generalizing l with
  | nil => rfl
  | cons r rs ih =>
    obtain ⟨fresh, once⟩ := List.nodup_cons.mp once
    have rest := ih (l.release r) once fun y among => by
      have other : y ≠ r := fun same => fresh (same ▸ among)
      simp [release_held, other, present y (List.mem_cons_of_mem _ among)]
    exact rest.trans (release_wrong l r (present r List.mem_cons_self))

theorem acquireAll_held : (rs.foldl acquire l).held x = (l.held x || decide (x ∈ rs)) := by
  induction rs generalizing l with
  | nil => simp
  | cons r rs ih =>
    rw [List.foldl_cons, ih, acquire_held]
    by_cases same : x = r <;> simp [same]

theorem acquireAll_wrong : (rs.foldl acquire l).wrong = l.wrong := by
  induction rs generalizing l with
  | nil => rfl
  | cons r rs ih => exact ih (l.acquire r)

/-- What was acquired is released in some order. -/
theorem balanced_of_perm (rs undo : List α) (once : undo.Nodup) (perm : undo.Perm rs) :
    ((rs.foldl acquire empty).releaseAll undo).Balanced := by
  refine ⟨(releaseAll_wrong _ undo once fun y among => ?_).trans (acquireAll_wrong empty rs),
    fun x => ?_⟩
  · simp [acquireAll_held, perm.mem_iff.mp among]
  · simp [releaseAll_held, acquireAll_held, empty, perm.mem_iff]

end Inventory

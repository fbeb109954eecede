import Mathlib

/- A family of numbered lists, the first n of them in use, seen as one
collection up to order. -/
namespace Bins

variable {α : Type} {n i : Nat} {bins : Nat → List α}

def all (n : Nat) (bins : Nat → List α) : List α := (List.range n).flatMap bins

@[simp] theorem all_zero (bins : Nat → List α) : all 0 bins = [] := rfl

theorem all_succ (n : Nat) (bins : Nat → List α) : all (n + 1) bins = all n bins ++ bins n := by
  simp [all, List.range_succ]

theorem mem_all {x : α} : x ∈ all n bins ↔ ∃ i < n, x ∈ bins i := by
  simp [all]

theorem all_congr {other : Nat → List α} (same : ∀ i < n, bins i = other i) :
    all n bins = all n other := by
  induction n with
  | zero => rfl
  | succ n ih =>
    rw [all_succ, all_succ, ih fun i inside => same i (by omega), same n (by omega)]

theorem all_eq_nil (empty : ∀ i < n, bins i = []) : all n bins = [] := by
  have blank : all n bins = all n fun _ => [] := all_congr empty
  rw [blank]
  simp [all]

theorem length_all_le {k : Nat} (short : ∀ i < n, (bins i).length ≤ k) :
    (all n bins).length ≤ n * k := by
  induction n with
  | zero => simp
  | succ n ih =>
    have earlier := ih fun i inside => short i (by omega)
    have last := short n (by omega)
    rw [all_succ, List.length_append, Nat.succ_mul]
    omega

theorem all_extend {m : Nat} (le : n ≤ m) (empty : ∀ i, n ≤ i → i < m → bins i = []) :
    all m bins = all n bins := by
  induction m with
  | zero => rw [Nat.le_zero.mp le]
  | succ m ih =>
    rcases Nat.lt_or_ge n (m + 1) with below | equal
    · rw [all_succ, empty m (by omega) (by omega), List.append_nil]
      exact ih (by omega) fun i lower upper => empty i lower (by omega)
    · rw [show n = m + 1 by omega]

theorem all_update_of_le (outside : n ≤ i) (list : List α) :
    all n (Function.update bins i list) = all n bins := by
  apply all_congr
  intro j inside
  have other : j ≠ i := by omega
  simp [other]

/-- Replacing one bin exchanges its old contents for the new ones. -/
theorem all_update (inside : i < n) (list : List α) :
    (all n (Function.update bins i list) ++ bins i).Perm (all n bins ++ list) := by
  induction n with
  | zero => omega
  | succ n ih =>
    rw [all_succ, all_succ]
    by_cases last : i = n
    · subst last
      rw [all_update_of_le (Nat.le_refl i), Function.update_self, List.append_assoc,
        List.append_assoc]
      exact List.Perm.append_left _ List.perm_append_comm
    · rw [Function.update_of_ne (fun equal => last equal.symm)]
      have inner := ih (by omega)
      calc all n (Function.update bins i list) ++ bins n ++ bins i
          _ |>.Perm (all n (Function.update bins i list) ++ bins i ++ bins n) := by
            rw [List.append_assoc, List.append_assoc]
            exact List.Perm.append_left _ List.perm_append_comm
          _ |>.Perm (all n bins ++ list ++ bins n) := inner.append_right _
          _ |>.Perm (all n bins ++ bins n ++ list) := by
            rw [List.append_assoc, List.append_assoc]
            exact List.Perm.append_left _ List.perm_append_comm

theorem all_take (inside : i < n) {x : α} {rest : List α} (shape : (bins i).Perm (x :: rest)) :
    (all n bins).Perm (x :: all n (Function.update bins i rest)) := by
  have exchange : (all n (Function.update bins i rest) ++ bins i).Perm (all n bins ++ rest) :=
    all_update inside rest
  have moved := (List.Perm.append_left (all n (Function.update bins i rest)) shape).symm.trans exchange
  have front : (all n (Function.update bins i rest) ++ x :: rest).Perm
      ((x :: all n (Function.update bins i rest)) ++ rest) := List.perm_middle
  exact (List.perm_append_right_iff rest).mp (front.symm.trans moved).symm

theorem all_put (inside : i < n) {x : α} {list : List α} (shape : list.Perm (x :: bins i)) :
    (all n (Function.update bins i list)).Perm (x :: all n bins) := by
  have there : (Function.update bins i list i).Perm (x :: bins i) := by
    rw [Function.update_self]
    exact shape
  have taken := all_take inside there
  rwa [Function.update_idem, Function.update_eq_self] at taken

end Bins

import Mathlib

/- Facts about a table of threads of which one moves at a time. -/
namespace Threads

variable {π α : Type}

theorem forall_update_at (property : Nat → π → Prop) {table : Nat → π} {i : Nat} {pc : π}
    (others : ∀ j, j ≠ i → property j (table j)) (own : property i pc) (j : Nat) :
    property j (Function.update table i pc j) := by
  by_cases same : j = i
  · rw [same, Function.update_self]
    exact own
  · rw [Function.update_of_ne same]
    exact others j same

theorem forall_update (property : π → Prop) {table : Nat → π} {i : Nat} {pc : π}
    (others : ∀ j, j ≠ i → property (table j)) (own : property pc) (j : Nat) :
    property (Function.update table i pc j) :=
  forall_update_at (fun _ => property) others own j

/-- No two threads own the same thing. -/
def Exclusive (owns : π → α → Prop) (table : Nat → π) : Prop :=
  ∀ i j a, owns (table i) a → owns (table j) a → i = j

variable {owns : π → α → Prop} {table : Nat → π} {i : Nat} {pc : π}

/-- A thread that moves keeps what it owned or gets what nobody else owns. -/
theorem Exclusive.update (exclusive : Exclusive owns table)
    (new : ∀ a, owns pc a → owns (table i) a ∨ ∀ j, ¬owns (table j) a) :
    Exclusive owns (Function.update table i pc) := by
  have apart : ∀ j a, j ≠ i → owns pc a → ¬owns (table j) a := by
    intro j a differs mine theirs
    rcases new a mine with before | free
    · exact differs (exclusive j i a theirs before)
    · exact free j theirs
  intro j k a first second
  by_cases left : j = i
  · by_cases right : k = i
    · rw [left, right]
    · rw [left, Function.update_self] at first
      rw [Function.update_of_ne right] at second
      exact absurd second (apart k a right first)
  · rw [Function.update_of_ne left] at first
    by_cases right : k = i
    · rw [right, Function.update_self] at second
      exact absurd first (apart j a left second)
    · rw [Function.update_of_ne right] at second
      exact exclusive j k a first second

end Threads

import Mathlib

/- Linear probing: a walk over the slots of a table that ends at the first hit,
at a slot that stops it, or when its length is used up. -/
namespace Probe

def search (hit stop : Nat → Bool) (next : Nat → Nat) : Nat → Nat → Option Nat
  | 0, _ => none
  | fuel + 1, h =>
    if hit h then some h
    else if stop h then none
    else search hit stop next fuel (next h)

/-- How many slots the walk looks at. -/
def rounds (hit stop : Nat → Bool) (next : Nat → Nat) : Nat → Nat → Nat
  | 0, _ => 0
  | fuel + 1, h =>
    if hit h then 1
    else if stop h then 1
    else rounds hit stop next fuel (next h) + 1

theorem rounds_le {hit stop : Nat → Bool} {next : Nat → Nat} {fuel h : Nat} :
    rounds hit stop next fuel h ≤ fuel := by
  induction fuel generalizing h with
  | zero => exact Nat.le_refl 0
  | succ fuel ih =>
    unfold rounds
    have rest := @ih (next h)
    split
    · omega
    · split <;> omega

section Walk

variable {hit stop : Nat → Bool} {next place : Nat → Nat}

/-- The walk started at its i-th place finds the first hit ahead of it. -/
theorem search_hit (steps : ∀ i, next (place i) = place (i + 1)) {fuel i d : Nat} (ahead : i ≤ d)
    (enough : d < i + fuel) (found : hit (place d) = true)
    (clear : ∀ j, i ≤ j → j < d → hit (place j) = false ∧ stop (place j) = false) :
    search hit stop next fuel (place i) = some (place d) := by
  induction fuel generalizing i with
  | zero => omega
  | succ fuel ih =>
    unfold search
    by_cases here : i = d
    · subst here
      rw [if_pos found]
    · obtain ⟨miss, onward⟩ := clear i (Nat.le_refl i) (by omega)
      rw [miss, onward, steps]
      exact ih (by omega) (by omega) fun j lower upper => clear j (by omega) upper

theorem search_eq_some (steps : ∀ i, next (place i) = place (i + 1)) {fuel i h : Nat}
    (result : search hit stop next fuel (place i) = some h) :
    ∃ d, i ≤ d ∧ d < i + fuel ∧ h = place d ∧ hit (place d) = true ∧
      ∀ j, i ≤ j → j < d → hit (place j) = false ∧ stop (place j) = false := by
  induction fuel generalizing i with
  | zero => cases result
  | succ fuel ih =>
    unfold search at result
    split at result
    · rename_i found
      cases result
      exact ⟨i, by omega, by omega, rfl, found, fun j lower upper => by omega⟩
    · rename_i miss
      split at result
      · cases result
      · rename_i onward
        rw [steps] at result
        obtain ⟨d, lower, upper, same, found, clear⟩ := ih result
        refine ⟨d, by omega, by omega, same, found, fun j first last => ?_⟩
        by_cases here : j = i
        · subst here
          exact ⟨by simpa using miss, by simpa using onward⟩
        · exact clear j (by omega) last

/-- A walk nothing stops fails only if there is no hit on its way. -/
theorem search_eq_none (steps : ∀ i, next (place i) = place (i + 1)) {fuel i : Nat}
    (result : search hit stop next fuel (place i) = none) (unstopped : ∀ h, stop h = false) :
    ∀ j, i ≤ j → j < i + fuel → hit (place j) = false := by
  induction fuel generalizing i with
  | zero => intro j lower upper; omega
  | succ fuel ih =>
    intro j lower upper
    unfold search at result
    split at result
    · cases result
    · rename_i miss
      rw [unstopped, steps] at result
      by_cases here : j = i
      · subst here
        simpa using miss
      · exact ih result j (by omega) (by omega)

end Walk

section Ring

/-- The i-th place of the walk that starts at the home slot of a key. -/
def place (cap key i : Nat) : Nat := (key + i) % cap

theorem and_mask (bits n : Nat) : n &&& (2 ^ bits - 1) = n % 2 ^ bits :=
  Nat.and_two_pow_sub_one_eq_mod n bits

theorem place_next (bits key i : Nat) :
    (place (2 ^ bits) key i + 1) &&& (2 ^ bits - 1) = place (2 ^ bits) key (i + 1) := by
  rw [and_mask, place, place, Nat.mod_add_mod, Nat.add_assoc]

theorem place_lt {cap : Nat} (positive : 0 < cap) (key i : Nat) : place cap key i < cap :=
  Nat.mod_lt _ positive

theorem place_injective {cap key i j : Nat} (first : i < cap) (second : j < cap)
    (same : place cap key i = place cap key j) : i = j := by
  have congruent : i % cap = j % cap := Nat.ModEq.add_left_cancel' key same
  rwa [Nat.mod_eq_of_lt first, Nat.mod_eq_of_lt second] at congruent

/-- A walk of full length visits every slot. -/
theorem exists_place {cap h : Nat} (inside : h < cap) (key : Nat) :
    ∃ i < cap, place cap key i = h := by
  have positive : 0 < cap := by omega
  have below := Nat.mod_lt key positive
  by_cases ahead : key % cap ≤ h
  · refine ⟨h - key % cap, by omega, ?_⟩
    rw [place, ← Nat.mod_add_mod, Nat.add_sub_cancel' ahead, Nat.mod_eq_of_lt inside]
  · refine ⟨h + cap - key % cap, by omega, ?_⟩
    rw [place, ← Nat.mod_add_mod, Nat.add_sub_cancel' (by omega), Nat.add_mod_right,
      Nat.mod_eq_of_lt inside]

end Ring

end Probe

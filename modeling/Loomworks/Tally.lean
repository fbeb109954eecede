import Mathlib

/- A weight summed over a list of threads addressed by position: a step of one
thread changes one summand, a new thread adds one. -/
namespace Tally

variable {α : Type}

def tally (weight : α → Nat) (l : List α) : Nat := (l.map weight).sum

@[simp] theorem tally_nil (weight : α → Nat) : tally weight [] = 0 := rfl

@[simp] theorem tally_cons (weight : α → Nat) (a : α) (l : List α) :
    tally weight (a :: l) = weight a + tally weight l := rfl

@[simp] theorem tally_append (weight : α → Nat) (l r : List α) :
    tally weight (l ++ r) = tally weight l + tally weight r := by
  simp [tally]

theorem tally_set (weight : α → Nat) {l : List α} {k : Nat} {old : α} (new : α)
    (here : l[k]? = some old) :
    tally weight (l.set k new) + weight old = tally weight l + weight new := by
  induction l generalizing k with
  | nil => simp at here
  | cons a l ih =>
    cases k with
    | zero =>
      simp only [List.getElem?_cons_zero, Option.some.injEq] at here
      subst here
      simp only [List.set_cons_zero, tally_cons]
      omega
    | succ k =>
      simp only [List.getElem?_cons_succ] at here
      have tail := ih here
      simp only [List.set_cons_succ, tally_cons]
      omega

theorem set_eq_self {l : List α} {k : Nat} {a : α} (here : l[k]? = some a) : l.set k a = l := by
  obtain ⟨inside, rfl⟩ := List.getElem?_eq_some_iff.mp here
  exact List.set_getElem_self inside

theorem tally_congr {first second : α → Nat} {l : List α} (same : ∀ a ∈ l, first a = second a) :
    tally first l = tally second l := by
  unfold tally
  rw [List.map_congr_left same]

theorem tally_le_tally {first second : α → Nat} {l : List α}
    (fewer : ∀ a ∈ l, first a ≤ second a) : tally first l ≤ tally second l := by
  induction l with
  | nil => simp
  | cons a l ih =>
    have head := fewer a (by simp)
    have tail := ih fun b member => fewer b (by simp [member])
    simp only [tally_cons]
    omega

theorem tally_change {first second : α → Nat} {l : List α} {a : α} (distinct : l.Nodup)
    (member : a ∈ l) (same : ∀ b, b ≠ a → second b = first b) :
    tally second l + first a = tally first l + second a := by
  induction l with
  | nil => simp at member
  | cons b l ih =>
    obtain ⟨fresh, distinct⟩ := List.nodup_cons.mp distinct
    rw [tally_cons, tally_cons]
    by_cases here : a = b
    · subst here
      have rest : tally second l = tally first l :=
        tally_congr fun b inside => same b fun clash => fresh (clash ▸ inside)
      omega
    · have tail := ih distinct ((List.mem_cons.mp member).resolve_left here)
      have head := same b fun clash => here clash.symm
      omega

theorem tally_map {β : Type} (weight : β → Nat) (f : α → β) (l : List α) :
    tally weight (l.map f) = tally (fun a => weight (f a)) l := by
  simp [tally, Function.comp_def]

theorem le_tally (weight : α → Nat) {l : List α} {a : α} (member : a ∈ l) :
    weight a ≤ tally weight l := by
  induction l with
  | nil => simp at member
  | cons b l ih =>
    rw [tally_cons]
    rcases List.mem_cons.mp member with rfl | member
    · omega
    · have tail := ih member
      omega

theorem exists_of_tally_pos (weight : α → Nat) (l : List α) (positive : 0 < tally weight l) :
    ∃ a ∈ l, 0 < weight a := by
  induction l with
  | nil => simp at positive
  | cons b l ih =>
    by_cases head : 0 < weight b
    · exact ⟨b, by simp, head⟩
    · rw [tally_cons] at positive
      obtain ⟨a, member, weighs⟩ := ih (by omega)
      exact ⟨a, by simp [member], weighs⟩

theorem tally_eq_zero {weight : α → Nat} {l : List α} :
    tally weight l = 0 ↔ ∀ a ∈ l, weight a = 0 := by
  constructor
  · intro zero a member
    have bound := le_tally weight member
    omega
  · intro zero
    by_contra nonzero
    obtain ⟨a, member, weighs⟩ := exists_of_tally_pos weight l (Nat.pos_of_ne_zero nonzero)
    have none := zero a member
    omega

theorem tally_replicate (weight : α → Nat) (count : Nat) (a : α) :
    tally weight (List.replicate count a) = count * weight a := by
  simp [tally]

section Keys

variable {κ : Type} [DecidableEq κ] {key : α → κ} {l : List α}

/-- Threads counted at most once per key have distinct keys. -/
theorem nodup_of_tally_le_one
    (once : ∀ c, tally (fun a => if key a = c then 1 else 0) l ≤ 1) : (l.map key).Nodup := by
  induction l with
  | nil => simp
  | cons a l ih =>
    rw [List.map_cons, List.nodup_cons]
    constructor
    · intro member
      obtain ⟨b, inside, same⟩ := List.mem_map.mp member
      have bound := once (key a)
      have tail := le_tally (fun x => if key x = key a then 1 else 0) inside
      simp only [tally_cons, if_true, same] at bound tail
      omega
    · refine ih fun c => ?_
      have bound := once c
      rw [tally_cons] at bound
      omega

omit [DecidableEq κ] in
/-- Replacing a thread by one with its key removes exactly that thread. -/
theorem mem_set_iff_of_nodup {k : Nat} {old : α} (new x : α) (distinct : (l.map key).Nodup)
    (here : l[k]? = some old) (same : key new = key old) :
    x ∈ l.set k new ↔ x = new ∨ (x ∈ l ∧ key x ≠ key old) := by
  induction l generalizing k with
  | nil => simp at here
  | cons y l ih =>
    obtain ⟨fresh, distinct⟩ := List.nodup_cons.mp distinct
    cases k with
    | zero =>
      simp only [List.getElem?_cons_zero, Option.some.injEq] at here
      subst here
      simp only [List.set_cons_zero, List.mem_cons]
      constructor
      · rintro (rfl | member)
        · exact Or.inl rfl
        · refine Or.inr ⟨Or.inr member, fun clash => fresh ?_⟩
          exact clash ▸ List.mem_map_of_mem member
      · rintro (rfl | ⟨rfl | member, other⟩)
        · exact Or.inl rfl
        · exact absurd rfl other
        · exact Or.inr member
    | succ k =>
      simp only [List.getElem?_cons_succ] at here
      have apart : key y ≠ key old := by
        intro clash
        exact fresh (clash ▸ List.mem_map_of_mem (List.mem_of_getElem? here))
      simp only [List.set_cons_succ, List.mem_cons, ih distinct here]
      constructor
      · rintro (rfl | rfl | ⟨member, other⟩)
        · exact Or.inr ⟨Or.inl rfl, apart⟩
        · exact Or.inl rfl
        · exact Or.inr ⟨Or.inr member, other⟩
      · rintro (rfl | ⟨rfl | member, other⟩)
        · exact Or.inr (Or.inl rfl)
        · exact Or.inl rfl
        · exact Or.inr (Or.inr ⟨member, other⟩)

variable {p : α → Prop} [DecidablePred p] {keys : Finset κ}

theorem tally_ite_eq_length (l : List α) :
    tally (fun a => if p a then 1 else 0) l = (l.filter fun a => p a).length := by
  induction l with
  | nil => rfl
  | cons a l ih =>
    by_cases holds : p a
    · simp [holds, ih, Nat.add_comm]
    · simp [holds, ih]

private theorem filtered_keys (distinct : (l.map key).Nodup) :
    (((l.filter fun a => p a).map key).toFinset).card =
      tally (fun a => if p a then 1 else 0) l := by
  have sublist := (List.filter_sublist (l := l) (p := fun a => decide (p a))).map key
  rw [List.toFinset_card_of_nodup (distinct.sublist sublist), List.length_map,
    tally_ite_eq_length]

theorem tally_le_card (distinct : (l.map key).Nodup) (into : ∀ a ∈ l, p a → key a ∈ keys) :
    tally (fun a => if p a then 1 else 0) l ≤ keys.card := by
  rw [← filtered_keys distinct]
  refine Finset.card_le_card fun c member => ?_
  obtain ⟨a, inside, rfl⟩ := List.mem_map.mp (List.mem_toFinset.mp member)
  obtain ⟨inside, holds⟩ := List.mem_filter.mp inside
  exact into a inside (of_decide_eq_true holds)

/-- When as many threads count as there are keys, every key has its thread. -/
theorem exists_of_card_le_tally (keys : Finset κ) (distinct : (l.map key).Nodup)
    (into : ∀ a ∈ l, p a → key a ∈ keys)
    (full : keys.card ≤ tally (fun a => if p a then 1 else 0) l) {c : κ} (member : c ∈ keys) :
    ∃ a ∈ l, p a ∧ key a = c := by
  have subset : ((l.filter fun a => p a).map key).toFinset ⊆ keys := by
    intro d listed
    obtain ⟨a, inside, rfl⟩ := List.mem_map.mp (List.mem_toFinset.mp listed)
    obtain ⟨inside, holds⟩ := List.mem_filter.mp inside
    exact into a inside (of_decide_eq_true holds)
  rw [← filtered_keys distinct] at full
  rw [← Finset.eq_of_subset_of_card_le subset full] at member
  obtain ⟨a, inside, same⟩ := List.mem_map.mp (List.mem_toFinset.mp member)
  obtain ⟨inside, holds⟩ := List.mem_filter.mp inside
  exact ⟨a, inside, of_decide_eq_true holds, same⟩

/-- When every key has its thread, as many threads count as there are keys. -/
theorem card_le_tally (key : α → κ) (each : ∀ c ∈ keys, ∃ a ∈ l, p a ∧ key a = c) :
    keys.card ≤ tally (fun a => if p a then 1 else 0) l := by
  have subset : keys ⊆ ((l.filter fun a => p a).map key).toFinset := by
    intro c member
    obtain ⟨a, inside, holds, same⟩ := each c member
    refine List.mem_toFinset.mpr (List.mem_map.mpr ⟨a, ?_, same⟩)
    exact List.mem_filter.mpr ⟨inside, decide_eq_true holds⟩
  have bound := Finset.card_le_card subset
  have length := List.toFinset_card_le ((l.filter fun a => p a).map key)
  rw [List.length_map] at length
  rw [tally_ite_eq_length]
  omega

end Keys

end Tally

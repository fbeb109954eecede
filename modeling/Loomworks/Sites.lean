import Mathlib

/- Items kept in a family of lists, each item in at most one place. -/
namespace Sites

variable {ι α : Type}

/-- Each item is in at most one list, and in that only once. -/
structure Apart (sites : ι → List α) : Prop where
  nodup : ∀ i, (sites i).Nodup
  unique : ∀ {i j x}, x ∈ sites i → x ∈ sites j → i = j

/-- The item x goes to the list dest, or away; every other item stays. -/
structure Relocates (sites sites' : ι → List α) (x : α) (dest : Option ι) : Prop where
  nodup : ∀ i, (sites' i).Nodup
  others : ∀ {i y}, y ≠ x → (y ∈ sites' i ↔ y ∈ sites i)
  own : ∀ {i}, x ∈ sites' i ↔ dest = some i

variable {sites sites' : ι → List α} {x : α}

theorem Relocates.apart {dest : Option ι} (moved : Relocates sites sites' x dest)
    (apart : Apart sites) : Apart sites' := by
  refine ⟨moved.nodup, ?_⟩
  intro i j y first second
  by_cases same : y = x
  · rw [same] at first second
    have here := moved.own.mp first
    have there := moved.own.mp second
    exact Option.some.inj (here.symm.trans there)
  · exact apart.unique ((moved.others same).mp first) ((moved.others same).mp second)

theorem Relocates.trans {sites'' : ι → List α} {via dest : Option ι}
    (first : Relocates sites sites' x via) (second : Relocates sites' sites'' x dest) :
    Relocates sites sites'' x dest :=
  ⟨second.nodup, fun other => (second.others other).trans (first.others other), second.own⟩

theorem Relocates.mem {dest : Option ι} (moved : Relocates sites sites' x dest) {i : ι} {y : α} :
    y ∈ sites' i ↔ (y ≠ x ∧ y ∈ sites i) ∨ (y = x ∧ dest = some i) := by
  by_cases same : y = x
  · rw [same, moved.own]
    simp
  · rw [moved.others same]
    simp [same]

open Classical in
/-- The list an item is in. -/
noncomputable def place (sites : ι → List α) (x : α) : Option ι :=
  if here : ∃ i, x ∈ sites i then some here.choose else none

theorem Apart.place_eq_some (apart : Apart sites) {i : ι} : place sites x = some i ↔ x ∈ sites i := by
  unfold place
  split
  · rename_i here
    rw [Option.some.injEq]
    constructor
    · intro same
      rw [← same]
      exact here.choose_spec
    · exact apart.unique here.choose_spec
  · rename_i nowhere
    exact ⟨nofun, fun member => absurd ⟨i, member⟩ nowhere⟩

theorem Apart.place_eq_none (apart : Apart sites) : place sites x = none ↔ ∀ i, x ∉ sites i := by
  constructor
  · intro nowhere i member
    rw [apart.place_eq_some.mpr member] at nowhere
    cases nowhere
  · intro nowhere
    unfold place
    rw [dif_neg fun ⟨i, member⟩ => nowhere i member]

theorem Relocates.place {dest : Option ι} (moved : Relocates sites sites' x dest) (apart : Apart sites)
    (y : α) : (y = x → place sites' y = dest) ∧ (y ≠ x → place sites' y = Sites.place sites y) := by
  have apart' := moved.apart apart
  have same : ∀ target : Option ι, (∀ i, y ∈ sites' i ↔ target = some i) →
      Sites.place sites' y = target := by
    intro target lists
    cases target with
    | none => exact apart'.place_eq_none.mpr fun i member => nomatch (lists i).mp member
    | some i => exact apart'.place_eq_some.mpr ((lists i).mpr rfl)
  constructor
  · rintro rfl
    exact same dest fun i => moved.own
  · intro other
    exact same _ fun i => (moved.others other).trans apart.place_eq_some.symm

theorem Apart.stay (apart : Apart sites) {dest : Option ι} (here : Sites.place sites x = dest) :
    Relocates sites sites x dest := by
  refine ⟨apart.nodup, fun _ => Iff.rfl, ?_⟩
  intro i
  rw [← here]
  exact apart.place_eq_some.symm

theorem Apart.perm (apart : Apart sites) (same : ∀ i, (sites' i).Perm (sites i)) : Apart sites' := by
  refine ⟨fun i => (same i).nodup_iff.mpr (apart.nodup i), ?_⟩
  intro i j y first second
  exact apart.unique ((same i).mem_iff.mp first) ((same j).mem_iff.mp second)

variable {a b : ι}

theorem Apart.relocate (apart : Apart sites) (differs : a ≠ b) (taken : (sites a).Perm (x :: sites' a))
    (put : (sites' b).Perm (x :: sites b)) (rest : ∀ i, i ≠ a → i ≠ b → (sites' i).Perm (sites i)) :
    Relocates sites sites' x (some b) := by
  have there : x ∈ sites a := taken.mem_iff.mpr List.mem_cons_self
  have nodupA := taken.nodup_iff.mp (apart.nodup a)
  have outside : ∀ i, i ≠ a → x ∉ sites i := fun i elsewhere member =>
    elsewhere (apart.unique member there)
  refine ⟨?_, ?_, ?_⟩
  · intro i
    by_cases isA : i = a
    · rw [isA]
      exact (List.nodup_cons.mp nodupA).2
    · by_cases isB : i = b
      · rw [isB]
        apply put.nodup_iff.mpr
        exact List.nodup_cons.mpr ⟨outside b (Ne.symm differs), apart.nodup b⟩
      · exact (rest i isA isB).nodup_iff.mpr (apart.nodup i)
  · intro i y other
    by_cases isA : i = a
    · rw [isA, taken.mem_iff, List.mem_cons]
      simp [other]
    · by_cases isB : i = b
      · rw [isB, put.mem_iff, List.mem_cons]
        simp [other]
      · exact (rest i isA isB).mem_iff
  · intro i
    by_cases isA : i = a
    · have gone := (List.nodup_cons.mp nodupA).1
      rw [isA]
      exact ⟨fun member => absurd member gone, fun here => absurd (Option.some.inj here).symm differs⟩
    · by_cases isB : i = b
      · rw [isB]
        exact ⟨fun _ => rfl, fun _ => put.mem_iff.mpr List.mem_cons_self⟩
      · rw [(rest i isA isB).mem_iff]
        exact ⟨fun member => absurd member (outside i isA),
          fun here => absurd (Option.some.inj here).symm isB⟩

theorem Apart.transfer (apart : Apart sites) (taken : sites' b = sites a) (left : sites' a = [])
    (rest : ∀ i, i ≠ a → i ≠ b → (sites' i).Perm (sites i)) :
    Apart sites' := by
  have origin : ∀ i, ∃ j, (j = i ∨ i = b ∧ j = a) ∧ ∀ y, y ∈ sites' i → y ∈ sites j ∧ i ≠ a := by
    intro i
    by_cases isA : i = a
    · refine ⟨i, Or.inl rfl, fun y member => ?_⟩
      rw [isA, left] at member
      cases member
    · by_cases isB : i = b
      · refine ⟨a, Or.inr ⟨isB, rfl⟩, fun y member => ?_⟩
        rw [isB, taken] at member
        exact ⟨member, isA⟩
      · exact ⟨i, Or.inl rfl, fun y member => ⟨(rest i isA isB).mem_iff.mp member, isA⟩⟩
  refine ⟨?_, ?_⟩
  · intro i
    by_cases isA : i = a
    · rw [isA, left]
      exact List.nodup_nil
    · by_cases isB : i = b
      · rw [isB, taken]
        exact apart.nodup a
      · exact (rest i isA isB).nodup_iff.mpr (apart.nodup i)
  · intro i j y first second
    obtain ⟨k, fromK, memK⟩ := origin i
    obtain ⟨l, fromL, memL⟩ := origin j
    obtain ⟨inK, iNotA⟩ := memK y first
    obtain ⟨inL, jNotA⟩ := memL y second
    have same := apart.unique inK inL
    rcases fromK with rfl | ⟨rfl, rfl⟩
    · rcases fromL with rfl | ⟨rfl, rfl⟩
      · exact same
      · exact absurd same iNotA
    · rcases fromL with rfl | ⟨rfl, -⟩
      · exact absurd same.symm jNotA
      · rfl

theorem Apart.remove (apart : Apart sites) (taken : (sites a).Perm (x :: sites' a))
    (rest : ∀ i, i ≠ a → (sites' i).Perm (sites i)) : Relocates sites sites' x none := by
  have there : x ∈ sites a := taken.mem_iff.mpr List.mem_cons_self
  have nodupA := taken.nodup_iff.mp (apart.nodup a)
  refine ⟨?_, ?_, ?_⟩
  · intro i
    by_cases isA : i = a
    · rw [isA]
      exact (List.nodup_cons.mp nodupA).2
    · exact (rest i isA).nodup_iff.mpr (apart.nodup i)
  · intro i y other
    by_cases isA : i = a
    · rw [isA, taken.mem_iff, List.mem_cons]
      simp [other]
    · exact (rest i isA).mem_iff
  · intro i
    have gone : x ∉ sites' i := by
      by_cases isA : i = a
      · rw [isA]
        exact (List.nodup_cons.mp nodupA).1
      · rw [(rest i isA).mem_iff]
        exact fun member => isA (apart.unique member there)
    exact ⟨fun member => absurd member gone, nofun⟩

theorem Apart.insert (apart : Apart sites) (absent : ∀ i, x ∉ sites i)
    (put : (sites' b).Perm (x :: sites b)) (rest : ∀ i, i ≠ b → (sites' i).Perm (sites i)) :
    Relocates sites sites' x (some b) := by
  refine ⟨?_, ?_, ?_⟩
  · intro i
    by_cases isB : i = b
    · rw [isB]
      exact put.nodup_iff.mpr (List.nodup_cons.mpr ⟨absent b, apart.nodup b⟩)
    · exact (rest i isB).nodup_iff.mpr (apart.nodup i)
  · intro i y other
    by_cases isB : i = b
    · rw [isB, put.mem_iff, List.mem_cons]
      simp [other]
    · exact (rest i isB).mem_iff
  · intro i
    by_cases isB : i = b
    · rw [isB]
      exact ⟨fun _ => rfl, fun _ => put.mem_iff.mpr List.mem_cons_self⟩
    · rw [(rest i isB).mem_iff]
      exact ⟨fun member => absurd member (absent i), fun here => absurd (Option.some.inj here).symm isB⟩

end Sites

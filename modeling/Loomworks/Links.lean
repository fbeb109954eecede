import Mathlib

/- Lists linked through a table of successors. -/
namespace Links

variable {α : Type}

/-- The cells of a list follow each other from first up to, and without, last. -/
def Path (next : α → α) : α → List α → α → Prop
  | first, [], last => first = last
  | first, x :: rest, last => first = x ∧ Path next (next x) rest last

/-- The first cells from a given one on. -/
def follow (next : α → α) : α → Nat → List α
  | _, 0 => []
  | first, n + 1 => first :: follow next (next first) n

/-- The cells up to a marker, at most fuel of them. -/
def walk [DecidableEq α] (next : α → α) (stop : α) : α → Nat → List α
  | _, 0 => []
  | first, fuel + 1 => if first = stop then [] else first :: walk next stop (next first) fuel

variable {next next' : α → α} {first middle last stop x y : α} {l r : List α} {n : Nat}

@[simp] theorem path_nil : Path next first [] last ↔ first = last := Iff.rfl

@[simp] theorem path_cons : Path next first (x :: l) last ↔ first = x ∧ Path next (next x) l last := Iff.rfl

theorem path_append : Path next first (l ++ r) last ↔
    ∃ middle, Path next first l middle ∧ Path next middle r last := by
  induction l generalizing first with
  | nil => simp
  | cons x l ih =>
    rw [List.cons_append, path_cons, ih]
    constructor
    · rintro ⟨rfl, middle, left, right⟩
      exact ⟨middle, ⟨rfl, left⟩, right⟩
    · rintro ⟨middle, ⟨rfl, left⟩, right⟩
      exact ⟨rfl, middle, left, right⟩

theorem Path.congr (path : Path next first l last) (same : ∀ x ∈ l, next' x = next x) :
    Path next' first l last := by
  induction l generalizing first with
  | nil => exact path
  | cons x l ih =>
    obtain ⟨rfl, rest⟩ := path
    refine ⟨rfl, ?_⟩
    rw [same first (List.mem_cons_self ..)]
    exact ih rest fun y member => same y (List.mem_cons_of_mem _ member)

/-- Writing the successor of a cell that is not on the path. -/
theorem Path.update [DecidableEq α] (path : Path next first l last) (off : x ∉ l) (y : α) :
    Path (Function.update next x y) first l last :=
  path.congr fun z member => Function.update_of_ne (fun same => off (by rw [← same]; exact member)) _ _

/-- A path grows by the cell whose successor is written. -/
theorem Path.snoc [DecidableEq α] (path : Path next first l x) (off : x ∉ l) (y : α) :
    Path (Function.update next x y) first (l ++ [x]) y := by
  refine path_append.mpr ⟨x, path.update off y, rfl, ?_⟩
  exact Function.update_self _ _ _

theorem Path.follow (path : Path next first l last) (short : n ≤ l.length) :
    follow next first n = l.take n := by
  induction n generalizing first l with
  | zero => rfl
  | succ n ih =>
    cases l with
    | nil => simp at short
    | cons x l =>
      obtain ⟨rfl, rest⟩ := path
      rw [Links.follow, ih rest (Nat.le_of_succ_le_succ short)]
      rfl

theorem Path.walk [DecidableEq α] (path : Path next first l stop) (inside : stop ∉ l) :
    walk next stop first n = l.take n := by
  induction n generalizing first l with
  | zero => rfl
  | succ n ih =>
    cases l with
    | nil => rw [Links.walk, if_pos (path_nil.mp path), List.take_nil]
    | cons x l =>
      obtain ⟨rfl, rest⟩ := path
      have other : first ≠ stop := fun same => inside (same ▸ List.mem_cons_self ..)
      have tail : stop ∉ l := fun member => inside (List.mem_cons_of_mem _ member)
      rw [Links.walk, if_neg other, ih rest tail, List.take_succ_cons]

/-- Where a path ends is what its last cell leads to. -/
theorem Path.next_getLastD (path : Path next first l last) (nonempty : l ≠ []) (x : α) :
    next (l.getLastD x) = last := by
  induction l generalizing first x with
  | nil => exact absurd rfl nonempty
  | cons y l ih =>
    rw [List.getLastD_cons]
    cases l with
    | nil => exact path.2
    | cons z l => exact ih path.2 (List.cons_ne_nil z l) y

theorem Path.first_eq (path : Path next first l last) (other : Path next middle l last) :
    first = middle := by
  cases l with
  | nil => exact path.trans other.symm
  | cons x l => exact path.1.trans other.1.symm

theorem length_walk_le [DecidableEq α] : (walk next stop first n).length ≤ n := by
  induction n generalizing first with
  | zero => exact Nat.le_refl 0
  | succ n ih =>
    rw [walk]
    split
    · exact Nat.zero_le _
    · exact Nat.succ_le_succ ih

theorem Path.split (path : Path next first l last) (here : l[n]? = some x) :
    Path next first (l.take n) x ∧ Path next (next x) (l.drop (n + 1)) last := by
  obtain ⟨inside, rfl⟩ := List.getElem?_eq_some_iff.mp here
  rw [← List.take_append_drop n l, List.drop_eq_getElem_cons inside] at path
  obtain ⟨middle, before, rfl, after⟩ := path_append.mp path
  exact ⟨before, after⟩

/-- The cell after one of a path: the next of the path, or where it ends. -/
theorem Path.next_eq (path : Path next first l last) (here : l[n]? = some x) :
    l[n + 1]? = some (next x) ∨ next x = last ∧ l.length = n + 1 := by
  have inside := (List.getElem?_eq_some_iff.mp here).1
  have after := (path.split here).2
  by_cases more : n + 1 < l.length
  · rw [List.drop_eq_getElem_cons more] at after
    rw [List.getElem?_eq_getElem more, after.1]
    exact Or.inl rfl
  · rw [List.drop_eq_nil_of_le (by omega)] at after
    exact Or.inr ⟨after, by omega⟩

end Links

import Mathlib

/- A bounded ring of cells with sequence numbers, for several producers and
consumers. A cell that position p may fill has sequence number p; it gets p + 1
when p is published and p + size when p has been taken and released. -/
namespace SeqRing

open Function (update update_of_ne update_self)

variable {α : Type}

structure Ring (α : Type) where
  size : Nat
  head : Nat := 0
  tail : Nat := 0
  seq : Nat → Nat := fun i => i
  slot : Nat → Option α := fun _ => none

/-- What happened at each position: which value it was claimed for, and whether it
has been published and released. -/
structure History (α : Type) where
  claimed : List α := []
  published : Nat → Bool := fun _ => false
  released : Nat → Bool := fun _ => false

namespace Ring

def cell (r : Ring α) (p : Nat) : Nat := p % r.size

def claim (r : Ring α) : Ring α := { r with tail := r.tail + 1 }

def fill (r : Ring α) (p : Nat) (a : α) : Ring α :=
  { r with slot := update r.slot (r.cell p) (some a) }

def publish (r : Ring α) (p : Nat) : Ring α :=
  { r with seq := update r.seq (r.cell p) (p + 1) }

def take (r : Ring α) (n : Nat) : Ring α := { r with head := r.head + n }

def release (r : Ring α) (p : Nat) : Ring α :=
  { r with seq := update r.seq (r.cell p) (p + r.size) }

/-- The values of the published positions from p on, up to n of them. -/
def run (r : Ring α) : Nat → Nat → List α
  | _, 0 => []
  | p, n + 1 =>
    if r.seq (r.cell p) = p + 1 then
      match r.slot (r.cell p) with
      | some a => a :: run r (p + 1) n
      | none => []
    else []

/-- n positions from p on give their cells back. -/
def releaseRun (r : Ring α) (p : Nat) : Nat → Ring α
  | 0 => r
  | n + 1 => (releaseRun r p n).release (p + n)

end Ring

namespace History

def claim (h : History α) (a : α) : History α := { h with claimed := h.claimed ++ [a] }

def publish (h : History α) (p : Nat) : History α :=
  { h with published := update h.published p true }

def release (h : History α) (p : Nat) : History α :=
  { h with released := update h.released p true }

def releaseRun (h : History α) (p : Nat) : Nat → History α
  | 0 => h
  | n + 1 => (releaseRun h p n).release (p + n)

end History

/-- The cell of a position has been given back by the position before it. -/
def Reusable (r : Ring α) (h : History α) (p : Nat) : Prop :=
  p < r.size ∨ h.released (p - r.size) = true

instance (r : Ring α) (h : History α) (p : Nat) : Decidable (Reusable r h p) :=
  inferInstanceAs (Decidable (_ ∨ _))

/-- The sequence number a position finds in its cell. -/
def stamp (r : Ring α) (h : History α) (p : Nat) : Nat :=
  if h.published p then p + 1 else if Reusable r h p then p else p - r.size + 1

structure Valid (r : Ring α) (h : History α) : Prop where
  size : 2 ≤ r.size
  count : h.claimed.length = r.tail
  low : r.head ≤ r.tail
  high : r.tail ≤ r.head + r.size
  taken : ∀ p < r.head, h.published p = true
  written : ∀ p, h.published p = true → p < r.tail
  freed : ∀ p, h.released p = true → p < r.head
  reused : ∀ p < r.tail, Reusable r h p
  seqs : ∀ p, r.head ≤ p → p < r.head + r.size → r.seq (r.cell p) = stamp r h p
  slots : ∀ p, r.head ≤ p → h.published p = true → r.slot (r.cell p) = h.claimed[p]?

theorem eq_of_mod_eq {n low p q : Nat} (first : low ≤ p ∧ p < low + n) (second : low ≤ q ∧ q < low + n)
    (same : p % n = q % n) : p = q := by
  have forth := Nat.sub_mod_eq_zero_of_mod_eq same
  have back := Nat.sub_mod_eq_zero_of_mod_eq same.symm
  rw [Nat.mod_eq_of_lt (by omega)] at forth back
  omega

variable {r : Ring α} {h : History α} {p q : Nat}

theorem valid_empty {size : Nat} (large : 2 ≤ size) : Valid { size : Ring α } ({} : History α) := by
  refine ⟨large, rfl, Nat.le_refl 0, Nat.zero_le _, ?_, ?_, ?_, ?_, ?_, ?_⟩
  · intro p before
    exact absurd before (Nat.not_lt_zero p)
  · intro p published
    cases published
  · intro p released
    cases released
  · intro p before
    exact absurd before (Nat.not_lt_zero p)
  · intro p _ inside
    have inside : p < 0 + size := inside
    have below : p < size := by omega
    have fresh : Reusable { size : Ring α } {} p := Or.inl below
    show p % size = stamp _ _ p
    rw [stamp, if_neg Bool.false_ne_true, if_pos fresh, Nat.mod_eq_of_lt below]
  · intro p _ published
    cases published

namespace Valid

theorem claimed_inside (valid : Valid r h) (here : p < r.tail) (waiting : h.published p = false) :
    r.head ≤ p ∧ p < r.head + r.size := by
  have high := valid.high
  refine ⟨?_, by omega⟩
  by_contra before
  have published := valid.taken p (by omega)
  rw [waiting] at published
  cases published

theorem cell_ne (first : r.head ≤ p ∧ p < r.head + r.size) (second : r.head ≤ q ∧ q < r.head + r.size)
    (differs : p ≠ q) : r.cell p ≠ r.cell q :=
  fun same => differs (eq_of_mod_eq first second same)

/-- A producer that reads its own position as sequence number may claim it. -/
theorem free_of_seq (valid : Valid r h) (read : r.seq (r.cell r.tail) = r.tail) :
    r.tail < r.head + r.size ∧ Reusable r h r.tail := by
  have size := valid.size
  have low := valid.low
  have high := valid.high
  have inside : r.tail < r.head + r.size := by
    by_contra full
    -- in a full ring the cell is that of the head
    have wrap : r.tail = r.head + r.size := by omega
    have same : r.cell r.tail = r.cell r.head := by
      rw [wrap]
      exact Nat.add_mod_right r.head r.size
    have stamped := valid.seqs r.head (Nat.le_refl _) (by omega)
    rw [← same, read, stamp] at stamped
    split at stamped
    · omega
    · split at stamped
      · omega
      · omega
  refine ⟨inside, ?_⟩
  have stamped := valid.seqs r.tail low inside
  rw [read, stamp] at stamped
  split at stamped
  · omega
  · by_contra taken
    rw [if_neg taken] at stamped
    have large : r.size ≤ r.tail := by
      by_contra small
      exact taken (Or.inl (by omega))
    omega

/-- A consumer that reads a position's published number finds it published. -/
theorem published_of_seq (valid : Valid r h) (later : r.head ≤ p) (read : r.seq (r.cell p) = p + 1) :
    h.published p = true := by
  have size := valid.size
  -- the position of the current round that shares the cell
  let q := r.head + (p - r.head) % r.size
  have short : (p - r.head) % r.size < r.size := Nat.mod_lt _ (by omega)
  have inside : r.head ≤ q ∧ q < r.head + r.size := by omega
  have same : r.cell q = r.cell p := by
    show (r.head + (p - r.head) % r.size) % r.size = p % r.size
    rw [Nat.add_mod_mod, Nat.add_sub_cancel' later]
  have below : q ≤ p := by
    have shorter := Nat.mod_le (p - r.head) r.size
    omega
  have stamped := valid.seqs q inside.1 inside.2
  rw [same, read, stamp] at stamped
  split at stamped
  · rename_i published
    rw [show p = q by omega]
    exact published
  · split at stamped
    · omega
    · rename_i taken
      have large : r.size ≤ q := by
        by_contra small
        exact taken (Or.inl (by omega))
      omega

theorem claim (valid : Valid r h) (room : r.tail < r.head + r.size) (reusable : Reusable r h r.tail)
    (a : α) : Valid r.claim (h.claim a) := by
  have low := valid.low
  refine ⟨valid.size, ?_, ?_, ?_, valid.taken, ?_, valid.freed, ?_, valid.seqs, ?_⟩
  · show (h.claimed ++ [a]).length = r.tail + 1
    rw [List.length_append, valid.count, List.length_singleton]
  · exact Nat.le_succ_of_le low
  · exact room
  · intro p published
    exact Nat.lt_succ_of_lt (valid.written p published)
  · intro p before
    have before : p < r.tail + 1 := before
    by_cases last : p = r.tail
    · rw [last]
      exact reusable
    · exact valid.reused p (by omega)
  · intro p later published
    have before := valid.written p published
    show r.slot (r.cell p) = (h.claimed ++ [a])[p]?
    rw [List.getElem?_append_left (by rw [valid.count]; exact before)]
    exact valid.slots p later published

/-- A claimed position is written before it is published. -/
theorem fill (valid : Valid r h) (here : p < r.tail) (waiting : h.published p = false) (a : α) :
    Valid (r.fill p a) h := by
  refine ⟨valid.size, valid.count, valid.low, valid.high, valid.taken, valid.written, valid.freed,
    valid.reused, valid.seqs, ?_⟩
  intro q later published
  have differs : q ≠ p := by
    intro same
    rw [same, waiting] at published
    cases published
  have before := valid.written q published
  have high := valid.high
  have later : r.head ≤ q := later
  have apart : r.cell q ≠ r.cell p :=
    cell_ne ⟨later, by omega⟩ (valid.claimed_inside here waiting) differs
  show update r.slot (r.cell p) (some a) (r.cell q) = _
  rw [update_of_ne apart]
  exact valid.slots q later published

theorem publish (valid : Valid r h) (here : p < r.tail) (waiting : h.published p = false)
    (written : r.slot (r.cell p) = h.claimed[p]?) : Valid (r.publish p) (h.publish p) := by
  have inside := valid.claimed_inside here waiting
  refine ⟨valid.size, valid.count, valid.low, valid.high, ?_, ?_, valid.freed, valid.reused, ?_, ?_⟩
  · intro q before
    show update h.published p true q = true
    by_cases same : q = p
    · rw [same, update_self]
    · rw [update_of_ne same]
      exact valid.taken q before
  · intro q published
    by_cases same : q = p
    · rw [same]
      exact here
    · have published : update h.published p true q = true := published
      rw [update_of_ne same] at published
      exact valid.written q published
  · intro q later early
    show update r.seq (r.cell p) (p + 1) (r.cell q) = stamp (r.publish p) (h.publish p) q
    by_cases same : q = p
    · rw [same, update_self, stamp, if_pos]
      exact update_self p true h.published
    · have apart : r.cell q ≠ r.cell p := cell_ne ⟨later, early⟩ inside same
      rw [update_of_ne apart, valid.seqs q later early]
      have kept : (h.publish p).published q = h.published q := update_of_ne same _ _
      unfold stamp
      rw [kept]
      rfl
  · intro q later published
    by_cases same : q = p
    · rw [same]
      exact written
    · have published : update h.published p true q = true := published
      rw [update_of_ne same] at published
      exact valid.slots q later published

/-- The oldest positions, all of them published, are taken at once. -/
theorem take (valid : Valid r h) {n : Nat} (ready : ∀ j < n, h.published (r.head + j) = true) :
    Valid (r.take n) h := by
  have high := valid.high
  have bound : r.head + n ≤ r.tail := by
    cases n with
    | zero => exact valid.low
    | succ n =>
      have last := valid.written _ (ready n (Nat.lt_succ_self n))
      omega
  refine ⟨valid.size, valid.count, bound, ?_, ?_, valid.written, ?_, valid.reused, ?_, ?_⟩
  · show r.tail ≤ r.head + n + r.size
    omega
  · intro p before
    have before : p < r.head + n := before
    by_cases old : p < r.head
    · exact valid.taken p old
    · have new := ready (p - r.head) (by omega)
      rwa [Nat.add_sub_cancel' (by omega)] at new
  · intro p released
    have before := valid.freed p released
    show p < r.head + n
    omega
  · intro p later early
    have later : r.head + n ≤ p := later
    have early : p < r.head + n + r.size := early
    by_cases current : p < r.head + r.size
    · exact valid.seqs p (by omega) current
    · -- the cell still carries the number of the position just taken
      have older : h.published (p - r.size) = true := by
        have new := ready (p - r.size - r.head) (by omega)
        rwa [Nat.add_sub_cancel' (by omega)] at new
      have unwritten : ¬h.published p = true := by
        intro published
        have before := valid.written p published
        omega
      have unreleased : ¬Reusable r h p := by
        intro reusable
        rcases reusable with small | released
        · omega
        · have before := valid.freed _ released
          omega
      have stamped := valid.seqs (p - r.size) (by omega) (by omega)
      have same : r.cell (p - r.size) = r.cell p := (Nat.mod_eq_sub_mod (by omega)).symm
      rw [same, stamp, if_pos older] at stamped
      show r.seq (r.cell p) = stamp r h p
      rw [stamped, stamp, if_neg unwritten, if_neg unreleased]
  · intro p later published
    have later : r.head + n ≤ p := later
    exact valid.slots p (by omega) published

theorem release (valid : Valid r h) (before : p < r.head) (held : h.released p = false) :
    Valid (r.release p) (h.release p) := by
  have size := valid.size
  have low := valid.low
  have high := valid.high
  -- the next position of this cell cannot have been claimed yet
  have late : r.tail ≤ p + r.size := by
    by_contra claimed
    rcases valid.reused (p + r.size) (by omega) with small | released
    · omega
    · rw [Nat.add_sub_cancel, held] at released
      cases released
  have same : r.cell (p + r.size) = r.cell p := Nat.add_mod_right p r.size
  refine ⟨size, valid.count, low, high, valid.taken, valid.written, ?_, ?_, ?_, valid.slots⟩
  · intro q released
    by_cases here : q = p
    · rw [here]
      exact before
    · have released : update h.released p true q = true := released
      rw [update_of_ne here] at released
      exact valid.freed q released
  · intro q claimed
    refine (valid.reused q claimed).imp (fun small => small) fun released => ?_
    show update h.released p true (q - r.size) = true
    by_cases here : q - r.size = p
    · rw [here, update_self]
    · rw [update_of_ne here]
      exact released
  · intro q later early
    show update r.seq (r.cell p) (p + r.size) (r.cell q) =
      stamp (r.release p) (h.release p) q
    by_cases here : q = p + r.size
    · have unwritten : ¬(h.release p).published q = true := by
        intro published
        have claimed := valid.written q published
        omega
      have given : Reusable (r.release p) (h.release p) q := by
        right
        show update h.released p true (q - r.size) = true
        rw [here, Nat.add_sub_cancel, update_self]
      rw [stamp, if_neg unwritten, if_pos given, here, same, update_self]
    · have later : r.head ≤ q := later
      have apart : r.cell q ≠ r.cell p := by
        rw [← same]
        exact cell_ne ⟨later, early⟩ ⟨by omega, by omega⟩ here
      have kept : Reusable (r.release p) (h.release p) q ↔ Reusable r h q := by
        show q < r.size ∨ update h.released p true (q - r.size) = true ↔ _
        by_cases small : q < r.size
        · exact ⟨fun _ => Or.inl small, fun _ => Or.inl small⟩
        · rw [update_of_ne (by omega)]
          exact Iff.rfl
      rw [update_of_ne apart, valid.seqs q later early]
      unfold stamp
      simp only [kept]
      rfl

/-- A published position that was not taken shows its number. -/
theorem seq_of_published (valid : Valid r h) (later : r.head ≤ p) (published : h.published p = true) :
    r.seq (r.cell p) = p + 1 := by
  have high := valid.high
  have before := valid.written p published
  rw [valid.seqs p later (by omega), stamp, if_pos published]

/-- A run ends at the first position that is not published. -/
theorem run_eq (valid : Valid r h) (n : Nat) (later : r.head ≤ p) :
    ∃ k ≤ n, r.run p n = (h.claimed.drop p).take k ∧ (∀ j < k, h.published (p + j) = true) ∧
      (k < n → h.published (p + k) = false) := by
  induction n generalizing p with
  | zero =>
    refine ⟨0, Nat.le_refl 0, rfl, ?_, ?_⟩
    · intro j below
      omega
    · intro below
      omega
  | succ n ih =>
    cases published : h.published p with
    | false =>
      have other : ¬r.seq (r.cell p) = p + 1 := by
        intro read
        rw [valid.published_of_seq later read] at published
        cases published
      refine ⟨0, Nat.zero_le _, ?_, ?_, fun _ => published⟩
      · rw [Ring.run, if_neg other]
        rfl
      · intro j below
        omega
    | true =>
      obtain ⟨k, bound, shape, front, stop⟩ := ih (Nat.le_succ_of_le later)
      have before : p < h.claimed.length := by
        rw [valid.count]
        exact valid.written p published
      have slot := valid.slots p later published
      rw [List.getElem?_eq_getElem before] at slot
      refine ⟨k + 1, Nat.succ_le_succ bound, ?_, ?_, ?_⟩
      · rw [Ring.run, if_pos (valid.seq_of_published later published), slot,
          List.drop_eq_getElem_cons before, List.take_succ_cons, shape]
      · intro j below
        cases j with
        | zero => exact published
        | succ j =>
          have next := front j (by omega)
          rwa [show p + 1 + j = p + (j + 1) by omega] at next
      · intro below
        have next := stop (by omega)
        rwa [show p + 1 + k = p + (k + 1) by omega] at next

theorem releaseRun (valid : Valid r h) (n : Nat) (taken : p + n ≤ r.head)
    (held : ∀ q, p ≤ q → q < p + n → h.released q = false) :
    Valid (r.releaseRun p n) (h.releaseRun p n) ∧ (r.releaseRun p n).head = r.head ∧
      ∀ q, (h.releaseRun p n).released q = true ↔ h.released q = true ∨ p ≤ q ∧ q < p + n := by
  induction n with
  | zero =>
    refine ⟨valid, rfl, ?_⟩
    intro q
    constructor
    · exact Or.inl
    · rintro (released | inside)
      · exact released
      · omega
  | succ n ih =>
    obtain ⟨before, head, released⟩ := ih (by omega) fun q low high => held q low (by omega)
    have fresh : (h.releaseRun p n).released (p + n) = false := by
      apply eq_false_of_ne_true
      intro again
      rcases (released (p + n)).mp again with old | inside
      · rw [held (p + n) (by omega) (by omega)] at old
        cases old
      · omega
    refine ⟨before.release (by rw [head]; omega) fresh, head, ?_⟩
    intro q
    show update (h.releaseRun p n).released (p + n) true q = true ↔ _
    by_cases last : q = p + n
    · rw [last, update_self]
      exact iff_of_true rfl (Or.inr (by omega))
    · rw [update_of_ne last, released q]
      constructor
      · rintro (old | inside)
        · exact Or.inl old
        · exact Or.inr (by omega)
      · rintro (old | inside)
        · exact Or.inl old
        · exact Or.inr (by omega)

end Valid

namespace Ring

theorem tail_releaseRun (r : Ring α) (p n : Nat) : (r.releaseRun p n).tail = r.tail := by
  induction n with
  | zero => rfl
  | succ n ih => exact ih

theorem size_releaseRun (r : Ring α) (p n : Nat) : (r.releaseRun p n).size = r.size := by
  induction n with
  | zero => rfl
  | succ n ih => exact ih

theorem slot_releaseRun (r : Ring α) (p n : Nat) : (r.releaseRun p n).slot = r.slot := by
  induction n with
  | zero => rfl
  | succ n ih => exact ih

end Ring

namespace History

theorem claimed_releaseRun (h : History α) (p n : Nat) : (h.releaseRun p n).claimed = h.claimed := by
  induction n with
  | zero => rfl
  | succ n ih => exact ih

theorem published_releaseRun (h : History α) (p n : Nat) :
    (h.releaseRun p n).published = h.published := by
  induction n with
  | zero => rfl
  | succ n ih => exact ih

end History

end SeqRing

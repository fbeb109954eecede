import Loomworks.Coroutine
import Loomworks.Tally

/- The stacks of coroutines: the pool of mappings kept for reuse and the budget
(allocate_stack, deallocate_stack, loom_coro_create and loom_coro_destroy of
src/coroutine.c). Each call is one step. psl is what sysconf(_SC_PAGESIZE)
returns; mapped lists what the kernel has mapped, base and length. -/
namespace Loomworks.Coro.Stacks

open Tally Transition

def stackPoolCap : Nat := 64

/-- LOOMWORKS_CORO_MAX_TOTAL_STACK_BYTES. -/
def maxTotalStackBytes : Nat := 256 * 1024 * 1024

def defaultStackSize : Nat := 64 * 1024

/-- The largest size loom_coro_create takes. -/
def stackSizeCap : Nat := 256 * 1024 * 1024

/-- The four fields that describe a mapping in a coroutine and in a pool node. -/
structure Stack where
  mmapBase : Nat
  mmapSize : Nat
  stackStart : Nat
  stackEnd : Nat
  deriving DecidableEq, Repr

/-- coro_stack_node_t; stackSize is the size asked for. -/
structure StackNode where
  stackSize : Nat
  stack : Stack
  deriving DecidableEq, Repr

/-- A live coroutine: its address, the size asked for and its mapping. -/
structure Holder where
  address : Nat
  stackSize : Nat
  stack : Stack
  deriving DecidableEq, Repr

structure State where
  pool : List StackNode := []
  poolCount : Int := 0
  totalStackMapped : Int := 0
  live : List Holder := []
  mapped : List (Nat × Nat) := []

def Stack.mapping (stack : Stack) : Nat × Nat := (stack.mmapBase, stack.mmapSize)

/-- The first element with a property, and the list without it. -/
def unlink {α : Type} (wanted : α → Bool) : List α → Option (α × List α)
  | [] => none
  | a :: rest =>
    if wanted a then some (a, rest) else (unlink wanted rest).map fun (b, left) => (b, a :: left)

/-- if (psl <= 0) psl = 4096. -/
def pageSize (psl : Int) : Nat := if psl ≤ 0 then 4096 else psl.toNat

/-- LOOMWORKS_CORO_GUARD_PAGES_EACH * 2. -/
def guardNb : Nat := 1 * 2

def usablePg (ps stackSize : Nat) : Nat := (stackSize + ps - 1) / ps

def totalSz (ps stackSize : Nat) : Nat := (guardNb + usablePg ps stackSize) * ps

/-- What mmap, mprotect and calloc do in a loom_coro_create. -/
structure CreateEnv where
  memory : Option Nat
  mmap : Option Nat := none
  mprotectOk : Bool := true
  deriving DecidableEq, Repr

/-- allocate_stack; the coroutine's fields are returned. -/
def allocateStack (psl : Int) (s : State) (stackSize : Nat) (env : CreateEnv) :
    State × CoroResult × Option Stack :=
  match unlink (fun node => node.stackSize == stackSize) s.pool with
  | some (node, rest) =>
    -- the budget is charged, the limit is not looked at
    ({ s with pool := rest, poolCount := s.poolCount - 1,
              totalStackMapped := s.totalStackMapped + node.stack.mmapSize }, .ok, some node.stack)
  | none =>
    let ps := pageSize psl
    let total := totalSz ps stackSize
    if s.totalStackMapped + total > maxTotalStackBytes then (s, .errAlloc, none)
    else match env.mmap with
      | none => (s, .errAlloc, none)
      | some base =>
        let start := base + guardNb * ps
        let stack : Stack := ⟨base, total, start, start + usablePg ps stackSize * ps⟩
        let charged := { s with mapped := (base, total) :: s.mapped,
                                totalStackMapped := s.totalStackMapped + total }
        if env.mprotectOk then (charged, .ok, some stack)
        else ({ charged with mapped := charged.mapped.erase (base, total),
                             totalStackMapped := charged.totalStackMapped - total },
              .errMprotect, none)

/-- deallocate_stack of a coroutine that has a mapping. -/
def deallocateStack (s : State) (stackSize : Nat) (stack : Stack) (mallocOk : Bool) : State :=
  if s.poolCount < stackPoolCap ∧ mallocOk then
    { s with pool := ⟨stackSize, stack⟩ :: s.pool, poolCount := s.poolCount + 1,
             totalStackMapped := s.totalStackMapped - stack.mmapSize }
  else
    { s with totalStackMapped := s.totalStackMapped - stack.mmapSize,
             mapped := s.mapped.erase stack.mapping }

/-- The size loom_coro_create asks allocate_stack for. -/
def requested (stackSize : Nat) : Nat := if stackSize > 0 then stackSize else defaultStackSize

/-- loom_coro_create; the flag says that fn and coro are not NULL. -/
def loomCoroCreate (psl : Int) (s : State) (valid : Bool) (stackSize : Nat) (env : CreateEnv) :
    State × CoroResult :=
  if valid = false then (s, .errInvalid)
  else match env.memory with
    | none => (s, .errAlloc)
    | some address =>
      if requested stackSize > stackSizeCap then (s, .errInvalid)
      else match allocateStack psl s (requested stackSize) env with
        | (next, _, some stack) =>
          ({ next with live := ⟨address, requested stackSize, stack⟩ :: next.live }, .ok)
        | (next, rc, none) => (next, rc)

/-- loom_coro_destroy of a live coroutine in this state. -/
def loomCoroDestroy (s : State) (address : Nat) (state : CoroState) (mallocOk : Bool) :
    State × CoroResult :=
  if state = .running ∨ state = .suspended ∨ state = .sleeping then (s, .errInvalid)
  else match unlink (fun c => c.address == address) s.live with
    | none => (s, .errInvalid)
    | some (c, rest) =>
      (deallocateStack { s with live := rest } c.stackSize c.stack mallocOk, .ok)

inductive Label where
  | create (valid : Bool) (stackSize : Nat) (env : CreateEnv)
  | destroy (address : Nat) (state : CoroState) (mallocOk : Bool)
  deriving DecidableEq, Repr

/-- calloc and mmap return addresses that are not in use. -/
def fresh (s : State) (env : CreateEnv) : Bool :=
  env.memory.all (fun address => s.live.all fun c => c.address != address) &&
    env.mmap.all fun base => s.mapped.all fun m => m.1 != base

def step (psl : Int) (s : State) : Label → Option State
  | .create valid stackSize env =>
    if fresh s env then some (loomCoroCreate psl s valid stackSize env).1 else none
  | .destroy address state mallocOk => some (loomCoroDestroy s address state mallocOk).1

def start : State := {}

/-- The mapping a stack of this size gets. -/
structure Fits (psl : Int) (stackSize : Nat) (stack : Stack) : Prop where
  mmapSize : stack.mmapSize = totalSz (pageSize psl) stackSize
  start : stack.stackStart = stack.mmapBase + guardNb * pageSize psl
  stop : stack.stackEnd = stack.stackStart + usablePg (pageSize psl) stackSize * pageSize psl

/-- The mappings held by coroutines and by pool nodes. -/
def holdings (s : State) : List (Nat × Nat) :=
  s.live.map (·.stack.mapping) ++ s.pool.map (·.stack.mapping)

/-- What holds whatever the budget is. -/
structure Books (psl : Int) (s : State) : Prop where
  held : s.mapped.Perm (holdings s)
  distinct : (s.mapped.map Prod.fst).Nodup
  count : s.poolCount = s.pool.length
  room : s.pool.length ≤ stackPoolCap
  liveFit : ∀ c ∈ s.live, Fits psl c.stackSize c.stack
  poolFit : ∀ node ∈ s.pool, Fits psl node.stackSize node.stack
  total : s.totalStackMapped = tally (·.stack.mmapSize) s.live

/-- The books are right and the budget is kept. -/
structure InBudget (psl : Int) (s : State) : Prop where
  books : Books psl s
  limit : s.totalStackMapped ≤ maxTotalStackBytes

/-- A coroutine that gets its stack from the pool leaves the total within the limit. -/
def ReuseInBudget (s : State) : Label → Prop
  | .create valid stackSize env =>
    fresh s env = true → valid = true → env.memory.isSome → requested stackSize ≤ stackSizeCap →
    ∀ node rest, unlink (fun node => node.stackSize == requested stackSize) s.pool = some (node, rest) →
      s.totalStackMapped + node.stack.mmapSize ≤ maxTotalStackBytes
  | .destroy _ _ _ => True

variable {psl : Int} {s s' : State} {label : Label}

section Unlink

variable {α : Type} {wanted : α → Bool} {l rest : List α} {a : α}

theorem unlink_wanted (found : unlink wanted l = some (a, rest)) : wanted a = true := by
  induction l generalizing rest with
  | nil => cases found
  | cons b l ih =>
    rw [unlink] at found
    split at found
    · cases found
      assumption
    · obtain ⟨⟨c, left⟩, tail, same⟩ := Option.map_eq_some_iff.mp found
      cases same
      exact ih tail

theorem unlink_perm (found : unlink wanted l = some (a, rest)) : l.Perm (a :: rest) := by
  induction l generalizing rest with
  | nil => cases found
  | cons b l ih =>
    rw [unlink] at found
    split at found
    · cases found
      rfl
    · obtain ⟨⟨c, left⟩, tail, same⟩ := Option.map_eq_some_iff.mp found
      cases same
      exact ((ih tail).cons b).trans (List.Perm.swap ..)

end Unlink

theorem tally_perm {α : Type} (weight : α → Nat) {l r : List α} (same : l.Perm r) :
    tally weight l = tally weight r := (same.map weight).sum_eq

theorem books_start : Books psl start where
  held := List.Perm.refl []
  distinct := List.nodup_nil
  count := rfl
  room := Nat.zero_le _
  liveFit := fun _ none => absurd none List.not_mem_nil
  poolFit := fun _ none => absurd none List.not_mem_nil
  total := rfl

/-- A node changes hands: out of the pool, into a coroutine. -/
theorem Books.reuse (books : Books psl s) {address stackSize : Nat} {node : StackNode}
    {rest : List StackNode}
    (found : unlink (fun node => node.stackSize == stackSize) s.pool = some (node, rest)) :
    Books psl { s with pool := rest, poolCount := s.poolCount - 1,
                       totalStackMapped := s.totalStackMapped + node.stack.mmapSize,
                       live := ⟨address, stackSize, node.stack⟩ :: s.live } := by
  have perm := unlink_perm found
  have wanted := unlink_wanted found
  have size : node.stackSize = stackSize := beq_iff_eq.mp wanted
  have length := perm.length_eq
  have count := books.count
  have room := books.room
  have total := books.total
  simp only [List.length_cons] at length
  constructor
  · apply books.held.trans
    apply ((perm.map (·.stack.mapping)).append_left _).trans
    exact List.perm_middle
  · exact books.distinct
  · show s.poolCount - 1 = rest.length
    omega
  · show rest.length ≤ stackPoolCap
    omega
  · intro c member
    rcases List.mem_cons.mp member with rfl | old
    · have fits := books.poolFit node (perm.mem_iff.mpr List.mem_cons_self)
      rw [size] at fits
      exact fits
    · exact books.liveFit c old
  · intro other member
    exact books.poolFit other (perm.mem_iff.mpr (List.mem_cons_of_mem _ member))
  · show s.totalStackMapped + node.stack.mmapSize =
      ((node.stack.mmapSize + tally (·.stack.mmapSize) s.live : Nat) : Int)
    push_cast
    omega

theorem Books.map (books : Books psl s) {address stackSize base : Nat}
    (unused : ∀ m ∈ s.mapped, m.1 ≠ base) :
    Books psl { s with
      mapped := (base, totalSz (pageSize psl) stackSize) :: s.mapped
      totalStackMapped := s.totalStackMapped + totalSz (pageSize psl) stackSize
      live := ⟨address, stackSize, ⟨base, totalSz (pageSize psl) stackSize,
        base + guardNb * pageSize psl,
        base + guardNb * pageSize psl + usablePg (pageSize psl) stackSize * pageSize psl⟩⟩ :: s.live } := by
  have total := books.total
  constructor
  · exact books.held.cons _
  · apply List.nodup_cons.mpr
    refine ⟨?_, books.distinct⟩
    intro member
    obtain ⟨m, inside, same⟩ := List.mem_map.mp member
    exact unused m inside same
  · exact books.count
  · exact books.room
  · intro c member
    rcases List.mem_cons.mp member with rfl | old
    · exact ⟨rfl, rfl, rfl⟩
    · exact books.liveFit c old
  · exact books.poolFit
  · show s.totalStackMapped + totalSz (pageSize psl) stackSize =
      ((totalSz (pageSize psl) stackSize + tally (·.stack.mmapSize) s.live : Nat) : Int)
    push_cast
    omega

/-- mprotect failed: the mapping and the charge are undone. -/
theorem mprotect_undone (m : Nat × Nat) (total : Int) :
    { s with mapped := (m :: s.mapped).erase m,
             totalStackMapped := s.totalStackMapped + total - total } = s := by
  rw [List.erase_cons_head, Int.add_sub_cancel]

theorem Books.put (books : Books psl s) {c : Holder} {rest : List Holder}
    (perm : s.live.Perm (c :: rest)) (space : s.poolCount < stackPoolCap) :
    Books psl { s with live := rest, pool := ⟨c.stackSize, c.stack⟩ :: s.pool,
                       poolCount := s.poolCount + 1,
                       totalStackMapped := s.totalStackMapped - c.stack.mmapSize } := by
  have count := books.count
  have total := books.total
  have split := tally_perm (fun c : Holder => c.stack.mmapSize) perm
  rw [tally_cons] at split
  constructor
  · apply books.held.trans
    apply ((perm.map (·.stack.mapping)).append_right _).trans
    exact List.perm_middle.symm
  · exact books.distinct
  · show s.poolCount + 1 = ((s.pool.length + 1 : Nat) : Int)
    omega
  · show s.pool.length + 1 ≤ stackPoolCap
    omega
  · intro other member
    exact books.liveFit other (perm.mem_iff.mpr (List.mem_cons_of_mem _ member))
  · intro node member
    rcases List.mem_cons.mp member with rfl | old
    · exact books.liveFit c (perm.mem_iff.mpr List.mem_cons_self)
    · exact books.poolFit node old
  · show s.totalStackMapped - c.stack.mmapSize = tally (·.stack.mmapSize) rest
    omega

theorem Books.unmap (books : Books psl s) {c : Holder} {rest : List Holder}
    (perm : s.live.Perm (c :: rest)) :
    Books psl { s with live := rest, mapped := s.mapped.erase c.stack.mapping,
                       totalStackMapped := s.totalStackMapped - c.stack.mmapSize } := by
  have total := books.total
  have split := tally_perm (fun c : Holder => c.stack.mmapSize) perm
  rw [tally_cons] at split
  constructor
  · have before : s.mapped.Perm (c.stack.mapping ::
        (rest.map (·.stack.mapping) ++ s.pool.map (·.stack.mapping))) :=
      books.held.trans ((perm.map (·.stack.mapping)).append_right _)
    have after := before.erase c.stack.mapping
    rw [List.erase_cons_head] at after
    exact after
  · exact books.distinct.sublist (List.erase_sublist.map _)
  · exact books.count
  · exact books.room
  · intro other member
    exact books.liveFit other (perm.mem_iff.mpr (List.mem_cons_of_mem _ member))
  · exact books.poolFit
  · show s.totalStackMapped - c.stack.mmapSize = tally (·.stack.mmapSize) rest
    omega

/-- What a create does: nothing, a stack from the pool, or a fresh mapping in the budget. -/
theorem create_cases (psl : Int) (s : State) (valid : Bool) (stackSize : Nat) (env : CreateEnv) :
    (loomCoroCreate psl s valid stackSize env).1 = s ∨
    (∃ address node rest, valid = true ∧ env.memory = some address ∧
      requested stackSize ≤ stackSizeCap ∧
      unlink (fun node => node.stackSize == requested stackSize) s.pool = some (node, rest) ∧
      (loomCoroCreate psl s valid stackSize env).1 =
        { s with pool := rest, poolCount := s.poolCount - 1,
                 totalStackMapped := s.totalStackMapped + node.stack.mmapSize,
                 live := ⟨address, requested stackSize, node.stack⟩ :: s.live }) ∨
    (∃ address base, env.mmap = some base ∧
      s.totalStackMapped + totalSz (pageSize psl) (requested stackSize) ≤ maxTotalStackBytes ∧
      (loomCoroCreate psl s valid stackSize env).1 =
        { s with
          mapped := (base, totalSz (pageSize psl) (requested stackSize)) :: s.mapped
          totalStackMapped := s.totalStackMapped + totalSz (pageSize psl) (requested stackSize)
          live := ⟨address, requested stackSize, ⟨base, totalSz (pageSize psl) (requested stackSize),
            base + guardNb * pageSize psl, base + guardNb * pageSize psl +
              usablePg (pageSize psl) (requested stackSize) * pageSize psl⟩⟩ :: s.live }) := by
  unfold loomCoroCreate
  cases valid with
  | false => exact Or.inl rfl
  | true =>
    cases memory : env.memory with
    | none => exact Or.inl rfl
    | some address =>
      by_cases large : requested stackSize > stackSizeCap
      · simp only [large, ↓reduceIte]
        exact Or.inl rfl
      · simp only [Bool.true_eq_false, large, ↓reduceIte]
        unfold allocateStack
        cases found : unlink (fun node => node.stackSize == requested stackSize) s.pool with
        | some hit =>
          obtain ⟨node, rest⟩ := hit
          exact Or.inr (Or.inl ⟨address, node, rest, trivial, rfl, by omega, rfl, rfl⟩)
        | none =>
          by_cases spent : s.totalStackMapped + totalSz (pageSize psl) (requested stackSize) >
              maxTotalStackBytes
          · simp only [spent, ↓reduceIte]
            exact Or.inl trivial
          · simp only [spent, ↓reduceIte]
            cases mapped : env.mmap with
            | none => exact Or.inl rfl
            | some base =>
              cases protected' : env.mprotectOk with
              | true => exact Or.inr (Or.inr ⟨address, base, rfl, by omega, rfl⟩)
              | false => exact Or.inl (mprotect_undone _ _)

/-- What a destroy does: nothing, or the stack goes to the pool or to the kernel. -/
theorem destroy_cases (s : State) (address : Nat) (state : CoroState) (mallocOk : Bool) :
    (loomCoroDestroy s address state mallocOk).1 = s ∨
    ∃ c rest, s.live.Perm (c :: rest) ∧
      ((s.poolCount < stackPoolCap ∧ (loomCoroDestroy s address state mallocOk).1 =
        { s with live := rest, pool := ⟨c.stackSize, c.stack⟩ :: s.pool, poolCount := s.poolCount + 1,
                 totalStackMapped := s.totalStackMapped - c.stack.mmapSize }) ∨
      (loomCoroDestroy s address state mallocOk).1 =
        { s with live := rest, mapped := s.mapped.erase c.stack.mapping,
                 totalStackMapped := s.totalStackMapped - c.stack.mmapSize }) := by
  unfold loomCoroDestroy
  by_cases busy : state = .running ∨ state = .suspended ∨ state = .sleeping
  · rw [if_pos busy]
    exact Or.inl rfl
  · rw [if_neg busy]
    cases found : unlink (fun c => c.address == address) s.live with
    | none => exact Or.inl rfl
    | some hit =>
      obtain ⟨c, rest⟩ := hit
      refine Or.inr ⟨c, rest, unlink_perm found, ?_⟩
      by_cases space : s.poolCount < stackPoolCap ∧ mallocOk = true
      · exact Or.inl ⟨space.1, if_pos space⟩
      · exact Or.inr (if_neg space)

theorem fresh_mmap {env : CreateEnv} {base : Nat} (isFresh : fresh s env = true)
    (mapped : env.mmap = some base) : ∀ m ∈ s.mapped, m.1 ≠ base := by
  simp only [fresh, mapped, Option.all_some, Bool.and_eq_true, List.all_eq_true, bne_iff_ne] at isFresh
  exact isFresh.2

theorem books_step (books : Books psl s) (taken : step psl s label = some s') : Books psl s' := by
  cases label with
  | create valid stackSize env =>
    simp only [step, Option.ite_none_right_eq_some] at taken
    obtain ⟨isFresh, same⟩ := taken
    cases same
    rcases create_cases psl s valid stackSize env
      with same | ⟨address, node, rest, -, -, -, found, same⟩ | ⟨address, base, mapped, -, same⟩
    · rw [same]
      exact books
    · rw [same]
      exact books.reuse found
    · rw [same]
      exact books.map (fresh_mmap isFresh mapped)
  | destroy address state mallocOk =>
    cases taken
    rcases destroy_cases s address state mallocOk
      with same | ⟨c, rest, perm, ⟨space, same⟩ | same⟩
    · rw [same]
      exact books
    · rw [same]
      exact books.put perm space
    · rw [same]
      exact books.unmap perm

/-- Only a stack from the pool can take the total over the limit. -/
theorem limit_step (limit : s.totalStackMapped ≤ maxTotalStackBytes) (reuse : ReuseInBudget s label)
    (taken : step psl s label = some s') : s'.totalStackMapped ≤ maxTotalStackBytes := by
  cases label with
  | create valid stackSize env =>
    simp only [step, Option.ite_none_right_eq_some] at taken
    obtain ⟨isFresh, same⟩ := taken
    cases same
    rcases create_cases psl s valid stackSize env
      with same | ⟨address, node, rest, given, memory, small, found, same⟩ |
        ⟨address, base, -, within, same⟩
    · rw [same]
      exact limit
    · rw [same]
      exact reuse isFresh given (by rw [memory]; rfl) small node rest found
    · rw [same]
      exact within
  | destroy address state mallocOk =>
    cases taken
    rcases destroy_cases s address state mallocOk
      with same | ⟨c, rest, -, ⟨-, same⟩ | same⟩
    · rw [same]
      exact limit
    · rw [same]
      show s.totalStackMapped - c.stack.mmapSize ≤ maxTotalStackBytes
      omega
    · rw [same]
      show s.totalStackMapped - c.stack.mmapSize ≤ maxTotalStackBytes
      omega

theorem reuse_of_limit
    (within : ∀ s', step psl s label = some s' → s'.totalStackMapped ≤ maxTotalStackBytes) :
    ReuseInBudget s label := by
  cases label with
  | destroy => trivial
  | create valid stackSize env =>
    intro isFresh given allocated small node rest found
    obtain ⟨address, memory⟩ := Option.isSome_iff_exists.mp allocated
    have after := within _ (if_pos isFresh)
    have large : ¬requested stackSize > stackSizeCap := by omega
    simp only [loomCoroCreate, given, memory, large, allocateStack, found, Bool.true_eq_false,
      ↓reduceIte] at after
    exact after

/-- The mappings, the pool and the total are right in every run; exactly as long as a
stack from the pool fits into what is left of the budget, the limit holds too. -/
theorem stacks_in_budget_iff_reuse_in_budget (psl : Int) (labels : List Label) :
    Always (step psl) (Books psl) start labels ∧
      (Always (step psl) (InBudget psl) start labels ↔
        Meets (step psl) ReuseInBudget start labels) := by
  refine ⟨?_, ?_, ?_⟩
  · apply @always_of_invariant _ _ (step psl) (Books psl)
    · intro s s' label books taken
      exact books_step books taken
    · intro s books
      exact books
    · exact books_start
  · intro inBudget
    apply @meets_of_always _ _ (step psl) (InBudget psl) (InBudget psl) (fun _ _ => True)
    · intro s s' label inBudget _ reuse taken
      exact ⟨books_step inBudget.books taken, limit_step inBudget.limit reuse taken⟩
    · intro s label _ _ after
      apply reuse_of_limit
      intro s' taken
      exact (after s' taken).limit
    · exact ⟨books_start, by decide⟩
    · exact meets_of_forall (fun _ _ _ => trivial) _
    · exact inBudget
  · intro reuse
    apply @always_of_meets _ _ (step psl) (InBudget psl) (InBudget psl) ReuseInBudget
    · intro s s' label inBudget reuse taken
      exact ⟨books_step inBudget.books taken, limit_step inBudget.limit reuse taken⟩
    · intro s inBudget
      exact inBudget
    · exact ⟨books_start, by decide⟩
    · exact reuse

def mib : Nat := 1024 * 1024

/-- 200 MiB created and destroyed, 100 MiB created, and 200 MiB again from the pool. -/
def pooledOverLimit : List Label :=
  [.create true (200 * mib) ⟨some 1, some (4096 * 1000000), true⟩, .destroy 1 .done true,
   .create true (100 * mib) ⟨some 1, some (4096 * 2000000), true⟩,
   .create true (200 * mib) ⟨some 2, none, true⟩]

/-- The last call returns a coroutine and 44 MiB more than the limit are in use. -/
theorem reuse_exceeds_limit : ∃ s, exec (step 4096) start pooledOverLimit = some s ∧
    s.totalStackMapped = 300 * mib + 4 * 4096 ∧ s.live.map (·.stackSize) = [200 * mib, 100 * mib] ∧
    ¬InBudget 4096 s := by
  have run : ((exec (step 4096) start pooledOverLimit).map fun s =>
      (s.totalStackMapped, s.live.map (·.stackSize))) =
      some ((300 * mib + 4 * 4096 : Int), [200 * mib, 100 * mib]) := by
    decide +kernel
  obtain ⟨s, reached, shape⟩ := Option.map_eq_some_iff.mp run
  simp only [Prod.mk.injEq] at shape
  refine ⟨s, reached, shape.1, shape.2, fun inBudget => ?_⟩
  have limit := inBudget.limit
  rw [shape.1] at limit
  revert limit
  decide

end Loomworks.Coro.Stacks

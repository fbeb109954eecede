import Loomworks.Transition

/- The per-worker arrays of the pool (src/thread_pool.c): their lengths against
max_worker_count, over every sequence of resizes. -/
namespace Loomworks.Pool.WorkerArrays

open Transition

inductive PerWorker where
  | threads
  | threadAlive
  | threadCleanExit
  | recoveryAttempts
  | workerReclaim
  | coroReady
  | deques
  | workerDomainIds
  | workerCpuIds
  deriving DecidableEq, Repr

/-- lengths gives the entries of each array that exists; numa is numa_topo != NULL; spawned
are the indices handed to worker_entry. -/
structure State where
  lengths : PerWorker → Option Nat
  numa : Bool
  workerCount : Nat
  maxWorkerCount : Nat
  shutdown : Bool := false
  spawned : List Nat

/-- The outcome of what a resize asks for: the arrays, the slots of the new deques, and the
worker argument or thread that cannot be made, if one cannot. -/
structure ResizeEnv where
  alloc : PerWorker → Bool := fun _ => true
  slotsAlloc : Bool := true
  failsAt : Option Nat := none

inductive Label where
  | resize (count : Nat) (env : ResizeEnv)
  /-- check_and_recover_workers restarts the worker of a slot. -/
  | recover (i : Nat)
  | shutdown

namespace State

def setLength (s : State) (array : PerWorker) (length : Option Nat) : State :=
  { s with lengths := Function.update s.lengths array length }

/-- The deques grow first; without memory for the slots of the new ones they are given up. -/
def growDeques (s : State) (count : Nat) (env : ResizeEnv) : State × Bool :=
  if s.lengths .deques = none then (s, true)
  else if env.alloc .deques then
    (s.setLength .deques (if env.slotsAlloc then some count else none), true)
  else (s, false)

/-- The arrays that are reallocated one after the other. -/
def growEach (count : Nat) (env : ResizeEnv) : List PerWorker → State → State × Bool
  | [], s => (s, true)
  | array :: rest, s =>
    if env.alloc array then growEach count env rest (s.setLength array (some count))
    else (s, false)

def growReady (s : State) (count : Nat) (env : ResizeEnv) : State × Bool :=
  if s.lengths .coroReady = none then (s, true)
  else if env.alloc .coroReady then (s.setLength .coroReady (some count), true)
  else (s, false)

/-- An array of the NUMA mapping that cannot grow stays as it is. -/
def growNuma (s : State) (count : Nat) (env : ResizeEnv) : State :=
  if s.numa then
    let dom := if env.alloc .workerDomainIds then s.setLength .workerDomainIds (some count) else s
    if env.alloc .workerCpuIds then dom.setLength .workerCpuIds (some count) else dom
  else s

/-- count > max_worker_count: false when the call returns early. -/
def growArrays (s : State) (count : Nat) (env : ResizeEnv) : State × Bool :=
  match s.growDeques count env with
  | (s, false) => (s, false)
  | (s, true) =>
    match growEach count env
      [.threads, .threadAlive, .threadCleanExit, .recoveryAttempts, .workerReclaim] s with
    | (s, false) => (s, false)
    | (s, true) =>
      match s.growReady count env with
      | (s, false) => (s, false)
      | (s, true) => ({ s.growNuma count env with maxWorkerCount := count }, true)

/-- Workers are started from worker_count up to count, or up to the one that fails. -/
def startWorkers (s : State) (count : Nat) (env : ResizeEnv) : State :=
  match env.failsAt with
  | some i =>
    if s.workerCount ≤ i ∧ i < count then
      { s with spawned := List.range' s.workerCount (i - s.workerCount) ++ s.spawned }
    else { s with
      workerCount := count
      spawned := List.range' s.workerCount (count - s.workerCount) ++ s.spawned }
  | none => { s with
      workerCount := count
      spawned := List.range' s.workerCount (count - s.workerCount) ++ s.spawned }

def loomPoolResize (s : State) (count : Nat) (env : ResizeEnv) : State :=
  if count = 0 ∨ count = s.workerCount ∨ s.shutdown = true then s
  else if s.maxWorkerCount < count then
    match s.growArrays count env with
    | (s, false) => s
    | (s, true) => s.startWorkers count env
  else s.startWorkers count env

end State

def step (s : State) : Label → Option State
  | .resize count env => some (s.loomPoolResize count env)
  | .recover i => if i < s.workerCount then some { s with spawned := i :: s.spawned } else none
  | .shutdown => some { s with shutdown := true }

/-- A pool as loom_pool_create leaves it. -/
def start (workers : Nat) (deques numa : Bool) : State where
  lengths
    | .deques => if deques then some workers else none
    | .workerDomainIds | .workerCpuIds => if numa then some workers else none
    | _ => some workers
  numa := numa
  workerCount := workers
  maxWorkerCount := workers
  spawned := List.range workers

/-- Each array that exists has an entry for every slot, and the indices in use (those of the
workers, those below worker_count in the recovery scan and the NUMA queries, those below
max_worker_count in the timer thread) are slots. -/
structure Covers (s : State) : Prop where
  arrays : ∀ array length, s.lengths array = some length → s.maxWorkerCount ≤ length
  count : s.workerCount ≤ s.maxWorkerCount
  workers : ∀ i ∈ s.spawned, i < s.maxWorkerCount

/-- The allocations that make a growing resize return early if they fail. -/
def GetsThere (s : State) (env : ResizeEnv) : Prop :=
  (s.lengths .deques ≠ none → env.alloc .deques = true) ∧
    env.alloc .threads = true ∧ env.alloc .threadAlive = true ∧
    env.alloc .threadCleanExit = true ∧ env.alloc .recoveryAttempts = true ∧
    env.alloc .workerReclaim = true ∧
    (s.lengths .coroReady ≠ none → env.alloc .coroReady = true)

/-- A resize of a pool with a NUMA mapping that gets as far as the mapping can enlarge it. -/
def MappingGrows (s : State) : Label → Prop
  | .resize count env => s.numa = true → s.shutdown = false → s.maxWorkerCount < count →
      GetsThere s env → env.alloc .workerDomainIds = true ∧ env.alloc .workerCpuIds = true
  | _ => True

/-- Covers, and no NUMA array without a mapping. -/
structure Inv (s : State) : Prop extends Covers s where
  unmapped : s.numa = false →
    s.lengths .workerDomainIds = none ∧ s.lengths .workerCpuIds = none

variable {s s' : State} {count : Nat} {env : ResizeEnv} {label : Label}

theorem setLength_self (s : State) (array : PerWorker) (length : Option Nat) :
    (s.setLength array length).lengths array = length := Function.update_self _ _ _

theorem setLength_of_ne (s : State) {array other : PerWorker} (length : Option Nat)
    (apart : other ≠ array) : (s.setLength array length).lengths other = s.lengths other :=
  Function.update_of_ne apart _ _

/-- Growing sets some of the arrays to count entries or gives them up, and does nothing else. -/
structure Grows (count : Nat) (s s' : State) : Prop where
  lengths : ∀ array, s'.lengths array = s.lengths array ∨ s'.lengths array = none ∨
    s'.lengths array = some count
  numa : s'.numa = s.numa
  workerCount : s'.workerCount = s.workerCount
  maxWorkerCount : s'.maxWorkerCount = s.maxWorkerCount
  spawned : s'.spawned = s.spawned

theorem Grows.refl (count : Nat) (s : State) : Grows count s s :=
  ⟨fun _ => Or.inl rfl, rfl, rfl, rfl, rfl⟩

theorem Grows.trans {s₁ s₂ s₃ : State} (first : Grows count s₁ s₂) (second : Grows count s₂ s₃) :
    Grows count s₁ s₃ where
  lengths array := by
    rcases second.lengths array with same | none_ | grown
    · rw [same]
      exact first.lengths array
    · exact Or.inr (Or.inl none_)
    · exact Or.inr (Or.inr grown)
  numa := second.numa.trans first.numa
  workerCount := second.workerCount.trans first.workerCount
  maxWorkerCount := second.maxWorkerCount.trans first.maxWorkerCount
  spawned := second.spawned.trans first.spawned

theorem grows_setLength (s : State) (array : PerWorker) {length : Option Nat}
    (fits : length = none ∨ length = some count) : Grows count s (s.setLength array length) where
  lengths other := by
    by_cases same : other = array
    · subst same
      rw [setLength_self]
      exact Or.inr fits
    · exact Or.inl (setLength_of_ne s length same)
  numa := rfl
  workerCount := rfl
  maxWorkerCount := rfl
  spawned := rfl

/-- One array that may not exist is enlarged, or the call ends. -/
structure GrowsOne (array : PerWorker) (count : Nat) (env : ResizeEnv) (s : State)
    (out : State × Bool) : Prop where
  grows : Grows count s out.1
  others : ∀ other, other ≠ array → out.1.lengths other = s.lengths other
  granted : out.2 = true → s.lengths array ≠ none → env.alloc array = true
  done : out.2 = true → out.1.lengths array = none ∨ out.1.lengths array = some count

theorem growsOne_of_fits {array : PerWorker} {length : Option Nat}
    (fits : length = none ∨ length = some count) (s : State) (env : ResizeEnv) :
    GrowsOne array count env s (if s.lengths array = none then (s, true)
      else if env.alloc array then (s.setLength array length, true) else (s, false)) := by
  split
  · rename_i absent
    exact ⟨Grows.refl count s, fun _ _ => rfl, fun _ present => absurd absent present,
      fun _ => Or.inl absent⟩
  · split
    · rename_i granted
      refine ⟨grows_setLength s array fits, fun other apart => setLength_of_ne s _ apart,
        fun _ _ => granted, fun _ => ?_⟩
      rw [setLength_self]
      exact fits
    · exact ⟨Grows.refl count s, fun _ _ => rfl, (fun clash => by cases clash),
        (fun clash => by cases clash)⟩

theorem growDeques_spec (s : State) (count : Nat) (env : ResizeEnv) :
    GrowsOne .deques count env s (s.growDeques count env) :=
  growsOne_of_fits (by split <;> simp) s env

theorem growReady_spec (s : State) (count : Nat) (env : ResizeEnv) :
    GrowsOne .coroReady count env s (s.growReady count env) :=
  growsOne_of_fits (Or.inr rfl) s env

theorem growEach_spec (count : Nat) (env : ResizeEnv) (arrays : List PerWorker) (s : State) :
    Grows count s (State.growEach count env arrays s).1 ∧
      (∀ array, array ∉ arrays →
        (State.growEach count env arrays s).1.lengths array = s.lengths array) ∧
      ((State.growEach count env arrays s).2 = true → ∀ array ∈ arrays, env.alloc array = true ∧
        (State.growEach count env arrays s).1.lengths array = some count) := by
  induction arrays generalizing s with
  | nil =>
    exact ⟨Grows.refl count s, fun _ _ => rfl, fun _ _ clash => absurd clash List.not_mem_nil⟩
  | cons first rest ih =>
    unfold State.growEach
    split
    · rename_i granted
      obtain ⟨grows, outside, done⟩ := ih (s.setLength first (some count))
      refine ⟨(grows_setLength s first (Or.inr rfl)).trans grows, fun array absent => ?_,
        fun all array member => ?_⟩
      · rw [List.mem_cons, not_or] at absent
        rw [outside array absent.2]
        exact setLength_of_ne s _ absent.1
      · by_cases again : array ∈ rest
        · exact done all array again
        · obtain rfl : array = first := by simpa [again] using member
          exact ⟨granted, (outside array again).trans (setLength_self s _ _)⟩
    · exact ⟨Grows.refl count s, fun _ _ => rfl, (fun clash => by cases clash)⟩

/-- The two NUMA arrays stay as they are without a mapping and have count entries if both can
be enlarged. -/
theorem growNuma_spec (s : State) (count : Nat) (env : ResizeEnv) :
    Grows count s (s.growNuma count env) ∧
      (s.numa = false → s.growNuma count env = s) ∧
      (s.numa = true → env.alloc .workerDomainIds = true → env.alloc .workerCpuIds = true →
        (s.growNuma count env).lengths .workerDomainIds = some count ∧
          (s.growNuma count env).lengths .workerCpuIds = some count) ∧
      ∀ array, array ≠ .workerDomainIds → array ≠ .workerCpuIds →
        (s.growNuma count env).lengths array = s.lengths array := by
  cases mapped : s.numa with
  | false =>
    have same : s.growNuma count env = s := by simp [State.growNuma, mapped]
    rw [same]
    exact ⟨Grows.refl count s, fun _ => rfl, (fun clash => by cases clash), fun _ _ _ => rfl⟩
  | true =>
    have first : Grows count s
        (if env.alloc .workerDomainIds then s.setLength .workerDomainIds (some count) else s) := by
      split
      · exact grows_setLength s _ (Or.inr rfl)
      · exact Grows.refl count s
    unfold State.growNuma
    rw [if_pos mapped]
    refine ⟨?_, (fun clash => by cases clash), fun _ dom cpu => ?_, fun array noDom noCpu => ?_⟩
    · dsimp only
      split
      · exact first.trans (grows_setLength _ _ (Or.inr rfl))
      · exact first
    · simp [dom, cpu, State.setLength]
    · dsimp only
      split <;> split <;> simp [State.setLength, noDom, noCpu]

/-- Everything but the NUMA arrays has count entries or does not exist. -/
def Enlarged (s : State) (count : Nat) : Prop :=
  ∀ array, array ≠ .workerDomainIds → array ≠ .workerCpuIds →
    s.lengths array = none ∨ s.lengths array = some count

/-- The arrays grow and the NUMA arrays are as they were. -/
structure Reaches (count : Nat) (s s' : State) : Prop extends Grows count s s' where
  dom : s'.lengths .workerDomainIds = s.lengths .workerDomainIds
  cpu : s'.lengths .workerCpuIds = s.lengths .workerCpuIds

/-- Either the call returns early, or it gets to the NUMA arrays with all others enlarged and
commits max_worker_count. -/
theorem growArrays_cases (s : State) (count : Nat) (env : ResizeEnv) :
    ((s.growArrays count env).2 = false ∧ Reaches count s (s.growArrays count env).1) ∨
      GetsThere s env ∧ ∃ grown, Reaches count s grown ∧ Enlarged grown count ∧
        s.growArrays count env =
          ({ grown.growNuma count env with maxWorkerCount := count }, true) := by
  obtain ⟨first, others, granted, deque⟩ := growDeques_spec s count env
  unfold State.growArrays
  generalize s.growDeques count env = one at first others granted deque
  obtain ⟨s₁, done⟩ := one
  dsimp only at first others
  cases done with
  | false => exact Or.inl ⟨rfl, first, others _ (by decide), others _ (by decide)⟩
  | true =>
    replace deque := deque rfl
    obtain ⟨second, outside, five⟩ := growEach_spec count env
      [.threads, .threadAlive, .threadCleanExit, .recoveryAttempts, .workerReclaim] s₁
    dsimp only at deque ⊢
    generalize State.growEach count env
      [.threads, .threadAlive, .threadCleanExit, .recoveryAttempts, .workerReclaim] s₁ = two
      at second outside five
    obtain ⟨s₂, done⟩ := two
    dsimp only at second outside
    have unlisted : ∀ array, array ≠ .deques → array ∉ [PerWorker.threads, .threadAlive,
        .threadCleanExit, .recoveryAttempts, .workerReclaim] →
        s₂.lengths array = s.lengths array :=
      fun array other absent => (outside array absent).trans (others array other)
    cases done with
    | false =>
      exact Or.inl ⟨rfl, first.trans second, unlisted _ (by decide) (by decide),
        unlisted _ (by decide) (by decide)⟩
    | true =>
      have inside := five rfl
      obtain ⟨third, kept, allowed, fifo⟩ := growReady_spec s₂ count env
      dsimp only at inside ⊢
      generalize s₂.growReady count env = three at third kept allowed fifo
      obtain ⟨s₃, done⟩ := three
      dsimp only at third kept
      have reaches : Reaches count s s₃ := ⟨(first.trans second).trans third,
        (kept _ (by decide)).trans (unlisted _ (by decide) (by decide)),
        (kept _ (by decide)).trans (unlisted _ (by decide) (by decide))⟩
      cases done with
      | false => exact Or.inl ⟨rfl, reaches⟩
      | true =>
        rw [unlisted .coroReady (by decide) (by decide)] at allowed
        refine Or.inr ⟨⟨granted rfl, ?_⟩, s₃, reaches, fun array noDom noCpu => ?_, rfl⟩
        · simp only [List.mem_cons, List.not_mem_nil, or_false, forall_eq_or_imp, forall_eq]
            at inside
          exact ⟨inside.1.1, inside.2.1.1, inside.2.2.1.1, inside.2.2.2.1.1, inside.2.2.2.2.1,
            allowed rfl⟩
        · by_cases fifos : array = .coroReady
          · exact fifos ▸ fifo rfl
          rw [kept array fifos]
          by_cases listed : array ∈ [PerWorker.threads, .threadAlive, .threadCleanExit,
              .recoveryAttempts, .workerReclaim]
          · exact Or.inr (inside array listed).2
          rw [outside array listed]
          cases array <;> simp_all

/-- Starting workers commits worker_count, or leaves it. -/
theorem Inv.startWorkers (inv : Inv s) (fits : count ≤ s.maxWorkerCount) (env : ResizeEnv) :
    Inv (s.startWorkers count env) := by
  have spawned : ∀ upper ≤ count,
      ∀ i ∈ List.range' s.workerCount (upper - s.workerCount) ++ s.spawned, i < s.maxWorkerCount := by
    intro upper below i member
    rcases List.mem_append.mp member with fresh | old
    · have := List.mem_range'_1.mp fresh
      omega
    · exact inv.workers i old
  unfold State.startWorkers
  split
  · rename_i i fails
    split
    · rename_i inside
      exact ⟨⟨inv.arrays, inv.count, spawned i (by omega)⟩, inv.unmapped⟩
    · exact ⟨⟨inv.arrays, fits, spawned count (Nat.le_refl _)⟩, inv.unmapped⟩
  · exact ⟨⟨inv.arrays, fits, spawned count (Nat.le_refl _)⟩, inv.unmapped⟩

/-- An early return may leave arrays longer than they have to be. -/
theorem Inv.reaches (inv : Inv s) (reaches : Reaches count s s') (more : s.maxWorkerCount < count) :
    Inv s' where
  arrays array length exists_ := by
    rw [reaches.maxWorkerCount]
    rcases reaches.lengths array with same | none_ | grown
    · exact inv.arrays array length (same ▸ exists_)
    · rw [none_] at exists_
      cases exists_
    · rw [grown] at exists_
      cases exists_
      exact Nat.le_of_lt more
  count := by
    rw [reaches.workerCount, reaches.maxWorkerCount]
    exact inv.count
  workers := by
    rw [reaches.spawned, reaches.maxWorkerCount]
    exact inv.workers
  unmapped := by
    rw [reaches.numa, reaches.dom, reaches.cpu]
    exact inv.unmapped

/-- With both NUMA arrays enlarged max_worker_count can be committed. -/
theorem Inv.committed {grown : State} (inv : Inv s) (reaches : Reaches count s grown)
    (more : s.maxWorkerCount < count) (enlarged : Enlarged grown count)
    (mapped : s.numa = true → env.alloc .workerDomainIds = true ∧ env.alloc .workerCpuIds = true) :
    Inv { grown.growNuma count env with maxWorkerCount := count } := by
  obtain ⟨grows, same, both, others⟩ := growNuma_spec grown count env
  have inv' := inv.reaches reaches more
  have all : ∀ array, (grown.growNuma count env).lengths array = none ∨
      (grown.growNuma count env).lengths array = some count := by
    intro array
    by_cases numa : array = .workerDomainIds ∨ array = .workerCpuIds
    · cases mapping : s.numa with
      | false =>
        have unmapped := inv'.unmapped (reaches.numa.trans mapping)
        rw [same (reaches.numa.trans mapping)]
        rcases numa with rfl | rfl
        · exact Or.inl unmapped.1
        · exact Or.inl unmapped.2
      | true =>
        have filled := both (reaches.numa.trans mapping) (mapped mapping).1 (mapped mapping).2
        rcases numa with rfl | rfl
        · exact Or.inr filled.1
        · exact Or.inr filled.2
    · rw [not_or] at numa
      rw [others array numa.1 numa.2]
      exact enlarged array numa.1 numa.2
  refine ⟨⟨fun array length exists_ => ?_, ?_, fun i member => ?_⟩, fun unmapped => ?_⟩
  · rcases all array with none_ | full
    · exact absurd (none_.symm.trans exists_) (by simp)
    · exact Nat.le_of_eq (Option.some.inj (full.symm.trans exists_))
  · have := inv.count
    show (grown.growNuma count env).workerCount ≤ count
    rw [grows.workerCount, reaches.workerCount]
    omega
  · have member : i ∈ (grown.growNuma count env).spawned := member
    rw [grows.spawned, reaches.spawned] at member
    exact Nat.lt_trans (inv.workers i member) more
  · have unmapped : grown.numa = false := grows.numa.symm.trans unmapped
    show (grown.growNuma count env).lengths _ = none ∧ (grown.growNuma count env).lengths _ = none
    rw [same unmapped]
    exact inv'.unmapped unmapped

theorem Inv.step (inv : Inv s) (allowed : MappingGrows s label) (stepped : step s label = some s') :
    Inv s' := by
  cases label with
  | resize count env =>
    cases stepped
    unfold State.loomPoolResize
    split
    · exact inv
    · rename_i refused
      push Not at refused
      split
      · rename_i more
        have open_ : s.shutdown = false := by simpa using refused.2.2
        rcases growArrays_cases s count env with ⟨failed, reaches⟩ | ⟨gets, grown, reaches, big, result⟩
        · generalize s.growArrays count env = outcome at failed reaches
          obtain ⟨s₁, done⟩ := outcome
          cases failed
          exact inv.reaches reaches more
        · rw [result]
          have mapped := fun mapped => allowed mapped open_ more gets
          exact (inv.committed reaches more big mapped).startWorkers (Nat.le_refl _) env
      · rename_i fits
        exact inv.startWorkers (Nat.not_lt.mp fits) env
  | recover i =>
    simp only [WorkerArrays.step] at stepped
    split at stepped
    · rename_i inside
      cases stepped
      refine ⟨⟨inv.arrays, inv.count, fun j member => ?_⟩, inv.unmapped⟩
      rcases List.mem_cons.mp member with rfl | old
      · exact Nat.lt_of_lt_of_le inside inv.count
      · exact inv.workers j old
    · cases stepped
  | shutdown =>
    cases stepped
    exact ⟨⟨inv.arrays, inv.count, inv.workers⟩, inv.unmapped⟩

theorem inv_start (workers : Nat) (deques numa : Bool) : Inv (start workers deques numa) where
  arrays array length exists_ := by
    have full : (start workers deques numa).lengths array = none ∨
        (start workers deques numa).lengths array = some workers := by
      cases array <;> cases deques <;> cases numa <;> simp [start]
    rcases full with none_ | full
    · exact absurd (none_.symm.trans exists_) (by simp)
    · exact Nat.le_of_eq (Option.some.inj (full.symm.trans exists_))
  count := Nat.le_refl _
  workers i member := List.mem_range.mp member
  unmapped := by
    intro unmapped
    have unmapped : numa = false := unmapped
    subst unmapped
    exact ⟨rfl, rfl⟩

/-- In every run in which the NUMA mapping can grow with the pool, whatever else fails, every
array covers every slot and every index in use. -/
theorem worker_arrays_cover (workers : Nat) (deques numa : Bool) (labels : List Label)
    (grows : Meets step MappingGrows (start workers deques numa) labels) :
    Always step Covers (start workers deques numa) labels :=
  always_of_meets Inv.step Inv.toCovers (inv_start workers deques numa) grows

/-- A failed resize, one that enlarges everything, and a shrink. -/
theorem worker_arrays_cover_over_resizes :
    Always step Covers (start 2 true true)
      [.resize 4 { alloc := fun array => decide (array ≠ .threadAlive) }, .resize 3 {}, .resize 1 {}] := by
  apply worker_arrays_cover
  refine ⟨?_, fun _ _ => ⟨fun _ _ _ _ => ⟨rfl, rfl⟩, fun _ _ => ⟨fun _ _ _ _ => ⟨rfl, rfl⟩,
    fun _ _ => trivial⟩⟩⟩
  exact fun _ _ _ _ => ⟨rfl, rfl⟩

/-- The mapping of CPUs cannot grow from two entries to four; the slots are committed all the
same, and worker 2 starts with a look at entry 2. -/
theorem cpu_map_shorter_than_slots :
    ∃ s, exec step (start 2 true true)
        [.resize 4 { alloc := fun array => decide (array ≠ .workerCpuIds) }] = some s ∧
      s.maxWorkerCount = 4 ∧ s.lengths .workerCpuIds = some 2 ∧ 2 ∈ s.spawned ∧ ¬Covers s := by
  refine ⟨_, rfl, rfl, rfl, by decide, fun covers => ?_⟩
  exact absurd (covers.arrays .workerCpuIds 2 rfl) (by decide)

end Loomworks.Pool.WorkerArrays

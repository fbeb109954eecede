import Mathlib

/- The virtual NUMA topology and the placement of workers on it (src/numa.c). -/
namespace Loomworks.Numa

/-- loom_numa_domain_info_t; cpu_count is the length of cpu_ids. -/
structure DomainInfo where
  domainId : Nat
  nodeId : Nat
  cpuIds : List Nat
  deriving DecidableEq, Repr

def DomainInfo.cpuCount (d : DomainInfo) : Nat := d.cpuIds.length

/-- loom_numa_topology_t; domain_count is the length of domains. -/
structure Topology where
  domains : List DomainInfo
  totalCpus : Nat
  deriving DecidableEq, Repr

/-- The loop over the domains from i on, with left of them to go. The CPU numbers stay
below the total, so nothing wraps here. -/
def fillDomains (baseCpus remCpus : Nat) (alloc : Nat → Bool) :
    (left i currCpu : Nat) → Option (List DomainInfo)
  | 0, _, _ => some []
  | left + 1, i, currCpu =>
    let count := baseCpus + if i < remCpus then 1 else 0
    if alloc i then
      (fillDomains baseCpus remCpus alloc left (i + 1) (currCpu + count)).map
        (⟨i, i, List.range' currCpu count⟩ :: ·)
    else none

/-- The number of domains made of the request, for the CPU count as a uint32_t. -/
def domainCount (cpus requested : Nat) : Nat :=
  min (if requested = 0 then if 2 ≤ cpus then 2 else 1 else requested) cpus

/-- ERR_ALLOC, or a crash. -/
inductive Failure where
  | errAlloc | divisionByZero
  deriving DecidableEq, Repr

/-- online is what sysconf returns; head is the outcome of the allocations of the structure
and of the array of domains, alloc that of the CPU list of each domain. -/
def loomNumaVirtualTopology (online : Int) (requested : UInt32) (head : Bool)
    (alloc : Nat → Bool) : Except Failure Topology :=
  let n := if online < 1 then 1 else online
  -- (uint32_t)n
  let cpus := (n % 2 ^ 32).toNat
  let count := domainCount cpus requested.toNat
  if head = false then .error .errAlloc
  else if count = 0 then .error .divisionByZero
  else match fillDomains (cpus / count) (cpus % count) alloc count 0 0 with
    | some domains => .ok ⟨domains, cpus⟩
    | none => .error .errAlloc

/-- out_domain_idx and out_cpu_id; none is (uint32_t)-1. -/
def loomNumaMapWorker (topo : Topology) (workerIdx : Nat) : Nat × Option Nat :=
  if topo.domains.length = 0 then (0, none)
  else
    let domainIdx := workerIdx % topo.domains.length
    match topo.domains[domainIdx]? with
    | none => (domainIdx, none)
    | some d => (domainIdx, d.cpuIds[workerIdx / topo.domains.length % d.cpuCount]?)

/-- The domains are non-empty runs of CPUs that make up 0 .. n - 1 in order, of sizes that
differ by one at most. -/
structure Partitions (topo : Topology) (n : Nat) : Prop where
  cover : (topo.domains.map DomainInfo.cpuIds).flatten = List.range n
  block : ∀ d ∈ topo.domains, d.cpuIds ≠ [] ∧ ∃ first, d.cpuIds = List.range' first d.cpuCount
  even : ∀ d ∈ topo.domains, ∀ e ∈ topo.domains, d.cpuCount ≤ e.cpuCount + 1

/-- How many of the first m workers are placed in a domain. -/
def load (topo : Topology) (m d : Nat) : Nat :=
  Nat.count (fun w => (loomNumaMapWorker topo w).1 = d) m

/-- As many workers as CPUs have one each, of their own domain, and any number of workers
is spread evenly. -/
structure Places (topo : Topology) (n : Nat) : Prop where
  bijective : Set.BijOn (fun w => (loomNumaMapWorker topo w).2) (Set.Iio n) (some '' Set.Iio n)
  own : ∀ w < n, ∃ d ∈ topo.domains[(loomNumaMapWorker topo w).1]?, ∃ cpu ∈ d.cpuIds,
    (loomNumaMapWorker topo w).2 = some cpu
  balanced : ∀ m, ∀ d < topo.domains.length, ∀ e < topo.domains.length,
    load topo m d ≤ load topo m e + 1

/-- The size of block i of n CPUs in count blocks, and where it starts. -/
def blockSize (n count i : Nat) : Nat := n / count + if i < n % count then 1 else 0

def blockStart (n count i : Nat) : Nat := n / count * i + min i (n % count)

def block (n count i : Nat) : DomainInfo :=
  ⟨i, i, List.range' (blockStart n count i) (blockSize n count i)⟩

variable {n count i j : Nat}

theorem blockStart_succ (n count i : Nat) :
    blockStart n count (i + 1) = blockStart n count i + blockSize n count i := by
  unfold blockStart blockSize
  rw [Nat.mul_succ]
  split <;> omega

theorem blockStart_mono (le : i ≤ j) : blockStart n count i ≤ blockStart n count j := by
  induction le with
  | refl => exact Nat.le_refl _
  | step _ ih =>
    rw [blockStart_succ]
    omega

theorem blockStart_zero (n count : Nat) : blockStart n count 0 = 0 := by
  simp [blockStart]

theorem blockStart_count (n : Nat) (positive : 0 < count) : blockStart n count count = n := by
  have rest := Nat.mod_lt n positive
  unfold blockStart
  rw [Nat.min_eq_right (Nat.le_of_lt rest), Nat.mul_comm]
  exact Nat.div_add_mod n count

/-- The loop makes one block after the other, or stops at an allocation that fails. -/
theorem fillDomains_eq (n count : Nat) (alloc : Nat → Bool) (left i : Nat) :
    fillDomains (n / count) (n % count) alloc left i (blockStart n count i) =
      if ∀ k < left, alloc (i + k) = true then some ((List.range' i left).map (block n count))
      else none := by
  induction left generalizing i with
  | zero => simp [fillDomains]
  | succ left ih =>
    rw [fillDomains, show blockStart n count i + (n / count + if i < n % count then 1 else 0) =
      blockStart n count (i + 1) from (blockStart_succ n count i).symm, ih (i + 1)]
    have split : (∀ k < left + 1, alloc (i + k) = true) ↔
        alloc i = true ∧ ∀ k < left, alloc (i + 1 + k) = true := by
      constructor
      · intro all
        refine ⟨all 0 (by omega), fun k inside => ?_⟩
        rw [Nat.add_assoc, Nat.add_comm 1 k]
        exact all (k + 1) (by omega)
      · rintro ⟨first, rest⟩ k inside
        cases k with
        | zero => exact first
        | succ k =>
          rw [← Nat.add_assoc, Nat.add_right_comm]
          exact rest k (by omega)
    by_cases first : alloc i = true
    · by_cases rest : ∀ k < left, alloc (i + 1 + k) = true
      · rw [if_pos first, if_pos rest, if_pos (split.mpr ⟨first, rest⟩)]
        rfl
      · rw [if_pos first, if_neg rest, if_neg fun all => rest (split.mp all).2]
        rfl
    · rw [if_neg first, if_neg fun all => first (split.mp all).1]

/-- What loom_numa_virtual_topology makes of n CPUs in count domains. -/
def evenTopology (n count : Nat) : Topology := ⟨(List.range count).map (block n count), n⟩

theorem domainCount_bounds (requested : Nat) (positive : 1 ≤ n) :
    1 ≤ domainCount n requested ∧ domainCount n requested ≤ n := by
  unfold domainCount
  split
  · split <;> omega
  · omega

theorem virtualTopology_eq {online : Int} (cpus : (max online 1).toNat = n) (small : n < 2 ^ 32)
    (requested : UInt32) (head : Bool) (alloc : Nat → Bool) :
    loomNumaVirtualTopology online requested head alloc =
      if head = true ∧ ∀ i < domainCount n requested.toNat, alloc i = true then
        .ok (evenTopology n (domainCount n requested.toNat))
      else .error .errAlloc := by
  have narrow : ((if online < 1 then 1 else online) % 2 ^ 32).toNat = n := by
    rw [Int.emod_eq_of_lt (by split <;> omega) (by split <;> omega)]
    split <;> omega
  obtain ⟨some_, -⟩ := domainCount_bounds requested.toNat (show 1 ≤ n by omega)
  unfold loomNumaVirtualTopology
  dsimp only
  rw [narrow]
  generalize domainCount n requested.toNat = count at some_ ⊢
  have filled := fillDomains_eq n count alloc count 0
  simp only [blockStart_zero, Nat.zero_add] at filled
  rw [filled, if_neg (show count ≠ 0 by omega)]
  cases head with
  | false => simp
  | true =>
    rw [if_neg (show ¬true = false by decide)]
    by_cases all : ∀ i < count, alloc i = true
    · rw [if_pos all, if_pos ⟨rfl, all⟩, evenTopology, List.range_eq_range']
    · rw [if_neg all, if_neg fun both => all both.2]

theorem flatten_blocks (n count left i : Nat) :
    (((List.range' i left).map (block n count)).map DomainInfo.cpuIds).flatten =
      List.range' (blockStart n count i) (blockStart n count (i + left) - blockStart n count i) := by
  induction left generalizing i with
  | zero => simp
  | succ left ih =>
    have grown := @blockStart_mono n count (i + 1) (i + 1 + left) (by omega)
    have next := blockStart_succ n count i
    rw [List.range'_succ, List.map_cons, List.map_cons, List.flatten_cons, ih (i + 1),
      show i + (left + 1) = i + 1 + left by omega]
    show List.range' (blockStart n count i) (blockSize n count i) ++ _ = _
    rw [next, List.range'_append_1]
    congr 1
    omega

theorem blockSize_pos (fits : count ≤ n) (positive : 1 ≤ count) : 1 ≤ blockSize n count i := by
  have := Nat.div_pos fits positive
  unfold blockSize
  omega

theorem partitions_even (fits : count ≤ n) (positive : 1 ≤ count) :
    Partitions (evenTopology n count) n where
  cover := by
    have flat := flatten_blocks n count count 0
    rw [Nat.zero_add, blockStart_zero, blockStart_count n positive] at flat
    rw [evenTopology, List.range_eq_range', flat, List.range_eq_range', Nat.sub_zero]
  block := by
    intro d member
    obtain ⟨i, -, rfl⟩ := List.mem_map.mp member
    refine ⟨?_, blockStart n count i, ?_⟩
    · have := @blockSize_pos n count i fits positive
      simp only [block, ne_eq, List.range'_eq_nil_iff]
      omega
    · simp [block, DomainInfo.cpuCount]
  even := by
    intro d first e second
    obtain ⟨i, -, rfl⟩ := List.mem_map.mp first
    obtain ⟨j, -, rfl⟩ := List.mem_map.mp second
    simp only [block, DomainInfo.cpuCount, List.length_range', blockSize]
    split <;> split <;> omega

theorem domains_get (inside : i < count) :
    (evenTopology n count).domains[i]? = some (block n count i) := by
  simp [evenTopology, inside]

theorem length_domains (n count : Nat) : (evenTopology n count).domains.length = count := by
  simp [evenTopology]

theorem mapWorker_fst (positive : 1 ≤ count) (w : Nat) :
    (loomNumaMapWorker (evenTopology n count) w).1 = w % count := by
  unfold loomNumaMapWorker
  rw [length_domains, if_neg (by omega)]
  dsimp only
  rw [domains_get (Nat.mod_lt w positive)]

/-- The turn of a worker in its domain is below the number of the domain's CPUs. -/
theorem turn_lt (positive : 1 ≤ count) {w : Nat} (inside : w < n) :
    w / count < blockSize n count (w % count) := by
  have worker := Nat.div_add_mod w count
  have total := Nat.div_add_mod n count
  have rest := Nat.mod_lt w positive
  unfold blockSize
  by_contra late
  split at late
  · have more : count * (n / count + 1) ≤ count * (w / count) := Nat.mul_le_mul_left _ (by omega)
    rw [Nat.mul_succ] at more
    have := Nat.mod_lt n positive
    omega
  · have more : count * (n / count) ≤ count * (w / count) := Nat.mul_le_mul_left _ (by omega)
    omega

/-- Worker w of the first n has the CPU of its turn in its domain's block. -/
theorem mapWorker_snd (positive : 1 ≤ count) {w : Nat} (inside : w < n) :
    (loomNumaMapWorker (evenTopology n count) w).2 =
      some (blockStart n count (w % count) + w / count) := by
  have turn := @turn_lt n count positive w inside
  unfold loomNumaMapWorker
  rw [length_domains, if_neg (by omega)]
  dsimp only
  rw [domains_get (Nat.mod_lt w positive)]
  simp only [block, DomainInfo.cpuCount, List.length_range', Nat.mod_eq_of_lt turn]
  rw [List.getElem?_range' turn, Nat.one_mul]

theorem block_unique {p q : Nat} (first : p < blockSize n count i) (second : q < blockSize n count j)
    (same : blockStart n count i + p = blockStart n count j + q) : i = j := by
  rcases Nat.lt_trichotomy i j with less | equal | more
  · have := @blockStart_mono n count (i + 1) j less
    rw [blockStart_succ] at this
    omega
  · exact equal
  · have := @blockStart_mono n count (j + 1) i more
    rw [blockStart_succ] at this
    omega

theorem cpu_lt (inside : i < count) {p : Nat} (own : p < blockSize n count i) :
    blockStart n count i + p < n := by
  have grown := @blockStart_mono n count (i + 1) count inside
  rw [blockStart_succ, blockStart_count n (by omega)] at grown
  omega

theorem bijOn_mapWorker (positive : 1 ≤ count) :
    Set.BijOn (fun w => (loomNumaMapWorker (evenTopology n count) w).2) (Set.Iio n)
      (some '' Set.Iio n) := by
  have value : Set.EqOn (some ∘ fun w => blockStart n count (w % count) + w / count)
      (fun w => (loomNumaMapWorker (evenTopology n count) w).2) (Set.Iio n) :=
    fun w inside => (mapWorker_snd positive inside).symm
  have maps : Set.MapsTo (fun w => blockStart n count (w % count) + w / count) (Set.Iio n)
      (Set.Iio n) :=
    fun w inside => cpu_lt (Nat.mod_lt w positive) (turn_lt positive inside)
  have injective : Set.InjOn (fun w => blockStart n count (w % count) + w / count) (Set.Iio n) := by
    intro v first w second same
    have domain := block_unique (turn_lt positive first) (turn_lt positive second) same
    have turn : v / count = w / count := by
      have same : blockStart n count (v % count) + v / count =
        blockStart n count (w % count) + w / count := same
      rw [domain] at same
      omega
    rw [← Nat.div_add_mod v count, ← Nat.div_add_mod w count, domain, turn]
  have surjective : Set.SurjOn (fun w => blockStart n count (w % count) + w / count) (Set.Iio n)
      (Set.Iio n) := by
    rw [← Finset.coe_range] at maps injective ⊢
    exact Finset.surjOn_of_injOn_of_card_le _ maps injective (Nat.le_refl _)
  refine Set.BijOn.congr ?_ value
  exact Set.BijOn.comp (Option.some_injective _).injOn.bijOn_image ⟨maps, injective, surjective⟩

theorem balanced_mapWorker (positive : 1 ≤ count) (m : Nat) {d e : Nat} (left : d < count)
    (right : e < count) :
    load (evenTopology n count) m d ≤ load (evenTopology n count) m e + 1 := by
  have share : ∀ d < count, load (evenTopology n count) m d =
      m / count + if d < m % count then 1 else 0 := by
    intro d inside
    have turns := Nat.count_modEq_card m positive d
    rw [Nat.mod_eq_of_lt inside] at turns
    rw [← turns, load]
    congr 1
    funext w
    rw [mapWorker_fst positive, Nat.ModEq, Nat.mod_eq_of_lt inside]
  rw [share d left, share e right]
  split <;> split <;> omega

theorem places_even (positive : 1 ≤ count) : Places (evenTopology n count) n where
  bijective := bijOn_mapWorker positive
  own := by
    intro w inside
    rw [mapWorker_fst positive, mapWorker_snd positive inside, domains_get (Nat.mod_lt w positive)]
    refine ⟨_, rfl, _, ?_, rfl⟩
    exact List.mem_range'_1.mpr ⟨Nat.le_add_right _ _, Nat.add_lt_add_left (turn_lt positive inside) _⟩
  balanced := by
    intro m d left e right
    rw [length_domains] at left right
    exact balanced_mapWorker positive m left right

/-- For every number of CPUs that a uint32_t holds, where less than 1 counts as 1, and every request:
unless an allocation fails, the topology is an even partition and the workers are placed on it one to
one. -/
theorem virtual_topology_even (online : Int) (small : online < 2 ^ 32) (requested : UInt32) (head : Bool)
    (alloc : Nat → Bool) :
    match loomNumaVirtualTopology online requested head alloc with
    | .ok topo => Partitions topo (max online 1).toNat ∧ Places topo (max online 1).toNat
    | .error failure => failure = .errAlloc ∧ (head = false ∨ ∃ i, alloc i = false) := by
  generalize cpus : (max online 1).toNat = n
  obtain ⟨some_, fits⟩ := domainCount_bounds requested.toNat (show 1 ≤ n by omega)
  rw [virtualTopology_eq cpus (by omega)]
  split
  · rename_i topo made
    split at made
    · cases made
      exact ⟨partitions_even fits some_, places_even some_⟩
    · cases made
  · rename_i failure missing
    split at missing
    · cases missing
    · rename_i failed
      cases missing
      refine ⟨rfl, ?_⟩
      by_contra fine
      push Not at fine
      exact failed ⟨by simpa using fine.1, fun i _ => by simpa using fine.2 i⟩

theorem virtual_topology_even_five_cpus :
    ∃ topo, loomNumaVirtualTopology 5 2 true (fun _ => true) = .ok topo ∧
      Partitions topo 5 ∧ Places topo 5 := by
  refine ⟨⟨[⟨0, 0, [0, 1, 2]⟩, ⟨1, 1, [3, 4]⟩], 5⟩, rfl, ?_⟩
  exact virtual_topology_even 5 (by decide) 2 true fun _ => true

/-- 2 ^ 32 + 4 CPUs are taken for four. -/
theorem topology_of_wrapped_count :
    loomNumaVirtualTopology 4294967300 2 true (fun _ => true) =
        .ok ⟨[⟨0, 0, [0, 1]⟩, ⟨1, 1, [2, 3]⟩], 4⟩ ∧
      ¬Partitions ⟨[⟨0, 0, [0, 1]⟩, ⟨1, 1, [2, 3]⟩], 4⟩ 4294967300 := by
  refine ⟨rfl, fun partitions => ?_⟩
  have short := congrArg List.length partitions.cover
  rw [List.length_range] at short
  exact absurd short (by decide)

-- a multiple of 2 ^ 32 leaves no domain to divide by
example : loomNumaVirtualTopology 4294967296 2 true (fun _ => true) = .error .divisionByZero := rfl

end Loomworks.Numa

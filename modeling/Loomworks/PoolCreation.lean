import Loomworks.Inventory
import Loomworks.NumaTopology

/- What loom_pool_create acquires and releases (src/thread_pool.c, with the topology of
src/numa.c): every step that can fail, with the clean-up that follows it. -/
namespace Loomworks.Pool.Creation

/-- The locks, blocks, registry entry and threads of one creation. The topology made after
the detection gave up is told from the one it gave up. -/
inductive Resource
  | pool | lock | drainCond | workSem | spaceCond
  | ring | cancelSlots | nodePool | nodeFreeNext | recoveryAttempts | workerReclaim
  | deques | slots (worker : Nat)
  | coroReady | coroLock | timerLock | timerSem
  | threads | threadAlive | threadCleanExit
  | topo (fallback : Bool) | domains (fallback : Bool) | cpuIds (fallback : Bool) (domain : Nat)
  | workerDomainIds | workerCpuIds
  | entry | arg (worker : Nat) | thread (worker : Nat)
  deriving DecidableEq, Repr

open Resource

inductive NumaMode
  | none | auto | virtual
  deriving DecidableEq, Repr

structure Config where
  workerCount : UInt32
  numaMode : NumaMode
  virtualDomains : UInt32
  deriving DecidableEq, Repr

/-- What the system answers: whether a step succeeds, sysconf's count, and for the detection
the number of node directories found and whether the list of a node can be read and parsed,
memory for it apart. -/
structure Env where
  ok : Resource → Bool
  online : Int
  nodes : Nat
  readable : Nat → Bool

def workerCount (cfg : Config) (env : Env) : Nat :=
  if cfg.workerCount = 0 then (min (max env.online 1) 64).toNat * 2 else cfg.workerCount.toNat

def virtualCount (cfg : Config) (env : Env) : Nat :=
  Numa.domainCount ((max env.online 1) % 2 ^ 32).toNat cfg.virtualDomains.toNat

/-- A topology with the number of domains it says it has. -/
structure Topo where
  fallback : Bool
  domainCount : Nat
  deriving DecidableEq, Repr

/-- The resources, and the pointers of the structure that are not NULL. The structure is
zeroed and no pointer is assigned twice. -/
structure Mem where
  inventory : Inventory Resource
  fields : Resource → Bool
  numaTopo : Option Topo

namespace Mem

def acquire (m : Mem) (r : Resource) : Mem := { m with inventory := m.inventory.acquire r }

def release (m : Mem) (r : Resource) : Mem := { m with inventory := m.inventory.release r }

def releaseAll (m : Mem) (rs : List Resource) : Mem :=
  { m with inventory := m.inventory.releaseAll rs }

/-- An allocation stored in a field. -/
def grab (env : Env) (r : Resource) (m : Mem) : Mem :=
  if env.ok r then
    { m with inventory := m.inventory.acquire r, fields := Function.update m.fields r true }
  else m

/-- free of a field, and the field set to NULL. -/
def drop (m : Mem) (r : Resource) : Mem :=
  if m.fields r then
    { m with inventory := m.inventory.release r, fields := Function.update m.fields r false }
  else m

/-- The topology is handed out. -/
def withTopo (m : Mem) (t : Topo) : Mem := { m with numaTopo := some t }

end Mem

/-- Each step runs when the one before it succeeded. -/
def andThen (first : Mem × Bool) (next : Mem → Mem × Bool) : Mem × Bool :=
  if first.2 then next first.1 else first

def initRing (env : Env) (m : Mem) : Mem :=
  let m := m.grab env ring
  if m.fields ring then
    let m := m.grab env cancelSlots
    if m.fields cancelSlots then m else m.drop ring
  else m

def initNodes (env : Env) (m : Mem) : Mem :=
  let m := (m.grab env nodePool).grab env nodeFreeNext
  if m.fields nodePool && m.fields nodeFreeNext then m
  else (m.drop nodePool).drop nodeFreeNext

/-- Arrays the pool cannot do without, one after the other. -/
def initArrays (env : Env) : List Resource → Mem → Mem × Bool
  | [], m => (m, true)
  | r :: rest, m => if env.ok r then initArrays env rest (m.grab env r) else (m, false)

/-- The slots of deque j on, with left of them to go; all deques go when one fails. -/
def initSlots (env : Env) : (left j : Nat) → Mem → Mem
  | 0, _, m => m
  | left + 1, j, m =>
    if env.ok (slots j) then initSlots env left (j + 1) (m.grab env (slots j))
    else (((List.range j).map slots).foldl Mem.drop m).drop deques

def initDeques (env : Env) (count : Nat) (m : Mem) : Mem :=
  let m := m.grab env deques
  if m.fields deques then initSlots env count 0 m else m

def initCoro (env : Env) (m : Mem) : Mem × Bool :=
  if env.ok coroReady then
    let m := m.grab env coroReady
    if env.ok coroLock then
      let m := m.acquire coroLock
      if env.ok timerLock then
        let m := m.acquire timerLock
        if env.ok timerSem then (m.acquire timerSem, true)
        else (((m.release coroLock).release timerLock).drop coroReady, false)
      else ((m.release coroLock).drop coroReady, false)
    else (m.drop coroReady, false)
  else (m, false)

/-- loom_numa_topology_free, by the count of domains in the topology. -/
def topologyFree (topo : Topo) : List Resource :=
  (List.range topo.domainCount).map (cpuIds topo.fallback) ++
    [domains topo.fallback, .topo topo.fallback]

def createSingleDomainFallback (env : Env) (m : Mem) : Mem × Bool :=
  if env.ok (topo true) then
    let m := m.acquire (topo true)
    if env.ok (domains true) then
      let m := m.acquire (domains true)
      if env.ok (cpuIds true 0) then
        ((m.acquire (cpuIds true 0)).withTopo ⟨true, 1⟩, true)
      else ((m.release (domains true)).release (topo true), false)
    else (m.release (topo true), false)
  else (m, false)

/-- The CPU lists of the domains from i on, with left of them to go. -/
def cpuLists (env : Env) (readable : Nat → Bool) : (left i : Nat) → Mem → Mem × Bool
  | 0, _, m => (m, true)
  | left + 1, i, m =>
    if readable i && env.ok (cpuIds false i) then
      cpuLists env readable left (i + 1) (m.acquire (cpuIds false i))
    else (m, false)

/-- A topology of count domains. domain_count is set last, so that the topology given up is
freed as one of no domains; giveUp is what follows. -/
def buildTopology (env : Env) (readable : Nat → Bool) (count : Nat)
    (giveUp : Mem → Mem × Bool) (m : Mem) : Mem × Bool :=
  if env.ok (topo false) then
    let m := m.acquire (topo false)
    if env.ok (domains false) then
      let lists := cpuLists env readable count 0 (m.acquire (domains false))
      if lists.2 then (lists.1.withTopo ⟨false, count⟩, true)
      else giveUp (lists.1.releaseAll (topologyFree ⟨false, 0⟩))
    else (m.release (topo false), false)
  else (m, false)

def loomNumaDetectTopology (env : Env) (m : Mem) : Mem × Bool :=
  if env.nodes = 0 then createSingleDomainFallback env m
  else buildTopology env env.readable env.nodes (createSingleDomainFallback env) m

def loomNumaVirtualTopology (cfg : Config) (env : Env) (m : Mem) : Mem × Bool :=
  buildTopology env (fun _ => true) (virtualCount cfg env) (fun m => (m, false)) m

def initTopology (cfg : Config) (env : Env) (m : Mem) : Mem × Bool :=
  match cfg.numaMode with
  | .auto => loomNumaDetectTopology env m
  | .virtual => loomNumaVirtualTopology cfg env m
  | .none => (m, true)

/-- Both maps are asked for before either is looked at. -/
def initMaps (env : Env) (m : Mem) : Mem × Bool :=
  if m.numaTopo.isSome then
    ((m.grab env workerDomainIds).grab env workerCpuIds,
      env.ok workerDomainIds && env.ok workerCpuIds)
  else (m, true)

/-- pool_init after its first four initialisations: each failure leads to
pool_destroy_internal. -/
def initRest (cfg : Config) (env : Env) (m : Mem) : Mem × Bool :=
  andThen (andThen (andThen (andThen
    (initArrays env [recoveryAttempts, workerReclaim] (initNodes env (initRing env m)))
    fun m => initCoro env (initDeques env (workerCount cfg env) m))
    (initArrays env [threads, threadAlive, threadCleanExit]))
    (initTopology cfg env))
    (initMaps env)

/-- Every release of pool_destroy_internal in its order, for max_worker_count deques. -/
def teardown (count : Nat) (topo : Option Topo) : List Resource :=
  [entry, cancelSlots, ring, nodePool, nodeFreeNext] ++ (List.range count).map slots ++
    [deques, coroReady, coroLock, timerLock, timerSem, drainCond, spaceCond, workSem, lock,
      threads, threadAlive, threadCleanExit, recoveryAttempts, workerReclaim] ++
    topo.elim [] topologyFree ++ [workerDomainIds, workerCpuIds, pool]

/-- Whether a release is made: the guards of pool_destroy_internal, and free of NULL. -/
def released (m : Mem) : Resource → Bool
  | slots j => m.fields deques && m.fields (slots j)
  | coroLock | timerLock | timerSem => m.fields coroReady
  | drainCond | spaceCond | workSem | lock | pool => true
  | topo _ | domains _ | cpuIds _ _ => true
  | r => m.fields r

def poolDestroyInternal (count : Nat) (m : Mem) : Mem :=
  m.releaseAll ((teardown count m.numaTopo).filter (released m))

def poolInit (cfg : Config) (env : Env) (m : Mem) : Mem × Bool :=
  if env.ok lock then
    let m := m.acquire lock
    if env.ok drainCond then
      let m := m.acquire drainCond
      if env.ok workSem then
        let m := m.acquire workSem
        if env.ok spaceCond then
          let rest := initRest cfg env (m.acquire spaceCond)
          if rest.2 then rest else (poolDestroyInternal (workerCount cfg env) rest.1, false)
        else (((m.release workSem).release lock).release drainCond, false)
      else ((m.release lock).release drainCond, false)
    else (m.release lock, false)
  else (m, false)

inductive ErrorCode
  | alloc | thread
  deriving DecidableEq, Repr

/-- What the workers before i hold until they are joined; each frees its argument when it
starts. -/
def workerHoldings (i : Nat) : List Resource :=
  (List.range i).map arg ++ (List.range i).map thread

/-- The workers from i on, with left of them to go. -/
def startWorkers (env : Env) (count : Nat) : (left i : Nat) → Mem → Mem × Option ErrorCode
  | 0, _, m => (m, none)
  | left + 1, i, m =>
    if env.ok (arg i) then
      let m := m.acquire (arg i)
      if env.ok (thread i) then startWorkers env count left (i + 1) (m.acquire (thread i))
      else (poolDestroyInternal count (m.releaseAll (workerHoldings i)), some .thread)
    else (poolDestroyInternal count (m.releaseAll (workerHoldings i)), some .alloc)

def loomPoolCreate (cfg : Config) (env : Env) : Mem × Option ErrorCode :=
  let m : Mem := ⟨.empty, fun _ => false, none⟩
  if env.ok pool then
    let made := poolInit cfg env (m.acquire pool)
    if made.2 then
      startWorkers env (workerCount cfg env) (workerCount cfg env) 0 (made.1.grab env entry)
    else (made.1.release pool, some .alloc)
  else (m, some .alloc)

/-- The call returns an error, and all it acquired has been released exactly once: no block
or lock or registry entry is left, no thread runs, nothing is released twice. -/
def FailsCleanly (cfg : Config) (env : Env) : Prop :=
  (loomPoolCreate cfg env).2 ≠ none ∧ (loomPoolCreate cfg env).1.inventory.Balanced

/-- The first four initialisations. -/
def EarlyGranted (env : Env) : Prop :=
  env.ok lock = true ∧ env.ok drainCond = true ∧ env.ok workSem = true ∧ env.ok spaceCond = true

def FallbackGranted (env : Env) : Prop :=
  env.ok (topo true) = true ∧ env.ok (domains true) = true ∧ env.ok (cpuIds true 0) = true

def ListsGranted (env : Env) (readable : Nat → Bool) (count : Nat) : Prop :=
  ∀ i < count, (readable i && env.ok (cpuIds false i)) = true

def TopologyGranted (cfg : Config) (env : Env) : Prop :=
  match cfg.numaMode with
  | .none => True
  | .virtual => env.ok (topo false) = true ∧ env.ok (domains false) = true ∧
      ListsGranted env (fun _ => true) (virtualCount cfg env)
  | .auto => if env.nodes = 0 then FallbackGranted env
      else env.ok (topo false) = true ∧ env.ok (domains false) = true ∧
        (ListsGranted env env.readable env.nodes ∨ FallbackGranted env)

/-- The steps of pool_init that follow, those it can do without left out. -/
def RestGranted (cfg : Config) (env : Env) : Prop :=
  (∀ r ∈ [recoveryAttempts, workerReclaim, coroReady, coroLock, timerLock, timerSem, threads,
    threadAlive, threadCleanExit], env.ok r = true) ∧
  TopologyGranted cfg env ∧
  (cfg.numaMode ≠ .none → env.ok workerDomainIds = true ∧ env.ok workerCpuIds = true)

/-- Worker i gets its argument and its thread. -/
def WorkerGranted (env : Env) (i : Nat) : Prop := env.ok (arg i) = true ∧ env.ok (thread i) = true

/-- No step that creation depends on fails. -/
def Granted (cfg : Config) (env : Env) : Prop :=
  env.ok pool = true ∧ EarlyGranted env ∧ RestGranted cfg env ∧
    ∀ i < workerCount cfg env, WorkerGranted env i

/-- The detection did not give up a topology that had CPU lists already. -/
def ListsKept (cfg : Config) (env : Env) : Prop :=
  cfg.numaMode = .auto → env.nodes = 0 ∨ ListsGranted env env.readable env.nodes ∨
    (env.readable 0 && env.ok (cpuIds false 0)) = false

/-- What fails first is the structure itself, one of the first four initialisations or a
worker's argument, and no CPU lists were lost. -/
def Harmless (cfg : Config) (env : Env) : Prop :=
  env.ok pool = false ∨ ¬EarlyGranted env ∨
    RestGranted cfg env ∧ ListsKept cfg env ∧
      ∃ i < workerCount cfg env, (∀ j < i, WorkerGranted env j) ∧ env.ok (arg i) = false

/-- What a pool holds, read off its fields. -/
def owned (m : Mem) : Resource → Bool
  | pool | lock | drainCond | workSem | spaceCond => true
  | coroLock | timerLock | timerSem => m.fields coroReady
  | topo fallback | domains fallback => m.numaTopo.any (·.fallback == fallback)
  | cpuIds fallback i =>
    m.numaTopo.any fun t => t.fallback == fallback && decide (i < t.domainCount)
  | arg _ | thread _ => false
  | r => m.fields r

/-- CPU lists of a topology given up, and what the first workers hold. -/
def lost (count : Nat) : Resource → Bool
  | cpuIds false i => decide (i < count)
  | _ => false

def running (count : Nat) : Resource → Bool
  | arg i | thread i => decide (i < count)
  | _ => false

/-- Nothing was released wrongly, and what is held is what the pool owns, the first gone CPU
lists of a topology given up, and what the first started workers hold. -/
structure Holds (count : Nat) (m : Mem) (gone started : Nat) : Prop where
  right : m.inventory.wrong = []
  held : ∀ r, m.inventory.held r = (owned m r || lost gone r || running started r)
  slotted : ∀ j, m.fields (slots j) = true → m.fields deques = true ∧ j < count
  apart : ∀ t ∈ m.numaTopo, t.fallback = false → gone = 0

/-- The blocks of the structure that are held exactly when their field is not NULL, and that
nothing else hangs on but the deques' slots. -/
def plain : Resource → Bool
  | ring | cancelSlots | nodePool | nodeFreeNext | recoveryAttempts | workerReclaim | deques
  | slots _ | threads | threadAlive | threadCleanExit | workerDomainIds | workerCpuIds
  | entry => true
  | _ => false

variable {cfg : Config} {env : Env} {count gone started i j left : Nat} {m : Mem} {r : Resource}

section Fields

theorem owned_of_plain (field : plain r = true) (m : Mem) : owned m r = m.fields r := by
  cases r <;> simp [plain, owned] at field ⊢

theorem plain_apart (field : plain r = true) :
    lost gone r = false ∧ running started r = false := by
  cases r <;> simp [plain, lost, running] at field ⊢

theorem owned_update (field : plain r = true) (b : Bool) (kept : Inventory Resource) (m : Mem)
    (x : Resource) : owned ⟨kept, Function.update m.fields r b, m.numaTopo⟩ x =
      if x = r then b else owned m x := by
  by_cases self : x = r
  · subst self
    rw [owned_of_plain field, if_pos rfl]
    exact Function.update_self x b m.fields
  · have coro : coroReady ≠ r := by
      intro clash
      subst clash
      cases field
    rw [if_neg self]
    cases x <;> simp [owned, Function.update_of_ne, self, coro]

theorem Holds.grab (holds : Holds count m gone started) (field : plain r = true)
    (within : ∀ j, r = slots j → m.fields deques = true ∧ j < count) :
    Holds count (m.grab env r) gone started := by
  unfold Mem.grab
  split
  · refine ⟨holds.right, fun x => ?_, fun j present => ?_, holds.apart⟩
    · rw [owned_update field]
      simp only [Inventory.acquire_held, holds.held x]
      by_cases self : x = r <;> simp [self]
    · by_cases self : slots j = r
      · have inside := within j self.symm
        exact ⟨by simp [← self, inside.1], inside.2⟩
      · have inside := holds.slotted j (by simpa [self] using present)
        refine ⟨?_, inside.2⟩
        by_cases whole : deques = r <;> simp [whole, inside.1]
  · exact holds

theorem Holds.drop (holds : Holds count m gone started) (field : plain r = true)
    (bare : r = deques → ∀ j, m.fields (slots j) = false) :
    Holds count (m.drop r) gone started := by
  unfold Mem.drop
  split
  · rename_i present
    have held : m.inventory.held r = true := by
      rw [holds.held r, owned_of_plain field, present]
      rfl
    refine ⟨(Inventory.release_wrong _ r held).trans holds.right, fun x => ?_, fun j kept => ?_,
      holds.apart⟩
    · rw [owned_update field]
      simp only [Inventory.release_held, holds.held x]
      by_cases self : x = r
      · subst self
        simpa using plain_apart field
      · simp [self]
    · have other : slots j ≠ r := by
        intro self
        simp [self] at kept
      simp only [Function.update_of_ne other] at kept
      have whole : deques ≠ r := by
        intro self
        rw [bare self.symm j] at kept
        cases kept
      simpa only [Function.update_of_ne whole] using holds.slotted j kept
  · exact holds

@[simp] theorem grab_numaTopo (m : Mem) : (m.grab env r).numaTopo = m.numaTopo := by
  unfold Mem.grab
  split <;> rfl

@[simp] theorem drop_numaTopo (m : Mem) : (m.drop r).numaTopo = m.numaTopo := by
  unfold Mem.drop
  split <;> rfl

theorem grab_fields {x : Resource} (other : x ≠ r) (m : Mem) :
    (m.grab env r).fields x = m.fields x := by
  unfold Mem.grab
  split
  · exact Function.update_of_ne other true m.fields
  · rfl

theorem drop_fields {x : Resource} (other : x ≠ r) (m : Mem) :
    (m.drop r).fields x = m.fields x := by
  unfold Mem.drop
  split
  · exact Function.update_of_ne other false m.fields
  · rfl

end Fields

/-- A step that reports success exactly when it is granted, and then leaves what post says. -/
def Succeeds (out : Mem × Bool) (granted : Prop) (post : Mem → Prop) : Prop :=
  (out.2 = true ↔ granted) ∧ (out.2 = true → post out.1)

namespace Succeeds

variable {out : Mem × Bool} {granted granted' : Prop} {post post' : Mem → Prop}

theorem done (holds : post m) (given : granted) : Succeeds (m, true) granted post :=
  ⟨iff_of_true rfl given, fun _ => holds⟩

theorem refused (missing : ¬granted) : Succeeds (m, false) granted post :=
  ⟨iff_of_false Bool.false_ne_true missing, fun clash => by cases clash⟩

theorem mono (succeeds : Succeeds out granted post) (same : granted ↔ granted')
    (weaker : granted → ∀ m, post m → post' m) : Succeeds out granted' post' :=
  ⟨succeeds.1.trans same, fun done => weaker (succeeds.1.mp done) _ (succeeds.2 done)⟩

theorem andThen {next : Mem → Mem × Bool} (first : Succeeds out granted post)
    (second : ∀ m, post m → Succeeds (next m) granted' post') :
    Succeeds (andThen out next) (granted ∧ granted') post' := by
  unfold Creation.andThen
  split
  · rename_i done
    exact (second _ (first.2 done)).mono (by simp [first.1.mp done]) fun _ _ holds => holds
  · rename_i failed
    have missing : ¬granted := fun given => failed (first.1.mpr given)
    exact ⟨iff_of_false failed fun given => missing given.1, fun done => absurd done failed⟩

end Succeeds

section Stages

/-- As Holds, before any topology. -/
def Bare (count : Nat) (m : Mem) : Prop := Holds count m 0 0 ∧ m.numaTopo = none

theorem Bare.grab (bare : Bare count m) (field : plain r = true)
    (within : ∀ j, r = slots j → m.fields deques = true ∧ j < count) :
    Bare count (m.grab env r) :=
  ⟨bare.1.grab field within, (grab_numaTopo m).trans bare.2⟩

theorem Bare.drop (bare : Bare count m) (field : plain r = true)
    (empty : r = deques → ∀ j, m.fields (slots j) = false) : Bare count (m.drop r) :=
  ⟨bare.1.drop field empty, (drop_numaTopo m).trans bare.2⟩

variable (env)

theorem initRing_bare (bare : Bare count m) : Bare count (initRing env m) := by
  have ringed : Bare count (m.grab env ring) := bare.grab rfl (fun j clash => by cases clash)
  have indexed : Bare count ((m.grab env ring).grab env cancelSlots) :=
    ringed.grab rfl (fun j clash => by cases clash)
  unfold initRing
  dsimp only
  split
  · split
    · exact indexed
    · exact indexed.drop rfl (fun clash => by cases clash)
  · exact ringed

theorem initNodes_bare (bare : Bare count m) : Bare count (initNodes env m) := by
  have nodes : Bare count ((m.grab env nodePool).grab env nodeFreeNext) :=
    (bare.grab rfl (fun j clash => by cases clash)).grab rfl (fun j clash => by cases clash)
  unfold initNodes
  dsimp only
  split
  · exact nodes
  · exact (nodes.drop rfl (fun clash => by cases clash)).drop rfl (fun clash => by cases clash)

/-- The arrays of the list are plain fields, none of them the deques or their slots. -/
theorem initArrays_succeeds (rs : List Resource) (bare : Bare count m)
    (fields : ∀ r ∈ rs, plain r = true ∧ r ≠ deques ∧ ∀ j, r ≠ slots j) :
    Succeeds (initArrays env rs m) (∀ r ∈ rs, env.ok r = true)
      fun m' => Bare count m' ∧ m'.fields deques = m.fields deques := by
  induction rs generalizing m with
  | nil => exact .done ⟨bare, rfl⟩ (by simp)
  | cons r rs ih =>
    obtain ⟨field, other, apart⟩ := fields r List.mem_cons_self
    unfold initArrays
    split
    · rename_i granted
      have next : Bare count (m.grab env r) := bare.grab field fun j same => absurd same (apart j)
      have rest := ih next fun x among => fields x (List.mem_cons_of_mem _ among)
      refine rest.mono (by simp [granted]) fun _ m' kept => ⟨kept.1, kept.2.trans ?_⟩
      exact grab_fields other.symm m
    · exact .refused (by simp [*])

/-- Dropping the slots of some deques leaves the deques and the other slots. -/
theorem dropSlots_bare (js : List Nat) (bare : Bare count m) :
    Bare count ((js.map slots).foldl Mem.drop m) ∧
      ∀ k, ((js.map slots).foldl Mem.drop m).fields (slots k) = true →
        m.fields (slots k) = true ∧ k ∉ js := by
  induction js generalizing m with
  | nil => exact ⟨bare, fun k present => ⟨present, List.not_mem_nil⟩⟩
  | cons j js ih =>
    have rest := ih (bare.drop (r := slots j) rfl (fun clash => by cases clash))
    refine ⟨rest.1, fun k present => ?_⟩
    obtain ⟨before, outside⟩ := rest.2 k present
    unfold Mem.drop at before
    split at before
    · by_cases same : k = j
      · subst same
        simp at before
      · simp only [ne_eq, slots.injEq, same, not_false_eq_true, Function.update_of_ne] at before
        exact ⟨before, by simp [same, outside]⟩
    · rename_i absent
      refine ⟨before, fun among => ?_⟩
      rcases List.mem_cons.mp among with same | later
      · exact absent (same ▸ before)
      · exact outside later

theorem initSlots_bare (left j : Nat) (bare : Bare count m) (whole : m.fields deques = true)
    (within : j + left ≤ count) (filled : ∀ k, m.fields (slots k) = true → k < j) :
    Bare count (initSlots env left j m) := by
  induction left generalizing j m with
  | zero => exact bare
  | succ left ih =>
    unfold initSlots
    split
    · rename_i granted
      have next : m.grab env (slots j) = ⟨m.inventory.acquire (slots j),
          Function.update m.fields (slots j) true, m.numaTopo⟩ := if_pos granted
      have kept : Bare count (m.grab env (slots j)) := bare.grab rfl fun k same => by
        cases same
        exact ⟨whole, by omega⟩
      refine ih (j + 1) kept (by simp [next, whole]) (by omega) fun k present => ?_
      by_cases same : k = j
      · omega
      · have before : m.fields (slots k) = true := by simpa [next, same] using present
        exact Nat.lt_succ_of_lt (filled k before)
    · obtain ⟨kept, emptied⟩ := dropSlots_bare (List.range j) bare
      refine kept.drop rfl fun _ k => ?_
      by_contra present
      obtain ⟨before, outside⟩ := emptied k (Bool.eq_true_of_not_eq_false present)
      exact outside (List.mem_range.mpr (filled k before))

theorem initRing_deques (m : Mem) : (initRing env m).fields deques = m.fields deques := by
  unfold initRing
  dsimp only
  split
  · split <;> simp [grab_fields, drop_fields]
  · simp [grab_fields]

theorem initNodes_deques (m : Mem) : (initNodes env m).fields deques = m.fields deques := by
  unfold initNodes
  dsimp only
  split <;> simp [grab_fields, drop_fields]

theorem initDeques_bare (bare : Bare count m) (absent : m.fields deques = false) :
    Bare count (initDeques env count m) := by
  have kept : Bare count (m.grab env deques) := bare.grab rfl (fun j clash => by cases clash)
  unfold initDeques
  dsimp only
  split
  · rename_i whole
    refine initSlots_bare env count 0 kept whole (by omega) fun k present => ?_
    rw [grab_fields (fun clash => by cases clash)] at present
    have deque := (bare.1.slotted k present).1
    rw [absent] at deque
    cases deque
  · exact kept

theorem initCoro_succeeds (bare : Bare count m) :
    Succeeds (initCoro env m) (∀ r ∈ [coroReady, coroLock, timerLock, timerSem], env.ok r = true)
      (Bare count) := by
  unfold initCoro
  split
  · rename_i ready
    split
    · split
      · split
        · refine .done ?_ (by simp [*])
          rw [Mem.grab, if_pos ready]
          refine ⟨⟨bare.1.right, fun r => ?_, fun j present => ?_, bare.1.apart⟩, bare.2⟩
          · simp only [Mem.acquire, Inventory.acquire_held, bare.1.held r]
            cases r <;> simp [owned]
          · simp only [Mem.acquire, ne_eq, reduceCtorEq, not_false_eq_true,
              Function.update_of_ne] at present ⊢
            exact bare.1.slotted j present
        · exact .refused (by simp [*])
      · exact .refused (by simp [*])
    · exact .refused (by simp [*])
  · exact .refused (by simp [*])

end Stages

section Topology

variable (cfg env)

/-- Where the loop stops, and what it holds then. -/
theorem cpuLists_spec (readable : Nat → Bool) (left i : Nat) (m : Mem) :
    ∃ k ≤ left, (∀ j < k, (readable (i + j) && env.ok (cpuIds false (i + j))) = true) ∧
      (k < left → (readable (i + k) && env.ok (cpuIds false (i + k))) = false) ∧
      ((cpuLists env readable left i m).2 = true ↔ k = left) ∧
      (cpuLists env readable left i m).1.fields = m.fields ∧
      (cpuLists env readable left i m).1.numaTopo = m.numaTopo ∧
      (cpuLists env readable left i m).1.inventory.wrong = m.inventory.wrong ∧
      ∀ r, (cpuLists env readable left i m).1.inventory.held r =
        (m.inventory.held r || decide (r ∈ (List.range' i k).map (cpuIds false))) := by
  induction left generalizing i m with
  | zero => exact ⟨0, Nat.le_refl 0, by simp [cpuLists]⟩
  | succ left ih =>
    by_cases granted : (readable i && env.ok (cpuIds false i)) = true
    · obtain ⟨k, inside, before, stop, ends, fields, topo, wrong, held⟩ :=
        ih (i + 1) (m.acquire (cpuIds false i))
      have next : cpuLists env readable (left + 1) i m =
          cpuLists env readable left (i + 1) (m.acquire (cpuIds false i)) := if_pos granted
      rw [next]
      refine ⟨k + 1, by omega, fun j below => ?_, fun below => ?_, ends.trans (by omega), fields,
        topo, wrong, fun r => ?_⟩
      · cases j with
        | zero => exact granted
        | succ j =>
          have later := before j (by omega)
          rwa [Nat.add_right_comm] at later
      · have later := stop (by omega)
        rwa [Nat.add_right_comm] at later
      · rw [held r]
        simp only [Mem.acquire, Inventory.acquire_held, List.range'_succ, List.map_cons,
          List.mem_cons, Bool.decide_or]
        rw [Bool.or_comm (decide (r = cpuIds false i)), Bool.or_assoc]
    · have stopped : cpuLists env readable (left + 1) i m = (m, false) := if_neg granted
      rw [stopped]
      exact ⟨0, Nat.zero_le _, fun j below => absurd below (Nat.not_lt_zero j),
        fun _ => by simpa using granted, by simp, rfl, rfl, rfl, fun r => by simp⟩

theorem mem_cpuLists (k : Nat) (r : Resource) :
    decide (r ∈ (List.range' 0 k).map (cpuIds false)) = lost k r := by
  cases r with
  | cpuIds fallback i => cases fallback <;> simp [lost]
  | _ => simp [lost]

theorem createSingleDomainFallback_succeeds (holds : Holds count m gone 0)
    (none : m.numaTopo = none) :
    Succeeds (createSingleDomainFallback env m) (FallbackGranted env)
      fun m' => Holds count m' gone 0 ∧ m'.numaTopo.isSome = true := by
  unfold createSingleDomainFallback FallbackGranted
  split
  · split
    · split
      · refine .done ⟨⟨holds.right, fun r => ?_, holds.slotted, ?_⟩, rfl⟩ (by simp [*])
        · simp only [Mem.withTopo, Mem.acquire, Inventory.acquire_held, holds.held r]
          cases r with
          | topo fallback | domains fallback => cases fallback <;> simp [owned, none]
          | cpuIds fallback i => cases fallback <;> simp [owned, none, running]
          | _ => simp [owned]
        · rintro t ⟨⟩ clash
          cases clash
      · exact .refused (by simp [*])
    · exact .refused (by simp [*])
  · exact .refused (by simp [*])

/-- The topology is complete, or it is given up with the lists before the first that fails
still held, and what follows decides. -/
theorem buildTopology_succeeds (readable : Nat → Bool) (size : Nat)
    {giveUp : Mem → Mem × Bool} {granted : Prop} (bare : Bare count m)
    (after : ∀ {k m'}, Holds count m' k 0 → m'.numaTopo = none → Succeeds (giveUp m') granted
      fun m' => Holds count m' k 0 ∧ m'.numaTopo.isSome = true) :
    Succeeds (buildTopology env readable size giveUp m)
      (env.ok (topo false) = true ∧ env.ok (domains false) = true ∧
        (ListsGranted env readable size ∨ granted))
      fun m' => ∃ gone, (gone = 0 ↔ ListsGranted env readable size ∨
        (readable 0 && env.ok (cpuIds false 0)) = false) ∧
          Holds count m' gone 0 ∧ m'.numaTopo.isSome = true := by
  unfold buildTopology
  split
  · split
    · rename_i head array
      dsimp only
      obtain ⟨k, inside, before, stop, ends, fields, topo, wrong, held⟩ :=
        cpuLists_spec env readable size 0
          ((m.acquire (Resource.topo false)).acquire (domains false))
      simp only [Nat.zero_add, mem_cpuLists] at before stop held
      generalize cpuLists env readable size 0
        ((m.acquire (Resource.topo false)).acquire (domains false)) = lists at *
      replace fields : lists.1.fields = m.fields := fields
      replace topo : lists.1.numaTopo = none := topo.trans bare.2
      have holding : ∀ r, lists.1.inventory.held r = (decide (r = domains false) ||
          decide (r = Resource.topo false) || owned m r || running 0 r || lost k r) := by
        intro r
        rw [held r]
        simp only [Mem.acquire, Inventory.acquire_held, bare.1.held r]
        cases r with
        | cpuIds fallback i => cases fallback <;> simp [lost, running]
        | _ => simp [lost, running]
      split
      · rename_i done
        obtain rfl := ends.mp done
        refine .done ⟨0, iff_of_true rfl (.inl before), ⟨wrong.trans bare.1.right, fun r => ?_, ?_,
          fun t _ _ => rfl⟩, rfl⟩ ⟨head, array, .inl before⟩
        · rw [Mem.withTopo, holding r]
          cases r with
          | topo fallback | domains fallback | cpuIds fallback =>
            cases fallback <;> simp [owned, lost, running, bare.2]
          | _ => simp [owned, lost, running, fields]
        · simpa [Mem.withTopo, fields] using bare.1.slotted
      · rename_i failed
        have short : k < size := by
          have other : k ≠ size := fun all => failed (ends.mpr all)
          omega
        have missing : ¬ListsGranted env readable size := fun all => by
          have listed := all k short
          rw [stop short] at listed
          cases listed
        have kept : Holds count (lists.1.releaseAll (topologyFree ⟨false, 0⟩)) k 0 := by
          refine ⟨?_, fun r => ?_, ?_, ?_⟩
          · refine (Inventory.releaseAll_wrong _ _ (by decide) fun r among => ?_).trans
              (wrong.trans bare.1.right)
            rw [holding r]
            simp only [topologyFree, List.range_zero, List.map_nil, List.nil_append, List.mem_cons,
              List.not_mem_nil, or_false] at among
            rcases among with rfl | rfl <;> simp
          · simp only [Mem.releaseAll, Inventory.releaseAll_held, holding r]
            cases r with
            | topo fallback | domains fallback =>
              cases fallback <;> simp [owned, lost, running, bare.2, topo, topologyFree]
            | cpuIds fallback i => simp [owned, lost, running, bare.2, topo, topologyFree]
            | _ => simp [owned, lost, running, fields, topologyFree]
          · simpa [Mem.releaseAll, fields] using bare.1.slotted
          · intro t member
            simp [Mem.releaseAll, topo] at member
        refine (after kept topo).mono (by simp [head, array, missing]) fun _ m' made =>
          ⟨k, ⟨fun zero => .inr (zero ▸ stop short), fun either => ?_⟩, made⟩
        by_contra some
        have first := before 0 (by omega)
        rw [either.resolve_left missing] at first
        cases first
    · exact .refused (by simp [*])
  · exact .refused (by simp [*])

theorem initTopology_succeeds (bare : Bare count m) :
    Succeeds (initTopology cfg env m) (TopologyGranted cfg env) fun m' =>
      ∃ gone, (gone = 0 ↔ ListsKept cfg env) ∧ Holds count m' gone 0 ∧
        (m'.numaTopo.isSome = true ↔ cfg.numaMode ≠ .none) := by
  unfold initTopology TopologyGranted ListsKept
  cases mode : cfg.numaMode with
  | none => exact .done ⟨0, by simp, bare.1, by simp [bare.2]⟩ trivial
  | virtual =>
    have made : Succeeds (loomNumaVirtualTopology cfg env m) (_ ∧ _ ∧ (_ ∨ False)) _ :=
      buildTopology_succeeds env (fun _ => true) (virtualCount cfg env) bare
        fun _ _ => .refused not_false
    refine made.mono (by simp) fun granted m' ⟨gone, lists, holds, handed⟩ =>
      ⟨gone, ?_, holds, by simp [handed]⟩
    simpa using lists.mpr (.inl (granted.2.2.resolve_right not_false))
  | auto =>
    unfold loomNumaDetectTopology
    dsimp only
    split
    · rename_i nodes
      refine (createSingleDomainFallback_succeeds env bare.1 bare.2).mono (by simp)
        fun _ m' made => ⟨0, by simp [nodes], made.1, by simp [made.2]⟩
    · rename_i nodes
      refine (buildTopology_succeeds env env.readable env.nodes bare
        (createSingleDomainFallback_succeeds env)).mono (by simp)
        fun _ m' ⟨gone, lists, holds, handed⟩ => ⟨gone, ?_, holds, by simp [handed]⟩
      simpa [nodes] using lists

theorem initMaps_succeeds (placed : ∃ gone, (gone = 0 ↔ ListsKept cfg env) ∧
      Holds count m gone 0 ∧ (m.numaTopo.isSome = true ↔ cfg.numaMode ≠ .none)) :
    Succeeds (initMaps env m)
      (cfg.numaMode ≠ .none → env.ok workerDomainIds = true ∧ env.ok workerCpuIds = true)
      fun m' => ∃ gone, (gone = 0 ↔ ListsKept cfg env) ∧ Holds count m' gone 0 := by
  obtain ⟨gone, lists, holds, handed⟩ := placed
  unfold initMaps
  split
  · rename_i topology
    exact ⟨by simp [handed.mp topology], fun _ => ⟨gone, lists, (holds.grab rfl
      (fun j clash => by cases clash)).grab rfl (fun j clash => by cases clash)⟩⟩
  · rename_i absent
    exact .done ⟨gone, lists, holds⟩ fun placed => absurd (handed.mpr placed) absent

/-- The rest of pool_init succeeds when all it cannot do without is granted, and then nothing
is held that the structure does not know of, but for the lists of a topology given up. -/
theorem initRest_succeeds (bare : Bare (workerCount cfg env) m) (absent : m.fields deques = false) :
    Succeeds (initRest cfg env m) (RestGranted cfg env) fun m' =>
      ∃ gone, (gone = 0 ↔ ListsKept cfg env) ∧ Holds (workerCount cfg env) m' gone 0 := by
  have nodes := initNodes_bare env (initRing_bare env bare)
  have arrays := initArrays_succeeds env [recoveryAttempts, workerReclaim] nodes (by simp [plain])
  rw [initNodes_deques, initRing_deques, absent] at arrays
  have queues := arrays.andThen fun m kept =>
    initCoro_succeeds env (initDeques_bare env kept.1 kept.2)
  have threaded := queues.andThen fun m kept =>
    (initArrays_succeeds env [threads, threadAlive, threadCleanExit] kept (by simp [plain])).mono
      Iff.rfl fun _ m' kept => kept.1
  have topology := threaded.andThen fun m kept => initTopology_succeeds cfg env kept
  have maps := topology.andThen fun m kept => initMaps_succeeds cfg env kept
  refine maps.mono ?_ fun _ _ kept => kept
  simp only [RestGranted, List.mem_cons, List.not_mem_nil, or_false, forall_eq_or_imp, forall_eq,
    and_assoc]

end Topology

section Destroy

theorem teardown_nodup (count : Nat) (topology : Option Topo) : (teardown count topology).Nodup := by
  have slotted : ((List.range count).map slots).Nodup :=
    List.nodup_range.map fun i j same => slots.inj same
  cases topology with
  | none => simp [teardown, List.nodup_append, slotted]
  | some t =>
    have lists : ((List.range t.domainCount).map (cpuIds t.fallback)).Nodup :=
      List.nodup_range.map fun i j same => (cpuIds.inj same).2
    have apart : ∀ j < count, ∀ r, (∃ i < t.domainCount, cpuIds t.fallback i = r) ∨
        r = domains t.fallback ∨ r = topo t.fallback ∨ r = workerDomainIds ∨
          r = workerCpuIds ∨ r = pool → ¬slots j = r := by
      rintro j - r (⟨i, -, rfl⟩ | rfl | rfl | rfl | rfl | rfl) <;> simp
    simpa [teardown, topologyFree, List.nodup_append, slotted, lists] using apart

/-- pool_destroy_internal releases just what the pool owns. -/
theorem mem_teardown (holds : Holds count m gone started) (r : Resource) :
    r ∈ (teardown count m.numaTopo).filter (released m) ↔ owned m r = true := by
  rw [List.mem_filter]
  cases handed : m.numaTopo with
  | none =>
    cases r with
    | slots j =>
      have inside := holds.slotted j
      simp only [teardown, released, owned, Option.elim]
      simp
      tauto
    | _ => simp [teardown, released, owned, handed]
  | some t =>
    cases r with
    | slots j =>
      have inside := holds.slotted j
      simp only [teardown, released, owned, Option.elim, topologyFree]
      simp
      tauto
    | topo | domains => simpa [teardown, released, owned, handed, topologyFree] using eq_comm
    | cpuIds fallback i =>
      simp [teardown, released, owned, handed, topologyFree, and_comm]
    | _ => simp [teardown, released, owned, topologyFree]

/-- After it only the lists of a topology given up are left. -/
theorem poolDestroyInternal_spec (holds : Holds count m gone 0) :
    (poolDestroyInternal count m).inventory.wrong = [] ∧
      ∀ r, (poolDestroyInternal count m).inventory.held r = lost gone r := by
  have none : ∀ r, running 0 r = false := by
    intro r
    cases r <;> simp [running]
  refine ⟨(Inventory.releaseAll_wrong _ _ ((teardown_nodup count m.numaTopo).filter _)
    fun r among => ?_).trans holds.right, fun r => ?_⟩
  · rw [holds.held r, (mem_teardown holds r).mp among]
    rfl
  · unfold poolDestroyInternal
    simp only [Mem.releaseAll, Inventory.releaseAll_held, mem_teardown holds, holds.held r, none r]
    by_cases own : owned m r = true
    · have left : lost gone r = false := by
        cases r with
        | cpuIds fallback i =>
          cases fallback with
          | true => rfl
          | false =>
            obtain ⟨t, handed, same, -⟩ : ∃ t ∈ m.numaTopo, t.fallback = false ∧
                i < t.domainCount := by simpa [owned, Option.any_eq_true] using own
            simp [lost, holds.apart t handed same]
        | _ => rfl
      simp [own, left]
    · simp [own]

theorem poolDestroyInternal_balanced (holds : Holds count m gone 0) :
    (poolDestroyInternal count m).inventory.Balanced ↔ gone = 0 := by
  obtain ⟨right, held⟩ := poolDestroyInternal_spec holds
  constructor
  · intro balanced
    have first := balanced.2 (cpuIds false 0)
    rw [held] at first
    simpa [lost] using first
  · rintro rfl
    refine ⟨right, fun r => ?_⟩
    rw [held]
    cases r with
    | cpuIds fallback i => cases fallback <;> simp [lost]
    | _ => rfl

/-- The structure itself goes with it, so that a second free of it is a fault. -/
theorem poolDestroyInternal_pool (count : Nat) (m : Mem) :
    (poolDestroyInternal count m).inventory.held pool = false := by
  unfold poolDestroyInternal
  simp [Mem.releaseAll, Inventory.releaseAll_held, teardown, released]

end Destroy

section Workers

theorem workerHoldings_nodup (i : Nat) : (workerHoldings i).Nodup := by
  refine List.nodup_append.mpr ⟨List.nodup_range.map fun a b same => arg.inj same,
    List.nodup_range.map fun a b same => thread.inj same, ?_⟩
  simp

theorem mem_workerHoldings (i : Nat) (r : Resource) :
    r ∈ workerHoldings i ↔ running i r = true := by
  cases r <;> simp [workerHoldings, running]

theorem Holds.join (holds : Holds count m gone i) :
    Holds count (m.releaseAll (workerHoldings i)) gone 0 := by
  refine ⟨?_, fun r => ?_, holds.slotted, holds.apart⟩
  · refine (Inventory.releaseAll_wrong _ _ (workerHoldings_nodup i) fun r among => ?_).trans
      holds.right
    rw [holds.held r, (mem_workerHoldings i r).mp among, Bool.or_true]
  · simp only [Mem.releaseAll, Inventory.releaseAll_held, mem_workerHoldings, holds.held r]
    cases r <;> simp [owned, lost, running]

theorem Holds.start (holds : Holds count m gone i) :
    Holds count ((m.acquire (arg i)).acquire (thread i)) gone (i + 1) := by
  refine ⟨holds.right, fun r => ?_, holds.slotted, holds.apart⟩
  have grown : ∀ j, (decide (j = i) || decide (j < i)) = decide (j < i + 1) := by
    intro j
    rw [← Bool.decide_or]
    exact decide_eq_decide.mpr (by omega)
  simp only [Mem.acquire, Inventory.acquire_held, holds.held r]
  cases r with
  | arg j | thread j => simpa [owned, lost, running] using grown j
  | _ => simp [owned, running]

/-- The argument of a thread that could not be created is never freed. -/
theorem argument_left (count i : Nat) (m : Mem) :
    ¬(poolDestroyInternal count
      ((m.acquire (arg i)).releaseAll (workerHoldings i))).inventory.Balanced := by
  intro balanced
  have left := balanced.2 (arg i)
  have outside : arg i ∉ teardown count m.numaTopo := by
    cases m.numaTopo <;> simp [teardown, topologyFree]
  unfold poolDestroyInternal at left
  simp [Mem.releaseAll, Mem.acquire, Inventory.releaseAll_held, workerHoldings, outside] at left

/-- Which of the workers from i on fails first, if one does. -/
theorem startWorkers_spec (env : Env) (left i : Nat) (holds : Holds count m gone i) :
    (∀ j < left, WorkerGranted env (i + j)) ∧ (startWorkers env count left i m).2 = none ∨
      ∃ j < left, (∀ k < j, WorkerGranted env (i + k)) ∧ ¬WorkerGranted env (i + j) ∧
        (startWorkers env count left i m).2 ≠ none ∧
        ((startWorkers env count left i m).1.inventory.Balanced ↔
          gone = 0 ∧ env.ok (arg (i + j)) = false) := by
  induction left generalizing i m with
  | zero => exact .inl ⟨fun j below => absurd below (Nat.not_lt_zero j), rfl⟩
  | succ left ih =>
    unfold startWorkers
    by_cases argument : env.ok (arg i) = true
    · by_cases created : env.ok (thread i) = true
      · simp only [argument, created, ↓reduceIte]
        have own : WorkerGranted env i := ⟨argument, created⟩
        obtain ⟨all, done⟩ | ⟨j, below, before, failing, error, balanced⟩ := ih (i + 1) holds.start
        · refine .inl ⟨fun j below => ?_, done⟩
          cases j with
          | zero => exact own
          | succ j => simpa only [Nat.add_right_comm, Nat.add_assoc] using all j (by omega)
        · rw [Nat.add_assoc, Nat.add_comm 1 j] at failing balanced
          refine .inr ⟨j + 1, by omega, fun k below => ?_, failing, error, balanced⟩
          cases k with
          | zero => exact own
          | succ k => simpa only [Nat.add_right_comm, Nat.add_assoc] using before k (by omega)
      · simp only [argument, created, ↓reduceIte, Bool.false_eq_true]
        refine .inr ⟨0, by omega, fun k below => absurd below (Nat.not_lt_zero k),
          fun own => created own.2, by simp, ?_⟩
        exact iff_of_false (argument_left count i m) fun clash => by
          rw [Nat.add_zero, argument] at clash
          cases clash.2
    · simp only [argument, ↓reduceIte, Bool.false_eq_true]
      refine .inr ⟨0, by omega, fun k below => absurd below (Nat.not_lt_zero k),
        fun own => argument own.1, by simp, ?_⟩
      rw [poolDestroyInternal_balanced holds.join]
      simp [argument]

end Workers

/-- Creation up to the point where the rest of pool_init starts. -/
def begun : Mem :=
  ((((((⟨.empty, fun _ => false, none⟩ : Mem).acquire pool).acquire lock).acquire
    drainCond).acquire workSem).acquire spaceCond)

theorem begun_bare (count : Nat) : Bare count begun := by
  refine ⟨⟨rfl, fun r => ?_, fun j present => ?_, fun t handed => ?_⟩, rfl⟩
  · simp only [begun, Mem.acquire, Inventory.acquire_held, Inventory.empty]
    cases r with
    | cpuIds fallback i => cases fallback <;> simp [owned, lost, running]
    | _ => simp [owned, lost, running]
  · cases present
  · cases handed

theorem loomPoolCreate_begun (present : env.ok pool = true) (early : EarlyGranted env) :
    loomPoolCreate cfg env =
      if (initRest cfg env begun).2 then
        startWorkers env (workerCount cfg env) (workerCount cfg env) 0
          ((initRest cfg env begun).1.grab env entry)
      else ((poolDestroyInternal (workerCount cfg env) (initRest cfg env begun).1).release pool,
        some .alloc) := by
  obtain ⟨one, two, three, four⟩ := early
  unfold loomPoolCreate poolInit
  simp only [present, one, two, three, four, ↓reduceIte, ← begun.eq_def]
  by_cases done : (initRest cfg env begun).2 = true
  · simp only [done, ↓reduceIte]
  · simp only [done, ↓reduceIte, Bool.false_eq_true]

/-- An early failure undoes the steps before it by hand. -/
theorem early_failure (present : env.ok pool = true) (early : ¬EarlyGranted env) :
    FailsCleanly cfg env := by
  unfold FailsCleanly loomPoolCreate poolInit
  by_cases one : env.ok lock = true
  · by_cases two : env.ok drainCond = true
    · by_cases three : env.ok workSem = true
      · have four : env.ok spaceCond ≠ true := fun four => early ⟨one, two, three, four⟩
        simp only [present, one, two, three, four, ↓reduceIte, Bool.false_eq_true]
        exact ⟨by simp, Inventory.balanced_of_perm [pool, lock, drainCond, workSem]
          [workSem, lock, drainCond, pool] (by decide) (by decide)⟩
      · simp only [present, one, two, three, ↓reduceIte, Bool.false_eq_true]
        exact ⟨by simp, Inventory.balanced_of_perm [pool, lock, drainCond]
          [lock, drainCond, pool] (by decide) (by decide)⟩
    · simp only [present, one, two, ↓reduceIte, Bool.false_eq_true]
      exact ⟨by simp, Inventory.balanced_of_perm [pool, lock] [lock, pool] (by decide) (by decide)⟩
  · simp only [present, one, ↓reduceIte, Bool.false_eq_true]
    exact ⟨by simp, Inventory.balanced_of_perm [pool] [pool] (by decide) (by decide)⟩

/-- When a step that creation depends on fails, everything is released exactly once if that
step is the structure's allocation, one of the first four initialisations or a worker's
argument, and no CPU lists were lost by the detection; and in no other case. -/
theorem failed_creation_releases (cfg : Config) (env : Env) (failing : ¬Granted cfg env) :
    FailsCleanly cfg env ↔ Harmless cfg env := by
  by_cases present : env.ok pool = true
  · by_cases early : EarlyGranted env
    · have late : Harmless cfg env ↔ RestGranted cfg env ∧ ListsKept cfg env ∧
          ∃ i < workerCount cfg env, (∀ j < i, WorkerGranted env j) ∧
            env.ok (arg i) = false := by
        simp [Harmless, present, early]
      obtain ⟨granted, holding⟩ := initRest_succeeds cfg env (begun_bare _) rfl
      rw [late, FailsCleanly, loomPoolCreate_begun present early]
      by_cases rest : (initRest cfg env begun).2 = true
      · obtain ⟨gone, kept, holds⟩ := holding rest
        have registered : Holds (workerCount cfg env)
            ((initRest cfg env begun).1.grab env entry) gone 0 :=
          holds.grab rfl (fun j clash => by cases clash)
        rw [if_pos rest]
        obtain ⟨all, -⟩ | ⟨j, below, before, first, error, balanced⟩ :=
          startWorkers_spec env (workerCount cfg env) 0 registered
        · simp only [Nat.zero_add] at all
          exact absurd ⟨present, early, granted.mp rest, all⟩ failing
        · simp only [Nat.zero_add] at before first balanced
          rw [balanced, kept]
          constructor
          · rintro ⟨-, lists, argument⟩
            exact ⟨granted.mp rest, lists, j, below, before, argument⟩
          · rintro ⟨-, lists, i, inside, earlier, argument⟩
            refine ⟨error, lists, ?_⟩
            -- the first worker that fails is the same one
            rcases Nat.lt_trichotomy i j with less | same | more
            · have own := (before i less).1
              rw [argument] at own
              cases own
            · exact same ▸ argument
            · exact absurd (earlier j more) first
      · rw [if_neg rest]
        refine iff_of_false (fun clean => ?_) fun harmless => rest (granted.mpr harmless.1)
        exact Inventory.release_faulty _ pool (poolDestroyInternal_pool _ _) clean.2
    · exact iff_of_true (early_failure present early) (.inr (.inl early))
  · have refused := Bool.eq_false_of_not_eq_true present
    refine iff_of_true ?_ (.inl refused)
    unfold FailsCleanly loomPoolCreate
    simp only [refused, Bool.false_eq_true, ↓reduceIte]
    exact ⟨by simp, Inventory.empty_balanced⟩

/-- The second of two workers gets no argument. -/
theorem failed_creation_releases_second_argument :
    FailsCleanly ⟨2, .none, 0⟩ ⟨fun r => decide (r ≠ arg 1), 1, 0, fun _ => true⟩ := by
  refine (failed_creation_releases _ _ fun granted => ?_).mpr (.inr (.inr ?_))
  · have argument := (granted.2.2.2 1 (by decide)).1
    simp at argument
  · refine ⟨⟨by decide, trivial, fun clash => absurd rfl clash⟩,
      (fun clash => by cases clash), 1, by decide, fun j below => ?_, by decide⟩
    obtain rfl : j = 0 := by omega
    exact ⟨by decide, by decide⟩

/-- Without memory for recovery_attempts pool_init destroys the pool, and loom_pool_create
frees the structure again. -/
theorem structure_freed_twice :
    ¬FailsCleanly ⟨1, .none, 0⟩ ⟨fun r => decide (r ≠ recoveryAttempts), 1, 0, fun _ => true⟩ ∧
      (loomPoolCreate ⟨1, .none, 0⟩ ⟨fun r => decide (r ≠ recoveryAttempts), 1, 0,
        fun _ => true⟩).1.inventory.wrong = [pool] := by
  have wrong : (loomPoolCreate ⟨1, .none, 0⟩ ⟨fun r => decide (r ≠ recoveryAttempts), 1, 0,
      fun _ => true⟩).1.inventory.wrong = [pool] := by
    decide +kernel
  refine ⟨fun clean => ?_, wrong⟩
  have right := clean.2.1
  rw [wrong] at right
  cases right

theorem startWorkers_holds (env : Env) (left i : Nat) (holds : Holds count m gone i)
    (all : ∀ j < left, WorkerGranted env (i + j)) :
    Holds count (startWorkers env count left i m).1 gone (i + left) := by
  induction left generalizing i m with
  | zero => exact holds
  | succ left ih =>
    obtain ⟨argument, created⟩ := all 0 (Nat.succ_pos left)
    rw [Nat.add_zero] at argument created
    simp only [startWorkers, argument, created, ↓reduceIte]
    have later := ih (i + 1) holds.start fun j below => by
      simpa only [Nat.add_assoc, Nat.add_comm 1] using all (j + 1) (by omega)
    rwa [Nat.add_assoc, Nat.add_comm 1] at later

/-- loom_pool_shutdown joins the workers, loom_pool_destroy does the rest. -/
def shutdownAndDestroy (count : Nat) (m : Mem) : Mem :=
  poolDestroyInternal count (m.releaseAll (workerHoldings count))

/-- Whatever creation did without, a pool that was created is released exactly once, CPU lists that the
detection gave up apart. -/
theorem created_pool_released (cfg : Config) (env : Env) (granted : Granted cfg env) :
    (shutdownAndDestroy (workerCount cfg env) (loomPoolCreate cfg env).1).inventory.Balanced ↔
      ListsKept cfg env := by
  obtain ⟨present, early, rest, workers⟩ := granted
  obtain ⟨given, holding⟩ := initRest_succeeds cfg env (begun_bare _) rfl
  obtain ⟨gone, kept, holds⟩ := holding (given.mpr rest)
  have registered : Holds (workerCount cfg env) ((initRest cfg env begun).1.grab env entry) gone 0 :=
    holds.grab rfl (fun j clash => by cases clash)
  have running := startWorkers_holds env (workerCount cfg env) 0 registered (by simpa using workers)
  rw [Nat.zero_add] at running
  rw [← kept, loomPoolCreate_begun present early, if_pos (given.mpr rest)]
  exact poolDestroyInternal_balanced running.join

/-- A pool without a ring. -/
theorem created_pool_released_ringless :
    (shutdownAndDestroy 2 (loomPoolCreate ⟨2, .none, 0⟩
      ⟨fun r => decide (r ≠ ring), 1, 0, fun _ => true⟩).1).inventory.Balanced := by
  refine (created_pool_released _ _ ?_).mpr fun clash => by cases clash
  exact ⟨rfl, ⟨rfl, rfl, rfl, rfl⟩, ⟨by decide, trivial, fun clash => absurd rfl clash⟩,
    fun _ _ => ⟨rfl, rfl⟩⟩

end Loomworks.Pool.Creation

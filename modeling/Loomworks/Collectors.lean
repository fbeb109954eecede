import Loomworks.Future
import Loomworks.Threads
import Loomworks.Transition

/- The references between pools and metrics collectors (src/metrics.c,
loom_pool_set_metrics and the end of pool_destroy_internal). Memory is what is
live at each address; an address is used again once it has been freed. A store
through a pointer to freed memory is lost here, or hits what lives there now. -/
namespace Loomworks.Metrics

open Transition
open Function (update update_of_ne update_self)

/-- What the metrics functions read and write of a pool; NULL is 0. -/
structure PoolRecord where
  metrics : Nat := 0
  metricCb : Nat := 0
  metricUserData : Nat := 0
  deriving DecidableEq, Repr

/-- struct loom_metrics without its counters. -/
structure Collector where
  pool : Nat
  cb : Nat
  userData : Nat
  deriving DecidableEq, Repr

structure State where
  pools : Nat → Option PoolRecord := fun _ => none
  collectors : Nat → Option Collector := fun _ => none

/-- Store into the pool at an address. -/
def State.storePool (s : State) (pool : Nat) (write : PoolRecord → PoolRecord) : State :=
  { s with pools := update s.pools pool ((s.pools pool).map write) }

/-- Store into the collector at an address. -/
def State.storeCollector (s : State) (m : Nat) (write : Collector → Collector) : State :=
  { s with collectors := update s.collectors m ((s.collectors m).map write) }

def State.freeCollector (s : State) (m : Nat) : State :=
  { s with collectors := update s.collectors m none }

def loomPoolSetMetricsCallback (s : State) (pool cb userData : Nat) : State :=
  if pool = 0 then s
  else if cb = 0 then
    s.storePool pool fun record => { record with metricCb := 0, metricUserData := 0 }
  else s.storePool pool fun record => { record with metricCb := cb, metricUserData := userData }

def loomPoolSetMetrics (s : State) (pool m : Nat) : State :=
  if pool = 0 then s else s.storePool pool fun record => { record with metrics := m }

/-- What calloc and pthread_mutex_init do in loom_metrics_create. -/
structure CreateEnv where
  memory : Option Nat
  mutexOk : Bool
  deriving DecidableEq, Repr

def loomMetricsCreate (s : State) (pool cb data : Nat) (out : Bool) (env : CreateEnv) :
    State × LoomResult :=
  if pool = 0 ∨ out = false then (s, .errInvalid)
  else match env.memory with
    | none => (s, .errAlloc)
    | some m =>
      let allocated := { s with collectors := update s.collectors m (some ⟨pool, cb, data⟩) }
      let registered := loomPoolSetMetrics (loomPoolSetMetricsCallback allocated pool cb data) pool m
      if env.mutexOk then (registered, .ok) else (registered.freeCollector m, .errAlloc)

/-- The argument points to m. -/
def loomMetricsDestroy (s : State) (m : Nat) : State :=
  match s.collectors m with
  | none => s
  | some c =>
    let detached := if c.pool = 0 then s
      else loomPoolSetMetricsCallback (loomPoolSetMetrics s c.pool 0) c.pool 0 0
    detached.freeCollector m

def loomMetricsClearPool (s : State) (m : Nat) : State :=
  if m = 0 then s else s.storeCollector m fun c => { c with pool := 0 }

/-- pool_destroy_internal from the call of loom_metrics_clear_pool on. -/
def poolDestroyInternal (s : State) (pool : Nat) : State :=
  match s.pools pool with
  | none => s
  | some record =>
    let cleared := loomMetricsClearPool s record.metrics
    { cleared with pools := update cleared.pools pool none }

inductive Label where
  /-- A pool is created at this address. -/
  | poolCreate (pool : Nat)
  | poolDestroy (pool : Nat)
  | metricsCreate (pool cb data : Nat) (out : Bool) (env : CreateEnv)
  | metricsDestroy (m : Nat)
  deriving DecidableEq, Repr

/-- The allocator only hands out what is not in use. -/
def State.free (s : State) (address : Nat) : Bool :=
  decide (address ≠ 0) && (s.pools address).isNone && (s.collectors address).isNone

/-- Clients pass NULL or what is live. -/
def step (s : State) : Label → Option State
  | .poolCreate pool =>
    if s.free pool then some { s with pools := update s.pools pool (some {}) } else none
  | .poolDestroy pool =>
    if (s.pools pool).isSome then some (poolDestroyInternal s pool) else none
  | .metricsCreate pool cb data out env =>
    if (pool = 0 ∨ (s.pools pool).isSome) ∧ env.memory.all s.free then
      some (loomMetricsCreate s pool cb data out env).1
    else none
  | .metricsDestroy m =>
    if m = 0 then some s
    else if (s.collectors m).isSome then some (loomMetricsDestroy s m)
    else none

def start : State := {}

/-- Each pointer is NULL or points to something live. -/
structure ReferencesValid (s : State) : Prop where
  metrics : ∀ pool record, s.pools pool = some record →
    record.metrics = 0 ∨ (s.collectors record.metrics).isSome
  pool : ∀ m c, s.collectors m = some c → c.pool = 0 ∨ (s.pools c.pool).isSome

/-- The pool events are reported to this collector. -/
def Attached (s : State) (pool m : Nat) : Prop :=
  m ≠ 0 ∧ (s.pools pool).map (·.metrics) = some m

instance (s : State) (pool m : Nat) : Decidable (Attached s pool m) := by
  unfold Attached
  infer_instance

/-- Destroying a collector leaves the others attached, and their pool pointers alone. -/
def KeepsOthers (s : State) : Label → Prop
  | .metricsDestroy m => ∀ s', step s (.metricsDestroy m) = some s' → ∀ other, other ≠ m →
      s'.collectors other = s.collectors other ∧
        ∀ pool, Attached s pool other → Attached s' pool other
  | _ => True

/-- A pool is destroyed while no collector but its current one refers to it, a
collector while its pool has no other current one, and a collector is only
created when its mutex can be. -/
def Orderly (s : State) (label : Label) : Prop :=
  (step s label).isSome → match label with
  | .poolCreate _ => True
  | .poolDestroy pool => ∀ m c, s.collectors m = some c → c.pool = pool → Attached s pool m
  | .metricsCreate pool _ _ out env =>
    pool ≠ 0 → out = true → env.memory.isSome → env.mutexOk = true
  | .metricsDestroy m =>
    ∀ c, s.collectors m = some c → ∀ other, Attached s c.pool other → other = m

/-- The pointers agree: the current collector of a pool refers back to it. -/
structure Linked (s : State) : Prop where
  nonnull : s.pools 0 = none ∧ s.collectors 0 = none
  back : ∀ {pool m}, Attached s pool m → ∃ c, s.collectors m = some c ∧ c.pool = pool
  live : ∀ {m c}, s.collectors m = some c → c.pool = 0 ∨ (s.pools c.pool).isSome

variable {s s' : State} {label : Label} {pool m : Nat}

theorem Linked.referencesValid (linked : Linked s) : ReferencesValid s := by
  constructor
  · intro pool record at_
    by_cases null : record.metrics = 0
    · exact Or.inl null
    · obtain ⟨c, collector, -⟩ := @Linked.back s linked pool _ ⟨null, by rw [at_]; rfl⟩
      rw [collector]
      exact Or.inr rfl
  · intro m c at_
    exact linked.live at_

theorem linked_start : Linked start := by
  refine ⟨⟨rfl, rfl⟩, ?_, ?_⟩
  · rintro pool m ⟨-, none⟩
    cases none
  · intro m c none
    cases none

@[simp] theorem storePool_pools_self (write : PoolRecord → PoolRecord) :
    (s.storePool pool write).pools pool = (s.pools pool).map write := update_self ..

theorem storePool_pools_of_ne {other : Nat} (differs : other ≠ pool)
    (write : PoolRecord → PoolRecord) :
    (s.storePool pool write).pools other = s.pools other := update_of_ne differs ..

theorem storePool_isSome (write : PoolRecord → PoolRecord) (other : Nat) :
    ((s.storePool pool write).pools other).isSome = (s.pools other).isSome := by
  by_cases same : other = pool
  · rw [same, storePool_pools_self, Option.isSome_map]
  · rw [storePool_pools_of_ne same]

/-- A store that does not write the metrics pointer detaches nobody. -/
theorem attached_storePool (write : PoolRecord → PoolRecord)
    (keeps : ∀ record, (write record).metrics = record.metrics) (p other : Nat) :
    Attached (s.storePool pool write) p other ↔ Attached s p other := by
  unfold Attached
  by_cases same : p = pool
  · rw [same, storePool_pools_self, Option.map_map]
    have unchanged : (·.metrics) ∘ write = (·.metrics) := funext keeps
    rw [unchanged]
  · rw [storePool_pools_of_ne same]

@[simp] theorem setMetricsCallback_collectors (pool cb userData : Nat) :
    (loomPoolSetMetricsCallback s pool cb userData).collectors = s.collectors := by
  unfold loomPoolSetMetricsCallback
  split
  · rfl
  · split <;> rfl

theorem setMetricsCallback_isSome (pool cb userData other : Nat) :
    ((loomPoolSetMetricsCallback s pool cb userData).pools other).isSome =
      (s.pools other).isSome := by
  unfold loomPoolSetMetricsCallback
  split
  · rfl
  · split <;> exact storePool_isSome _ other

theorem attached_setMetricsCallback (pool cb userData p other : Nat) :
    Attached (loomPoolSetMetricsCallback s pool cb userData) p other ↔ Attached s p other := by
  unfold loomPoolSetMetricsCallback
  split
  · exact Iff.rfl
  · split
    · apply attached_storePool
      intro record
      rfl
    · apply attached_storePool
      intro record
      rfl

@[simp] theorem setMetrics_collectors (pool m : Nat) :
    (loomPoolSetMetrics s pool m).collectors = s.collectors := by
  unfold loomPoolSetMetrics
  split <;> rfl

theorem setMetrics_isSome (pool m other : Nat) :
    ((loomPoolSetMetrics s pool m).pools other).isSome = (s.pools other).isSome := by
  unfold loomPoolSetMetrics
  split
  · rfl
  · exact storePool_isSome _ other

theorem attached_setMetrics_of_ne {p other : Nat} (differs : p ≠ pool) :
    Attached (loomPoolSetMetrics s pool m) p other ↔ Attached s p other := by
  unfold loomPoolSetMetrics
  split
  · exact Iff.rfl
  · unfold Attached
    rw [storePool_pools_of_ne differs]

/-- After the store the pool's collector is the one stored. -/
theorem attached_setMetrics_self {other : Nat} (nonnull : pool ≠ 0)
    (attached : Attached (loomPoolSetMetrics s pool m) pool other) : other = m ∧ m ≠ 0 := by
  unfold loomPoolSetMetrics at attached
  rw [if_neg nonnull] at attached
  obtain ⟨isSome, read⟩ := attached
  rw [storePool_pools_self, Option.map_map] at read
  obtain ⟨record, -, stored⟩ := Option.map_eq_some_iff.mp read
  have same : m = other := stored
  exact ⟨same.symm, same ▸ isSome⟩

theorem attached_setMetrics (nonnull : pool ≠ 0) (isLive : (s.pools pool).isSome) (memory : m ≠ 0) :
    Attached (loomPoolSetMetrics s pool m) pool m := by
  obtain ⟨record, at_⟩ := Option.isSome_iff_exists.mp isLive
  unfold loomPoolSetMetrics
  rw [if_neg nonnull]
  refine ⟨memory, ?_⟩
  rw [storePool_pools_self, at_]
  rfl

/-- Freeing a collector nobody refers to keeps the links. -/
theorem Linked.freeCollector (linked : Linked s) (unused : ∀ pool, ¬Attached s pool m) :
    Linked (s.freeCollector m) := by
  refine ⟨⟨linked.nonnull.1, ?_⟩, ?_, ?_⟩
  · show update s.collectors m none 0 = none
    by_cases same : 0 = m
    · rw [← same, update_self]
    · rw [update_of_ne same]
      exact linked.nonnull.2
  · intro pool other attached
    have differs : other ≠ m := by
      rintro rfl
      exact unused pool attached
    obtain ⟨c, at_, back⟩ := @Linked.back s linked pool other attached
    refine ⟨c, ?_, back⟩
    show update s.collectors m none other = some c
    rw [update_of_ne differs]
    exact at_
  · intro other c at_
    change update s.collectors m none other = some c at at_
    by_cases same : other = m
    · rw [same, update_self] at at_
      cases at_
    · rw [update_of_ne same] at at_
      exact linked.live at_

theorem free_iff {address : Nat} : s.free address = true ↔
    address ≠ 0 ∧ s.pools address = none ∧ s.collectors address = none := by
  simp [State.free, and_assoc]

theorem linked_poolCreate (linked : Linked s) (free : s.free pool = true) :
    Linked { s with pools := update s.pools pool (some {}) } := by
  obtain ⟨nonnull, absent, -⟩ := free_iff.mp free
  refine ⟨⟨?_, linked.nonnull.2⟩, ?_, ?_⟩
  · show update s.pools pool (some {}) 0 = none
    rw [update_of_ne (Ne.symm nonnull)]
    exact linked.nonnull.1
  · rintro p other ⟨live, read⟩
    by_cases same : p = pool
    · -- a new pool has no collector
      rw [same] at read
      simp only [update_self, Option.map_some, Option.some.injEq] at read
      exact absurd read.symm live
    · simp only [update_of_ne same] at read
      exact linked.back ⟨live, read⟩
  · intro other c at_
    rcases linked.live at_ with null | isLive
    · exact Or.inl null
    · right
      show (update s.pools pool (some {}) c.pool).isSome = true
      by_cases same : c.pool = pool
      · rw [same, update_self]
        rfl
      · rw [update_of_ne same]
        exact isLive

/-- The store of loom_metrics_clear_pool, for a pool that has a collector or not. -/
theorem clearPool_collectors {record : PoolRecord}
    (at_ : s.pools pool = some record) (other : Nat) :
    (loomMetricsClearPool s record.metrics).collectors other =
      if Attached s pool other then (s.collectors other).map fun c => { c with pool := 0 }
      else s.collectors other := by
  have attached : Attached s pool other ↔ other ≠ 0 ∧ record.metrics = other := by
    simp [Attached, at_]
  unfold loomMetricsClearPool
  by_cases null : record.metrics = 0
  · have nobody : ¬Attached s pool other := by
      rw [attached]
      omega
    rw [if_pos null, if_neg nobody]
  · rw [if_neg null]
    show update s.collectors record.metrics _ other = _
    by_cases same : other = record.metrics
    · have mine : Attached s pool other := by
        rw [attached]
        omega
      rw [if_pos mine, same, update_self]
    · have nobody : ¬Attached s pool other := by
        rw [attached]
        omega
      rw [if_neg nobody, update_of_ne same]

theorem clearPool_pools (m : Nat) : (loomMetricsClearPool s m).pools = s.pools := by
  unfold loomMetricsClearPool
  split <;> rfl

theorem linked_poolDestroy (linked : Linked s)
    (orderly : ∀ m c, s.collectors m = some c → c.pool = pool → Attached s pool m) :
    Linked (poolDestroyInternal s pool) := by
  unfold poolDestroyInternal
  cases at_ : s.pools pool with
  | none => exact linked
  | some record =>
    have nonnull : pool ≠ 0 := by
      rintro rfl
      rw [linked.nonnull.1] at at_
      cases at_
    refine ⟨⟨?_, ?_⟩, ?_, ?_⟩
    · show update (loomMetricsClearPool s record.metrics).pools pool none 0 = none
      rw [update_of_ne (Ne.symm nonnull), clearPool_pools]
      exact linked.nonnull.1
    · show (loomMetricsClearPool s record.metrics).collectors 0 = none
      rw [clearPool_collectors at_, if_neg (fun attached => attached.1 rfl)]
      exact linked.nonnull.2
    · rintro p other ⟨live, read⟩
      have differs : p ≠ pool := by
        rintro rfl
        simp at read
      have before : Attached s p other := by
        change Option.map _ (update (loomMetricsClearPool s record.metrics).pools pool none
          p) = some other at read
        rw [update_of_ne differs, clearPool_pools] at read
        exact ⟨live, read⟩
      obtain ⟨c, collector, back⟩ := linked.back before
      refine ⟨c, ?_, back⟩
      -- the collector of another pool is not the one cleared
      have apart : ¬Attached s pool other := by
        intro mine
        obtain ⟨c', collector', back'⟩ := linked.back mine
        rw [collector] at collector'
        cases collector'
        exact differs (back.symm.trans back')
      show (loomMetricsClearPool s record.metrics).collectors other = some c
      rw [clearPool_collectors at_, if_neg apart]
      exact collector
    · intro other c collector
      change (loomMetricsClearPool s record.metrics).collectors other = some c at collector
      rw [clearPool_collectors at_] at collector
      split at collector
      · obtain ⟨_, _, rfl⟩ := Option.map_eq_some_iff.mp collector
        exact Or.inl rfl
      · rename_i apart
        have differs : c.pool ≠ pool := fun same => apart (orderly other c collector same)
        rcases linked.live collector with null | isLive
        · exact Or.inl null
        · right
          show (update (loomMetricsClearPool s record.metrics).pools pool none
            c.pool).isSome = true
          rw [update_of_ne differs, clearPool_pools]
          exact isLive

theorem linked_registered (linked : Linked s) {cb data : Nat} (nonnull : pool ≠ 0)
    (isLive : (s.pools pool).isSome) (free : s.free m = true) :
    Linked (loomPoolSetMetrics (loomPoolSetMetricsCallback
      { s with collectors := update s.collectors m (some ⟨pool, cb, data⟩) }
      pool cb data) pool m) := by
  obtain ⟨memory, -, absent⟩ := free_iff.mp free
  refine ⟨⟨?_, ?_⟩, ?_, ?_⟩
  · apply Option.isNone_iff_eq_none.mp
    rw [← Option.not_isSome, setMetrics_isSome, setMetricsCallback_isSome]
    simp [linked.nonnull.1]
  · simp only [setMetrics_collectors, setMetricsCallback_collectors]
    rw [update_of_ne (Ne.symm memory)]
    exact linked.nonnull.2
  · intro p other attached
    simp only [setMetrics_collectors, setMetricsCallback_collectors]
    by_cases same : p = pool
    · subst same
      obtain ⟨rfl, -⟩ := attached_setMetrics_self nonnull attached
      exact ⟨⟨p, cb, data⟩, update_self .., rfl⟩
    · rw [attached_setMetrics_of_ne same, attached_setMetricsCallback] at attached
      obtain ⟨c, collector, back⟩ := @Linked.back s linked p other attached
      refine ⟨c, ?_, back⟩
      have differs : other ≠ m := by
        rintro rfl
        rw [absent] at collector
        cases collector
      rw [update_of_ne differs]
      exact collector
  · intro other c collector
    simp only [setMetrics_collectors, setMetricsCallback_collectors] at collector
    rw [setMetrics_isSome, setMetricsCallback_isSome]
    by_cases same : other = m
    · rw [same, update_self] at collector
      cases collector
      exact Or.inr isLive
    · rw [update_of_ne same] at collector
      exact linked.live collector

theorem linked_metricsCreate (linked : Linked s) {cb data : Nat} {out : Bool} {env : CreateEnv}
    (passed : pool = 0 ∨ (s.pools pool).isSome) (fresh : env.memory.all s.free = true)
    (orderly : pool ≠ 0 → out = true → env.memory.isSome → env.mutexOk = true) :
    Linked (loomMetricsCreate s pool cb data out env).1 := by
  unfold loomMetricsCreate
  by_cases invalid : pool = 0 ∨ out = false
  · rw [if_pos invalid]
    exact linked
  · rw [if_neg invalid]
    have nonnull : pool ≠ 0 := fun null => invalid (Or.inl null)
    have given : out = true := by
      cases out
      · exact absurd (Or.inr rfl) invalid
      · rfl
    cases memory : env.memory with
    | none => exact linked
    | some m =>
      have mutexOk := orderly nonnull given (by rw [memory]; rfl)
      rw [memory] at fresh
      simp only [mutexOk, ↓reduceIte]
      exact linked_registered linked nonnull (passed.resolve_left nonnull) fresh

/-- What the pool functions called by loom_metrics_destroy leave. -/
theorem linked_detached (linked : Linked s) (nonnull : pool ≠ 0) :
    Linked (loomPoolSetMetricsCallback (loomPoolSetMetrics s pool 0) pool 0 0) ∧
      ∀ other, ¬Attached (loomPoolSetMetricsCallback (loomPoolSetMetrics s pool 0) pool 0 0)
        pool other := by
  have nobody : ∀ other,
      ¬Attached (loomPoolSetMetricsCallback (loomPoolSetMetrics s pool 0) pool 0 0) pool other := by
    intro other attached
    rw [attached_setMetricsCallback] at attached
    exact (attached_setMetrics_self nonnull attached).2 rfl
  refine ⟨⟨⟨?_, ?_⟩, ?_, ?_⟩, nobody⟩
  · apply Option.isNone_iff_eq_none.mp
    rw [← Option.not_isSome, setMetricsCallback_isSome, setMetrics_isSome]
    simp [linked.nonnull.1]
  · simp only [setMetrics_collectors, setMetricsCallback_collectors]
    exact linked.nonnull.2
  · intro p other attached
    simp only [setMetrics_collectors, setMetricsCallback_collectors]
    have differs : p ≠ pool := by
      rintro rfl
      exact nobody other attached
    rw [attached_setMetricsCallback, attached_setMetrics_of_ne differs] at attached
    exact linked.back attached
  · intro other c collector
    simp only [setMetrics_collectors, setMetricsCallback_collectors] at collector
    rw [setMetricsCallback_isSome, setMetrics_isSome]
    exact linked.live collector

theorem linked_metricsDestroy (linked : Linked s) : Linked (loomMetricsDestroy s m) := by
  unfold loomMetricsDestroy
  cases collector : s.collectors m with
  | none => exact linked
  | some c =>
    by_cases null : c.pool = 0
    · simp only [null, ↓reduceIte]
      apply linked.freeCollector
      intro p attached
      obtain ⟨c', collector', back⟩ := linked.back attached
      rw [collector] at collector'
      cases collector'
      -- a pool that is attached to m is at address 0
      have zero : p = 0 := back.symm.trans null
      rw [zero] at attached
      have read := attached.2
      rw [linked.nonnull.1] at read
      cases read
    · simp only [null, ↓reduceIte]
      obtain ⟨linked', nobody⟩ := linked_detached linked null
      apply linked'.freeCollector
      intro p attached
      obtain ⟨c', collector', back⟩ := linked'.back attached
      simp only [setMetrics_collectors, setMetricsCallback_collectors] at collector'
      rw [collector] at collector'
      cases collector'
      rw [← back] at attached
      exact nobody m attached

theorem linked_step (linked : Linked s) (orderly : Orderly s label)
    (taken : step s label = some s') : Linked s' := by
  have orderly := orderly (by rw [taken]; rfl)
  cases label with
  | poolCreate pool =>
    simp only [step, Option.ite_none_right_eq_some] at taken
    cases taken.2
    exact linked_poolCreate linked taken.1
  | poolDestroy pool =>
    simp only [step, Option.ite_none_right_eq_some] at taken
    cases taken.2
    exact linked_poolDestroy linked orderly
  | metricsCreate pool cb data out env =>
    simp only [step, Option.ite_none_right_eq_some] at taken
    cases taken.2
    exact linked_metricsCreate linked taken.1.1 taken.1.2 orderly
  | metricsDestroy m =>
    simp only [step] at taken
    split at taken
    · cases taken
      exact linked
    · simp only [Option.ite_none_right_eq_some] at taken
      cases taken.2
      exact linked_metricsDestroy linked

theorem freeCollector_collectors_of_ne {other : Nat} (differs : other ≠ m) :
    (s.freeCollector m).collectors other = s.collectors other := update_of_ne differs ..

/-- The step of loom_metrics_destroy on a live collector. -/
theorem step_metricsDestroy (linked : Linked s) {c : Collector} (collector : s.collectors m = some c) :
    step s (.metricsDestroy m) = some (loomMetricsDestroy s m) := by
  have nonnull : m ≠ 0 := by
    rintro rfl
    rw [linked.nonnull.2] at collector
    cases collector
  simp [step, nonnull, collector]

theorem keepsOthers_of_orderly (linked : Linked s) (orderly : Orderly s label) :
    KeepsOthers s label := by
  cases label with
  | poolCreate => trivial
  | poolDestroy => trivial
  | metricsCreate => trivial
  | metricsDestroy m =>
    intro s' taken other differs
    have orderly := orderly (by rw [taken]; rfl)
    cases collector : s.collectors m with
    | none =>
      simp only [step, collector, Option.isSome_none, Bool.false_eq_true, ↓reduceIte,
        Option.ite_none_right_eq_some] at taken
      cases taken.2
      exact ⟨rfl, fun _ attached => attached⟩
    | some c =>
      rw [step_metricsDestroy linked collector] at taken
      cases taken
      simp only [loomMetricsDestroy, collector]
      rw [freeCollector_collectors_of_ne differs]
      by_cases null : c.pool = 0
      · simp only [null, ↓reduceIte]
        exact ⟨trivial, fun _ attached => attached⟩
      · simp only [null, ↓reduceIte, setMetrics_collectors, setMetricsCallback_collectors]
        refine ⟨trivial, fun p attached => ?_⟩
        have apart : p ≠ c.pool := by
          rintro rfl
          exact differs (orderly c collector other attached)
        show Attached (loomPoolSetMetricsCallback (loomPoolSetMetrics s c.pool 0) c.pool 0 0) p other
        rw [attached_setMetricsCallback, attached_setMetrics_of_ne apart]
        exact attached

/-- A step that is not orderly leaves a dangling pointer or detaches a collector. -/
theorem orderly_of_valid (linked : Linked s) (keeps : KeepsOthers s label)
    (valid : ∀ s', step s label = some s' → ReferencesValid s') : Orderly s label := by
  intro enabled
  cases label with
  | poolCreate => trivial
  | poolDestroy pool =>
    intro m c collector refers
    by_contra apart
    have isLive : (s.pools pool).isSome := by
      simp only [step] at enabled
      split at enabled
      · assumption
      · cases enabled
    obtain ⟨record, at_⟩ := Option.isSome_iff_exists.mp isLive
    have after := valid (poolDestroyInternal s pool) (by simp [step, isLive])
    have dangles : (poolDestroyInternal s pool).collectors m = some c := by
      simp only [poolDestroyInternal, at_]
      rw [clearPool_collectors at_, if_neg apart]
      exact collector
    have freed : (poolDestroyInternal s pool).pools pool = none := by
      simp only [poolDestroyInternal, at_]
      exact update_self ..
    rcases after.pool m c dangles with null | isLive
    · rw [← refers, null, linked.nonnull.1] at at_
      cases at_
    · rw [refers, freed] at isLive
      cases isLive
  | metricsCreate pool cb data out env =>
    intro nonnull given allocated
    by_contra failed
    obtain ⟨m, memory⟩ := Option.isSome_iff_exists.mp allocated
    simp only [step] at enabled valid
    split at enabled
    · rename_i passed
      have free : s.free m = true := by
        have fresh := passed.2
        rw [memory] at fresh
        exact fresh
      have after := valid _ (if_pos passed)
      simp only [loomMetricsCreate, nonnull, given, memory, failed, Bool.true_eq_false, or_self,
        ↓reduceIte] at after
      -- the pool keeps the address of the collector that was freed
      have attached : Attached (loomPoolSetMetrics (loomPoolSetMetricsCallback
          { s with collectors := update s.collectors m (some ⟨pool, cb, data⟩) }
          pool cb data) pool m) pool m := by
        apply attached_setMetrics nonnull
        · rw [setMetricsCallback_isSome]
          exact passed.1.resolve_left nonnull
        · exact (free_iff.mp free).1
      obtain ⟨record, at_, current⟩ := Option.map_eq_some_iff.mp attached.2
      rcases after.metrics pool record at_ with null | isLive
      · exact attached.1 (current.symm.trans null)
      · rw [current] at isLive
        simp [State.freeCollector] at isLive
    · cases enabled
  | metricsDestroy m =>
    intro c collector other attached
    by_contra differs
    have kept := (keeps _ (step_metricsDestroy linked collector) other differs).2 c.pool attached
    have nonnull : c.pool ≠ 0 := by
      intro null
      have read := attached.2
      rw [null, linked.nonnull.1] at read
      cases read
    simp only [loomMetricsDestroy, collector, nonnull, ↓reduceIte] at kept
    exact (linked_detached linked nonnull).2 other kept

/-- Exactly as long as pools and collectors are created and destroyed in order, no
pointer dangles and no collector is detached by the end of another. -/
theorem references_valid_iff_orderly (labels : List Label) :
    (Always step ReferencesValid start labels ∧ Meets step KeepsOthers start labels) ↔
      Meets step Orderly start labels := by
  constructor
  · rintro ⟨valid, keeps⟩
    apply @meets_of_always _ _ step Linked ReferencesValid KeepsOthers
    · intro s s' label linked _ orderly taken
      exact linked_step linked orderly taken
    · intro s label linked keeps valid
      exact orderly_of_valid linked keeps valid
    · exact linked_start
    · exact keeps
    · exact valid
  · intro orderly
    constructor
    · apply @always_of_meets _ _ step Linked ReferencesValid Orderly
      · intro s s' label linked orderly taken
        exact linked_step linked orderly taken
      · intro s linked
        exact linked.referencesValid
      · exact linked_start
      · exact orderly
    · apply @Meets.of_invariant _ _ step Linked Orderly KeepsOthers
      · intro s s' label linked orderly taken
        exact linked_step linked orderly taken
      · intro s label linked orderly
        exact keepsOthers_of_orderly linked orderly
      · exact linked_start
      · exact orderly

/-- A collector at address 20 whose mutex cannot be initialised. -/
def mutexFails : List Label := [.poolCreate 10, .metricsCreate 10 1 2 true ⟨some 20, false⟩]

/-- Two collectors of one pool. -/
def twoCollectors : List Label :=
  [.poolCreate 10, .metricsCreate 10 1 2 true ⟨some 20, true⟩,
   .metricsCreate 10 3 4 true ⟨some 30, true⟩]

/-- The pool keeps the address of a collector that could not be set up; the end of the
first of two collectors takes the pool from the second; and a pool that goes before
its two collectors leaves the first with its address. -/
theorem collectors_left_dangling :
    (∃ s, exec step start mutexFails = some s ∧
      s.pools 10 = some ⟨20, 1, 2⟩ ∧ s.collectors 20 = none ∧ ¬ReferencesValid s) ∧
    (∃ s, exec step start twoCollectors = some s ∧
      s.pools 10 = some ⟨30, 3, 4⟩ ∧ ¬KeepsOthers s (.metricsDestroy 20)) ∧
    (∃ s, exec step start (twoCollectors ++ [.poolDestroy 10]) = some s ∧
      s.pools 10 = none ∧ s.collectors 20 = some ⟨10, 1, 2⟩ ∧ ¬ReferencesValid s) := by
  refine ⟨⟨_, rfl, rfl, rfl, fun valid => ?_⟩, ⟨_, rfl, rfl, fun keeps => ?_⟩,
    ⟨_, rfl, rfl, rfl, fun valid => ?_⟩⟩
  · rcases valid.metrics 10 ⟨20, 1, 2⟩ rfl with null | isLive
    · cases null
    · cases isLive
  · have kept := (keeps _ rfl 30 (by decide)).2 10 ⟨by decide, rfl⟩
    have detached : (0 : Nat) = 30 := Option.some.inj kept.2
    cases detached
  · rcases valid.pool 20 ⟨10, 1, 2⟩ rfl with null | isLive
    · cases null
    · cases isLive

end Loomworks.Metrics

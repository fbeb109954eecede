import Mathlib

/- loom_runtime_create and loom_runtime_destroy (src/runtime.c) with the shared-memory
region they attach (src/metrics_shm.c). Strings are byte lists without their NUL. -/
namespace Loomworks.Runtime

/-- A C string: its bytes before the NUL. -/
structure CString where
  bytes : List UInt8
  noNul : 0 ∉ bytes

/-- The bytes a C function reads as a string from memory that starts here. -/
def readString (memory : List UInt8) : List UInt8 := memory.takeWhile (· ≠ 0)

/-- sizeof(rt->shm_name). -/
def nameSize : Nat := 128

/-- memcpy of n bytes over the start of a buffer. -/
def memcpy (buffer source : List UInt8) (n : Nat) : List UInt8 := source.take n ++ buffer.drop n

/-- The 128 bytes of rt->shm_name once loom_runtime_create has copied the name; the block
comes zeroed from calloc. -/
def copyName (name : Option CString) : List UInt8 :=
  let zeroed := List.replicate nameSize 0
  match name with
  | some name =>
    let len := if name.bytes.length ≥ nameSize then nameSize - 1 else name.bytes.length
    memcpy zeroed (name.bytes ++ [0]) (len + 1)
  | none => zeroed.set 0 0

/-- LOOMWORKS_SHM_NAME_MAX. -/
def shmNameMax : Nat := 127

/-- LOOMWORKS_SHM_PREFIX, "/loomworks_". -/
def shmStem : List UInt8 := "/loomworks_".toUTF8.toList

def nameByte (c : UInt8) : Bool :=
  (97 ≤ c && c ≤ 122) || (65 ≤ c && c ≤ 90) || (48 ≤ c && c ≤ 57) || c == 95

def validateName (name : List UInt8) : Bool :=
  !name.isEmpty && name.length ≤ shmNameMax && name.all nameByte

/-- build_path into a buffer of bufsz bytes; none is -1. -/
def buildPath (bufsz : Nat) (name : List UInt8) : Option (List UInt8) :=
  if (shmStem ++ name).length ≥ bufsz then none else some (shmStem ++ name)

/-- The outcome of the calls that create the region. -/
structure ShmEnv where
  shmOpen : Bool := true
  ftruncate : Bool := true
  mmap : Bool := true
  deriving DecidableEq, Repr

/-- The path given to shm_open, if the call comes that far, and whether the region is there. -/
structure ShmCreated where
  opened : Option (List UInt8)
  ok : Bool
  deriving DecidableEq, Repr

def loomMetricsShmCreate (name : List UInt8) (env : ShmEnv) : ShmCreated :=
  if validateName name then
    match buildPath 256 name with
    | some path => ⟨some path, env.shmOpen && env.ftruncate && env.mmap⟩
    | none => ⟨none, false⟩
  else ⟨none, false⟩

/-- The path given to shm_unlink, if any. -/
def loomMetricsShmDestroy (name : List UInt8) (munmap : Bool) : Option (List UInt8) :=
  if munmap then buildPath 256 name else none

/-- What there is of a pool outside of its handle. -/
structure Pool where
  shutdown : Bool
  running : Bool
  registered : Bool
  deriving DecidableEq, Repr

/-- What loom_runtime_create returns instead of OK. -/
inductive Error where
  | errAlloc
  | errThread
  | errInvalid
  /-- (loom_result_t)-1, from loom_metrics_shm_create. -/
  | shmFailed
  deriving DecidableEq, Repr

/-- The outcome of what loom_runtime_create calls: pool is the error of loom_pool_create,
registry whether the pool registry has a free slot, beyond the memory behind the runtime. -/
structure Env where
  out : Bool := true
  alloc : Bool := true
  pool : Option Error := none
  registry : Bool := true
  shm : ShmEnv := {}
  beyond : List UInt8 := []
  deriving DecidableEq, Repr

/-- loom_runtime_t; shm is whether a region is attached. -/
structure LoomRuntime where
  shmName : List UInt8
  shm : Bool
  deriving DecidableEq, Repr

/-- What is returned, *out, the pool the call has made if it is still there, and the path it
gave to shm_open. -/
structure Created where
  error : Option Error := none
  out : Option LoomRuntime := none
  pool : Option Pool := none
  opened : Option (List UInt8) := none
  deriving DecidableEq, Repr

/-- loom_pool_destroy refuses a pool that was not shut down. -/
def loomPoolDestroy (pool : Pool) : Option Pool := if pool.shutdown then none else some pool

def loomRuntimeCreate (name : Option CString) (env : Env) : Created :=
  if env.out = false then { error := some .errInvalid }
  else if env.alloc = false then { error := some .errAlloc }
  else
    let shmName := copyName name
    match env.pool with
    | some error => { error := some error }
    | none =>
      let pool : Pool := { shutdown := false, running := true, registered := env.registry }
      if shmName.head? ≠ some 0 then
        let region := loomMetricsShmCreate (readString (shmName ++ env.beyond)) env.shm
        if region.ok then
          { out := some ⟨shmName, true⟩, pool := some pool, opened := region.opened }
        else
          { error := some .shmFailed, pool := loomPoolDestroy pool, opened := region.opened }
      else { out := some ⟨shmName, false⟩, pool := some pool }

/-- The path loom_runtime_destroy unlinks. -/
def loomRuntimeDestroy (rt : LoomRuntime) (beyond : List UInt8) (munmap : Bool) :
    Option (List UInt8) :=
  if rt.shm then loomMetricsShmDestroy (readString (rt.shmName ++ beyond)) munmap else none

/-- An error leaves no runtime and no pool behind, success a running pool and the region that
was named. -/
def AllOrNothing (name : Option CString) (created : Created) : Prop :=
  (created.error ≠ none → created.out = none ∧
    ∀ pool ∈ created.pool, pool.running = false ∧ pool.registered = false) ∧
  (created.error = none → ∃ rt, created.out = some rt ∧
    (∃ pool ∈ created.pool, pool.running = true) ∧
    ∀ given ∈ name, given.bytes ≠ [] → rt.shm = true)

/-- No region is asked for, or it can be made. -/
def ShmGranted (name : Option CString) (env : ShmEnv) : Prop :=
  ∀ given ∈ name, given.bytes ≠ [] →
    validateName given.bytes = true ∧ (env.shmOpen && env.ftruncate && env.mmap) = true

/-- The buffer holds the name, and the region that the runtime opens and unlinks has the name
behind the fixed part. -/
structure Handled (name : CString) : Prop where
  terminated : 0 ∈ copyName (some name)
  copied : name.bytes.length ≤ 127 → readString (copyName (some name)) = name.bytes
  paths : ∀ env path, (loomRuntimeCreate (some name) env).opened = some path →
    validateName name.bytes = true ∧ path = shmStem ++ name.bytes ∧
      ∀ rt ∈ (loomRuntimeCreate (some name) env).out, ∀ beyond munmap,
        loomRuntimeDestroy rt beyond munmap = if munmap then some path else none

variable {name : CString}

theorem copyName_short (short : name.bytes.length ≤ 127) :
    copyName (some name) = name.bytes ++ List.replicate (nameSize - name.bytes.length) 0 := by
  have inside : ¬name.bytes.length ≥ nameSize := Nat.not_le.mpr (Nat.lt_succ_of_le short)
  unfold copyName memcpy
  dsimp only
  rw [if_neg inside, List.take_of_length_le (by simp), List.drop_replicate, List.append_assoc]
  have rest : nameSize - name.bytes.length = nameSize - (name.bytes.length + 1) + 1 := by
    unfold nameSize at *
    omega
  rw [rest, List.replicate_succ]
  rfl

/-- A longer name fills the buffer and leaves no room for the NUL. -/
theorem copyName_long (long : 128 ≤ name.bytes.length) :
    copyName (some name) = name.bytes.take 128 := by
  have outside : name.bytes.length ≥ nameSize := long
  unfold copyName memcpy
  dsimp only
  rw [if_pos outside, List.drop_replicate]
  show (name.bytes ++ [0]).take 128 ++ List.replicate 0 0 = _
  rw [List.take_append_of_le_length long, List.replicate_zero, List.append_nil]

theorem length_copyName (name : CString) : (copyName (some name)).length = 128 := by
  rcases Nat.lt_or_ge name.bytes.length 128 with short | long
  · rw [copyName_short (by omega), List.length_append, List.length_replicate]
    unfold nameSize
    omega
  · rw [copyName_long long, List.length_take]
    omega

theorem readString_append (name : CString) (rest : List UInt8) :
    readString (name.bytes ++ 0 :: rest) = name.bytes := by
  have kept : ∀ c ∈ name.bytes, (decide (c ≠ 0)) = true := by
    intro c member
    exact decide_eq_true fun zero => name.noNul (zero ▸ member)
  unfold readString
  rw [List.takeWhile_append_of_pos kept]
  simp

/-- What is read back from the buffer of a name that fits, whatever is behind it. -/
theorem readString_copyName (short : name.bytes.length ≤ 127) (beyond : List UInt8) :
    readString (copyName (some name) ++ beyond) = name.bytes := by
  have rest : nameSize - name.bytes.length = nameSize - name.bytes.length - 1 + 1 := by
    unfold nameSize
    omega
  rw [copyName_short short, rest, List.replicate_succ, List.append_assoc, List.cons_append]
  exact readString_append name _

/-- What is read from an unterminated buffer is longer than any valid name. -/
theorem validateName_long (long : 128 ≤ name.bytes.length) (beyond : List UInt8) :
    validateName (readString (copyName (some name) ++ beyond)) = false := by
  have filled : ∀ c ∈ copyName (some name), (decide (c ≠ 0)) = true := by
    intro c member
    rw [copyName_long long] at member
    exact decide_eq_true fun zero => name.noNul (zero ▸ List.mem_of_mem_take member)
  have length : 128 ≤ (readString (copyName (some name) ++ beyond)).length := by
    unfold readString
    rw [List.takeWhile_append_of_pos filled, List.length_append, length_copyName]
    omega
  unfold validateName shmNameMax
  simp only [Bool.and_eq_false_iff, decide_eq_false_iff_not]
  exact Or.inl (Or.inr (by omega))

theorem head_copyName (name : CString) : (copyName (some name)).head? ≠ some 0 ↔ name.bytes ≠ [] := by
  rcases Nat.lt_or_ge name.bytes.length 128 with short | long
  · rw [copyName_short (by omega)]
    cases bytes : name.bytes with
    | nil => simp [nameSize]
    | cons c rest =>
      have nonzero : c ≠ 0 := fun zero => name.noNul (by simp [bytes, zero])
      simp [nonzero]
  · rw [copyName_long long]
    cases bytes : name.bytes with
    | nil => simp [bytes] at long
    | cons c rest =>
      have nonzero : c ≠ 0 := fun zero => name.noNul (by simp [bytes, zero])
      simp [nonzero]

/-- A valid name fits into the path buffer. -/
theorem buildPath_of_valid {bytes : List UInt8} (valid : validateName bytes = true) :
    buildPath 256 bytes = some (shmStem ++ bytes) := by
  have stem : shmStem.length = 11 := by decide +kernel
  unfold validateName shmNameMax at valid
  simp only [Bool.and_eq_true, decide_eq_true_eq] at valid
  unfold buildPath
  rw [if_neg]
  rw [List.length_append, stem]
  omega

theorem shmCreate_of_valid {bytes : List UInt8} (valid : validateName bytes = true) (env : ShmEnv) :
    loomMetricsShmCreate bytes env =
      ⟨some (shmStem ++ bytes), env.shmOpen && env.ftruncate && env.mmap⟩ := by
  unfold loomMetricsShmCreate
  rw [if_pos valid, buildPath_of_valid valid]

theorem shmCreate_of_invalid {bytes : List UInt8} (invalid : validateName bytes = false)
    (env : ShmEnv) : loomMetricsShmCreate bytes env = ⟨none, false⟩ := by
  unfold loomMetricsShmCreate
  rw [if_neg (by simp [invalid])]

/-- The name as loom_metrics_shm_create finds it is the one given, or none it accepts. -/
theorem shmCreate_read (name : CString) (beyond : List UInt8) (env : ShmEnv) :
    loomMetricsShmCreate (readString (copyName (some name) ++ beyond)) env =
      if validateName name.bytes then
        ⟨some (shmStem ++ name.bytes), env.shmOpen && env.ftruncate && env.mmap⟩
      else ⟨none, false⟩ := by
  rcases Nat.lt_or_ge name.bytes.length 128 with short | long
  · rw [readString_copyName (by omega)]
    by_cases valid : validateName name.bytes = true
    · rw [if_pos valid, shmCreate_of_valid valid]
    · rw [if_neg valid, shmCreate_of_invalid (by simpa using valid)]
  · have invalid : validateName name.bytes = false := by
      unfold validateName shmNameMax
      simp only [Bool.and_eq_false_iff, decide_eq_false_iff_not]
      exact Or.inl (Or.inr (by omega))
    rw [shmCreate_of_invalid (validateName_long long beyond), if_neg (by simp [invalid])]

/-- loom_runtime_create once its own block and the pool are there. -/
theorem runtimeCreate_named (name : CString) (named : name.bytes ≠ []) {env : Env}
    (out : env.out = true) (alloc : env.alloc = true) (made : env.pool = none) :
    loomRuntimeCreate (some name) env =
      let pool : Pool := ⟨false, true, env.registry⟩
      if validateName name.bytes then
        if env.shm.shmOpen && env.shm.ftruncate && env.shm.mmap then
          ⟨none, some ⟨copyName (some name), true⟩, some pool, some (shmStem ++ name.bytes)⟩
        else ⟨some .shmFailed, none, some pool, some (shmStem ++ name.bytes)⟩
      else ⟨some .shmFailed, none, some pool, none⟩ := by
  unfold loomRuntimeCreate
  rw [if_neg (by simp [out]), if_neg (by simp [alloc])]
  simp only [made, shmCreate_read]
  rw [if_pos ((head_copyName name).mpr named)]
  by_cases valid : validateName name.bytes = true
  · simp only [valid, ↓reduceIte]
    rfl
  · simp only [valid, Bool.false_eq_true, ↓reduceIte]
    rfl

theorem runtimeCreate_unnamed {name : Option CString} (unnamed : ∀ given ∈ name, given.bytes = [])
    {env : Env} (out : env.out = true) (alloc : env.alloc = true) (made : env.pool = none) :
    loomRuntimeCreate name env =
      ⟨none, some ⟨copyName name, false⟩, some ⟨false, true, env.registry⟩, none⟩ := by
  have head : ¬(copyName name).head? ≠ some 0 := by
    cases name with
    | none => simp [copyName, nameSize]
    | some given => simp [head_copyName, unnamed given rfl]
  unfold loomRuntimeCreate
  rw [if_neg (by simp [out]), if_neg (by simp [alloc])]
  simp only [made]
  rw [if_neg head]

/-- A pool that was never shut down outlives the failure of the region; in all other cases
the creation is all or nothing. -/
theorem runtime_create_all_or_nothing (name : Option CString) (env : Env) :
    AllOrNothing name (loomRuntimeCreate name env) ↔
      env.out = false ∨ env.alloc = false ∨ env.pool ≠ none ∨ ShmGranted name env.shm := by
  by_cases out : env.out = true
  swap
  · have failed : loomRuntimeCreate name env = { error := some .errInvalid } := by
      simp [loomRuntimeCreate, out]
    simp [failed, AllOrNothing, out]
  by_cases alloc : env.alloc = true
  swap
  · have failed : loomRuntimeCreate name env = { error := some .errAlloc } := by
      simp [loomRuntimeCreate, out, alloc]
    simp [failed, AllOrNothing, alloc]
  cases made : env.pool with
  | some error =>
    have failed : loomRuntimeCreate name env = { error := some error } := by
      simp [loomRuntimeCreate, out, alloc, made]
    simp [failed, AllOrNothing]
  | none =>
    by_cases unnamed : ∀ given ∈ name, given.bytes = []
    · have granted : ShmGranted name env.shm :=
        fun given member named => absurd (unnamed given member) named
      rw [runtimeCreate_unnamed unnamed out alloc made]
      refine ⟨fun _ => Or.inr (Or.inr (Or.inr granted)), fun _ => ⟨fun clash => absurd rfl clash, ?_⟩⟩
      exact fun _ => ⟨_, rfl, ⟨_, rfl, rfl⟩, fun given member named =>
        absurd (unnamed given member) named⟩
    · push Not at unnamed
      obtain ⟨given, member, named⟩ := unnamed
      cases name with
      | none => cases member
      | some name =>
        cases member
        rw [runtimeCreate_named given named out alloc made]
        by_cases valid : validateName given.bytes = true
        · by_cases mapped : (env.shm.shmOpen && env.shm.ftruncate && env.shm.mmap) = true
          · simp [AllOrNothing, ShmGranted, valid, mapped]
          · simp [AllOrNothing, ShmGranted, valid, mapped, named, out, alloc]
        · simp [AllOrNothing, ShmGranted, valid, named, out, alloc]

/-- "a b" is no valid name: the caller gets an error and no handle, and the workers run on. -/
theorem pool_outlives_failed_create :
    loomRuntimeCreate (some ⟨[97, 32, 98], by decide⟩) {} =
        { error := some .shmFailed, pool := some ⟨false, true, true⟩ } ∧
      ¬AllOrNothing (some ⟨[97, 32, 98], by decide⟩)
        (loomRuntimeCreate (some ⟨[97, 32, 98], by decide⟩) {}) := by
  have created : loomRuntimeCreate (some ⟨[97, 32, 98], by decide⟩) {} =
      { error := some .shmFailed, pool := some ⟨false, true, true⟩ } := by decide +kernel
  rw [created]
  exact ⟨rfl, fun all => absurd ((all.1 (by decide)).2 _ rfl).1 (by decide)⟩

/-- Only a call that gets its block and its pool opens a region, and only for a valid name. -/
theorem runtimeCreate_opened {env : Env} {path : List UInt8}
    (opened : (loomRuntimeCreate (some name) env).opened = some path) :
    validateName name.bytes = true ∧ path = shmStem ++ name.bytes ∧
      ∀ rt ∈ (loomRuntimeCreate (some name) env).out, rt = ⟨copyName (some name), true⟩ := by
  by_cases out : env.out = true
  swap
  · simp [loomRuntimeCreate, out] at opened
  by_cases alloc : env.alloc = true
  swap
  · simp [loomRuntimeCreate, out, alloc] at opened
  cases made : env.pool with
  | some error => simp [loomRuntimeCreate, out, alloc, made] at opened
  | none =>
    by_cases named : name.bytes = []
    · rw [runtimeCreate_unnamed (fun given member => by cases member; exact named) out alloc made]
        at opened
      cases opened
    rw [runtimeCreate_named name named out alloc made] at opened ⊢
    by_cases valid : validateName name.bytes = true
    · by_cases mapped : (env.shm.shmOpen && env.shm.ftruncate && env.shm.mmap) = true
      · simp only [valid, mapped, ↓reduceIte, Option.some.injEq] at opened ⊢
        exact ⟨trivial, opened.symm, fun rt member => (Option.some.inj member).symm⟩
      · simp only [valid, mapped, Bool.false_eq_true, ↓reduceIte, Option.some.injEq] at opened ⊢
        exact ⟨trivial, opened.symm, fun rt member => by cases member⟩
    · simp [valid] at opened

/-- A name of at most 127 characters is handled as it should be, a longer one never: its copy
fills the buffer and has no NUL. -/
theorem shm_name_handled (name : CString) : Handled name ↔ name.bytes.length ≤ 127 := by
  constructor
  · intro handled
    by_contra long
    have member := handled.terminated
    rw [copyName_long (by omega)] at member
    exact name.noNul (List.mem_of_mem_take member)
  · intro short
    refine ⟨?_, fun _ => ?_, fun env path opened => ?_⟩
    · rw [copyName_short short]
      refine List.mem_append_right _ (List.mem_replicate.mpr ⟨?_, rfl⟩)
      unfold nameSize
      omega
    · simpa using readString_copyName short []
    · obtain ⟨valid, rfl, made⟩ := runtimeCreate_opened opened
      refine ⟨valid, rfl, fun rt member beyond munmap => ?_⟩
      rw [made rt member, loomRuntimeDestroy, if_pos rfl, readString_copyName short,
        loomMetricsShmDestroy, buildPath_of_valid valid]

/-- 128 letters, and no NUL among the 128 bytes of the copy. -/
theorem long_name_unterminated :
    ¬Handled ⟨List.replicate 128 97, by decide +kernel⟩ ∧
      copyName (some ⟨List.replicate 128 97, by decide +kernel⟩) = List.replicate 128 97 := by
  refine ⟨fun handled => ?_, by decide +kernel⟩
  exact absurd handled.terminated (by decide +kernel)

end Loomworks.Runtime

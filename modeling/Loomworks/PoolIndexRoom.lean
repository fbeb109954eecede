import Loomworks.PoolRefines

/- Whether the cancel index always has a slot for a task that goes to the ring. Its size
is fixed by the first worker count; the deques that a resize adds are not counted in. -/
namespace Loomworks.Pool

open Transition

namespace CancelIndex

/-- The live entries. -/
def entries (ix : CancelIndex) : Nat :=
  ((List.range ix.cap).filter fun h => decide (1 < (ix.slots h).taskId)).length

theorem entries_lt {ix : CancelIndex} {h : Nat} (inside : h < ix.cap) (free : (ix.slots h).taskId ≤ 1) :
    ix.entries < ix.cap := by
  have fewer : ix.entries < (List.range ix.cap).length := by
    apply List.length_filter_lt_length_iff_exists.mpr
    exact ⟨h, List.mem_range.mpr inside, by simpa using free⟩
  rwa [List.length_range] at fewer

end CancelIndex

/-- A submit that publishes its task to the ring. -/
def Publishes (s : ThreadPool) : Label → Prop
  | .submit _ priority _ alloc => s.full = false ∧ alloc = true ∧ priority = priorityNormal ∧
      s.deques.isSome = true ∧ s.ring.length < s.ringSize
  | _ => False

/-- The index has room for a full ring and for what bulk dequeues leave in the deques, and
no resize gives the deques up. -/
def Roomy (s : ThreadPool) (label : Label) : Prop :=
  (0 < s.ringSize → s.ringSize + s.maxWorkerCount * dequeRest ≤ s.index.cap) ∧
    match label with
    | .resize count env => ¬s.Degrades count env
    | _ => True

/-- Every task in the ring or a deque that is not cancelled is found by its id and would be cancelled
by it, and an insert finds a slot. -/
def AllIndexed (s : ThreadPool) (label : Label) : Prop :=
  (∀ t ∈ s.pooled, (s.tasks t).cancelled = false →
      cancelIndexFind s.index t = some t ∧ ∀ alloc, (s.loomPoolCancelById t alloc).2 = .ok) ∧
    (Publishes s label → s.index.entries < s.index.cap ∧ s.index.vacant (s.nextTaskId + 1) ≠ none)

/-- The index lists the unflagged tasks of the ring and the deques, and no others. -/
structure Covers (v : View) : Prop where
  pooled : ∀ t ∈ v.live, t ∈ v.pooled
  listed : ∀ t ∈ v.pooled, v.flag t = false → t ∈ v.live

variable {v v' : View} {s s' : ThreadPool} {live live' : Finset Nat} {w t : Nat} {list : List Nat}

namespace Covers

/-- A task leaves the queues and the index together. -/
theorem erase (covers : Covers v) (safe : Safe v) {pooled : List Nat}
    (left : v.pooled.Perm (t :: pooled)) :
    (∀ x ∈ v.live.erase t, x ∈ pooled) ∧
      ∀ x ∈ pooled, v.flag x = false → x ∈ v.live.erase t := by
  have once := left.nodup_iff.mp (List.nodup_append.mp safe.once).1
  constructor
  · intro x member
    obtain ⟨other, listed⟩ := Finset.mem_erase.mp member
    exact (List.mem_cons.mp (left.mem_iff.mp (covers.pooled x listed))).resolve_left other
  · intro x member unflagged
    have other : x ≠ t := fun same => (List.nodup_cons.mp once).1 (same ▸ member)
    have before := left.mem_iff.mpr (List.mem_cons_of_mem t member)
    exact Finset.mem_erase.mpr ⟨other, covers.listed x before unflagged⟩

theorem raise (covers : Covers v) : ∀ x ∈ v.pooled, (v.raise t).flag x = false → x ∈ v.live ∧ x ≠ t := by
  intro x member unflagged
  have other : x ≠ t := by
    intro same
    simp [View.raise, same] at unflagged
  refine ⟨covers.listed x member ?_, other⟩
  simpa [View.raise, other] using unflagged

theorem card_le (covers : Covers v) : v.live.card ≤ v.pooled.length := by
  have sub : v.live ⊆ v.pooled.toFinset := fun t listed => List.mem_toFinset.mpr (covers.pooled t listed)
  exact (Finset.card_le_card sub).trans v.pooled.toFinset_card_le

theorem move (covers : Covers v) (safe : Safe v) (moved : Move True True v v') : Covers v' := by
  have fresh : ∀ x ∈ v.pooled, x ≠ v.nextTaskId + 1 := by
    intro x member same
    have bound := safe.le_of_placed (List.mem_append_left v.lanes member)
    omega
  have old : ∀ x ∈ v.pooled, Function.update v.flag (v.nextTaskId + 1) false x = v.flag x :=
    fun x member => Function.update_of_ne (fresh x member) _ _
  cases moved with
  | coroutines | skipLane | runLane | cancelLane | resume => exact ⟨covers.pooled, covers.listed⟩
  | refuse | submitLane =>
    exact ⟨covers.pooled, fun x member unflagged =>
      covers.listed x member ((old x member).symm.trans unflagged)⟩
  | submitPooled joined indexed older room =>
    have few := covers.card_le
    have spare := room trivial
    have grown := indexed.resolve_right fun full => by omega
    subst grown
    constructor
    · intro x member
      apply joined.mem_iff.mpr
      rcases Finset.mem_insert.mp member with same | listed
      · exact List.mem_cons.mpr (Or.inl same)
      · exact List.mem_cons_of_mem _ (covers.pooled x listed)
    · intro x member unflagged
      rcases List.mem_cons.mp (joined.mem_iff.mp member) with same | before
      · exact Finset.mem_insert.mpr (Or.inl same)
      · exact Finset.mem_insert_of_mem
          (covers.listed x before ((old x before).symm.trans unflagged))
  | skipPooled left | runPooled left | spill left =>
    obtain ⟨pooled, listed⟩ := covers.erase safe left
    exact ⟨pooled, listed⟩
  | cancelPooled =>
    constructor
    · exact fun x member => covers.pooled x (Finset.mem_of_mem_erase member)
    · intro x member unflagged
      obtain ⟨listed, other⟩ := covers.raise x member unflagged
      exact Finset.mem_erase.mpr ⟨other, listed⟩
  | cancelAsleep | flagStale =>
    exact ⟨covers.pooled, fun x member unflagged => (covers.raise x member unflagged).1⟩
  | lose fewer careful =>
    have same := careful trivial
    exact ⟨fun x listed => same.mem_iff.mpr (covers.pooled x listed),
      fun x member => covers.listed x (same.mem_iff.mp member)⟩

theorem moves (covers : Covers v) (safe : Safe v) (moved : Moves True True v v') : Covers v' := by
  induction moved with
  | refl => exact covers
  | tail earlier last ih => exact ih.move (safe.moves earlier) last

end Covers

theorem Holds.live_eq {dataOf dataOf' : Nat → Nat} {ix : CancelIndex} (holds : Holds dataOf ix live)
    (holds' : Holds dataOf' ix live') : live = live' := by
  have sub : ∀ {dataOf dataOf' : Nat → Nat} {live live' : Finset Nat}, Holds dataOf ix live →
      Holds dataOf' ix live' → live ⊆ live' := by
    intro dataOf dataOf' live live' holds holds' t member
    have positive := holds.named member
    obtain ⟨h, inside, own, -⟩ := holds.slot_of_live member
    obtain ⟨owner, listed, other, -⟩ := holds'.occupied inside (by omega)
    have same : owner = t := by omega
    exact same ▸ listed
  exact Finset.Subset.antisymm (sub holds holds') (sub holds' holds)

namespace ThreadPool

theorem holds_spill (list : List Nat) (positive : ∀ t ∈ list, 0 < t)
    (holds : Holds s.dataOf s.index live) :
    Holds (list.foldl spillDequeTask s).dataOf (list.foldl spillDequeTask s).index
      (live \ list.toFinset) := by
  induction list generalizing s live with
  | nil => simpa using holds
  | cons t rest ih =>
    have removed : Holds (s.spillDequeTask t).dataOf (s.spillDequeTask t).index (live.erase t) :=
      holds.remove (positive t List.mem_cons_self)
    have later := ih (fun x member => positive x (List.mem_cons_of_mem t member)) removed
    have same : live.erase t \ rest.toFinset = live \ (t :: rest).toFinset := by
      ext x
      simp only [Finset.mem_sdiff, Finset.mem_erase, List.toFinset_cons, Finset.mem_insert]
      tauto
    rwa [same] at later

theorem spill_frame (list : List Nat) (s : ThreadPool) :
    (list.foldl spillDequeTask s).pooled = s.pooled ∧ (list.foldl spillDequeTask s).tasks = s.tasks := by
  induction list generalizing s with
  | nil => exact ⟨rfl, rfl⟩
  | cons t rest ih => exact ih (s.spillDequeTask t)

/-- A displaced worker takes the tasks of its deque out of the index, flagged or not. -/
theorem Tracked.covers_leave (tracked : s.Tracked live) (covers : Covers (s.view live))
    (left : s.leave w = some s') (after : s'.Tracked live') : Covers (s'.view live') := by
  obtain ⟨leaving, ended, _, same, here, rfl, rfl⟩ := leave_cases left
  have inside : w < s.maxWorkerCount := tracked.shaped.lt_of_alive (by simp [leaving])
  have split := @pooled_clear ended w (by rwa [same.limit])
  have queues : ended.pooled = s.pooled := congrArg View.pooled (same.view ∅)
  have flags : ∀ t, (ended.tasks t).cancelled = (s.tasks t).cancelled :=
    congrFun (congrArg View.flag (same.view ∅))
  rw [queues, here] at split
  have once := split.nodup_iff.mp (List.nodup_append.mp tracked.safe.once).1
  have positive : ∀ t ∈ s.deque w, 0 < t := fun t member =>
    tracked.safe.pos_of_placed (List.mem_append_left _ (split.mem_iff.mpr (List.mem_append_left _ member)))
  have holds : Holds (ended.setDeque w []).dataOf (ended.setDeque w []).index live := by
    have kept : Holds ended.dataOf ended.index live := by
      rw [same.data, same.index]
      exact tracked.holds
    exact kept
  have listed : live' = live \ (s.deque w).toFinset := by
    have removed := holds_spill (s.deque w) positive holds
    rw [← here] at removed ⊢
    exact after.holds.live_eq removed
  obtain ⟨queued, tasks⟩ := spill_frame (ended.deque w) (ended.setDeque w [])
  subst listed
  constructor
  · intro t member
    obtain ⟨before, outside⟩ := Finset.mem_sdiff.mp member
    have placed := List.mem_append.mp (split.mem_iff.mp (covers.pooled t before))
    have rest := placed.resolve_left (by simpa using outside)
    rw [← queued] at rest
    exact rest
  · intro t member unflagged
    have rest : t ∈ (ended.setDeque w []).pooled := by
      rw [← queued]
      exact member
    have calm : (s.tasks t).cancelled = false := by
      rw [← flags t]
      rw [← unflagged]
      exact (congrArg (fun tasks => (tasks t).cancelled) tasks).symm
    have before := covers.listed t (split.mem_iff.mpr (List.mem_append_right _ rest)) calm
    refine Finset.mem_sdiff.mpr ⟨before, fun here => ?_⟩
    exact (List.nodup_append.mp once).2.2 t (by simpa using here) t rest rfl

theorem Tracked.covers_step (tracked : s.Tracked live) (covers : Covers (s.view live)) {label : Label}
    (roomy : Roomy s label) (stepped : Pool.step s label = some s') :
    ∃ live', s'.Tracked live' ∧ Covers (s'.view live') := by
  have moves : Careful s label → ∃ live', s'.Tracked live' ∧ Covers (s'.view live') := by
    intro careful
    have refines : s.Refines True True live s' :=
      refines_step tracked (fun _ => careful) (fun _ => roomy.1) stepped
    obtain ⟨live', holds, moved⟩ := refines.moved
    exact ⟨live', ⟨refines.shaped, holds, tracked.safe.moves moved⟩, covers.moves tracked.safe moved⟩
  cases label with
  | leave w =>
    obtain ⟨live', after⟩ := tracked.step stepped
    exact ⟨live', after, tracked.covers_leave covers stepped after⟩
  | resize count env => exact moves fun degrades => absurd degrades roomy.2
  | _ => exact moves trivial

theorem Tracked.all_indexed (tracked : s.Tracked live) (covers : Covers (s.view live)) {label : Label}
    (roomy : Roomy s label) : AllIndexed s label := by
  constructor
  · intro t member unflagged
    have listed := covers.listed t member unflagged
    have found := tracked.holds.find_live listed
    obtain ⟨final, claimed, -, -⟩ := @Tracked.claim False False s live t tracked listed
    refine ⟨found, fun alloc => ?_⟩
    simp [ThreadPool.loomPoolCancelById, found, unflagged, claimed]
  · intro publishes
    cases label with
    | submit userData priority isFuture alloc =>
      obtain ⟨-, -, -, -, room⟩ := publishes
      have spare := roomy.1 (by omega)
      have few : s.dequeTasks.length ≤ s.maxWorkerCount * dequeRest :=
        Bins.length_all_le fun i _ => tracked.shaped.fits.2 i
      have card : live.card ≤ s.ring.length + s.dequeTasks.length := by
        rw [← List.length_append]
        exact covers.card_le
      rcases tracked.holds with ⟨none, -⟩ | ⟨bits, valid⟩
      · omega
      · have vacant := @Indexes.vacant_ne_none _ _ _ _ (s.nextTaskId + 1) valid (by
          rw [← valid.size]
          omega)
        obtain ⟨h, found⟩ := Option.ne_none_iff_exists'.mp vacant
        obtain ⟨d, -, -, free, -⟩ := valid.vacant_some found
        exact ⟨CancelIndex.entries_lt (valid.size ▸ probeSlot_lt bits _ d) free, vacant⟩
    | _ => exact publishes.elim

end ThreadPool

/-- As long as the index has room for the ring and for what the bulk dequeues leave in
every deque, each insert finds a slot and each uncancelled task of the ring and the
deques is found by its id. -/
theorem ring_tasks_indexed (config : Config) (labels : List Label)
    (roomy : Meets step Roomy (poolInit config) labels) :
    Meets step AllIndexed (poolInit config) labels := by
  apply @Meets.of_invariant _ _ step (fun s => ∃ live, s.Tracked live ∧ Covers (s.view live)) Roomy
    AllIndexed
  · rintro s s' label ⟨live, tracked, covers⟩ roomy stepped
    exact tracked.covers_step covers roomy stepped
  · rintro s label ⟨live, tracked, covers⟩ roomy
    exact tracked.all_indexed covers roomy
  · refine ⟨∅, tracked_poolInit config, by simp [ThreadPool.view], ?_⟩
    intro t member
    have member : t ∈ (poolInit config).pooled := member
    rw [pooled_poolInit] at member
    cases member
  · exact roomy

instance (s : ThreadPool) : (label : Label) → Decidable (Roomy s label)
  | .resize .. => inferInstanceAs (Decidable (_ ∧ ¬(_ ∧ _ ∧ _ ∧ _)))
  | .submit .. | .submitCoroutine .. | .pass .. | .finish .. | .create .. | .checkReady ..
  | .bodyEnds .. | .leave .. | .wake .. | .post | .timerFire .. | .cancel ..
  | .cancelById .. | .cancelAll | .repost | .join .. =>
    inferInstanceAs (Decidable (_ ∧ True))

/-- A second worker is added between two submits. -/
theorem ring_tasks_indexed_over_resize :
    Meets step AllIndexed (poolInit { workerCount := 1, queueCapacity := 4 })
      [.submit 7 5 false true, .pass 0 true, .resize 2 {}, .submit 8 5 false true,
        .cancelById 3 true] := by
  apply ring_tasks_indexed
  apply meets_of_decide
  decide +kernel

/-- A plain task of normal priority. -/
def plainSubmit : Label := .submit 1 5 false true

/-- One worker: a ring of 4096 slots and an index of 8192. -/
def loneWorker : Config := { workerCount := 1, queueCapacity := 0 }

/-- Workers below k run with seven tasks in their deques, those from k to n have not begun,
and m tasks are in the ring; live are the tasks of the index. -/
structure Filled (n k m : Nat) (s : ThreadPool) (live : Finset Nat) : Prop where
  capacity : s.queueCapacity = 0
  ringSize : s.ringSize = 4096
  cap : s.index.cap = 8192
  workers : s.workerCount = n
  deques : ∃ deques, s.deques = some deques ∧ ∀ w, k ≤ w → deques w = []
  idle : ∀ w, k ≤ w → w < n → s.workers w = .looping
  ready : ∀ w, s.coroReady w = []
  lanes : s.lanes = fun _ => []
  asleep : s.timerHeap = []
  holds : Holds s.dataOf s.index live
  known : ∀ t ∈ live, t ≤ s.nextTaskId
  queued : ∀ t ∈ s.ring, t ∈ live ∧ (s.tasks t).cancelled = false ∧ (s.tasks t).isCoro = false
  length : s.ring.length = m
  card : live.card = 7 * k + m

namespace Filled

variable {n k m : Nat}

/-- What the submit of a plain task does while the ring has room. -/
theorem submit_eq (filled : Filled n k m s live) (room : m < 4096) :
    step s plainSubmit = some
      ({ s.taskCreate { userData := 1 } with
        queueLen := s.queueLen + 1
        ring := s.ring ++ [s.nextTaskId + 1]
        index := cancelIndexInsert s.index (s.nextTaskId + 1) 1
        posts := s.posts + 1 }.emit (.submitted (s.nextTaskId + 1))) := by
  obtain ⟨deques, shape, -⟩ := filled.deques
  have space : s.full = false := by simp [ThreadPool.full, filled.capacity]
  have short : s.ring.length < s.ringSize := by
    rw [filled.length, filled.ringSize]
    exact room
  simp [step, plainSubmit, ThreadPool.enqueueTask, space, shape, filled.ringSize, priorityNormal,
    ThreadPool.enqueueRingTask, ThreadPool.ringTryEnqueue, ThreadPool.taskCreate, ThreadPool.setTask,
    ThreadPool.emit, filled.length, room]

theorem submit (filled : Filled n k m s live) (room : m < 4096) (spare : 7 * k + m < 8192) :
    ∃ s' live', step s plainSubmit = some s' ∧ Filled n k (m + 1) s' live' := by
  have fresh : s.nextTaskId + 1 ∉ live := by
    intro member
    have bound := filled.known _ member
    omega
  have created : Holds (s.taskCreate { userData := 1 }).dataOf s.index live := by
    apply filled.holds.congr
    intro t member
    have other : t ≠ s.nextTaskId + 1 := fun same => fresh (same ▸ member)
    simp [ThreadPool.dataOf, ThreadPool.taskCreate, ThreadPool.setTask, other]
  have own : (s.taskCreate { userData := 1 }).dataOf (s.nextTaskId + 1) = 1 := by
    simp [ThreadPool.dataOf, ThreadPool.taskCreate, ThreadPool.setTask]
  obtain ⟨live', inserted, grown⟩ := created.insert (Nat.succ_pos s.nextTaskId) fresh
  rw [own] at inserted
  have card := filled.card
  have cap := filled.cap
  have grown := grown.resolve_right fun full => by omega
  refine ⟨_, live', filled.submit_eq room, ⟨filled.capacity, filled.ringSize, ?_, filled.workers,
    filled.deques, filled.idle, filled.ready, filled.lanes, filled.asleep, inserted, ?_, ?_, ?_, ?_⟩⟩
  · exact (cancelIndexInsert_cap _ _ _).trans filled.cap
  · intro t member
    rw [grown] at member
    show t ≤ s.nextTaskId + 1
    rcases Finset.mem_insert.mp member with rfl | old
    · exact Nat.le_refl _
    · exact (filled.known t old).trans (Nat.le_succ _)
  · intro t member
    rw [grown]
    rcases List.mem_append.mp member with old | new
    · obtain ⟨listed, flag, kind⟩ := filled.queued t old
      have other : t ≠ s.nextTaskId + 1 := fun same => fresh (same ▸ listed)
      refine ⟨Finset.mem_insert_of_mem listed, ?_⟩
      simp [ThreadPool.emit, ThreadPool.taskCreate, ThreadPool.setTask, other, flag, kind]
    · rw [List.mem_singleton.mp new]
      refine ⟨Finset.mem_insert_self _ _, ?_⟩
      simp [ThreadPool.emit, ThreadPool.taskCreate, ThreadPool.setTask]
  · show (s.ring ++ [s.nextTaskId + 1]).length = m + 1
    rw [List.length_append, filled.length]
    rfl
  · rw [grown, Finset.card_insert_of_notMem fresh]
    omega

/-- A worker takes the eight tasks of the ring, runs the last and keeps seven. -/
theorem pass (filled : Filled n k 8 s live) (inside : k < n) :
    ∃ s' live', step s (.pass k true) = some s' ∧ Filled n (k + 1) 0 s' live' := by
  obtain ⟨deques, shape, empty⟩ := filled.deques
  have own := empty k (Nat.le_refl k)
  have length := filled.length
  rcases ThreadPool.fetchRing_cases true shape own with ⟨-, none⟩ | ⟨t, rest, batch, fetched⟩
  · rw [none rfl] at length
    cases length
  have whole : s.ring.take bulkDequeue = s.ring := List.take_of_length_le (by rw [length]; decide)
  rw [whole] at batch
  have member : t ∈ s.ring := List.mem_reverse.mp (batch ▸ List.mem_cons_self)
  obtain ⟨listed, flag, kind⟩ := filled.queued t member
  have seven : rest.length = 7 := by
    have size := congrArg List.length batch
    simpa [length] using size.symm
  have calm : laneHasPriority s.lanes 4 = false := by
    rw [filled.lanes]
    decide +kernel
  have bare : s.deque k = [] := by rw [ThreadPool.deque_of_some shape, own]
  have stepped : s.workerPass k true = some (ThreadPool.runBoundary
      { s with
        ring := s.ring.drop bulkDequeue
        deques := some (Function.update deques k rest)
        dequeTotal := s.dequeTotal + rest.length } k t true) := by
    simp [ThreadPool.workerPass, filled.idle k (Nat.le_refl k) inside, filled.ready, filled.workers,
      Nat.not_le.mpr inside, ThreadPool.fetchTask, calm, shape, ThreadPool.dequePop, bare,
      filled.ringSize, fetched]
  have positive := filled.holds.named listed
  refine ⟨_, live.erase t, stepped, ?_⟩
  unfold ThreadPool.runBoundary
  simp only [↓reduceIte, flag, kind, Bool.false_eq_true]
  refine ⟨filled.capacity, filled.ringSize, ?_, filled.workers, ⟨_, rfl, ?_⟩, ?_, filled.ready,
    filled.lanes, filled.asleep, filled.holds.remove positive, ?_, ?_, ?_, ?_⟩
  · exact (cancelIndexRemove_cap _ _).trans filled.cap
  · intro w later
    have other : w ≠ k := by omega
    rw [Function.update_of_ne other]
    exact empty w (by omega)
  · intro w later below
    have other : w ≠ k := by omega
    show Function.update s.workers k (.running t) w = .looping
    rw [Function.update_of_ne other]
    exact filled.idle w (by omega) below
  · exact fun x old => filled.known x (Finset.mem_of_mem_erase old)
  · intro x old
    have gone : x ∈ s.ring.drop bulkDequeue := old
    rw [List.drop_eq_nil_of_le (by rw [length]; decide)] at gone
    cases gone
  · show (s.ring.drop bulkDequeue).length = 0
    rw [List.drop_eq_nil_of_le (by rw [length]; decide)]
    rfl
  · rw [Finset.card_erase_of_mem listed, filled.card]
    omega

theorem submits (filled : Filled n k m s live) (j : Nat) (room : m + j ≤ 4096)
    (spare : 7 * k + m + j ≤ 8192) : ∃ s' live',
      exec step s (List.replicate j plainSubmit) = some s' ∧ Filled n k (m + j) s' live' := by
  induction j generalizing m s live with
  | zero => exact ⟨s, live, rfl, filled⟩
  | succ j ih =>
    obtain ⟨next, mid, taken, after⟩ := filled.submit (by omega) (by omega)
    obtain ⟨final, last, run, done⟩ := ih after (by omega) (by omega)
    refine ⟨final, last, exec_cons.mpr ⟨next, taken, run⟩, ?_⟩
    rwa [show m + (j + 1) = m + 1 + j by omega]

/-- The runs of the first j workers, each on eight new tasks. -/
def rounds (j : Nat) : List Label :=
  (List.range j).flatMap fun k => List.replicate 8 plainSubmit ++ [.pass k true]

theorem worked (filled : Filled n 0 0 s live) (j : Nat) (inside : j ≤ n) (spare : 7 * j + 8 ≤ 8192) :
    ∃ s' live', exec step s (rounds j) = some s' ∧ Filled n j 0 s' live' := by
  induction j with
  | zero => exact ⟨s, live, rfl, filled⟩
  | succ j ih =>
    obtain ⟨before, mid, run, after⟩ := ih (by omega) (by omega)
    obtain ⟨full, listed, submitted, eight⟩ := after.submits 8 (by omega) (by omega)
    obtain ⟨final, last, taken, done⟩ := eight.pass (by omega)
    refine ⟨final, last, ?_, done⟩
    have split : rounds (j + 1) = rounds j ++ (List.replicate 8 plainSubmit ++ [.pass j true]) := by
      simp [rounds, List.range_succ]
    rw [split]
    exact exec_append.mpr ⟨before, run, exec_append.mpr ⟨full, submitted,
      exec_cons.mpr ⟨final, taken, rfl⟩⟩⟩

end Filled

/-- A table with an entry in every slot has none for another task. -/
theorem Indexes.vacant_eq_none {dataOf : Nat → Nat} {bits : Nat} {ix : CancelIndex}
    (valid : Indexes dataOf bits ix live) (full : 2 ^ bits ≤ live.card) : ix.vacant t = none := by
  by_contra present
  obtain ⟨h, found⟩ := Option.ne_none_iff_exists'.mp present
  obtain ⟨d, -, -, free, -⟩ := valid.vacant_some found
  have slots : live.card ≤ ((Finset.range (2 ^ bits)).erase (probeSlot (2 ^ bits) t d)).card := by
    refine Finset.card_le_card_of_injOn (fun x => (ix.lookup x).getD 0) ?_ ?_
    · intro x member
      obtain ⟨place, inside, here, slot⟩ := valid.lookup_live member
      have positive := valid.named x member
      simp only [here, Option.getD_some]
      refine Finset.mem_erase.mpr ⟨fun same => ?_, Finset.mem_range.mpr inside⟩
      rw [← same, slot] at free
      simp only at free
      omega
    · intro x member y other same
      obtain ⟨place, -, here, slot⟩ := valid.lookup_live member
      obtain ⟨place', -, here', slot'⟩ := valid.lookup_live other
      simp only [here, here', Option.getD_some] at same
      rw [same, slot'] at slot
      simp only [CancelSlot.mk.injEq] at slot
      omega
  rw [Finset.card_erase_of_mem (Finset.mem_range.mpr (probeSlot_lt bits t d)), Finset.card_range] at slots
  have positive := Nat.two_pow_pos bits
  omega

theorem filled_resized : ∃ s, step (poolInit loneWorker) (.resize 586 {}) = some s ∧
    Filled 586 0 0 s ∅ := by
  have cap : (poolInit loneWorker).index.cap = 8192 := by decide +kernel
  refine ⟨_, rfl, ⟨rfl, rfl, cap, rfl, ⟨_, rfl, ?_⟩, ?_, ?_, rfl, rfl,
    (tracked_poolInit loneWorker).holds, by simp, nofun, rfl, rfl⟩⟩
  · intro w _
    simp
  · intro w _ below
    by_cases first : w = 0
    · rw [first]
      rfl
    · have absent : (poolInit loneWorker).workers w = .absent := by
        simp [poolInit, loneWorker, first]
      show (if 1 ≤ w ∧ w < 586 ∧ (poolInit loneWorker).workers w = .absent then WorkerPc.looping
        else (poolInit loneWorker).workers w) = _
      rw [if_pos ⟨by omega, below, absent⟩]
  · intro w
    show (if w < 1 then [] else []) = []
    split <;> rfl

/-- After a resize to 586 workers each of them works on a batch of eight, and 4090 more
tasks fill the ring up: the index is full, and the next task goes to the ring without an
entry and cannot be cancelled by its id. -/
theorem ring_task_unindexed : ∃ s s',
    exec step (poolInit loneWorker)
      (.resize 586 {} :: (Filled.rounds 586 ++ List.replicate 4090 plainSubmit)) = some s ∧
    step s plainSubmit = some s' ∧ s.index.vacant (s.nextTaskId + 1) = none ∧
    s.nextTaskId + 1 ∈ s'.ring ∧ (s'.tasks (s.nextTaskId + 1)).cancelled = false ∧
    (s'.loomPoolCancelById (s.nextTaskId + 1) true).2 = .errInvalid := by
  obtain ⟨resized, taken, filled⟩ := filled_resized
  obtain ⟨worked, mid, rounds, after⟩ := filled.worked 586 (by omega) (by omega)
  obtain ⟨s, live, submits, full⟩ := after.submits 4090 (by omega) (by omega)
  have fresh : s.nextTaskId + 1 ∉ live := by
    intro member
    have bound := full.known _ member
    omega
  have vacant : s.index.vacant (s.nextTaskId + 1) = none := by
    rcases full.holds with ⟨none, -⟩ | ⟨bits, valid⟩
    · exact absurd (none.symm.trans full.cap) (by decide)
    · apply valid.vacant_eq_none
      rw [← valid.size, full.cap, full.card]
  have kept : cancelIndexInsert s.index (s.nextTaskId + 1) 1 = s.index := by
    simp [cancelIndexInsert, vacant]
  have missed : cancelIndexFind s.index (s.nextTaskId + 1) = none :=
    full.holds.find_dead (Nat.succ_pos _) fresh
  refine ⟨s, _, exec_cons.mpr ⟨resized, taken, exec_append.mpr ⟨worked, rounds, submits⟩⟩,
    full.submit_eq (by omega), vacant, ?_, ?_, ?_⟩
  · exact List.mem_append_right _ (List.mem_singleton.mpr rfl)
  · simp [ThreadPool.emit, ThreadPool.taskCreate, ThreadPool.setTask]
  · have unlinked : ∀ found, unlinkFirst found (fun _ => []) = none := by
      intro found
      apply unlinkFirst_eq_none
      simp [laneTasks, Bins.all]
    simp [ThreadPool.loomPoolCancelById, ThreadPool.emit, ThreadPool.taskCreate, ThreadPool.setTask,
      kept, missed, full.asleep, full.lanes, ThreadPool.cancelLane, unlinked]

end Loomworks.Pool

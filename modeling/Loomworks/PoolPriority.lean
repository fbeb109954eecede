import Loomworks.PoolQueues
import Loomworks.PoolRefines

/- Strict priority: what a pass selects while lanes, ring and deques hold tasks of
different priorities. -/
namespace Loomworks.Pool

open Transition

/-- A thread owns the slot and its deque. -/
def WorkerPc.mans : WorkerPc → Bool
  | .absent | .exited => false
  | _ => true

namespace ThreadPool

/-- Every task is in the queue of its priority, and a deque with tasks has an owner. -/
structure Graded (s : ThreadPool) : Prop where
  grade : ∀ t b, s.queues.Holds t b → b = (s.queues.priority t).toNat
  manned : ∀ i, s.deque i ≠ [] → (s.workers i).mans = true

variable {s s' : ThreadPool} {live : Finset Nat} {w t : Nat}

theorem Graded.lt_of_deque (graded : s.Graded) (shaped : s.Shaped) {i : Nat}
    (filled : s.deque i ≠ []) : i < s.maxWorkerCount := by
  apply shaped.lt_of_alive
  intro absent
  have mans := graded.manned i filled
  rw [absent] at mans
  cases mans

theorem Graded.placed (graded : s.Graded) (shaped : s.Shaped) {b : Nat}
    (held : s.queues.Holds t b) : t ∈ s.pooled ++ laneTasks s.lanes := by
  apply List.mem_append.mpr
  have grade := graded.grade t b held
  rcases held with lane | ⟨-, ring | ⟨i, deque⟩⟩
  · right
    apply Bins.mem_all.mpr
    refine ⟨b, ?_, lane⟩
    rw [grade]
    exact UInt8.toNat_lt _
  · exact Or.inl (List.mem_append_left _ ring)
  · left
    apply List.mem_append_right
    exact Bins.mem_all.mpr ⟨i, graded.lt_of_deque shaped (List.ne_nil_of_mem deque), deque⟩

/-- A new task does not touch the priorities of the queued ones. -/
theorem Graded.created (graded : s.Graded) (tracked : s.Tracked live) (task : Task) {b : Nat}
    (held : (s.taskCreate task).queues.Holds t b) :
    b = ((s.taskCreate task).queues.priority t).toNat := by
  have before : s.queues.Holds t b := held
  have known : t ≤ s.nextTaskId := tracked.safe.le_of_placed (graded.placed tracked.shaped before)
  rw [queues_taskCreate]
  show b = (Function.update s.queues.priority (s.nextTaskId + 1) task.priority t).toNat
  rw [Function.update_of_ne (by omega)]
  exact graded.grade t b before

end ThreadPool

theorem Shuffles.grade {filled : Nat → Prop} {q q' : Queues} (shuffles : Shuffles filled q q')
    (grade : ∀ t b, q.Holds t b → b = (q.priority t).toNat) {t b : Nat} (held : q'.Holds t b) :
    b = (q'.priority t).toNat := by
  rw [shuffles.priority]
  rcases shuffles.held t b held with before | own
  · exact grade t b before
  · exact own

/-- Only the end of the exit path takes a deque's owner away. -/
theorem mans_turn {woken : Option Nat} {c c' : Control} (turn : Turn woken c c') {i : Nat}
    (mans : (c.workers i).mans = true) : (c'.workers i).mans = true ∨ c.workers i = .leaving := by
  have moved : ∀ {w : Nat} {pc : WorkerPc}, pc.mans = true →
      (Function.update c.workers w pc i).mans = true := by
    intro w pc own
    by_cases same : i = w
    · rw [same, Function.update_self]
      exact own
    · rw [Function.update_of_ne same]
      exact mans
  cases turn with
  | quiet | posted | pushed | reposted => exact Or.inl mans
  | @works _ w pc list timerHeap here runs =>
    left
    apply moved
    cases pc <;> first | rfl | cases runs
  | waits | displaced | wakes => exact Or.inl (moved rfl)
  | @left _ w timerHeap here =>
    by_cases same : i = w
    · right
      rw [same]
      exact here
    · left
      show (Function.update c.workers w .exited i).mans = true
      rw [Function.update_of_ne same]
      exact mans
  | @joined _ w here =>
    by_cases same : i = w
    · rw [same, here] at mans
      cases mans
    · left
      show (Function.update c.workers w .absent i).mans = true
      rw [Function.update_of_ne same]
      exact mans

namespace ThreadPool

variable {s s' : ThreadPool} {live : Finset Nat} {w t : Nat}

theorem deque_setDeque_nil (s : ThreadPool) (w : Nat) : (s.setDeque w []).deque w = [] := by
  cases shape : s.deques with
  | none => exact deque_of_none (by simp [setDeque, shape]) w
  | some deques =>
    rw [deque_setDeque (by simp [shape])]
    exact Function.update_self _ _ _

theorem deques_spill (list : List Nat) (s : ThreadPool) :
    (list.foldl spillDequeTask s).deques = s.deques := by
  induction list generalizing s with
  | nil => rfl
  | cons t rest ih => exact ih _

theorem deque_leave (left : s.leave w = some s') : s'.deque w = [] := by
  unfold leave at left
  split at left
  · cases left
    dsimp only
    generalize List.foldl terminate _ _ = ended
    have spilt := deque_congr (deques_spill (ended.deque w) (ended.setDeque w [])) w
    exact spilt.trans (deque_setDeque_nil ended w)
  · cases left

/-- What a resize leaves alone; only one that degrades the pool empties a deque. -/
structure Resized (degrades : Prop) (s s' : ThreadPool) : Prop where
  ring : s'.ring = s.ring
  ringSize : s'.ringSize = s.ringSize
  lanes : s'.lanes = s.lanes
  tasks : s'.tasks = s.tasks
  events : s'.events = s.events
  dequeTotal : s'.dequeTotal = s.dequeTotal
  limit : s.maxWorkerCount ≤ s'.maxWorkerCount
  count : 0 < s.workerCount → 0 < s'.workerCount
  deques : ∀ i, s'.deque i = s.deque i ∨ s'.deque i = [] ∧ (s.maxWorkerCount ≤ i ∨ degrades)
  mode : s'.deques.isSome = s.deques.isSome ∨ degrades
  workers : ∀ i, s'.workers i = s.workers i ∨ s.workers i = .absent ∧ s'.workers i = .looping

theorem Resized.refl (degrades : Prop) (s : ThreadPool) : Resized degrades s s :=
  ⟨rfl, rfl, rfl, rfl, rfl, rfl, Nat.le_refl _, id, fun _ => Or.inl rfl, Or.inl rfl,
    fun _ => Or.inl rfl⟩

theorem Resized.mans {degrades : Prop} (resized : Resized degrades s s') {i : Nat}
    (mans : (s.workers i).mans = true) : (s'.workers i).mans = true := by
  rcases resized.workers i with same | ⟨-, started⟩
  · rw [same]
    exact mans
  · rw [started]
    rfl

theorem resized_growDeques {count : Nat} {env : ResizeEnv} (larger : s.maxWorkerCount < count)
    (allocated : ¬(s.deques.isSome = true ∧ env.dequesAlloc = false)) :
    Resized (s.Degrades count env) s (s.growDeques env.slotsAlloc) := by
  refine ⟨rfl, rfl, rfl, rfl, rfl, rfl, Nat.le_refl _, id, ?_, ?_, fun _ => Or.inl rfl⟩
  · intro i
    rw [deque_growDeques]
    split
    · exact Or.inl rfl
    · rename_i lost
      cases mode : s.deques.isSome with
      | false =>
        left
        rw [deque_of_none (by simpa using mode)]
      | true =>
        refine Or.inr ⟨rfl, ?_⟩
        by_cases inside : i < s.maxWorkerCount
        · right
          refine ⟨larger, mode, ?_, ?_⟩
          · by_contra refused
            exact allocated ⟨mode, Bool.eq_false_iff.mpr refused⟩
          · by_contra slots
            exact lost ⟨by simpa using slots, inside⟩
        · exact Or.inl (Nat.le_of_not_lt inside)
  · cases mode : s.deques.isSome with
    | false =>
      left
      have none_ : s.deques = none := by simpa using mode
      show (if env.slotsAlloc then s.deques.map _ else none).isSome = false
      rw [none_]
      split <;> rfl
    | true =>
      cases slots : env.slotsAlloc with
      | false =>
        right
        refine ⟨larger, mode, ?_, slots⟩
        by_contra refused
        exact allocated ⟨mode, Bool.eq_false_iff.mpr refused⟩
      | true =>
        left
        show (s.deques.map _).isSome = true
        rw [Option.isSome_map]
        exact mode

theorem resized_growArrays (s : ThreadPool) (count : Nat) (env : ResizeEnv) :
    Resized (s.Degrades count env) s (s.growArrays count env).1 := by
  unfold growArrays
  split
  · exact Resized.refl _ s
  · rename_i larger
    have larger : s.maxWorkerCount < count := Nat.lt_of_not_le larger
    split
    · exact Resized.refl _ s
    · rename_i allocated
      have grown := resized_growDeques larger allocated
      split
      · exact ⟨grown.ring, grown.ringSize, grown.lanes, grown.tasks, grown.events, grown.dequeTotal,
          Nat.le_of_lt larger, grown.count, grown.deques, grown.mode, grown.workers⟩
      · exact grown

theorem Resized.startWorkers {degrades : Prop} (resized : Resized degrades s s') (lower upper : Nat) :
    Resized degrades s (s'.startWorkers lower upper) := by
  refine ⟨resized.ring, resized.ringSize, resized.lanes, resized.tasks, resized.events,
    resized.dequeTotal, resized.limit, resized.count, resized.deques, resized.mode, ?_⟩
  intro i
  show (if lower ≤ i ∧ i < upper ∧ s'.workers i = .absent then WorkerPc.looping
    else s'.workers i) = s.workers i ∨ s.workers i = .absent ∧
      (if lower ≤ i ∧ i < upper ∧ s'.workers i = .absent then WorkerPc.looping
        else s'.workers i) = .looping
  split
  · rename_i free
    rcases resized.workers i with same | ⟨absent, -⟩
    · exact Or.inr ⟨same ▸ free.2.2, rfl⟩
    · exact Or.inr ⟨absent, rfl⟩
  · exact resized.workers i

theorem Resized.resetCount {degrades : Prop} (resized : Resized degrades s s') {count : Nat}
    (positive : count ≠ 0) (posts : Nat) :
    Resized degrades s { s' with workerCount := count, posts } :=
  ⟨resized.ring, resized.ringSize, resized.lanes, resized.tasks, resized.events, resized.dequeTotal,
    resized.limit, fun _ => Nat.pos_of_ne_zero positive, resized.deques, resized.mode,
    resized.workers⟩

theorem resized_resize (s : ThreadPool) (count : Nat) (env : ResizeEnv) :
    Resized (s.Degrades count env) s (s.loomPoolResize count env).1 := by
  have grown := resized_growArrays s count env
  unfold loomPoolResize
  split
  · exact Resized.refl _ s
  · rename_i positive
    split
    · exact Resized.refl _ s
    · split
      · rename_i result
        rw [result] at grown
        exact grown
      · rename_i arrays result
        rw [result] at grown
        have started := (grown.startWorkers arrays.workerCount count).resetCount positive
          (arrays.posts + arrays.workerCount)
        dsimp only
        split
        · split
          · exact grown.startWorkers _ _
          · exact started
        · exact started

theorem Graded.resized {degrades : Prop} (graded : s.Graded) (resized : Resized degrades s s') :
    s'.Graded := by
  have kept : ∀ i, s'.deque i ≠ [] → s'.deque i = s.deque i := by
    intro i filled
    rcases resized.deques i with same | ⟨empty, -⟩
    · exact same
    · exact absurd empty filled
  refine ⟨?_, ?_⟩
  · intro t b held
    have priority : s'.queues.priority = s.queues.priority := by
      show (fun x => (s'.tasks x).priority) = _
      rw [resized.tasks]
      rfl
    rw [priority]
    apply graded.grade
    rcases held with lane | ⟨same, ring | ⟨i, deque⟩⟩
    · left
      have lane : t ∈ s'.lanes b := lane
      rw [resized.lanes] at lane
      exact lane
    · refine Or.inr ⟨same, Or.inl ?_⟩
      have ring : t ∈ s'.ring := ring
      rw [resized.ring] at ring
      exact ring
    · refine Or.inr ⟨same, Or.inr ⟨i, ?_⟩⟩
      have deque : t ∈ s'.deque i := deque
      rw [kept i (List.ne_nil_of_mem deque)] at deque
      exact deque
  · intro i filled
    apply resized.mans
    apply graded.manned
    rw [← kept i filled]
    exact filled

theorem Graded.step (graded : s.Graded) (tracked : s.Tracked live) {label : Label}
    (stepped : step s label = some s') : s'.Graded := by
  cases fixed : label.resizes with
  | true =>
    cases label with
    | resize count env =>
      cases stepped
      exact graded.resized (resized_resize s count env)
    | _ => cases fixed
  | false =>
    have turn := turn_step stepped fixed
    have mans : ∀ i, s'.deque i ≠ [] → (s.workers i).mans = true → (s'.workers i).mans = true := by
      intro i filled owned
      rcases mans_turn turn owned with kept | leaving
      · exact kept
      · rcases leaving_stays stepped fixed leaving with stays | left
        · rw [stays]
          rfl
        · rw [left] at stepped
          exact absurd (deque_leave stepped) filled
    rcases shuffles_step tracked.shaped fixed stepped with ⟨w, loops, shuffles⟩ | shuffles | ⟨task, shuffles⟩
    · refine ⟨fun t b held => shuffles.grade graded.grade held, fun i filled => mans i filled ?_⟩
      rcases shuffles.fills i filled with before | rfl
      · exact graded.manned i before
      · rw [loops]
        rfl
    · refine ⟨fun t b held => shuffles.grade graded.grade held, fun i filled => mans i filled ?_⟩
      exact graded.manned i ((shuffles.fills i filled).elim id False.elim)
    · refine ⟨fun t b held => shuffles.grade (fun x c => graded.created tracked task) held,
        fun i filled => mans i filled ?_⟩
      exact graded.manned i ((shuffles.fills i filled).elim id False.elim)

theorem graded_poolInit (config : Config) : (poolInit config).Graded := by
  have empty : ∀ i, (poolInit config).deque i = [] := by
    intro i
    cases alloc : config.dequesAlloc with
    | true | false => simp [poolInit, deque, alloc]
  refine ⟨?_, fun i filled => absurd (empty i) filled⟩
  intro t b held
  rcases held with lane | ⟨-, ring | ⟨i, deque⟩⟩
  · exact absurd lane List.not_mem_nil
  · exact absurd ring List.not_mem_nil
  · have deque : t ∈ (poolInit config).deque i := deque
    rw [empty i] at deque
    exact absurd deque List.not_mem_nil

theorem empty_of_dequeSteal (missed : s.dequeSteal w = none) : s.deque w = [] := by
  unfold dequeSteal at missed
  split at missed
  · rename_i last
    exact List.getLast?_eq_none_iff.mp last
  · cases missed

theorem mem_of_dequePop (popped : s.dequePop w = some (t, s')) : t ∈ s.deque w := by
  unfold dequePop at popped
  split at popped
  · cases popped
  · rename_i shape
    cases popped
    rw [shape]
    exact List.mem_cons_self

theorem mem_of_dequeSteal (stolen : s.dequeSteal w = some (t, s')) : t ∈ s.deque w := by
  unfold dequeSteal at stolen
  split at stolen
  · cases stolen
  · rename_i last
    cases stolen
    exact List.mem_of_getLast? last

/-- With a dry ring Step 3 visits every other worker. -/
theorem mem_victims (dry : s.ringHasWork = false) {v : Nat} (inside : v < s.workerCount)
    (within : w < s.workerCount) (other : v ≠ w) : v ∈ s.victims w := by
  have several : ¬s.workerCount ≤ 1 := by omega
  unfold victims
  rw [if_neg several, dry, if_neg Bool.false_ne_true]
  apply List.mem_filter.mpr
  refine ⟨?_, by simpa using other⟩
  apply List.mem_map.mpr
  by_cases above : w < v
  · refine ⟨v - w - 1, List.mem_range.mpr (by omega), ?_⟩
    rw [show w + 1 + (v - w - 1) = v by omega]
    exact Nat.mod_eq_of_lt inside
  · refine ⟨v + s.workerCount - w - 1, List.mem_range.mpr (by omega), ?_⟩
    rw [show w + 1 + (v + s.workerCount - w - 1) = v + s.workerCount by omega, Nat.add_mod_right]
    exact Nat.mod_eq_of_lt inside

/-- Where the task that Steps 0 to 4 come back with was. -/
inductive Selects (s : ThreadPool) (w t : Nat) : Bool → Prop
  | urgent {b : Nat} {rest : List Nat} (lowest : lowestBucket s.lanes = some b) (early : b ≤ 4)
      (oldest : s.lanes b = t :: rest) : Selects s w t false
  | pooled (calm : ∀ c < priorityBuckets, ∀ u ∈ s.lanes c, 4 < c) (mode : s.deques.isSome = true)
      (member : s.ringSize ≠ 0 ∧ t ∈ s.ring ∨ ∃ i < s.workerCount, t ∈ s.deque i) :
      Selects s w t true
  | lane {b : Nat} {rest : List Nat} (lowest : lowestBucket s.lanes = some b)
      (oldest : s.lanes b = t :: rest) (dry : s.ringHasWork = false)
      (poor : s.deques.isSome = true → ∀ i < s.workerCount, s.deque i = []) : Selects s w t false

theorem selects_takeLane (dry : s.ringHasWork = false)
    (poor : s.deques.isSome = true → ∀ i < s.workerCount, s.deque i = [])
    (taken : s.takeLane 255 = some (t, s')) : Selects s w t false := by
  unfold takeLane at taken
  split at taken
  · cases taken
  · rename_i found
    cases taken
    obtain ⟨b, rest, lowest, -, oldest⟩ := dequeueLowestPriority_some found
    exact Selects.lane lowest oldest dry poor

theorem selects_fetchElsewhere {fromRing : Bool} (within : w < s.workerCount)
    (mode : s.deques.isSome = true) (calm : ∀ c < priorityBuckets, ∀ u ∈ s.lanes c, 4 < c) (own : s.deque w = [])
    (fetched : s.fetchElsewhere w = (s', some (t, fromRing))) : Selects s w t fromRing := by
  unfold fetchElsewhere at fetched
  split at fetched
  · rename_i found
    cases fetched
    obtain ⟨v, member, stolen⟩ := List.exists_of_findSome?_eq_some found
    exact Selects.pooled calm mode (Or.inr ⟨v, victims_lt member, mem_of_dequeSteal stolen⟩)
  · rename_i missed
    split at fetched
    · cases fetched
    · rename_i dry
      have dry : s.ringHasWork = false := by simpa using dry
      split at fetched
      · rename_i taken
        cases fetched
        apply selects_takeLane dry _ taken
        intro _ i inside
        by_cases other : i = w
        · rw [other]
          exact own
        · have visited := mem_victims dry inside within other
          exact empty_of_dequeSteal (List.findSome?_eq_none_iff.mp missed i visited)
      · cases fetched

theorem selects_fetchTask {cas fromRing : Bool} (within : w < s.workerCount)
    (fetched : s.fetchTask w cas = (s', some (t, fromRing))) : Selects s w t fromRing := by
  unfold fetchTask at fetched
  split at fetched
  · rename_i urgent
    cases fetched
    split at urgent
    · unfold takeLane at urgent
      split at urgent
      · cases urgent
      · rename_i found
        cases urgent
        obtain ⟨b, rest, lowest, early, oldest⟩ := dequeueLowestPriority_some found
        exact Selects.urgent lowest early oldest
    · cases urgent
  · rename_i nothing
    have quiet : dequeueLowestPriority s.lanes 4 = none ∨ laneHasPriority s.lanes 4 = false := by
      split at nothing
      · left
        unfold takeLane at nothing
        split at nothing
        · assumption
        · cases nothing
      · rename_i none_
        exact Or.inr (by simpa using none_)
    have calm : ∀ c < priorityBuckets, ∀ u ∈ s.lanes c, 4 < c :=
      fun c inside u queued => lanes_above quiet inside queued
    split at fetched
    · rename_i mode
      split at fetched
      · rename_i popped
        cases fetched
        exact Selects.pooled calm mode (Or.inr ⟨w, within, mem_of_dequePop popped⟩)
      · rename_i missed
        have own := empty_of_dequePop missed
        obtain ⟨deques, shape⟩ := Option.isSome_iff_exists.mp mode
        have bare : deques w = [] := by
          rw [← deque_of_some shape]
          exact own
        by_cases ring : s.ringSize ≠ 0
        · rw [if_pos ring] at fetched
          rcases fetchRing_cases cas shape bare with ⟨same, -⟩ | ⟨x, rest, batch, same⟩
          · rw [same] at fetched
            exact selects_fetchElsewhere within mode calm own fetched
          · rw [same] at fetched
            cases fetched
            apply Selects.pooled calm mode
            refine Or.inl ⟨ring, ?_⟩
            apply List.mem_of_mem_take
            apply List.mem_reverse.mp
            rw [batch]
            exact List.mem_cons_self
        · rw [if_neg ring] at fetched
          exact selects_fetchElsewhere within mode calm own fetched
    · rename_i mode
      split at fetched
      · cases fetched
      · rename_i dry
        split at fetched
        · rename_i taken
          cases fetched
          exact selects_takeLane (by simpa using dry) (fun some => absurd some mode) taken
        · cases fetched

/-- The task a pass of the worker selects, and whether it came through the ring. -/
def selected (s : ThreadPool) (w : Nat) (cas : Bool) : Option (Nat × Bool) :=
  if s.workers w = .looping ∧ s.coroReady w = [] ∧ w < s.workerCount then (s.fetchTask w cas).2
  else none

/-- The task waits in a lane, in the ring or in a deque. -/
def Queued (s : ThreadPool) (t : Nat) : Prop :=
  t ∈ laneTasks s.lanes ∨ t ∈ s.ring ∨ ∃ i, t ∈ s.deque i

theorem Graded.priority_pooled (graded : s.Graded) (member : t ∈ s.ring ∨ ∃ i, t ∈ s.deque i) :
    (s.tasks t).priority.toNat = 5 :=
  (graded.grade t 5 (Or.inr ⟨rfl, member⟩)).symm

theorem Graded.priority_lane (graded : s.Graded) {b : Nat} (lane : t ∈ s.lanes b) :
    (s.tasks t).priority.toNat = b :=
  (graded.grade t b (Or.inl lane)).symm

theorem Graded.exists_lane (graded : s.Graded) (queued : t ∈ laneTasks s.lanes) :
    ∃ b < priorityBuckets, t ∈ s.lanes b ∧ (s.tasks t).priority.toNat = b := by
  obtain ⟨b, inside, lane⟩ := Bins.mem_all.mp queued
  exact ⟨b, inside, lane, graded.priority_lane lane⟩

/-- Without a resize in progress only the workers below the count have deques with
tasks. -/
theorem Graded.deque_nil (graded : s.Graded) (shaped : s.Shaped) (settled : s.joining = false)
    {i : Nat} (beyond : s.workerCount ≤ i) : s.deque i = [] := by
  by_contra filled
  have inside := graded.lt_of_deque shaped filled
  have mans := graded.manned i filled
  have absent : s.workers i = .absent := by
    by_contra present
    have joining : s.joining = true := by
      apply List.any_eq_true.mpr
      exact ⟨i, List.mem_range.mpr inside, by simp [beyond, present]⟩
    rw [settled] at joining
    cases joining
  rw [absent] at mans
  cases mans

theorem Graded.selects_lowest (graded : s.Graded) (shaped : s.Shaped) (ring : s.ringSize ≠ 0)
    (mode : s.deques.isSome = true) (settled : s.joining = false) {fromRing : Bool}
    (selects : Selects s w t fromRing) {u : Nat} (queued : s.Queued u) :
    (s.tasks t).priority.toNat ≤ (s.tasks u).priority.toNat := by
  cases selects with
  | @urgent b rest lowest early oldest =>
    rw [graded.priority_lane (t := t) (b := b) (by rw [oldest]; exact List.mem_cons_self)]
    rcases queued with lane | pooled
    · obtain ⟨c, -, lane, grade⟩ := graded.exists_lane lane
      rw [grade]
      exact lowestBucket_le lowest lane
    · rw [graded.priority_pooled pooled]
      omega
  | pooled calm mode member =>
    have there : t ∈ s.ring ∨ ∃ i, t ∈ s.deque i :=
      member.imp And.right fun ⟨i, _, deque⟩ => ⟨i, deque⟩
    rw [graded.priority_pooled there]
    rcases queued with lane | pooled
    · obtain ⟨c, inside, lane, grade⟩ := graded.exists_lane lane
      rw [grade]
      exact calm c inside u lane
    · rw [graded.priority_pooled pooled]
  | @lane b rest lowest oldest dry poor =>
    rw [graded.priority_lane (t := t) (b := b) (by rw [oldest]; exact List.mem_cons_self)]
    rcases queued with lane | there | ⟨i, deque⟩
    · obtain ⟨c, -, lane, grade⟩ := graded.exists_lane lane
      rw [grade]
      exact lowestBucket_le lowest lane
    · have empty : s.ring = [] := by simpa [ringHasWork, ring] using dry
      rw [empty] at there
      exact absurd there List.not_mem_nil
    · have empty : s.deque i = [] := by
        by_cases inside : i < s.workerCount
        · exact poor mode i inside
        · exact graded.deque_nil shaped settled (by omega)
      rw [empty] at deque
      exact absurd deque List.not_mem_nil

end ThreadPool

/-- In a pool with a ring and deques and no resize in progress, a pass selects a
task that no uncancelled queued task precedes in priority, and from a lane the
oldest one. -/
def StrictPriority (s : ThreadPool) (label : Label) : Prop :=
  ∀ w cas t fromRing, label = .pass w cas → s.ringSize ≠ 0 → s.deques.isSome = true →
    s.joining = false → s.selected w cas = some (t, fromRing) →
    (∀ u, s.Queued u → (s.tasks u).cancelled = false → (s.tasks t).priority ≤ (s.tasks u).priority) ∧
      (fromRing = false → ∃ rest, s.lanes (s.tasks t).priority.toNat = t :: rest)

theorem ThreadPool.Graded.strict {s : ThreadPool} (graded : s.Graded) (shaped : s.Shaped)
    (label : Label) : StrictPriority s label := by
  intro w cas t fromRing pass ring mode settled selected
  unfold ThreadPool.selected at selected
  split at selected
  · rename_i ready
    have fetched : s.fetchTask w cas = ((s.fetchTask w cas).1, some (t, fromRing)) := by
      rw [← selected]
    have selects := ThreadPool.selects_fetchTask ready.2.2 fetched
    refine ⟨?_, ?_⟩
    · intro u queued _
      exact UInt8.le_iff_toNat_le.mpr
        (graded.selects_lowest shaped ring mode settled selects queued)
    · intro lane
      rw [lane] at selects
      cases selects with
      | @urgent b rest _ _ oldest | @lane b rest _ oldest =>
        rw [graded.priority_lane (t := t) (b := b) (by rw [oldest]; exact List.mem_cons_self)]
        exact ⟨rest, oldest⟩
  · cases selected

theorem dispatches_in_priority_order (config : Config) (labels : List Label) :
    Meets step StrictPriority (poolInit config) labels := by
  have unconditional : Meets step (fun _ _ => True) (poolInit config) labels :=
    meets_of_forall (fun _ _ _ => trivial) _
  have keep : ∀ {s s' : ThreadPool} {label : Label}, (∃ live, s.Tracked live) ∧ s.Graded → True →
      step s label = some s' → (∃ live, s'.Tracked live) ∧ s'.Graded := by
    rintro s s' label ⟨⟨live, tracked⟩, graded⟩ - stepped
    exact ⟨tracked.step stepped, graded.step tracked stepped⟩
  have gives : ∀ {s : ThreadPool} {label : Label}, (∃ live, s.Tracked live) ∧ s.Graded → True →
      StrictPriority s label := by
    rintro s label ⟨⟨live, tracked⟩, graded⟩ -
    exact graded.strict tracked.shaped label
  exact Meets.of_invariant keep gives
    ⟨⟨∅, tracked_poolInit config⟩, ThreadPool.graded_poolInit config⟩ unconditional

end Loomworks.Pool

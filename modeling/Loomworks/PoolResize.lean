import Loomworks.PoolPriority
import Loomworks.PoolQueueLen

/- What a resize does to the tasks that wait in the pool. -/
namespace Loomworks.Pool

open Transition

/-- Every task that was submitted and neither dispatched nor cancelled is in a queue. -/
def Found (v : View) : Prop :=
  ∀ t, phase v.events t = .queued → v.flag t = false → t ∈ v.pooled ++ v.lanes

theorem queued_of_emit {event : Event} {events : List Event} {x : Nat} (ends : event.lands ≠ .queued)
    (queued : phase (event :: events) x = .queued) : x ≠ event.task ∧ phase events x = .queued := by
  by_cases same : x = event.task
  · rw [same, phase_cons_self] at queued
    exact absurd queued ends
  · rw [phase_cons_of_ne (Ne.symm same)] at queued
    exact ⟨same, queued⟩

theorem unflagged_of_raise {flag : Nat → Bool} {t x : Nat}
    (unflagged : Function.update flag t true x = false) : x ≠ t ∧ flag x = false := by
  by_cases same : x = t
  · rw [same, Function.update_self] at unflagged
    cases unflagged
  · rw [Function.update_of_ne same] at unflagged
    exact ⟨same, unflagged⟩

namespace Found

variable {steady : Prop} {v v' : View} {t : Nat}

theorem enter (found : Found v) {kind : Bool} {pooled lanes : List Nat} {live : Finset Nat}
    {stale : Nat → Prop} {queueLen : Int}
    (joined : (pooled ++ lanes).Perm ((v.nextTaskId + 1) :: (v.pooled ++ v.lanes))) :
    Found ({ v.create kind with pooled, lanes, live, stale, queueLen }.emit
      (.submitted (v.nextTaskId + 1))) := by
  intro x queued unflagged
  apply joined.mem_iff.mpr
  by_cases same : x = v.nextTaskId + 1
  · rw [same]
    exact List.mem_cons_self
  · apply List.mem_cons_of_mem
    have queued : phase (.submitted (v.nextTaskId + 1) :: v.events) x = .queued := queued
    have unflagged : Function.update v.flag (v.nextTaskId + 1) false x = false := unflagged
    rw [phase_cons_of_ne (Ne.symm same)] at queued
    rw [Function.update_of_ne same] at unflagged
    exact found x queued unflagged

theorem depart (found : Found v) {event : Event} {pooled lanes tokens : List Nat}
    {live : Finset Nat} {stale : Nat → Prop} {queueLen : Int} (about : event.task = t)
    (ends : event.lands ≠ .queued) (left : (v.pooled ++ v.lanes).Perm (t :: (pooled ++ lanes))) :
    Found ({ v with pooled, lanes, tokens, live, stale, queueLen }.emit event) := by
  intro x queued unflagged
  obtain ⟨differs, queued⟩ := queued_of_emit ends queued
  rw [about] at differs
  exact (List.mem_cons.mp (left.mem_iff.mp (found x queued unflagged))).resolve_left differs

theorem skip (found : Found v) {pooled lanes : List Nat} {live : Finset Nat} {stale : Nat → Prop}
    {queueLen : Int} (flagged : v.flag t = true)
    (left : (v.pooled ++ v.lanes).Perm (t :: (pooled ++ lanes))) :
    Found { v with pooled, lanes, live, stale, queueLen } := by
  intro x queued unflagged
  have unflagged : v.flag x = false := unflagged
  have differs : x ≠ t := by
    intro same
    rw [same, flagged] at unflagged
    cases unflagged
  exact (List.mem_cons.mp (left.mem_iff.mp (found x queued unflagged))).resolve_left differs

theorem raise (found : Found v) (t : Nat) : Found (v.raise t) :=
  fun x queued unflagged => found x queued (unflagged_of_raise unflagged).2

theorem emit (found : Found v) {event : Event} (ends : event.lands ≠ .queued) :
    Found (v.emit event) :=
  fun x queued unflagged => found x (queued_of_emit ends queued).2 unflagged

theorem shift (found : Found v) {pooled lanes : List Nat} {live : Finset Nat} {stale : Nat → Prop}
    (same : (pooled ++ lanes).Perm (v.pooled ++ v.lanes)) :
    Found { v with pooled, lanes, live, stale } :=
  fun x queued unflagged => same.mem_iff.mpr (found x queued unflagged)

theorem move (found : Found v) (safe : Safe v) (moved : Move True steady v v') : Found v' := by
  cases moved with
  | coroutines fewer => exact found
  | refuse =>
    intro x queued unflagged
    have queued : phase v.events x = .queued := queued
    have known := safe.le_of_phase (by rw [queued]; decide)
    have unflagged : Function.update v.flag (v.nextTaskId + 1) false x = false := unflagged
    rw [Function.update_of_ne (by omega)] at unflagged
    exact found x queued unflagged
  | submitPooled joined indexed older room =>
    exact found.enter (joined.append_right v.lanes)
  | submitLane joined =>
    exact found.enter ((joined.append_left v.pooled).trans List.perm_middle)
  | skipPooled left flagged older => exact found.skip flagged (left.append_right v.lanes)
  | runPooled left unflagged older carried =>
    exact found.depart rfl nofun (left.append_right v.lanes)
  | skipLane left flagged =>
    exact found.skip flagged ((left.append_left v.pooled).trans List.perm_middle)
  | runLane left | cancelLane left =>
    exact found.depart rfl nofun ((left.append_left v.pooled).trans List.perm_middle)
  | @spill pooled lanes stale t left joined older careful =>
    apply found.shift
    calc pooled ++ lanes
        _ |>.Perm (pooled ++ t :: v.lanes) := joined.append_left pooled
        _ |>.Perm (t :: pooled ++ v.lanes) := List.perm_middle
        _ |>.Perm (v.pooled ++ v.lanes) := left.symm.append_right v.lanes
  | @cancelPooled _ t | @cancelAsleep _ t => exact (found.raise t).emit nofun
  | resume member unflagged => exact found.emit nofun
  | @flagStale t old => exact found.raise t
  | lose fewer careful => exact found.shift ((careful trivial).append_right v.lanes)

theorem moves (found : Found v) (safe : Safe v) (moved : Moves True steady v v') : Found v' := by
  induction moved with
  | refl => exact found
  | tail earlier last ih => exact ih.move (safe.moves earlier) last

end Found

namespace ThreadPool

variable {s s' : ThreadPool} {live : Finset Nat} {w t : Nat}

theorem found_spill (list : List Nat) (s : ThreadPool)
    (found : Found { s.view live with pooled := list ++ s.pooled }) :
    Found ((list.foldl spillDequeTask s).view live) := by
  induction list generalizing s with
  | nil => exact found
  | cons t rest ih =>
    apply ih (s.spillDequeTask t)
    intro x queued unflagged
    have lanes : (laneTasks (s.spillDequeTask t).lanes).Perm (t :: laneTasks s.lanes) :=
      laneTasks_append (s.tasks t).priority s.lanes t
    have member : x ∈ t :: rest ++ s.pooled ++ laneTasks s.lanes := found x queued unflagged
    have moved : (rest ++ s.pooled ++ laneTasks (s.spillDequeTask t).lanes).Perm
        (t :: rest ++ s.pooled ++ laneTasks s.lanes) :=
      (lanes.append_left (rest ++ s.pooled)).trans List.perm_middle
    exact moved.mem_iff.mpr member

theorem found_leave (found : Found (s.view live)) (inside : w < s.maxWorkerCount)
    (left : s.leave w = some s') : Found (s'.view live) := by
  obtain ⟨-, ended, _, same, -, rfl, rfl⟩ := leave_cases left
  have ends : Found (ended.view live) := by
    rw [same.view live]
    exact found
  have split := pooled_clear (s := ended) (w := w) (by rwa [same.limit])
  have emptied : Found { (ended.setDeque w []).view live with
      pooled := ended.deque w ++ (ended.setDeque w []).pooled } :=
    fun x queued unflagged => (split.append_right _).mem_iff.mp (ends x queued unflagged)
  exact found_spill (ended.deque w) (ended.setDeque w []) emptied

end ThreadPool

/-- A worker that is in its loop for good. -/
def WorkerPc.stays : WorkerPc → Bool
  | .absent | .exited | .leaving => false
  | _ => true

/-- A resize gives up the deques only when they and the ring are empty. -/
def Prepared (s : ThreadPool) : Label → Prop
  | .resize count env =>
    s.Degrades count env → s.ring = [] ∧ ∀ w < s.maxWorkerCount, s.deque w = []
  | _ => True

instance (s : ThreadPool) : (label : Label) → Decidable (Prepared s label)
  | .resize count env =>
    inferInstanceAs (Decidable (s.Degrades count env →
      s.ring = [] ∧ ∀ w < s.maxWorkerCount, s.deque w = []))
  | .submit .. | .submitCoroutine .. | .pass .. | .finish .. | .create .. | .checkReady ..
  | .bodyEnds .. | .leave .. | .wake .. | .post | .timerFire .. | .cancel ..
  | .cancelById .. | .cancelAll | .repost | .join .. => .isTrue trivial

/-- The pool between two steps, with every waiting task accounted for. -/
structure Sited (s : ThreadPool) (live : Finset Nat) : Prop where
  tracked : s.Tracked live
  graded : s.Graded
  found : Found (s.view live)
  total : s.dequeTotal - s.queues.stashed = 0
  dry : s.deques.isSome = false → s.ring = []
  staffed : 0 < s.workerCount
  owner : (s.workers 0).stays = true

variable {s s' : ThreadPool} {live : Finset Nat}

theorem found_step {label : Label} (tracked : s.Tracked live) (found : Found (s.view live))
    (prepared : Prepared s label) (stepped : step s label = some s') :
    ∃ live', s'.Tracked live' ∧ Found (s'.view live') := by
  by_cases leaves : ∃ w, label = .leave w
  · obtain ⟨w, rfl⟩ := leaves
    obtain ⟨live', tracked'⟩ := tracked.step stepped
    refine ⟨live', tracked', ?_⟩
    have inside : w < s.maxWorkerCount := by
      apply tracked.shaped.lt_of_alive
      rw [(ThreadPool.control_leave stepped).1]
      decide
    exact ThreadPool.found_leave found inside stepped
  · have careful : Careful s label := by
      cases label with
      | leave w => exact absurd ⟨w, rfl⟩ leaves
      | resize count env => exact fun degrades => (prepared degrades).2
      | _ => trivial
    have refines : s.Refines True False live s' :=
      refines_step tracked (fun _ => careful) False.elim stepped
    obtain ⟨live', holds, moved⟩ := refines.moved
    exact ⟨live', ⟨refines.shaped, holds, tracked.safe.moves moved⟩, found.moves tracked.safe moved⟩

/-- A worker that stays is only displaced by a count that does not cover it. -/
theorem stays_turn {woken : Option Nat} {c c' : Control} (turn : Turn woken c c')
    (staffed : 0 < c.workerCount) (stays : (c.workers 0).stays = true) :
    0 < c'.workerCount ∧ (c'.workers 0).stays = true := by
  have moved : ∀ {w : Nat} {pc : WorkerPc}, pc.stays = true →
      (Function.update c.workers w pc 0).stays = true := by
    intro w pc own
    by_cases same : 0 = w
    · rw [← same, Function.update_self]
      exact own
    · rw [Function.update_of_ne same]
      exact stays
  have other : ∀ {w : Nat} {pc old : WorkerPc}, c.workers w = old → old.stays = false →
      (Function.update c.workers w pc 0).stays = true := by
    intro w pc old here gone
    by_cases same : 0 = w
    · rw [same, here, gone] at stays
      cases stays
    · rw [Function.update_of_ne same]
      exact stays
  cases turn with
  | quiet | posted | pushed | reposted => exact ⟨staffed, stays⟩
  | @works _ w pc list timerHeap here runs =>
    refine ⟨staffed, moved ?_⟩
    cases pc <;> first | rfl | cases runs
  | waits | wakes => exact ⟨staffed, moved rfl⟩
  | @displaced _ w here beyond =>
    refine ⟨staffed, ?_⟩
    show (Function.update c.workers w .leaving 0).stays = true
    rw [Function.update_of_ne (by omega)]
    exact stays
  | left here | joined here => exact ⟨staffed, other here rfl⟩

/-- Without a degradation a resize keeps every deque as it is. -/
theorem deque_resized {degrades : Prop} (graded : s.Graded) (shaped : s.Shaped)
    (resized : ThreadPool.Resized degrades s s')
    (empty : degrades → ∀ w < s.maxWorkerCount, s.deque w = []) (i : Nat) :
    s'.deque i = s.deque i := by
  rcases resized.deques i with same | ⟨none_, cause⟩
  · exact same
  · rw [none_]
    symm
    by_contra filled
    have inside := graded.lt_of_deque shaped filled
    rcases cause with beyond | degraded
    · omega
    · exact filled (empty degraded i inside)

theorem total_resized {degrades : Prop} (graded : s.Graded) (shaped : s.Shaped)
    (resized : ThreadPool.Resized degrades s s')
    (empty : degrades → ∀ w < s.maxWorkerCount, s.deque w = []) :
    s'.dequeTotal - s'.queues.stashed = s.dequeTotal - s.queues.stashed := by
  have same := deque_resized graded shaped resized empty
  have stashed : s'.queues.stashed = s.queues.stashed := by
    show (Bins.all s'.maxWorkerCount s'.deque).length = (Bins.all s.maxWorkerCount s.deque).length
    rw [funext same, Bins.all_extend resized.limit]
    intro i beyond _
    by_contra filled
    have inside := graded.lt_of_deque shaped filled
    omega
  rw [resized.dequeTotal, stashed]

theorem Sited.resize (sited : Sited s live) {count : Nat} {env : ResizeEnv}
    (prepared : Prepared s (.resize count env)) :
    ∃ live', Sited (s.loomPoolResize count env).1 live' := by
  have resized := ThreadPool.resized_resize s count env
  obtain ⟨live', tracked, found⟩ :=
    @found_step s _ live (.resize count env) sited.tracked sited.found prepared rfl
  refine ⟨live', tracked, sited.graded.resized resized, found, ?_, ?_, resized.count sited.staffed, ?_⟩
  · rw [total_resized sited.graded sited.tracked.shaped resized fun degrades => (prepared degrades).2]
    exact sited.total
  · intro none_
    rw [resized.ring]
    rcases resized.mode with same | degrades
    · exact sited.dry (same.symm.trans none_)
    · exact (prepared degrades).1
  · have owner := sited.owner
    rcases resized.workers 0 with same | ⟨absent, -⟩
    · rw [same]
      exact owner
    · rw [absent] at owner
      cases owner

theorem Sited.step (sited : Sited s live) {label : Label} (prepared : Prepared s label)
    (stepped : step s label = some s') : ∃ live', Sited s' live' := by
  cases fixed : label.resizes with
  | true =>
    cases label with
    | resize count env =>
      cases stepped
      exact sited.resize prepared
    | _ => cases fixed
  | false =>
    obtain ⟨live', tracked, found⟩ := found_step sited.tracked sited.found prepared stepped
    obtain ⟨staffed, owner⟩ := stays_turn (turn_step stepped fixed) sited.staffed sited.owner
    have graded := sited.graded.step sited.tracked stepped
    have shuffled : ∃ filled q, Shuffles filled q s'.queues ∧
        q.dequeTotal - q.stashed = s.dequeTotal - s.queues.stashed ∧ q.deques = s.deques ∧
        q.ring = s.ring := by
      rcases shuffles_step sited.tracked.shaped fixed stepped with
        ⟨w, -, shuffles⟩ | shuffles | ⟨task, shuffles⟩
      · exact ⟨_, _, shuffles, rfl, rfl, rfl⟩
      · exact ⟨_, _, shuffles, rfl, rfl, rfl⟩
      · exact ⟨_, _, shuffles, rfl, rfl, rfl⟩
    obtain ⟨filled, q, shuffles, total, mode, ring⟩ := shuffled
    refine ⟨live', tracked, graded, found, ?_, ?_, staffed, owner⟩
    · exact (shuffles.total.trans total).trans sited.total
    · intro none_
      have before : q.deques.isSome = false := shuffles.mode.symm.trans none_
      have fewer := shuffles.dry before
      rw [mode] at before
      rw [ring, sited.dry before] at fewer
      exact List.eq_nil_of_subset_nil fewer

theorem sited_poolInit (config : Config) (several : 0 < config.workerCount) :
    Sited (poolInit config) ∅ := by
  have empty : ∀ i, (poolInit config).deque i = [] := by
    intro i
    cases alloc : config.dequesAlloc with
    | true | false => simp [poolInit, ThreadPool.deque, alloc]
  have stashed : (poolInit config).queues.stashed = 0 := by
    show (Bins.all config.workerCount (poolInit config).deque).length = 0
    rw [Bins.all_eq_nil fun i _ => empty i]
    rfl
  refine ⟨tracked_poolInit config, ThreadPool.graded_poolInit config, ?_, ?_, fun _ => rfl, several, ?_⟩
  · intro t queued
    cases queued
  · rw [stashed]
    rfl
  · show (if 0 < config.workerCount then WorkerPc.looping else .absent).stays = true
    rw [if_pos several]
    rfl

namespace ThreadPool

/-- The task is where the pass of a worker below the count can take it: in a lane of
Step 0, in a deque or the ring while there are deques, or in a lane that Step 4 gets
to, that is unless a ring that nobody drains has work. -/
def Served (s : ThreadPool) (t : Nat) : Prop :=
  (∃ b ≤ 4, t ∈ s.lanes b) ∨
    s.deques.isSome = true ∧ ((∃ i < s.workerCount, t ∈ s.deque i) ∨ s.ringSize ≠ 0 ∧ t ∈ s.ring) ∨
    t ∈ laneTasks s.lanes ∧ (s.deques.isSome = true ∨ s.ringHasWork = false)

end ThreadPool

/-- No waiting task is lost: the uncancelled tasks in the queues are those that were
submitted and neither dispatched nor cancelled; without a resize in progress each
queued task is served by live workers; and deque_total is the number of tasks in
the deques. -/
structure NothingLost (s : ThreadPool) : Prop where
  queued : ∀ t, (s.tasks t).cancelled = false → (s.Queued t ↔ phase s.events t = .queued)
  served : s.joining = false → ∀ t, s.Queued t → s.Served t
  alive : (s.workers 0).stays = true ∧ 0 < s.workerCount
  total : s.dequeTotal = s.dequeTasks.length

theorem Sited.nothingLost (sited : Sited s live) : NothingLost s := by
  have graded := sited.graded
  have shaped := sited.tracked.shaped
  have queued_iff : ∀ t, s.Queued t ↔ t ∈ s.pooled ++ laneTasks s.lanes := by
    intro t
    constructor
    · intro queued
      rcases queued with lane | ring | ⟨i, deque⟩
      · exact List.mem_append_right _ lane
      · exact List.mem_append_left _ (List.mem_append_left _ ring)
      · have inside := graded.lt_of_deque shaped (List.ne_nil_of_mem deque)
        exact List.mem_append_left _ (List.mem_append_right _ (Bins.mem_all.mpr ⟨i, inside, deque⟩))
    · intro member
      rcases List.mem_append.mp member with pooled | lane
      · rcases List.mem_append.mp pooled with ring | deque
        · exact Or.inr (Or.inl ring)
        · obtain ⟨i, -, deque⟩ := Bins.mem_all.mp deque
          exact Or.inr (Or.inr ⟨i, deque⟩)
      · exact Or.inl lane
  refine ⟨?_, ?_, ⟨sited.owner, sited.staffed⟩, ?_⟩
  · intro t uncancelled
    rw [queued_iff]
    exact ⟨fun member => sited.tracked.safe.queued_of_unflagged member uncancelled,
      fun queued => sited.found t queued uncancelled⟩
  · intro settled t queued
    rcases queued with lane | ring | ⟨i, deque⟩
    · refine Or.inr (Or.inr ⟨lane, ?_⟩)
      cases mode : s.deques.isSome with
      | true => exact Or.inl rfl
      | false =>
        right
        unfold ThreadPool.ringHasWork
        rw [sited.dry mode]
        exact Bool.and_false _
    · have filled : s.ring ≠ [] := List.ne_nil_of_mem ring
      have size := shaped.fits.1
      have length := List.length_pos_of_ne_nil filled
      refine Or.inr (Or.inl ⟨?_, Or.inr ⟨by omega, ring⟩⟩)
      by_contra none_
      exact filled (sited.dry (by simpa using none_))
    · have filled : s.deque i ≠ [] := List.ne_nil_of_mem deque
      refine Or.inr (Or.inl ⟨ThreadPool.mode_of_deque filled, Or.inl ⟨i, ?_, deque⟩⟩)
      by_contra beyond
      exact filled (graded.deque_nil shaped settled (by omega))
  · have total := sited.total
    have stashed : s.queues.stashed = s.dequeTasks.length := rfl
    rw [stashed] at total
    omega

/-- In every run in which resizes give up the deques only when nothing is in them or
in the ring. pool_init starts at least one worker. -/
theorem resize_loses_nothing (config : Config) (several : 0 < config.workerCount)
    (labels : List Label) (prepared : Meets step Prepared (poolInit config) labels) :
    Always step NothingLost (poolInit config) labels := by
  apply @always_of_meets _ _ step (fun s => ∃ live, Sited s live) NothingLost Prepared
  · intro s s' label sited prepared stepped
    obtain ⟨live, sited⟩ := sited
    exact sited.step prepared stepped
  · intro s sited
    obtain ⟨live, sited⟩ := sited
    exact sited.nothingLost
  · exact ⟨∅, sited_poolInit config several⟩
  · exact prepared

/-- A shrink whose displaced worker spills its deque, and a grow that degrades an
empty pool. -/
theorem resize_loses_nothing_after_spill :
    Always step NothingLost (poolInit twoWorkers)
      [.submit 70 5 false true, .submit 71 5 false true, .pass 1 true, .resize 1 {}, .finish 1 0,
        .pass 1 true, .leave 1, .join 1, .pass 0 true, .finish 0 0,
        .resize 3 { slotsAlloc := false }, .submit 72 5 false true] := by
  apply resize_loses_nothing
  · decide
  · apply meets_of_decide
    decide +kernel

/-- One worker takes tasks 2, 3 and 4 from the ring and runs 4; task 5 comes to the
ring. A resize to 3 workers cannot allocate the slots of the new deques and returns
OK: tasks 2 and 3 are gone, nobody looks at task 5 in the ring any more, and
deque_total still counts 2 tasks. -/
theorem resize_loses_queued_tasks :
    ∃ labels before after, exec step (poolInit twoWorkers) labels = some before ∧
      before.loomPoolResize 3 { slotsAlloc := false } = (after, .ok) ∧
      before.Queued 2 ∧ (before.tasks 2).cancelled = false ∧ ¬after.Queued 2 ∧
      before.Queued 5 ∧ (before.tasks 5).cancelled = false ∧ ¬after.Served 5 ∧
      after.joining = false ∧ after.dequeTotal = 2 ∧ after.dequeTasks = [] := by
  let labels : List Label := [.submit 70 5 false true, .submit 71 5 false true,
    .submit 72 5 false true, .pass 1 true, .submit 73 5 false true]
  let env : ResizeEnv := { slotsAlloc := false }
  have run : ((exec step (poolInit twoWorkers) labels).map fun s =>
      (s.deque 1, s.ring, (s.tasks 2).cancelled, (s.tasks 5).cancelled)) =
      some ([3, 2], [5], false, false) := by
    decide +kernel
  have grown : ((exec step (poolInit twoWorkers) labels).map fun s =>
      ((s.loomPoolResize 3 env).2, (s.loomPoolResize 3 env).1.joining,
        (s.loomPoolResize 3 env).1.dequeTotal)) = some (.ok, false, 2) := by
    decide +kernel
  have left : ((exec step (poolInit twoWorkers) labels).map fun s =>
      ((s.loomPoolResize 3 env).1.deques.isSome, (s.loomPoolResize 3 env).1.ring,
        laneTasks (s.loomPoolResize 3 env).1.lanes)) = some (false, [5], []) := by
    decide +kernel
  obtain ⟨before, reached, shape⟩ := Option.map_eq_some_iff.mp run
  rw [reached] at grown left
  simp only [Option.map_some, Option.some.injEq, Prod.mk.injEq] at shape grown left
  obtain ⟨deque, ring, kept, awaited⟩ := shape
  obtain ⟨ok, joined, total⟩ := grown
  obtain ⟨mode, ringAfter, lanes⟩ := left
  obtain ⟨after, resized⟩ : ∃ after, (before.loomPoolResize 3 env).1 = after := ⟨_, rfl⟩
  rw [resized] at mode ringAfter lanes joined total
  have none_ : after.deques = none := by simpa using mode
  have laneOnly : ∀ i, after.deque i = [] := fun i => by
    unfold ThreadPool.deque
    rw [none_]
  have unlaned : ∀ t, t ∉ laneTasks after.lanes := fun t => by
    rw [lanes]
    exact List.not_mem_nil
  refine ⟨labels, before, after, reached, Prod.ext resized ok, ?_, kept, ?_, ?_, awaited, ?_, joined,
    total, ?_⟩
  · exact Or.inr (Or.inr ⟨1, by simp [deque]⟩)
  · rintro (lane | inRing | ⟨i, inDeque⟩)
    · exact unlaned 2 lane
    · simp [ringAfter] at inRing
    · simp [laneOnly] at inDeque
  · exact Or.inr (Or.inl (by simp [ring]))
  · rintro (⟨b, early, lane⟩ | ⟨deques, -⟩ | ⟨lane, -⟩)
    · exact unlaned 5 (Bins.mem_all.mpr ⟨b, by unfold priorityBuckets; omega, lane⟩)
    · rw [mode] at deques
      cases deques
    · exact unlaned 5 lane
  · exact Bins.all_eq_nil fun i _ => laneOnly i

end Loomworks.Pool

import Loomworks.PoolCalls
import Loomworks.PoolFetch

/- Who runs and who sleeps in a pool, without the queued tasks: the worker threads,
their ready FIFOs, the timer heap and the semaphore. -/
namespace Loomworks.Pool

open Function (update update_eq_self update_of_ne update_self)

structure Control where
  ringSize : Nat
  workerCount : Nat
  maxWorkerCount : Nat
  workers : Nat → WorkerPc
  coroReady : Nat → List Nat
  timerHeap : List TimerEntry
  workSem : Nat
  posts : Nat

def ThreadPool.control (s : ThreadPool) : Control :=
  { ringSize := s.ringSize
    workerCount := s.workerCount
    maxWorkerCount := s.maxWorkerCount
    workers := s.workers
    coroReady := s.coroReady
    timerHeap := s.timerHeap
    workSem := s.workSem
    posts := s.posts }

/-- The states of a worker between its wake-up and the end of its pass. -/
def WorkerPc.busy : WorkerPc → Bool
  | .looping | .running _ | .dispatching _ | .ready _ | .inBody _ _ => true
  | _ => false

/-- What a step other than a resize can do; woken is the worker that takes a
token. -/
inductive Turn : (woken : Option Nat) → Control → Control → Prop
  | quiet {c : Control} {timerHeap : List TimerEntry} {posts : Nat} (more : c.posts ≤ posts) :
      Turn none c { c with timerHeap, posts }
  | works {c : Control} {w : Nat} {pc : WorkerPc} {list : List Nat} {timerHeap : List TimerEntry}
      (here : (c.workers w).busy = true) (runs : pc.busy = true) :
      Turn none c { c with
        workers := update c.workers w pc
        coroReady := update c.coroReady w list
        timerHeap }
  | waits {c : Control} {w : Nat} (here : c.workers w = .looping) (empty : c.coroReady w = []) :
      Turn none c { c with workers := update c.workers w .waiting }
  | displaced {c : Control} {w : Nat} (here : c.workers w = .looping) (beyond : c.workerCount ≤ w) :
      Turn none c { c with workers := update c.workers w .leaving }
  | left {c : Control} {w : Nat} {timerHeap : List TimerEntry} (here : c.workers w = .leaving) :
      Turn none c { c with
        workers := update c.workers w .exited
        coroReady := update c.coroReady w []
        timerHeap
        posts := c.posts + 1 }
  | joined {c : Control} {w : Nat} (here : c.workers w = .exited) :
      Turn none c { c with workers := update c.workers w .absent }
  | wakes {c : Control} {w : Nat} (here : c.workers w = .waiting) (token : 0 < c.workSem) :
      Turn (some w) c { c with
        workers := update c.workers w .looping, workSem := c.workSem - 1 }
  | posted {c : Control} (begun : 0 < c.posts) :
      Turn none c { c with posts := c.posts - 1, workSem := c.workSem + 1 }
  | reposted {c : Control} {w : Nat} (alive : c.workers w ≠ .absent) (beyond : c.workerCount ≤ w) :
      Turn none c { c with workSem := c.workSem + 1 }
  | pushed {c : Control} {w : Nat} {list : List Nat} {timerHeap : List TimerEntry} :
      Turn none c { c with
        coroReady := update c.coroReady w list, timerHeap, posts := c.posts + 1 }

theorem Turn.refl (c : Control) : Turn none c c := Turn.quiet (Nat.le_refl c.posts)

theorem Turn.goes {c : Control} {w : Nat} {pc : WorkerPc} (here : (c.workers w).busy = true)
    (runs : pc.busy = true) : Turn none c { c with workers := update c.workers w pc } := by
  have turn := @Turn.works c w pc (c.coroReady w) c.timerHeap here runs
  rwa [update_eq_self] at turn

namespace ThreadPool

variable {s s' : ThreadPool} {w t : Nat}

/-- What ending a task, or cancelling it where it is, does to a pool: the node but not
its priority, the future, the index entry, the counter and the log. -/
def Settles (s s' : ThreadPool) : Prop :=
  ∃ tasks futures ended index queueLen events,
    s' = { s with tasks, futures, ended, index, queueLen, events } ∧ queueLen ≤ s.queueLen ∧
      ∀ x, (tasks x).priority = (s.tasks x).priority

/-- A cancel call takes tasks out of the lanes besides. -/
def Sheds (s s' : ThreadPool) : Prop :=
  ∃ lanes, (∀ b, lanes b ⊆ s.lanes b) ∧ Settles { s with lanes } s'

/-- What the steps of workers, timer and callers do that leave ring and deques alone. -/
def Stirs (s s' : ThreadPool) : Prop :=
  ∃ coroReady timerHeap posts workSem, Sheds { s with coroReady, timerHeap, posts, workSem } s'

namespace Settles

theorem notes {futures : Nat → Future} {ended : Nat → Option Ending} {index : CancelIndex}
    {queueLen : Int} {events : List Event} (lower : queueLen ≤ s.queueLen) :
    Settles s { s with futures, ended, index, queueLen, events } :=
  ⟨_, _, _, _, _, _, rfl, lower, fun _ => rfl⟩

theorem refl (s : ThreadPool) : Settles s s := notes (Int.le_refl _)

theorem trans {s'' : ThreadPool} (first : Settles s s') (second : Settles s' s'') : Settles s s'' := by
  obtain ⟨_, _, _, _, _, _, rfl, lower, before⟩ := first
  obtain ⟨_, _, _, _, _, _, rfl, lower', after⟩ := second
  exact ⟨_, _, _, _, _, _, rfl, lower'.trans lower, fun x => (after x).trans (before x)⟩

theorem control (settles : Settles s s') : s'.control = s.control := by
  obtain ⟨_, _, _, _, _, _, rfl, -⟩ := settles
  rfl

theorem queueLen (settles : Settles s s') : s'.queueLen ≤ s.queueLen := by
  obtain ⟨_, _, _, _, _, _, rfl, lower, -⟩ := settles
  exact lower

theorem deques (settles : Settles s s') : s'.deques = s.deques := by
  obtain ⟨_, _, _, _, _, _, rfl, -⟩ := settles
  rfl

theorem setLanes (settles : Settles s s') (lanes : Nat → List Nat) :
    Settles { s with lanes } { s' with lanes } := by
  obtain ⟨_, _, _, _, _, _, rfl, lower, priority⟩ := settles
  exact ⟨_, _, _, _, _, _, rfl, lower, priority⟩

theorem sheds (settles : Settles s s') : Sheds s s' :=
  ⟨s.lanes, fun _ => List.Subset.refl _, settles⟩

theorem stirs (settles : Settles s s') : Stirs s s' := ⟨_, _, _, _, settles.sheds⟩

theorem setTask {task : Task} (same : task.priority = (s.tasks t).priority) :
    Settles s (s.setTask t task) := by
  refine ⟨_, _, _, _, _, _, rfl, Int.le_refl _, fun x => ?_⟩
  by_cases here : x = t
  · rw [here, update_self, same]
  · rw [update_of_ne here]

theorem flag (s : ThreadPool) (t : Nat) : Settles s (s.flag t) := setTask rfl

theorem complete (s : ThreadPool) (t : Nat) (fut : Future) :
    Settles s ((s.setFuture t fut).setTask t { s.tasks t with completion := false }) := by
  have marked : Settles s (s.setFuture t fut) := notes (Int.le_refl _)
  exact marked.trans (setTask rfl)

theorem resolveCancelled (s : ThreadPool) (t : Nat) : Settles s (s.resolveCancelled t) := by
  unfold ThreadPool.resolveCancelled
  split
  · exact complete s t _
  · exact refl s

theorem resolve (s : ThreadPool) (t : Nat) (status : LoomResult) : Settles s (s.resolve t status) := by
  unfold ThreadPool.resolve
  split
  · exact complete s t _
  · exact refl s

theorem markFutureCancelled (s : ThreadPool) (t : Nat) : Settles s (s.markFutureCancelled t) := by
  unfold ThreadPool.markFutureCancelled
  split
  · exact notes (Int.le_refl _)
  · exact refl s

theorem settle (s : ThreadPool) (t : Nat) :
    Settles s (if (s.tasks t).isCoro then s.resolveCancelled t else s) := by
  split
  · exact resolveCancelled s t
  · exact refl s

theorem terminate (list : List Nat) (s : ThreadPool) : Settles s (list.foldl terminate s) := by
  induction list generalizing s with
  | nil => exact refl s
  | cons t rest ih =>
    have destroyed : Settles (s.resolveCancelled t) (s.terminate t) := notes (Int.le_refl _)
    exact ((resolveCancelled s t).trans destroyed).trans (ih _)

theorem drain (list : List Nat) (s : ThreadPool) : Settles s (list.foldl drainTask s) := by
  induction list generalizing s with
  | nil => exact refl s
  | cons t rest ih =>
    have same : (s.markFutureCancelled t).queueLen = s.queueLen := by
      unfold ThreadPool.markFutureCancelled
      split <;> rfl
    have lower : s.queueLen - 1 ≤ (s.markFutureCancelled t).queueLen := by omega
    have destroyed : Settles (s.markFutureCancelled t) (s.drainTask t) := notes lower
    exact ((markFutureCancelled s t).trans destroyed).trans (ih _)

theorem claim (claimed : s.claim t = some s') : Settles s s' := by
  unfold ThreadPool.claim at claimed
  dsimp only at claimed
  split at claimed
  · cases claimed
    have lowered : Settles s
        { s with index := (cancelIndexClaim s.index t).1, queueLen := s.queueLen - 1 } :=
      notes (by omega)
    exact (lowered.trans (settle _ t)).trans (notes (Int.le_refl _))
  · cases claimed

theorem cancelScan (data : Nat) (slots : List Nat) (s : ThreadPool) :
    Settles s (cancelScan data slots s).1 := by
  induction slots generalizing s with
  | nil => exact refl s
  | cons h rest ih =>
    unfold ThreadPool.cancelScan
    dsimp only
    split
    · exact ih s
    · split
      · exact ih s
      · rename_i t _
        split
        · exact ih s
        · split
          · rename_i claimed
            exact (flag s t).trans (claim claimed)
          · exact (flag s t).trans (ih _)

theorem cancelAllScan (slots : List Nat) (s : ThreadPool) : Settles s (cancelAllScan slots s).1 := by
  induction slots generalizing s with
  | nil => exact refl s
  | cons h rest ih =>
    unfold ThreadPool.cancelAllScan
    dsimp only
    split
    · exact ih s
    · split
      · exact ih s
      · rename_i t _
        split
        · exact ih s
        · have lower : s.queueLen - 1 ≤ (s.flag t).queueLen := Int.sub_le_self _ (by decide)
          have claimed : Settles (s.flag t) (s.claimSlot h t) := notes lower
          exact ((flag s t).trans claimed).trans (ih _)

theorem cancelAsleep (s : ThreadPool) (t : Nat) : Settles s (s.cancelAsleep t) :=
  ((flag s t).trans (resolveCancelled _ t)).trans (notes (Int.le_refl _))

end Settles

namespace Sheds

theorem control (sheds : Sheds s s') : s'.control = s.control := by
  obtain ⟨lanes, -, settles⟩ := sheds
  exact settles.control

theorem queueLen (sheds : Sheds s s') : s'.queueLen ≤ s.queueLen := by
  obtain ⟨lanes, -, settles⟩ := sheds
  exact settles.queueLen

theorem lanes (sheds : Sheds s s') (b : Nat) : s'.lanes b ⊆ s.lanes b := by
  obtain ⟨lanes, fewer, _, _, _, _, _, _, rfl, -⟩ := sheds
  exact fewer b

theorem after {s'' : ThreadPool} (settles : Settles s s') (sheds : Sheds s' s'') : Sheds s s'' := by
  obtain ⟨lanes, fewer, later⟩ := sheds
  refine ⟨lanes, ?_, (settles.setLanes lanes).trans later⟩
  obtain ⟨_, _, _, _, _, _, rfl, -⟩ := settles
  exact fewer

theorem cancelLane {found : Nat → Bool} (cancelled : s.cancelLane found = some s') : Sheds s s' := by
  unfold ThreadPool.cancelLane at cancelled
  split at cancelled
  · cases cancelled
  · rename_i t lanes unlinked
    cases cancelled
    refine ⟨lanes, lanes_unlinkFirst unlinked, ?_⟩
    have lower : s.queueLen - 1 ≤ s.queueLen := Int.sub_le_self _ (by decide)
    have lowered : Settles { s with lanes } { s with lanes, queueLen := s.queueLen - 1 } :=
      Settles.notes lower
    have marked := lowered.trans (Settles.markFutureCancelled _ t)
    exact (marked.trans (Settles.settle _ t)).trans (Settles.notes (Int.le_refl _))

theorem cancel (s : ThreadPool) (data : Nat) : Sheds s (s.loomPoolCancel data).1 := by
  have scanned := Settles.cancelScan data (List.range s.index.cap) s
  unfold loomPoolCancel
  split
  · exact (Settles.refl s).sheds
  · split
    · rename_i result
      rw [result] at scanned
      exact scanned.sheds
    · rename_i result
      rw [result] at scanned
      split
      · exact (scanned.trans (Settles.cancelAsleep _ _)).sheds
      · split
        · rename_i cancelled
          exact after scanned (cancelLane cancelled)
        · exact scanned.sheds

theorem cancelAll (s : ThreadPool) : Sheds s s.loomPoolCancelAll.1 := by
  refine ⟨fun _ => [], fun _ => List.nil_subset _, ?_⟩
  exact ((Settles.cancelAllScan _ s).setLanes _).trans (Settles.drain _ _)

/-- A sleeper that is cancelled by its id leaves the timer heap for a ready FIFO. -/
theorem cancelById (s : ThreadPool) (id : Nat) (alloc : Bool) : ∃ coroReady timerHeap posts,
    Sheds { s with coroReady, timerHeap, posts } (s.loomPoolCancelById id alloc).1 := by
  unfold loomPoolCancelById
  split
  · rename_i t _
    split
    · exact ⟨_, _, _, (Settles.refl s).sheds⟩
    · split
      · rename_i claimed
        exact ⟨_, _, _, ((Settles.flag s t).trans (Settles.claim claimed)).sheds⟩
      · exact ⟨_, _, _, (Settles.flag s t).sheds⟩
  · split
    · rename_i entry _
      obtain ⟨_, _, _, _, _, _, shape, lower, priority⟩ := Settles.cancelAsleep
        { s with timerHeap := s.timerHeap.eraseP fun e => e.task == id } entry.task
      dsimp only
      rw [shape]
      split <;> exact ⟨_, _, _, Settles.sheds ⟨_, _, _, _, _, _, rfl, lower, priority⟩⟩
    · split
      · rename_i cancelled
        exact ⟨_, _, _, cancelLane cancelled⟩
      · exact ⟨_, _, _, (Settles.refl s).sheds⟩

end Sheds

namespace Stirs

theorem queueLen (stirs : Stirs s s') : s'.queueLen ≤ s.queueLen := by
  obtain ⟨_, _, _, _, sheds⟩ := stirs
  exact sheds.queueLen

theorem lanes (stirs : Stirs s s') (b : Nat) : s'.lanes b ⊆ s.lanes b := by
  obtain ⟨_, _, _, _, sheds⟩ := stirs
  exact sheds.lanes b

theorem afterFirst (s : ThreadPool) (w t : Nat) (crc : Coro.CoroResult) (state : Coro.CoroState)
    (alloc : Bool) : Stirs s (s.afterFirst w t crc state alloc) := by
  have resolved : ∀ status how, Stirs s ((s.resolve t status).taskDestroy t how) :=
    fun status _ => ((Settles.resolve s t status).trans (Settles.notes (Int.le_refl _))).stirs
  have destroyed : Stirs s (s.taskDestroy t .failed) := (Settles.notes (Int.le_refl _)).stirs
  unfold ThreadPool.afterFirst
  split
  · split
    · split
      · exact ⟨_, _, _, _, (Settles.refl _).sheds⟩
      · exact resolved _ _
    · exact ⟨_, _, _, _, (Settles.refl _).sheds⟩
    · exact resolved _ _
    · exact destroyed
  · split
    · exact resolved _ _
    · exact destroyed

theorem afterResume (s : ThreadPool) (w t : Nat) (crc : Coro.CoroResult) (state : Coro.CoroState) :
    Stirs s (s.afterResume w t crc state) := by
  have destroyed : ∀ how, Stirs s (s.taskDestroy t how) :=
    fun _ => (Settles.notes (Int.le_refl _)).stirs
  unfold ThreadPool.afterResume
  split
  · split
    · exact ⟨_, _, _, _, (Settles.refl _).sheds⟩
    · exact ⟨_, _, _, _, (Settles.refl _).sheds⟩
    · exact destroyed _
    · exact destroyed _
  · exact destroyed _

theorem timerFire {i : Nat} {alloc : TimerAlloc} (fired : s.timerFire i alloc = some s') :
    Stirs s s' := by
  unfold ThreadPool.timerFire at fired
  split at fired
  · cases fired
  · cases alloc with
    | ready =>
      dsimp only at fired
      split at fired
      · cases fired
        exact ⟨_, _, _, _, (Settles.refl _).sheds⟩
      · cases fired
        exact ⟨_, _, _, _, (Settles.refl _).sheds⟩
    | rearmed | dropped =>
      cases fired
      exact ⟨_, _, _, _, (Settles.refl _).sheds⟩

end Stirs

theorem control_spill (list : List Nat) (s : ThreadPool) :
    (list.foldl spillDequeTask s).control = s.control := by
  induction list generalizing s with
  | nil => rfl
  | cons t rest ih => exact ih _

theorem control_takeLane {maxPriority : Nat} (taken : s.takeLane maxPriority = some (t, s')) :
    s'.control = s.control := by
  unfold takeLane at taken
  split at taken
  · cases taken
  · cases taken
    rfl

theorem control_dequePop (popped : s.dequePop w = some (t, s')) : s'.control = s.control := by
  unfold dequePop at popped
  split at popped
  · cases popped
  · cases popped
    rfl

theorem control_dequeSteal (stolen : s.dequeSteal w = some (t, s')) : s'.control = s.control := by
  unfold dequeSteal at stolen
  split at stolen
  · cases stolen
  · cases stolen
    rfl

theorem control_stash (batch : List Nat) (i : Nat) (s : ThreadPool) (task : Option Nat) :
    (stash w batch i (s, task)).1.control = s.control := by
  induction batch generalizing i s task with
  | nil => rfl
  | cons t rest ih =>
    unfold stash
    split
    · rename_i pushed
      unfold dequePush at pushed
      split at pushed
      · cases pushed
        exact ih _ _ _
      · cases pushed
    · split
      · exact ih _ _ _
      · exact ih _ _ _

theorem control_fetchRing (s : ThreadPool) (w : Nat) (cas : Bool) :
    (s.fetchRing w cas).1.control = s.control := by
  have bulk : (s.ringBulkTryDequeue cas).1.control = s.control := by
    unfold ringBulkTryDequeue
    split <;> rfl
  have stashed := control_stash (w := w) (s.ringBulkTryDequeue cas).2 0 (s.ringBulkTryDequeue cas).1 none
  unfold fetchRing
  dsimp only
  split
  · rename_i after t result
    rw [result] at stashed
    exact stashed.trans bulk
  · rename_i after result
    rw [result] at stashed
    split
    · rename_i popped
      exact (control_dequePop popped).trans (stashed.trans bulk)
    · exact stashed.trans bulk

theorem control_fetchElsewhere (s : ThreadPool) (w : Nat) :
    (s.fetchElsewhere w).1.control = s.control := by
  unfold fetchElsewhere
  split
  · rename_i stolen
    obtain ⟨-, victim, -, -, taken, -⟩ := List.findSome?_eq_some_iff.mp stolen
    exact control_dequeSteal taken
  · split
    · rfl
    · split
      · rename_i taken
        exact control_takeLane taken
      · rfl

theorem control_fetchTask (s : ThreadPool) (w : Nat) (cas : Bool) :
    (s.fetchTask w cas).1.control = s.control := by
  unfold fetchTask
  split
  · rename_i taken
    split at taken
    · exact control_takeLane taken
    · cases taken
  · split
    · split
      · rename_i popped
        exact control_dequePop popped
      · have ring : (if s.ringSize ≠ 0 then s.fetchRing w cas else (s, none)).1.control = s.control := by
          split
          · exact control_fetchRing s w cas
          · rfl
        split
        · rename_i result
          rw [result] at ring
          exact ring
        · rename_i result
          rw [result] at ring
          exact (control_fetchElsewhere _ w).trans ring
    · split
      · rfl
      · split
        · rename_i taken
          exact control_takeLane taken
        · rfl

theorem turn_of_eq {c : Control} (turn : Turn none s.control c) (same : s'.control = c) :
    Turn none s.control s'.control := same ▸ turn

theorem turn_idle (same : s'.control = s.control) : Turn none s.control s'.control :=
  turn_of_eq (Turn.refl _) same

theorem turn_enqueueTask (s : ThreadPool) (task : Task) (alloc : Bool) :
    Turn none s.control (s.enqueueTask task alloc).1.control := by
  have lane : Turn none s.control (s.enqueueLaneTask task).1.control := by
    unfold enqueueLaneTask
    split
    · exact Turn.refl _
    · exact Turn.quiet (Nat.le_succ s.posts)
  have ring : Turn none s.control (s.enqueueRingTask task).1.control := by
    unfold enqueueRingTask ringTryEnqueue spillToNormalLane
    dsimp only
    split
    · rename_i published
      split at published
      · cases published
        exact Turn.quiet (Nat.le_succ s.posts)
      · cases published
    · split
      · exact Turn.refl _
      · exact Turn.quiet (Nat.le_succ s.posts)
  unfold enqueueTask
  split
  · exact Turn.refl _
  · split
    · exact Turn.refl _
    · split
      · exact ring
      · exact lane

theorem turn_submitCoroutine (s : ThreadPool) (arg : Nat) (withFuture alloc : Bool) :
    Turn none s.control (s.loomPoolSubmitCoroutine arg withFuture alloc).1.control := by
  unfold loomPoolSubmitCoroutine enqueueLaneTask
  split
  · exact Turn.refl _
  · split
    · exact Turn.refl _
    · exact Turn.quiet (Nat.le_succ s.posts)

theorem turn_runBoundary {fetched : ThreadPool} (same : fetched.control = s.control)
    (here : s.workers w = .looping) (t : Nat) (fromRing : Bool) :
    Turn none s.control (fetched.runBoundary w t fromRing).control := by
  have busy : (fetched.control.workers w).busy = true := by
    rw [same]
    show (s.workers w).busy = true
    rw [here]
    rfl
  have removed : (if fromRing then { fetched with index := cancelIndexRemove fetched.index t }
      else fetched).control = fetched.control := by
    split <;> rfl
  rw [← same]
  unfold runBoundary
  dsimp only
  rw [← removed] at busy ⊢
  generalize (if fromRing then { fetched with index := cancelIndexRemove fetched.index t }
      else fetched) = boundary at busy ⊢
  split
  · exact turn_idle (Settles.markFutureCancelled boundary t).control
  · split
    · exact Turn.goes busy rfl
    · split
      · exact Turn.goes busy rfl
      · exact Turn.goes busy rfl

theorem turn_workerPass {cas : Bool} (passed : s.workerPass w cas = some s') :
    Turn none s.control s'.control := by
  unfold workerPass at passed
  split at passed
  · rename_i here
    have busy : (s.control.workers w).busy = true := by
      show (s.workers w).busy = true
      rw [here]
      rfl
    split at passed
    · cases passed
      exact Turn.works busy rfl
    · rename_i empty
      split at passed
      · rename_i beyond
        cases passed
        exact Turn.displaced here beyond
      · have fetched := control_fetchTask s w cas
        split at passed
        · rename_i after result
          rw [result] at fetched
          cases passed
          show Turn none s.control
            { after.control with workers := update after.control.workers w .waiting }
          rw [fetched]
          exact Turn.waits here empty
        · rename_i after t fromRing result
          rw [result] at fetched
          cases passed
          exact turn_runBoundary fetched here t fromRing
  · cases passed

theorem turn_setWorker {after : ThreadPool} (same : after.control = s.control)
    (here : (s.workers w).busy = true) {pc : WorkerPc} (runs : pc.busy = true) :
    Turn none s.control (after.setWorker w pc).control := by
  show Turn none s.control { after.control with workers := update after.control.workers w pc }
  rw [same]
  exact Turn.goes here runs

theorem turn_finish {result : Nat} (ended : s.finish w result = some s') :
    Turn none s.control s'.control := by
  unfold finish at ended
  split at ended
  · rename_i t running
    cases ended
    refine turn_setWorker ?_ (by simp [running, WorkerPc.busy]) rfl
    split <;> rfl
  · cases ended

theorem turn_create {handle : Option Nat} (made : s.create w handle = some s') :
    Turn none s.control s'.control := by
  unfold create at made
  split at made
  · rename_i dispatching
    cases made
    exact turn_setWorker rfl (by simp [dispatching, WorkerPc.busy]) rfl
  · rename_i dispatching
    cases made
    exact turn_setWorker rfl (by simp [dispatching, WorkerPc.busy]) rfl
  · cases made

theorem turn_checkReady (checked : s.checkReady w = some s') : Turn none s.control s'.control := by
  unfold checkReady at checked
  split at checked
  · rename_i t ready
    have busy : (s.workers w).busy = true := by simp [ready, WorkerPc.busy]
    split at checked
    · cases checked
      exact turn_setWorker (Settles.resolveCancelled s t).control busy rfl
    · cases checked
      exact turn_setWorker rfl busy rfl
  · cases checked

theorem control_readyKept (s : ThreadPool) (w : Nat) (timerHeap : List TimerEntry) :
    { s.control with coroReady := update s.coroReady w (s.coroReady w), timerHeap } =
      { s.control with timerHeap } := by
  rw [update_eq_self]
  rfl

/-- After a resume the worker's own FIFO and the timer heap are all that has
changed. -/
theorem control_afterFirst (s : ThreadPool) (w t : Nat) (crc : Coro.CoroResult)
    (state : Coro.CoroState) (alloc : Bool) : ∃ list timerHeap,
      (s.afterFirst w t crc state alloc).control =
        { s.control with coroReady := update s.coroReady w list, timerHeap } := by
  have same := control_readyKept s w
  unfold afterFirst
  split
  · split
    · split
      · exact ⟨_, _, rfl⟩
      · exact ⟨_, _, (Settles.resolve s t .errFailed).control.trans (same s.timerHeap).symm⟩
    · exact ⟨_, _, (same _).symm⟩
    · exact ⟨_, _, (Settles.resolve s t .ok).control.trans (same s.timerHeap).symm⟩
    · exact ⟨_, _, (same s.timerHeap).symm⟩
  · split
    · exact ⟨_, _, (Settles.resolve s t .errFailed).control.trans (same s.timerHeap).symm⟩
    · exact ⟨_, _, (same s.timerHeap).symm⟩

theorem control_afterResume (s : ThreadPool) (w t : Nat) (crc : Coro.CoroResult)
    (state : Coro.CoroState) : ∃ list timerHeap, (s.afterResume w t crc state).control =
      { s.control with coroReady := update s.coroReady w list, timerHeap } := by
  have same := control_readyKept s w
  unfold afterResume
  split
  · split
    · exact ⟨_, _, rfl⟩
    · exact ⟨_, _, (same _).symm⟩
    · exact ⟨_, _, (same s.timerHeap).symm⟩
    · exact ⟨_, _, (same s.timerHeap).symm⟩
  · exact ⟨_, _, (same s.timerHeap).symm⟩

theorem turn_ended {after : ThreadPool} {list : List Nat} {timerHeap : List TimerEntry}
    (same : after.control =
      { s.control with coroReady := update s.coroReady w list, timerHeap })
    (here : (s.workers w).busy = true) : Turn none s.control (after.setWorker w .looping).control := by
  show Turn none s.control
    { after.control with workers := update after.control.workers w .looping }
  rw [same]
  exact Turn.works here rfl

theorem turn_bodyEnds {behaviour : Behaviour} {alloc : Bool}
    (ended : s.bodyEnds w behaviour alloc = some s') : Turn none s.control s'.control := by
  unfold bodyEnds at ended
  split at ended
  · rename_i t body
    cases ended
    obtain ⟨list, timerHeap, same⟩ := control_afterFirst s w t behaviour.crc behaviour.state alloc
    exact turn_ended same (by simp [body, WorkerPc.busy])
  · rename_i t body
    cases ended
    obtain ⟨list, timerHeap, same⟩ := control_afterResume s w t behaviour.crc behaviour.state
    exact turn_ended same (by simp [body, WorkerPc.busy])
  · cases ended

theorem control_leave (left : s.leave w = some s') : s.workers w = .leaving ∧
    s'.control = { s.control with
      workers := update s.workers w .exited
      coroReady := update s.coroReady w []
      timerHeap := s.timerHeap.filter fun e => e.workerIdx ≠ w
      posts := s.posts + 1 } := by
  unfold leave at left
  split at left
  · rename_i leaving
    cases left
    let cleared : ThreadPool := { s with
      coroReady := update s.coroReady w []
      timerHeap := s.timerHeap.filter fun e => e.workerIdx ≠ w }
    let ended := (s.coroReady w ++
      (s.timerHeap.filter fun e => e.workerIdx = w).map TimerEntry.task).foldl terminate cleared
    let spilt := (ended.deque w).foldl spillDequeTask (ended.setDeque w [])
    have same : spilt.control = cleared.control :=
      (control_spill _ _).trans (Settles.terminate _ cleared).control
    refine ⟨leaving, ?_⟩
    show { spilt.control with
      workers := update spilt.control.workers w .exited, posts := spilt.control.posts + 1 } = _
    rw [same]
    rfl
  · cases left

theorem turn_leave (left : s.leave w = some s') : Turn none s.control s'.control := by
  obtain ⟨leaving, same⟩ := control_leave left
  exact turn_of_eq (Turn.left leaving) same

theorem turn_timerFire {i : Nat} {alloc : TimerAlloc} (fired : s.timerFire i alloc = some s') :
    Turn none s.control s'.control := by
  unfold timerFire at fired
  split at fired
  · cases fired
  · cases alloc with
    | ready =>
      dsimp only at fired
      split at fired
      · cases fired
        exact Turn.pushed
      · cases fired
        exact Turn.quiet (Nat.le_refl s.posts)
    | rearmed | dropped =>
      cases fired
      exact Turn.quiet (Nat.le_refl s.posts)

theorem turn_cancelById (s : ThreadPool) (id : Nat) (alloc : Bool) :
    Turn none s.control (s.loomPoolCancelById id alloc).1.control := by
  unfold loomPoolCancelById
  split
  · rename_i t _
    split
    · exact Turn.refl _
    · split
      · rename_i claimed
        exact turn_idle ((Settles.flag s t).trans (Settles.claim claimed)).control
      · exact Turn.refl _
  · split
    · rename_i entry asleep
      have same := (Settles.cancelAsleep
        { s with timerHeap := s.timerHeap.eraseP fun e => e.task == id } entry.task).control
      dsimp only
      generalize cancelAsleep { s with timerHeap := s.timerHeap.eraseP fun e => e.task == id }
        entry.task = after at same ⊢
      have same : after.control = { s.control with
          timerHeap := s.timerHeap.eraseP fun e => e.task == id } := same
      split
      · show Turn none s.control { after.control with
          coroReady := update after.control.coroReady entry.workerIdx
            (after.control.coroReady entry.workerIdx ++ [entry.task])
          posts := after.control.posts + 1 }
        rw [same]
        exact Turn.pushed
      · exact turn_of_eq (Turn.quiet (Nat.le_refl s.posts)) same
    · split
      · rename_i cancelled
        exact turn_idle (Sheds.cancelLane cancelled).control
      · exact Turn.refl _

end ThreadPool

def Label.resizes : Label → Bool
  | .resize _ _ => true
  | _ => false

/-- The worker that the step wakes. -/
def Label.wakes : Label → Option Nat
  | .wake w => some w
  | _ => none

/-- Every step but a resize is a turn. -/
theorem turn_step {s s' : ThreadPool} {label : Label} (stepped : step s label = some s')
    (fixed : label.resizes = false) : Turn label.wakes s.control s'.control := by
  cases label with
  | submit userData priority isFuture alloc =>
    cases stepped
    exact s.turn_enqueueTask _ alloc
  | submitCoroutine arg withFuture alloc =>
    cases stepped
    exact s.turn_submitCoroutine arg withFuture alloc
  | pass w cas => exact ThreadPool.turn_workerPass stepped
  | finish w result => exact ThreadPool.turn_finish stepped
  | create w handle => exact ThreadPool.turn_create stepped
  | checkReady w => exact ThreadPool.turn_checkReady stepped
  | bodyEnds w behaviour alloc => exact ThreadPool.turn_bodyEnds stepped
  | leave w => exact ThreadPool.turn_leave stepped
  | wake w =>
    simp only [step] at stepped
    split at stepped
    · rename_i blocked
      cases stepped
      exact Turn.wakes blocked.1 blocked.2
    · cases stepped
  | post =>
    simp only [step] at stepped
    split at stepped
    · rename_i begun
      cases stepped
      exact Turn.posted begun
    · cases stepped
  | timerFire i alloc => exact ThreadPool.turn_timerFire stepped
  | cancel data =>
    cases stepped
    exact ThreadPool.turn_idle (ThreadPool.Sheds.cancel s data).control
  | cancelById id alloc =>
    cases stepped
    exact s.turn_cancelById id alloc
  | cancelAll =>
    cases stepped
    exact ThreadPool.turn_idle (ThreadPool.Sheds.cancelAll s).control
  | resize count env => cases fixed
  | repost =>
    simp only [step] at stepped
    split at stepped
    · rename_i joining
      cases stepped
      simp only [ThreadPool.joining, List.any_eq_true, Bool.and_eq_true, decide_eq_true_eq] at joining
      obtain ⟨w, -, beyond, alive⟩ := joining
      exact Turn.reposted alive beyond
    · cases stepped
  | join w =>
    simp only [step] at stepped
    split at stepped
    · rename_i exited
      cases stepped
      exact Turn.joined exited
    · cases stepped

namespace ThreadPool

variable {s s' : ThreadPool} {w i : Nat}

theorem workers_enqueueLaneTask (s : ThreadPool) (task : Task) :
    (s.enqueueLaneTask task).1.workers = s.workers := by
  unfold enqueueLaneTask
  split <;> rfl

theorem workers_enqueueTask (s : ThreadPool) (task : Task) (alloc : Bool) :
    (s.enqueueTask task alloc).1.workers = s.workers := by
  unfold enqueueTask
  split
  · rfl
  · split
    · rfl
    · split
      · unfold enqueueRingTask ringTryEnqueue spillToNormalLane
        dsimp only
        split
        · rename_i published
          split at published
          · cases published
            rfl
          · cases published
        · split <;> rfl
      · exact workers_enqueueLaneTask s task

theorem workers_cancelById (s : ThreadPool) (id : Nat) (alloc : Bool) :
    (s.loomPoolCancelById id alloc).1.workers = s.workers := by
  obtain ⟨coroReady, timerHeap, posts, sheds⟩ := Sheds.cancelById s id alloc
  exact congrArg Control.workers sheds.control

theorem leaving_setWorker {after : ThreadPool} {pc : WorkerPc} (same : after.workers = s.workers)
    (here : s.workers i = .leaving) (busy : s.workers w ≠ .leaving) :
    (after.setWorker w pc).workers i = .leaving := by
  have differs : i ≠ w := fun equal => busy (equal ▸ here)
  show update after.workers w pc i = .leaving
  rw [update_of_ne differs, same, here]

theorem leaving_workerPass {cas : Bool} (passed : s.workerPass w cas = some s')
    (here : s.workers i = .leaving) : s'.workers i = .leaving := by
  unfold workerPass at passed
  split at passed
  · rename_i loops
    have busy : s.workers w ≠ .leaving := by simp [loops]
    split at passed
    · cases passed
      exact leaving_setWorker rfl here busy
    · split at passed
      · cases passed
        exact leaving_setWorker rfl here busy
      · have fetched := congrArg Control.workers (s.control_fetchTask w cas)
        split at passed
        · rename_i result
          rw [result] at fetched
          cases passed
          exact leaving_setWorker fetched here busy
        · rename_i after t fromRing result
          rw [result] at fetched
          have removed : (if fromRing then { after with index := cancelIndexRemove after.index t }
              else after).workers = s.workers := by
            split <;> exact fetched
          cases passed
          unfold runBoundary
          dsimp only
          generalize (if fromRing then { after with index := cancelIndexRemove after.index t }
            else after) = boundary at removed ⊢
          split
          · have marked : (boundary.markFutureCancelled t).workers = boundary.workers :=
              congrArg Control.workers (Settles.markFutureCancelled boundary t).control
            show (boundary.markFutureCancelled t).workers i = .leaving
            rw [marked, removed]
            exact here
          · split
            · exact leaving_setWorker removed here busy
            · split
              · exact leaving_setWorker removed here busy
              · exact leaving_setWorker removed here busy
  · cases passed

end ThreadPool

/-- A worker leaves the exit path only at its end. -/
theorem leaving_stays {s s' : ThreadPool} {label : Label} {i : Nat}
    (stepped : step s label = some s') (fixed : label.resizes = false)
    (here : s.workers i = .leaving) : s'.workers i = .leaving ∨ label = .leave i := by
  have same : ∀ {final : ThreadPool}, final.workers = s.workers →
      final.workers i = .leaving ∨ label = .leave i := by
    intro final equal
    rw [equal]
    exact Or.inl here
  cases label with
  | submit userData priority isFuture alloc =>
    cases stepped
    exact same (s.workers_enqueueTask _ alloc)
  | submitCoroutine arg withFuture alloc =>
    cases stepped
    apply same
    show (s.loomPoolSubmitCoroutine arg withFuture alloc).1.workers = s.workers
    unfold ThreadPool.loomPoolSubmitCoroutine
    split
    · rfl
    · exact s.workers_enqueueLaneTask _
  | pass w cas => exact Or.inl (ThreadPool.leaving_workerPass stepped here)
  | finish w result =>
    simp only [step, ThreadPool.finish] at stepped
    split at stepped
    · rename_i t running
      cases stepped
      left
      apply ThreadPool.leaving_setWorker _ here (by simp [running])
      split <;> rfl
    · cases stepped
  | create w handle =>
    simp only [step, ThreadPool.create] at stepped
    split at stepped
    · rename_i dispatching
      have busy : s.workers w ≠ .leaving := by simp [dispatching]
      cases stepped
      exact Or.inl (ThreadPool.leaving_setWorker rfl here busy)
    · rename_i dispatching
      have busy : s.workers w ≠ .leaving := by simp [dispatching]
      cases stepped
      exact Or.inl (ThreadPool.leaving_setWorker rfl here busy)
    · cases stepped
  | checkReady w =>
    simp only [step, ThreadPool.checkReady] at stepped
    split at stepped
    · rename_i t ready
      split at stepped
      · cases stepped
        left
        apply ThreadPool.leaving_setWorker _ here (by simp [ready])
        exact congrArg Control.workers (ThreadPool.Settles.resolveCancelled s t).control
      · cases stepped
        exact Or.inl (ThreadPool.leaving_setWorker rfl here (by simp [ready]))
    · cases stepped
  | bodyEnds w behaviour alloc =>
    simp only [step, ThreadPool.bodyEnds] at stepped
    split at stepped
    · rename_i t body
      cases stepped
      obtain ⟨list, timerHeap, equal⟩ :=
        s.control_afterFirst w t behaviour.crc behaviour.state alloc
      exact Or.inl (ThreadPool.leaving_setWorker (congrArg Control.workers equal) here
        (by simp [body]))
    · rename_i t body
      cases stepped
      obtain ⟨list, timerHeap, equal⟩ := s.control_afterResume w t behaviour.crc behaviour.state
      exact Or.inl (ThreadPool.leaving_setWorker (congrArg Control.workers equal) here
        (by simp [body]))
    · cases stepped
  | leave w =>
    by_cases own : i = w
    · right
      rw [own]
    · left
      obtain ⟨-, equal⟩ := ThreadPool.control_leave stepped
      have equal : s'.workers = update s.workers w .exited :=
        congrArg Control.workers equal
      rw [equal, update_of_ne own]
      exact here
  | wake w =>
    simp only [step] at stepped
    split at stepped
    · rename_i blocked
      cases stepped
      exact Or.inl (ThreadPool.leaving_setWorker rfl here (by simp [blocked.1]))
    · cases stepped
  | post | repost =>
    simp only [step] at stepped
    split at stepped
    · cases stepped
      exact same rfl
    · cases stepped
  | timerFire k alloc =>
    simp only [step, ThreadPool.timerFire] at stepped
    split at stepped
    · cases stepped
    · cases alloc with
      | ready =>
        dsimp only at stepped
        split at stepped
        · cases stepped
          exact same rfl
        · cases stepped
          exact same rfl
      | rearmed | dropped =>
        cases stepped
        exact same rfl
  | cancel data =>
    cases stepped
    exact same (congrArg Control.workers (ThreadPool.Sheds.cancel s data).control)
  | cancelById id alloc =>
    cases stepped
    exact same (s.workers_cancelById id alloc)
  | cancelAll =>
    cases stepped
    exact same (congrArg Control.workers (ThreadPool.Sheds.cancelAll s).control)
  | resize count env => cases fixed
  | join w =>
    simp only [step] at stepped
    split at stepped
    · rename_i exited
      cases stepped
      exact Or.inl (ThreadPool.leaving_setWorker rfl here (by simp [exited]))
    · cases stepped

/-- The threads of a pool that was never resized. -/
structure Staffed (config : Config) (c : Control) : Prop where
  ring : c.ringSize = config.ringSize
  count : c.workerCount = config.workerCount
  limit : c.maxWorkerCount = config.workerCount
  inside : ∀ w, c.workers w ≠ .absent → w < config.workerCount
  stays : ∀ w, c.workers w ≠ .leaving ∧ c.workers w ≠ .exited

theorem staffed_poolInit (config : Config) : Staffed config (poolInit config).control := by
  refine ⟨rfl, rfl, rfl, ?_, ?_⟩
  · intro w alive
    by_contra beyond
    exact alive (if_neg beyond)
  · intro w
    show (if w < config.workerCount then WorkerPc.looping else .absent) ≠ .leaving ∧
      (if w < config.workerCount then WorkerPc.looping else .absent) ≠ .exited
    split
    · decide
    · decide

theorem Staffed.reassign {config : Config} {c : Control} (staffed : Staffed config c) {w : Nat}
    {pc : WorkerPc} (inside : w < config.workerCount) (stays : pc ≠ .leaving ∧ pc ≠ .exited)
    (coroReady : Nat → List Nat) (timerHeap : List TimerEntry) (workSem posts : Nat) :
    Staffed config { c with
      workers := update c.workers w pc, coroReady, timerHeap, workSem, posts } := by
  refine ⟨staffed.ring, staffed.count, staffed.limit, ?_, ?_⟩
  · intro v alive
    have alive : update c.workers w pc v ≠ .absent := alive
    by_cases same : v = w
    · exact same ▸ inside
    · rw [update_of_ne same] at alive
      exact staffed.inside v alive
  · intro v
    show update c.workers w pc v ≠ .leaving ∧ update c.workers w pc v ≠ .exited
    by_cases same : v = w
    · rw [same, update_self]
      exact stays
    · rw [update_of_ne same]
      exact staffed.stays v

theorem Staffed.turn {config : Config} {woken : Option Nat} {c c' : Control}
    (staffed : Staffed config c) (turn : Turn woken c c') : Staffed config c' := by
  have loops : ∀ {w : Nat}, c.workers w = .looping → w < config.workerCount := by
    intro w here
    exact staffed.inside w (by rw [here]; decide)
  cases turn with
  | quiet | posted | pushed =>
    exact ⟨staffed.ring, staffed.count, staffed.limit, staffed.inside, staffed.stays⟩
  | @works _ w pc list timerHeap here runs =>
    refine staffed.reassign (staffed.inside w ?_) ?_ _ _ _ _
    · intro absent
      rw [absent] at here
      cases here
    · constructor <;> intro wrong <;> rw [wrong] at runs <;> cases runs
  | waits here empty => exact staffed.reassign (loops here) (by decide) _ _ _ _
  | displaced here beyond =>
    have inside := loops here
    have count := staffed.count
    omega
  | left here => exact absurd here (staffed.stays _).1
  | joined here => exact absurd here (staffed.stays _).2
  | wakes here token =>
    exact staffed.reassign (staffed.inside _ (by rw [here]; decide)) (by decide) _ _ _ _
  | reposted alive beyond =>
    have inside := staffed.inside _ alive
    have count := staffed.count
    omega

end Loomworks.Pool

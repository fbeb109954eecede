import Loomworks.Intake
import Loomworks.PoolControl

/- What the steps of the submit machine can do, and the settings of the pool, which they leave
alone. -/
namespace Loomworks.Pool

namespace ThreadPool

variable {s s' : ThreadPool} {w t : Nat}

/-- The fields of a pool that are fixed without a resize. -/
structure Settings where
  queueCapacity : Nat
  ringSize : Nat
  workerCount : Nat
  maxWorkerCount : Nat

/-- The fields only submits and passes touch, too. -/
structure Frame extends Settings where
  ring : List Nat
  deques : Option (Nat → List Nat)
  dequeTotal : Int
  nextTaskId : Nat
  workSem : Nat

def settings (s : ThreadPool) : Settings :=
  { queueCapacity := s.queueCapacity
    ringSize := s.ringSize
    workerCount := s.workerCount
    maxWorkerCount := s.maxWorkerCount }

theorem sizes_of_settings (same : s'.settings = s.settings) : s'.workerCount = s.workerCount ∧
    s'.maxWorkerCount = s.maxWorkerCount ∧ s'.ringSize = s.ringSize :=
  ⟨congrArg Settings.workerCount same, congrArg Settings.maxWorkerCount same,
    congrArg Settings.ringSize same⟩

def frame (s : ThreadPool) : Frame :=
  { toSettings := s.settings
    ring := s.ring
    deques := s.deques
    dequeTotal := s.dequeTotal
    nextTaskId := s.nextTaskId
    workSem := s.workSem }

/-- The queues but the lanes stay as they are. -/
structure Steady (s s' : ThreadPool) : Prop where
  settings : s'.settings = s.settings
  ring : s'.ring = s.ring
  deques : s'.deques = s.deques
  total : s'.dequeTotal = s.dequeTotal
  next : s'.nextTaskId = s.nextTaskId

theorem calm_of_frame (same : s'.frame = s.frame) : Steady s s' :=
  ⟨congrArg Frame.toSettings same, congrArg Frame.ring same, congrArg Frame.deques same,
    congrArg Frame.dequeTotal same, congrArg Frame.nextTaskId same⟩

theorem Steady.trans {s'' : ThreadPool} (first : Steady s s') (second : Steady s' s'') : Steady s s'' :=
  ⟨second.settings.trans first.settings, second.ring.trans first.ring, second.deques.trans first.deques,
    second.total.trans first.total, second.next.trans first.next⟩

theorem settings_of_frame (same : s'.frame = s.frame) : s'.settings = s.settings :=
  congrArg Frame.toSettings same

theorem Sheds.frame (sheds : Sheds s s') : s'.frame = s.frame := by
  obtain ⟨_, -, _, _, _, _, _, _, rfl, -⟩ := sheds
  rfl

theorem Stirs.steady (stirs : Stirs s s') : Steady s s' := by
  obtain ⟨_, _, _, _, sheds⟩ := stirs
  have same := sheds.frame
  exact ⟨congrArg Frame.toSettings same, congrArg Frame.ring same, congrArg Frame.deques same,
    congrArg Frame.dequeTotal same, congrArg Frame.nextTaskId same⟩

theorem Settles.frame (settles : Settles s s') : s'.frame = s.frame := settles.sheds.frame

theorem frame_afterFirst (s : ThreadPool) (w t : Nat) (crc : Coro.CoroResult)
    (state : Coro.CoroState) (alloc : Bool) :
    (s.afterFirst w t crc state alloc).frame = s.frame ∧
      (s.afterFirst w t crc state alloc).queueLen = s.queueLen := by
  have resolved : ∀ status, (s.resolve t status).frame = s.frame ∧
      (s.resolve t status).queueLen = s.queueLen := by
    intro status
    unfold resolve
    split <;> exact ⟨rfl, rfl⟩
  unfold afterFirst
  split
  · split
    · split
      · exact ⟨rfl, rfl⟩
      · exact resolved _
    · exact ⟨rfl, rfl⟩
    · exact resolved _
    · exact ⟨rfl, rfl⟩
  · split
    · exact resolved _
    · exact ⟨rfl, rfl⟩

theorem frame_afterResume (s : ThreadPool) (w t : Nat) (crc : Coro.CoroResult)
    (state : Coro.CoroState) :
    (s.afterResume w t crc state).frame = s.frame ∧
      (s.afterResume w t crc state).queueLen = s.queueLen := by
  unfold afterResume
  split
  · split <;> exact ⟨rfl, rfl⟩
  · exact ⟨rfl, rfl⟩

theorem frame_timerFire {i : Nat} {alloc : TimerAlloc} (fired : s.timerFire i alloc = some s') :
    s'.frame = s.frame ∧ s'.queueLen = s.queueLen := by
  unfold timerFire at fired
  split at fired
  · cases fired
  · cases alloc with
    | ready =>
      dsimp only at fired
      split at fired
      · cases fired
        exact ⟨rfl, rfl⟩
      · cases fired
        exact ⟨rfl, rfl⟩
    | rearmed | dropped =>
      cases fired
      exact ⟨rfl, rfl⟩

end ThreadPool

namespace Intake

variable {s s' : State} {c w : Nat}

@[simp] theorem setWorker_self (s : State) (w : Nat) (pc : WorkerPc) : (s.setWorker w pc).workers w = pc :=
  Function.update_self _ _ _

theorem setWorker_of_ne (s : State) {w v : Nat} (pc : WorkerPc) (other : v ≠ w) :
    (s.setWorker w pc).workers v = s.workers v :=
  Function.update_of_ne other _ _

/-- The moves of a client that change nothing but its place. -/
inductive Walk (s : State) (c : Nat) (ok : Bool) : CallPc → CallPc → Prop
  | coroutine (open_ : s.shutdown = false) (kind : (s.clients c).request.isCoro = true) :
      Walk s c ok .check .lane
  | unbounded (open_ : s.shutdown = false) (kind : (s.clients c).request.isCoro = false)
      (limit : s.pool.queueCapacity = 0) : Walk s c ok .check (s.route (s.clients c).request)
  | bounded (open_ : s.shutdown = false) (kind : (s.clients c).request.isCoro = false)
      (limit : s.pool.queueCapacity ≠ 0) : Walk s c ok .check .capacity
  | crowded (full : s.pool.full = true) : Walk s c ok .capacity .waitSpace
  | room (space : s.pool.full = false) : Walk s c ok .capacity (s.route (s.clients c).request)
  | blocks (full : s.pool.full = true) (open_ : s.shutdown = false) :
      Walk s c ok .waitSpace (.blocked false)
  | slips (free : s.pool.full = false ∨ s.shutdown = true) :
      Walk s c ok .waitSpace (s.route (s.clients c).request)
  | quits {woken : Bool} (reason : ok = false ∨ s.shutdown = true ∨ s.draining = true) :
      Walk s c ok (.blocked woken) .gaveUp
  | waits {woken : Bool} (awake : ok = true) (open_ : s.shutdown = false) (full : s.pool.full = true) :
      Walk s c ok (.blocked woken) (.blocked false)
  | leaves {woken : Bool} (awake : ok = true) (open_ : s.shutdown = false)
      (space : s.pool.full = false) :
      Walk s c ok (.blocked woken) (s.route (s.clients c).request)
  | loadTail {t : Nat} : Walk s c ok (.loadTail t) (.loadSeq t s.ring.tail)
  | free {t tail : Nat} (read : s.ring.seq (s.ring.cell tail) = tail) :
      Walk s c ok (.loadSeq t tail) (.casTail t tail)
  | taken {t tail : Nat} : Walk s c ok (.loadSeq t tail) (.subLen t)
  | retry {t tail : Nat} : Walk s c ok (.casTail t tail) (.loadSeq t s.ring.tail)

/-- Where a client can be when its call returns an error without a task. -/
def CallPc.empty : CallPc → Bool
  | .check | .capacity | .gaveUp | .lane | .create => true
  | _ => false

/-- What the next step of a client can be. -/
inductive Called (s : State) (c : Nat) (ok : Bool) (n : Nat) : State → Prop
  | walks {pc : CallPc} (walk : Walk s c ok (s.clients c).pc pc) : Called s c ok n (s.setPc c pc)
  | gives {result : LoomResult} (here : (s.clients c).pc.empty = true) (failed : result ≠ .ok) :
      Called s c ok n (s.returns c result)
  | lane (here : (s.clients c).pc = .lane) (open_ : s.shutdown = false) (space : s.pool.full = false)
      (vacant : s.free n = true) :
      Called s c ok n ({ s.taskCreate (s.clients c).request n with
        pool := { (s.taskCreate (s.clients c).request n).pool.loomEnqueueUnlocked
          (s.pool.nextTaskId + 1) with workSem := s.pool.workSem + 1 }
        accepted := (s.pool.nextTaskId + 1) :: s.accepted }.returns c .ok)
  | creates (here : (s.clients c).pc = .create) (vacant : s.free n = true) :
      Called s c ok n ((s.taskCreate (s.clients c).request n).setPc c (.addLen (s.pool.nextTaskId + 1)))
  | addLen {t : Nat} (here : (s.clients c).pc = .addLen t) :
      Called s c ok n ({ s with pool := { s.pool with queueLen := s.pool.queueLen + 1 } }.setPc c
        (.loadTail t))
  | subLen {t : Nat} (here : (s.clients c).pc = .subLen t) :
      Called s c ok n ({ s with pool := { s.pool with queueLen := s.pool.queueLen - 1 } }.setPc c
        (.spill t))
  | spillRefused {t : Nat} {result : LoomResult} (here : (s.clients c).pc = .spill t)
      (failed : result ≠ .ok) :
      Called s c ok n ({ s with pool := s.pool.taskDestroy t .failed }.returns c result)
  | spills {t : Nat} (here : (s.clients c).pc = .spill t) (open_ : s.shutdown = false)
      (space : s.pool.full = false) :
      Called s c ok n ({ s with pool := s.pool.loomEnqueueUnlocked t }.setPc c (.post t))
  | posts {t : Nat} (here : (s.clients c).pc = .post t) :
      Called s c ok n ({ s with
        pool := { s.pool with workSem := s.pool.workSem + 1 }
        accepted := t :: s.accepted }.returns c .ok)
  | claims {t : Nat} (here : (s.clients c).pc = .casTail t s.ring.tail) :
      Called s c ok n ({ s with
        ring := s.ring.claim
        history := s.history.claim t
        pool := { s.pool with ring := s.pool.ring ++ [t] } }.setPc c (.storeTask t s.ring.tail))
  | stores {t pos : Nat} (here : (s.clients c).pc = .storeTask t pos) :
      Called s c ok n ({ s with ring := s.ring.fill pos t }.setPc c (.insert t pos))
  | inserts {t pos : Nat} (here : (s.clients c).pc = .insert t pos) :
      Called s c ok n ({ s with
        pool := { s.pool with
          index := cancelIndexInsert s.pool.index t (s.pool.tasks t).userData } }.setPc c (.publish t pos))
  | publishes {t pos : Nat} (here : (s.clients c).pc = .publish t pos) :
      Called s c ok n ({ s with
        ring := s.ring.publish pos, history := s.history.publish pos }.setPc c (.addCount t))
  | counts {t : Nat} (here : (s.clients c).pc = .addCount t) :
      Called s c ok n ({ s with ringCount := s.ringCount + 1 }.setPc c (.post t))

theorem called_enqueueTask {pc : CallPc} {ok : Bool} {n : Nat} (here : (s.clients c).pc = pc)
    (called : s.enqueueTask c ok pc = some s') : Called s c ok n s' := by
  have walks : ∀ {next : CallPc}, Walk s c ok pc next → Called s c ok n (s.setPc c next) := by
    intro next walk
    exact Called.walks (by rw [here]; exact walk)
  cases pc with
  | check =>
    simp only [State.enqueueTask] at called
    split at called
    · cases called
      exact Called.gives (by rw [here]; rfl) (by decide)
    · rename_i open_
      have open_ : s.shutdown = false := Bool.eq_false_iff.mpr open_
      split at called
      · rename_i kind
        cases called
        exact walks (.coroutine open_ kind)
      · rename_i kind
        have kind : (s.clients c).request.isCoro = false := Bool.eq_false_iff.mpr kind
        split at called
        · rename_i limit
          cases called
          exact walks (.unbounded open_ kind limit)
        · rename_i limit
          cases called
          exact walks (.bounded open_ kind limit)
  | capacity =>
    simp only [State.enqueueTask] at called
    split at called
    · rename_i full
      split at called
      · cases called
        exact walks (.crowded full)
      · cases called
        exact Called.gives (by rw [here]; rfl) (by decide)
    · rename_i space
      cases called
      exact walks (.room (Bool.eq_false_iff.mpr space))
  | waitSpace =>
    simp only [State.enqueueTask] at called
    split at called
    · rename_i full
      cases called
      exact walks (.blocks full.1 full.2)
    · rename_i free
      cases called
      refine walks (.slips ?_)
      by_cases full : s.pool.full = true
      · right
        apply Bool.not_eq_false _ |>.mp
        exact fun open_ => free ⟨full, open_⟩
      · exact Or.inl (Bool.eq_false_iff.mpr full)
  | blocked woken =>
    simp only [State.enqueueTask] at called
    split at called
    · rename_i reason
      cases called
      exact walks (.quits reason)
    · rename_i goes
      have awake : ok = true := by
        cases ok with
        | true => rfl
        | false => exact absurd (Or.inl rfl) goes
      have open_ : s.shutdown = false :=
        Bool.eq_false_iff.mpr fun shut => goes (Or.inr (Or.inl shut))
      split at called
      · rename_i full
        cases called
        exact walks (.waits awake open_ full)
      · rename_i space
        cases called
        exact walks (.leaves awake open_ (Bool.eq_false_iff.mpr space))
  | gaveUp =>
    simp only [State.enqueueTask] at called
    cases called
    refine Called.gives (by rw [here]; rfl) ?_
    split <;> decide
  | _ => cases called

theorem called_enqueueLaneTask {ok : Bool} {n : Nat} (here : (s.clients c).pc = .lane)
    (called : s.enqueueLaneTask c ok n = some s') : Called s c ok n s' := by
  have gives : ∀ {result : LoomResult}, result ≠ .ok → Called s c ok n (s.returns c result) :=
    fun failed => Called.gives (by rw [here]; rfl) failed
  unfold State.enqueueLaneTask at called
  split at called
  · cases called
    exact gives (by decide)
  · rename_i open_
    split at called
    · cases called
      exact gives (by decide)
    · rename_i space
      split at called
      · cases called
        exact gives (by decide)
      · split at called
        · rename_i vacant
          cases called
          exact Called.lane here (Bool.eq_false_iff.mpr fun shut => open_ (Or.inl shut))
            (Bool.eq_false_iff.mpr space) vacant
        · cases called

theorem called_enqueueRingTask {pc : CallPc} {ok : Bool} {n : Nat} (here : (s.clients c).pc = pc)
    (called : s.enqueueRingTask c ok n pc = some s') : Called s c ok n s' := by
  cases pc with
  | create =>
    simp only [State.enqueueRingTask] at called
    split at called
    · cases called
      exact Called.gives (by rw [here]; rfl) (by decide)
    · split at called
      · rename_i vacant
        cases called
        exact Called.creates here vacant
      · cases called
  | addLen t =>
    cases called
    exact Called.addLen here
  | subLen t =>
    cases called
    exact Called.subLen here
  | spill t =>
    cases called
    unfold State.spillToNormalLane
    split
    · exact Called.spillRefused here (by decide)
    · rename_i open_
      split
      · exact Called.spillRefused here (by decide)
      · rename_i space
        exact Called.spills here (Bool.eq_false_iff.mpr fun shut => open_ (Or.inl shut))
          (Bool.eq_false_iff.mpr space)
  | post t =>
    cases called
    exact Called.posts here
  | _ => cases called

theorem called_ringTryEnqueue {pc : CallPc} {ok : Bool} {n : Nat} (here : (s.clients c).pc = pc)
    (called : s.ringTryEnqueue c ok pc = some s') : Called s c ok n s' := by
  have walks : ∀ {next : CallPc}, Walk s c ok pc next → Called s c ok n (s.setPc c next) := by
    intro next walk
    exact Called.walks (by rw [here]; exact walk)
  cases pc with
  | loadTail t =>
    cases called
    exact walks .loadTail
  | loadSeq t tail =>
    simp only [State.ringTryEnqueue] at called
    split at called
    · rename_i read
      cases called
      exact walks (.free read)
    · cases called
      exact walks .taken
  | casTail t tail =>
    simp only [State.ringTryEnqueue] at called
    split at called
    · rename_i won
      obtain ⟨rfl, -⟩ := won
      cases called
      exact Called.claims here
    · cases called
      exact walks .retry
  | storeTask t pos =>
    cases called
    exact Called.stores here
  | insert t pos =>
    cases called
    exact Called.inserts here
  | publish t pos =>
    cases called
    exact Called.publishes here
  | addCount t =>
    cases called
    exact Called.counts here
  | _ => cases called

theorem called_of_call {ok : Bool} {n : Nat} (called : s.call c ok n = some s') :
    Called s c ok n s' := by
  unfold State.call at called
  split at called
  · cases called
  · exact called_enqueueTask rfl called
  · exact called_enqueueTask rfl called
  · exact called_enqueueTask rfl called
  · exact called_enqueueTask rfl called
  · exact called_enqueueTask rfl called
  · rename_i here
    exact called_enqueueLaneTask here called
  · exact called_enqueueRingTask rfl called
  · exact called_enqueueRingTask rfl called
  · exact called_enqueueRingTask rfl called
  · exact called_enqueueRingTask rfl called
  · exact called_enqueueRingTask rfl called
  · exact called_ringTryEnqueue rfl called
  · exact called_ringTryEnqueue rfl called
  · exact called_ringTryEnqueue rfl called
  · exact called_ringTryEnqueue rfl called
  · exact called_ringTryEnqueue rfl called
  · exact called_ringTryEnqueue rfl called
  · exact called_ringTryEnqueue rfl called

/-- What a signal on space_cond can do. -/
inductive Signalled (s : State) (c : Nat) : State → Prop
  | unbounded (limit : s.pool.queueCapacity = 0) : Signalled s c s
  | wakes (here : (s.clients c).pc = .blocked false) : Signalled s c (s.setPc c (.blocked true))
  | nobody (none : ∀ i < s.clientCount, (s.clients i).pc ≠ .blocked false) : Signalled s c s

theorem signalled_of_signal (signalled : s.signal c = some s') : Signalled s c s' := by
  unfold State.signal at signalled
  split at signalled
  · rename_i limit
    cases signalled
    exact Signalled.unbounded limit
  · split at signalled
    · rename_i here
      cases signalled
      exact Signalled.wakes here
    · split at signalled
      · rename_i none
        cases signalled
        exact Signalled.nobody none
      · cases signalled

/-- The pool at the run boundary of a task, its index entry gone. -/
def unindexed (pool : ThreadPool) (t : Nat) (fromRing : Bool) : ThreadPool :=
  if fromRing then { pool with index := cancelIndexRemove pool.index t } else pool

/-- What the run boundary of a task can do. -/
inductive Boundary (s : State) (w t : Nat) (fromRing : Bool) (c : Nat) (s' : State) : Prop
  | skips (flagged : (s.pool.tasks t).cancelled = true)
      (signalled : Signalled { s with
        pool := ((unindexed s.pool t fromRing).markFutureCancelled t).taskDestroy t .cancelled } c s')
  | starts (live : (s.pool.tasks t).cancelled = false) (kind : (s.pool.tasks t).isCoro = true)
      (next : s' = { s with
        pool := (unindexed s.pool t fromRing).emit (.dispatched t) }.setWorker w (.dispatching t))
  | runs (live : (s.pool.tasks t).cancelled = false) (kind : (s.pool.tasks t).isCoro = false)
      (signalled : Signalled ({ s with
        pool := ({ (unindexed s.pool t fromRing).taskDestroy t .dispatched with
          queueLen := if fromRing then s.pool.queueLen - 1 else s.pool.queueLen }.emit
            (.dispatched t)) }.setWorker w (.running t)) c s')

theorem boundary_of_runBoundary {t : Nat} {fromRing : Bool}
    (ran : s.runBoundary w t fromRing c = some s') : Boundary s w t fromRing c s' := by
  have kept : (unindexed s.pool t fromRing).tasks t = s.pool.tasks t := by
    unfold unindexed
    split <;> rfl
  unfold State.runBoundary at ran
  change (if ((unindexed s.pool t fromRing).tasks t).cancelled = true then _ else _) = _ at ran
  rw [kept] at ran
  split at ran
  · rename_i flagged
    exact Boundary.skips flagged (signalled_of_signal ran)
  · rename_i live
    have live := Bool.eq_false_iff.mpr live
    change (if ((unindexed s.pool t fromRing).tasks t).isCoro = true then _ else _) = _ at ran
    rw [kept] at ran
    split at ran
    · rename_i kind
      cases ran
      exact Boundary.starts live kind rfl
    · rename_i kind
      refine Boundary.runs live (Bool.eq_false_iff.mpr kind) ?_
      cases fromRing <;> exact signalled_of_signal ran

theorem fetched_seen (cas : Bool) (counts : s.pool.workerCount ≤ s.pool.maxWorkerCount)
    (within : w < s.pool.maxWorkerCount) : ThreadPool.Fetched s.seen (s.seen.fetchTask w cas) :=
  @ThreadPool.fetched_fetchTask s.seen w counts within cas

/-- The pool once n positions of the ring were taken. -/
def State.taken (s : State) (pool : ThreadPool) (n : Nat) : State :=
  { s with
    pool := { pool with ring := s.pool.ring.drop n }
    ring := (s.ring.take n).releaseRun s.ring.head n
    history := s.history.releaseRun s.ring.head n
    ringCount := s.ringCount - n }

theorem taken_zero (s : State) (pool : ThreadPool) :
    s.taken pool 0 = { s with pool := { pool with ring := s.pool.ring } } := by
  show State.mk _ _ _ (s.ringCount - ((0 : Nat) : Int)) _ _ _ _ _ _ _ _ _ _ = _
  rw [Int.ofNat_zero, Int.sub_zero]
  rfl

theorem fetch_nothing {cas : Bool} (counts : s.pool.workerCount ≤ s.pool.maxWorkerCount)
    (within : w < s.pool.maxWorkerCount) (nothing : (s.fetch w cas).2 = none) :
    (s.fetch w cas).1 = s := by
  have fetched := fetched_seen cas counts within
  have same : (s.seen.fetchTask w cas).1 = s.seen := by
    change (s.seen.fetchTask w cas).2 = none at nothing
    generalize s.seen.fetchTask w cas = result at fetched nothing
    cases fetched with
    | nothing => rfl
    | lane | ring => cases nothing
  show s.taken (s.seen.fetchTask w cas).1
    (s.visible.length - (s.seen.fetchTask w cas).1.ring.length) = s
  rw [same]
  show s.taken s.seen (s.visible.length - s.visible.length) = s
  rw [Nat.sub_self, taken_zero]
  rfl

theorem sheds_cancelById (s : State) (id : Nat) (alloc : Bool) :
    ∃ (pool : ThreadPool) (coroReady : _) (timerHeap : _) (posts : _),
      (s.loomPoolCancelById id alloc).1 = { s with pool } ∧
        ThreadPool.Sheds { s.pool with coroReady, timerHeap, posts } pool := by
  unfold State.loomPoolCancelById
  split
  · dsimp only
    split
    · exact ⟨s.pool, _, _, _, rfl, (ThreadPool.Settles.refl s.pool).sheds⟩
    · have flagged := ThreadPool.Settles.flag s.pool
      split
      · rename_i claimed
        exact ⟨_, _, _, _, rfl, ((flagged _).trans (ThreadPool.Settles.claim claimed)).sheds⟩
      · exact ⟨_, _, _, _, rfl, (flagged _).sheds⟩
  · split
    · rename_i entry _
      obtain ⟨_, _, _, _, _, _, shape, lower, priority⟩ := ThreadPool.Settles.cancelAsleep
        { s.pool with timerHeap := s.pool.timerHeap.eraseP fun e => e.task == id } entry.task
      dsimp only
      rw [shape]
      split <;>
        exact ⟨_, _, _, _, rfl, ThreadPool.Settles.sheds ⟨_, _, _, _, _, _, rfl, lower, priority⟩⟩
    · split
      · rename_i cancelled
        exact ⟨_, _, _, _, rfl, ThreadPool.Sheds.cancelLane cancelled⟩
      · exact ⟨s.pool, _, _, _, rfl, (ThreadPool.Settles.refl s.pool).sheds⟩

/-- What a pass of the worker loop can do. -/
inductive Passed (s : State) (w : Nat) (cas : Bool) (c : Nat) (s' : State) : Prop
  | takes {t : Nat} {rest : List Nat} (list : s.pool.coroReady w = t :: rest)
      (next : s' = { s with
        pool := { s.pool with coroReady := Function.update s.pool.coroReady w rest } }.setWorker w
          (.ready t))
  | exits (dry : s.pool.coroReady w = []) (drained : s.drained = true)
      (next : s' = s.setWorker w .exited)
  | idles (dry : s.pool.coroReady w = []) (undrained : s.drained = false)
      (nothing : (s.fetch w cas).2 = none) (next : s' = s.setWorker w .unlocked)
  | fetches {t : Nat} {fromRing : Bool} (dry : s.pool.coroReady w = []) (undrained : s.drained = false)
      (found : (s.fetch w cas).2 = some (t, fromRing))
      (boundary : Boundary (s.fetch w cas).1 w t fromRing c s')

theorem passed_of_pass {cas : Bool} (counts : s.pool.workerCount ≤ s.pool.maxWorkerCount)
    (passed : s.pass w cas c = some s') :
    w < s.pool.workerCount ∧ s.workers w = .looping ∧ Passed s w cas c s' := by
  unfold State.pass at passed
  split at passed
  · rename_i enabled
    refine ⟨enabled.1, enabled.2, ?_⟩
    split at passed
    · rename_i list
      cases passed
      exact Passed.takes list rfl
    · rename_i dry
      split at passed
      · rename_i drained
        cases passed
        exact Passed.exits dry drained rfl
      · rename_i undrained
        have undrained := Bool.eq_false_iff.mpr undrained
        split at passed
        · rename_i fetched found
          have nothing : (s.fetch w cas).2 = none := by rw [found]
          have same := fetch_nothing counts (by omega) nothing
          rw [found] at same
          cases passed
          exact Passed.idles dry undrained nothing (by rw [← same])
        · rename_i fetched t fromRing found
          refine Passed.fetches dry undrained (by rw [found]) ?_
          rw [found]
          exact boundary_of_runBoundary passed
  · cases passed

theorem pool_signalled (signalled : Signalled s c s') :
    s'.pool = s.pool ∧ s'.ring = s.ring ∧ s'.history = s.history := by
  cases signalled with
  | unbounded _ | nobody _ | wakes _ => exact ⟨rfl, rfl, rfl⟩

theorem calm_signalled (signalled : Signalled s c s') : ThreadPool.Steady s.pool s'.pool :=
  (pool_signalled signalled).1 ▸ ThreadPool.calm_of_frame rfl

/-- The worker takes a pass before it sleeps. -/
def WorkerPc.awake : WorkerPc → Bool
  | .unlocked | .waiting | .exited => false
  | _ => true

/-- The worker has a task or a coroutine in hand. -/
def WorkerPc.engaged : WorkerPc → Bool
  | .running _ | .dispatching _ | .ready _ | .inBody _ _ => true
  | _ => false

/-- A step that is neither a submitter's nor a pass. -/
inductive Minor (s : State) : State → Label → Prop
  | submits {c : Nat} {request : Request} (inside : c < s.clientCount) (idle : (s.clients c).pc = .idle) :
      Minor s { s with
        clients := Function.update s.clients c { s.clients c with pc := .check, request } }
        (.submit c request)
  | settles {w : Nat} {pc : WorkerPc} (here : s.workers w = .unlocked) (stays : pc ≠ .exited) :
      Minor s (s.setWorker w pc) (.settle w)
  | wakes {w : Nat} (here : s.workers w = .waiting) :
      Minor s ({ s with pool := { s.pool with workSem := s.pool.workSem - 1 } }.setWorker w .looping)
        (.wake w)
  | works {w : Nat} {pc : WorkerPc} {pool : ThreadPool} {returned : Nat → List Nat} {label : Label}
      (here : (s.workers w).engaged = true) (awake : pc.awake = true)
      (frame : pool.frame = s.pool.frame) (stirs : ThreadPool.Stirs s.pool pool) :
      Minor s ({ s with pool, returned }.setWorker w pc) label
  | signals {w c : Nat} {s' : State} (here : s.workers w = .signalling)
      (signalled : Signalled (s.setWorker w .looping) c s') : Minor s s' (.signal w c)
  | fires {i : Nat} {alloc : TimerAlloc} {pool : ThreadPool} (fired : s.pool.timerFire i alloc = some pool) :
      Minor s { s with pool } (.timerFire i alloc)
  | posts : Minor s { s with
      pool := { s.pool with posts := s.pool.posts - 1, workSem := s.pool.workSem + 1 } } .post
  | cancels {pool : ThreadPool} {label : Label} (open_ : s.shutdown = false)
      (frame : pool.frame = s.pool.frame) (stirs : ThreadPool.Stirs s.pool pool) :
      Minor s { s with pool } label
  | stays {label : Label} : Minor s s label
  | shuts (open_ : s.joined = false) :
      Minor s { s with
        shutdown := true
        draining := true
        pool := { s.pool with workSem := s.pool.workSem + s.pool.workerCount } } .shutdown
  | joins (shut : s.shutdown = true) (spent : ∀ w < s.pool.workerCount, s.workers w = .exited) :
      Minor s { s with joined := true, draining := false } .join

/-- What a step can do. -/
inductive Taken (s s' : State) : Label → Prop
  | calls {c n : Nat} {ok : Bool} (called : Called s c ok n s') : Taken s s' (.call c ok n)
  | passes {w c : Nat} {cas : Bool} (inside : w < s.pool.workerCount) (looping : s.workers w = .looping)
      (passed : Passed s w cas c s') : Taken s s' (.pass w cas c)
  | minor {label : Label} (minor : Minor s s' label) : Taken s s' label

theorem minor_of_finish {result : Nat} {label : Label} (after : s.finish w result = some s') :
    Minor s s' label := by
  unfold State.finish at after
  split at after
  · rename_i t here
    cases after
    have settles : ThreadPool.Settles s.pool (if (s.pool.tasks t).isFuture then
        s.pool.setFuture t { s.pool.futures t with result, hasResult := true, ready := true }
        else s.pool) := by
      split
      · exact ThreadPool.Settles.notes (Int.le_refl _)
      · exact ThreadPool.Settles.refl _
    exact Minor.works (by rw [here]; rfl) rfl settles.frame settles.stirs
  · cases after

theorem awake_afterEnd (capacity : Nat) :
    (if capacity = 0 then WorkerPc.looping else .signalling).awake = true := by
  split <;> rfl

theorem minor_of_create {handle : Option Nat} {label : Label} (after : s.create w handle = some s') :
    Minor s s' label := by
  unfold State.create at after
  split at after
  · rename_i t here
    cases after
    have settles : ThreadPool.Settles s.pool (s.pool.taskDestroy t .failed) :=
      ThreadPool.Settles.notes (Int.le_refl _)
    exact Minor.works (by rw [here]; rfl) (awake_afterEnd _) settles.frame settles.stirs
  · rename_i t coro here
    cases after
    have settles : ThreadPool.Settles s.pool (s.pool.setTask t { s.pool.tasks t with userData := coro }) :=
      ThreadPool.Settles.setTask rfl
    exact Minor.works (by rw [here]; rfl) rfl settles.frame settles.stirs
  · cases after

theorem minor_of_checkReady {label : Label} (after : s.checkReady w = some s') : Minor s s' label := by
  unfold State.checkReady at after
  split at after
  · rename_i t here
    have engaged : (s.workers w).engaged = true := by
      rw [here]
      rfl
    split at after
    · cases after
      have settles := ThreadPool.Settles.terminate [t] s.pool
      exact Minor.works engaged rfl settles.frame settles.stirs
    · cases after
      have settles : ThreadPool.Settles s.pool (s.pool.emit (.resumed t)) :=
        ThreadPool.Settles.notes (Int.le_refl _)
      exact Minor.works engaged rfl settles.frame settles.stirs
  · cases after

theorem minor_of_bodyEnds {behaviour : Behaviour} {alloc : Bool} {label : Label}
    (after : s.bodyEnds w behaviour alloc = some s') : Minor s s' label := by
  unfold State.bodyEnds at after
  split at after
  · rename_i t first here
    cases after
    have moved : (if first then s.pool.afterFirst w t behaviour.crc behaviour.state alloc
          else s.pool.afterResume w t behaviour.crc behaviour.state).frame = s.pool.frame ∧
        ThreadPool.Stirs s.pool (if first then s.pool.afterFirst w t behaviour.crc behaviour.state alloc
          else s.pool.afterResume w t behaviour.crc behaviour.state) := by
      split
      · exact ⟨(ThreadPool.frame_afterFirst s.pool w t _ _ _).1, ThreadPool.Stirs.afterFirst s.pool w t _ _ _⟩
      · exact ⟨(ThreadPool.frame_afterResume s.pool w t _ _).1, ThreadPool.Stirs.afterResume s.pool w t _ _⟩
    have engaged : (s.workers w).engaged = true := by
      rw [here]
      rfl
    split
    · exact Minor.works engaged rfl moved.1 moved.2
    · exact Minor.works engaged (awake_afterEnd _) moved.1 moved.2
  · cases after

theorem minor_of_cancels {pool : ThreadPool} {label : Label} (frame : pool.frame = s.pool.frame)
    (stirs : ThreadPool.Stirs s.pool pool) : Minor s (s.cancels { s with pool }) label := by
  unfold State.cancels
  split
  · exact Minor.stays
  · rename_i open_
    exact Minor.cancels (Bool.eq_false_iff.mpr open_) frame stirs

theorem taken_of_step {label : Label} (counts : s.pool.workerCount ≤ s.pool.maxWorkerCount)
    (after : step s label = some s') : Taken s s' label := by
  cases label with
  | submit c request =>
    simp only [step, Option.ite_none_right_eq_some, Option.some.injEq] at after
    obtain ⟨⟨inside, idle⟩, rfl⟩ := after
    exact Taken.minor (Minor.submits inside idle)
  | call c ok n => exact Taken.calls (called_of_call after)
  | pass w cas c =>
    obtain ⟨inside, looping, passed⟩ := passed_of_pass counts after
    exact Taken.passes inside looping passed
  | settle w =>
    simp only [step, Option.ite_none_right_eq_some, Option.some.injEq] at after
    obtain ⟨here, rfl⟩ := after
    refine Taken.minor (Minor.settles here ?_)
    split <;> exact nofun
  | wake w =>
    simp only [step, Option.ite_none_right_eq_some, Option.some.injEq] at after
    obtain ⟨⟨here, -⟩, rfl⟩ := after
    exact Taken.minor (Minor.wakes here)
  | finish w result => exact Taken.minor (minor_of_finish after)
  | create w handle => exact Taken.minor (minor_of_create after)
  | checkReady w => exact Taken.minor (minor_of_checkReady after)
  | bodyEnds w behaviour alloc => exact Taken.minor (minor_of_bodyEnds after)
  | signal w c =>
    simp only [step, Option.ite_none_right_eq_some] at after
    exact Taken.minor (Minor.signals after.1 (signalled_of_signal after.2))
  | timerFire i alloc =>
    simp only [step, Option.map_eq_some_iff] at after
    obtain ⟨pool, fired, rfl⟩ := after
    exact Taken.minor (Minor.fires fired)
  | post =>
    simp only [step, Option.ite_none_right_eq_some, Option.some.injEq] at after
    obtain ⟨-, rfl⟩ := after
    exact Taken.minor Minor.posts
  | cancel data =>
    cases after
    have sheds := ThreadPool.Sheds.cancel s.pool data
    exact Taken.minor (minor_of_cancels sheds.frame ⟨_, _, _, _, sheds⟩)
  | cancelById id alloc =>
    cases after
    obtain ⟨pool, _, _, _, same, sheds⟩ := sheds_cancelById s id alloc
    rw [same]
    exact Taken.minor (minor_of_cancels sheds.frame ⟨_, _, _, _, sheds⟩)
  | cancelAll =>
    cases after
    have sheds := ThreadPool.Sheds.cancelAll s.pool
    exact Taken.minor (minor_of_cancels sheds.frame ⟨_, _, _, _, sheds⟩)
  | shutdown =>
    simp only [step] at after
    split at after
    · cases after
      exact Taken.minor Minor.stays
    · rename_i open_
      cases after
      exact Taken.minor (Minor.shuts (Bool.eq_false_iff.mpr open_))
  | join =>
    simp only [step, Option.ite_none_right_eq_some, Option.some.injEq] at after
    obtain ⟨⟨shut, spent⟩, rfl⟩ := after
    exact Taken.minor (Minor.joins shut spent)

/-- Only submitters and passes touch the ring and the deques. -/
theorem Minor.stirs {label : Label} (minor : Minor s s' label) :
    (s'.ring = s.ring ∧ s'.history = s.history) ∧ ThreadPool.Stirs s.pool s'.pool := by
  cases minor with
  | submits _ _ | settles _ _ | wakes _ | posts | stays | shuts _ | joins _ _ =>
    exact ⟨⟨rfl, rfl⟩, _, _, _, _, (ThreadPool.Settles.refl _).sheds⟩
  | works _ _ _ stirs | cancels _ _ stirs => exact ⟨⟨rfl, rfl⟩, stirs⟩
  | signals here signalled =>
    obtain ⟨same, rest⟩ := pool_signalled signalled
    exact ⟨rest, same ▸ (ThreadPool.Settles.refl _).stirs⟩
  | fires fired => exact ⟨⟨rfl, rfl⟩, ThreadPool.Stirs.timerFire fired⟩

theorem Minor.steady {label : Label} (minor : Minor s s' label) : ThreadPool.Steady s.pool s'.pool :=
  minor.stirs.2.steady

/-- What a step does to the workers. A worker that is not one of the pool's never moves. -/
inductive Worked (s s' : State) (label : Label) : Prop
  | rests (same : s'.workers = s.workers)
  | moves {w : Nat} {pc : WorkerPc} (own : w < s.pool.workerCount ∨ s.workers w ≠ .looping)
      (before : s.workers w ≠ .exited) (next : s'.workers = Function.update s.workers w pc)
      (stays : pc ≠ .exited)
  | exits {w c : Nat} {cas : Bool} (taken : label = .pass w cas c) (inside : w < s.pool.workerCount)
      (looping : s.workers w = .looping) (dry : s.pool.coroReady w = []) (drained : s.drained = true)
      (next : s' = s.setWorker w .exited)

theorem workers_signalled (signalled : Signalled s c s') : s'.workers = s.workers := by
  cases signalled with
  | unbounded _ | nobody _ | wakes _ => rfl

theorem worked_of_boundary {t : Nat} {fromRing : Bool} (boundary : Boundary s w t fromRing c s') :
    s'.workers = s.workers ∨ ∃ pc, pc ≠ .exited ∧ s'.workers = Function.update s.workers w pc := by
  cases boundary with
  | skips flagged signalled =>
    have same := workers_signalled signalled
    exact Or.inl same
  | starts live kind next =>
    rw [next]
    exact Or.inr ⟨.dispatching t, nofun, rfl⟩
  | runs live kind signalled => exact Or.inr ⟨.running t, nofun, workers_signalled signalled⟩

theorem worked_of_taken {label : Label} (taken : Taken s s' label) : Worked s s' label := by
  have busy : ∀ {w : Nat} {pc : WorkerPc}, s.workers w = pc → pc ≠ .looping → pc ≠ .exited →
      s.workers w ≠ .looping ∧ s.workers w ≠ .exited := by
    rintro w pc rfl first second
    exact ⟨first, second⟩
  cases taken with
  | calls called => cases called <;> exact Worked.rests rfl
  | @passes w _ _ inside looping passed =>
    have before : s.workers w ≠ .exited := by
      rw [looping]
      exact nofun
    cases passed with
    | takes list next | idles dry undrained nothing next =>
      rw [next]
      exact Worked.moves (Or.inl inside) before rfl nofun
    | exits dry drained next => exact Worked.exits rfl inside looping dry drained next
    | fetches dry undrained found boundary =>
      rcases worked_of_boundary boundary with same | ⟨pc, stays, next⟩
      · exact Worked.rests same
      · exact Worked.moves (Or.inl inside) before next stays
  | minor minor =>
    cases minor with
    | submits _ _ | fires _ | posts | cancels _ _ _ | stays | shuts _ | joins _ _ => exact Worked.rests rfl
    | settles here stays =>
      obtain ⟨own, before⟩ := busy here nofun nofun
      exact Worked.moves (Or.inr own) before rfl stays
    | wakes here =>
      obtain ⟨own, before⟩ := busy here nofun nofun
      exact Worked.moves (Or.inr own) before rfl nofun
    | works here awake _ _ =>
      refine Worked.moves (Or.inr fun clash => ?_) (fun clash => ?_) rfl (fun clash => ?_)
      · rw [clash] at here
        cases here
      · rw [clash] at here
        cases here
      · rw [clash] at awake
        cases awake
    | signals here signalled =>
      obtain ⟨own, before⟩ := busy here nofun nofun
      exact Worked.moves (Or.inr own) before (workers_signalled signalled) nofun

theorem resting_step {label : Label} (resting : ∀ w, s.pool.workerCount ≤ w → s.workers w = .looping)
    (worked : Worked s s' label) (count : s'.pool.workerCount = s.pool.workerCount) :
    ∀ w, s'.pool.workerCount ≤ w → s'.workers w = .looping := by
  intro w outside
  rw [count] at outside
  have before := resting w outside
  cases worked with
  | rests same =>
    rw [same]
    exact before
  | @moves v pc own _ next _ =>
    have other : w ≠ v := by
      rintro rfl
      rcases own with inside | busy
      · omega
      · exact busy before
    rw [next, Function.update_of_ne other]
    exact before
  | @exits v _ _ _ inside _ _ _ next =>
    have other : w ≠ v := by omega
    rw [next]
    exact (Function.update_of_ne other _ _).trans before

/-- A step of the workers, of the timer or of a cancel may wake a client; it leaves the rest of the
calls alone. -/
structure Woken (s s' : State) : Prop where
  clients : s'.clients = s.clients ∨ ∃ c, (s.clients c).pc = .blocked false ∧
    s'.clients = Function.update s.clients c { s.clients c with pc := .blocked true }
  clientCount : s'.clientCount = s.clientCount
  accepted : s'.accepted = s.accepted
  shutdown : s'.shutdown = s.shutdown
  joined : s'.joined = s.joined

theorem woken_of_signalled (signalled : Signalled s c s') : Woken s s' := by
  cases signalled with
  | unbounded _ | nobody _ => exact ⟨Or.inl rfl, rfl, rfl, rfl, rfl⟩
  | wakes here => exact ⟨Or.inr ⟨c, here, rfl⟩, rfl, rfl, rfl, rfl⟩

theorem woken_of_boundary {t : Nat} {fromRing : Bool} (boundary : Boundary s w t fromRing c s') :
    Woken s s' := by
  cases boundary with
  | skips _ signalled | runs _ _ signalled =>
    have woken := woken_of_signalled signalled
    exact ⟨woken.clients, woken.clientCount, woken.accepted, woken.shutdown, woken.joined⟩
  | starts live kind next =>
    rw [next]
    exact ⟨Or.inl rfl, rfl, rfl, rfl, rfl⟩

/-- What a step does to the calls. -/
inductive Stepped (s : State) : State → Label → Prop
  | submits {c : Nat} {request : Request} (inside : c < s.clientCount) (idle : (s.clients c).pc = .idle) :
      Stepped s { s with
        clients := Function.update s.clients c { s.clients c with pc := .check, request } }
        (.submit c request)
  | calls {c n : Nat} {ok : Bool} {s' : State} (called : Called s c ok n s') : Stepped s s' (.call c ok n)
  | shuts (open_ : s.joined = false) :
      Stepped s { s with
        shutdown := true
        draining := true
        pool := { s.pool with workSem := s.pool.workSem + s.pool.workerCount } } .shutdown
  | joins (shut : s.shutdown = true) (spent : ∀ w < s.pool.workerCount, s.workers w = .exited) :
      Stepped s { s with joined := true, draining := false } .join
  | other {s' : State} {label : Label} (woken : Woken s s') : Stepped s s' label

theorem stepped_of_taken {label : Label} (taken : Taken s s' label) : Stepped s s' label := by
  have same : ∀ {s' : State}, s'.clients = s.clients → s'.clientCount = s.clientCount →
      s'.accepted = s.accepted → s'.shutdown = s.shutdown → s'.joined = s.joined →
      Stepped s s' label :=
    fun clients clientCount accepted shutdown joined =>
      Stepped.other ⟨Or.inl clients, clientCount, accepted, shutdown, joined⟩
  cases taken with
  | calls called => exact Stepped.calls called
  | passes inside looping passed =>
    cases passed with
    | takes list next | exits dry drained next | idles dry undrained nothing next =>
      rw [next]
      exact same rfl rfl rfl rfl rfl
    | fetches dry undrained found boundary =>
      have woken := woken_of_boundary boundary
      exact Stepped.other ⟨woken.clients, woken.clientCount, woken.accepted, woken.shutdown, woken.joined⟩
  | minor minor =>
    cases minor with
    | submits inside idle => exact Stepped.submits inside idle
    | shuts open_ => exact Stepped.shuts open_
    | joins shut spent => exact Stepped.joins shut spent
    | settles _ _ | wakes _ | works _ _ _ _ | fires _ | posts | cancels _ _ _ | stays =>
      exact same rfl rfl rfl rfl rfl
    | signals here signalled =>
      have woken := woken_of_signalled signalled
      exact Stepped.other ⟨woken.clients, woken.clientCount, woken.accepted, woken.shutdown, woken.joined⟩

end Intake

end Loomworks.Pool

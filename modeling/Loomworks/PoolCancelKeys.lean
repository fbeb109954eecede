import Loomworks.PoolRefines

/- loom_pool_cancel against loom_pool_cancel_by_id: one looks for a pointer, the other
for an id. The pointer that a caller passed as data is remembered beside the pool,
since a task node keeps it for a plain task only: a future task stores its
future_task_ctx_t and a coroutine, once created, its handle. -/
namespace Loomworks.Pool

open Transition

/-- passed is the data pointer that each task was submitted with. -/
structure Client where
  pool : ThreadPool
  passed : Nat → Nat := fun _ => 0

/-- The calls that submit, and every other step of the pool. ctx is the context that
loom_pool_submit_future allocates. -/
inductive Call where
  | submit (data : Nat) (priority : UInt8) (alloc : Bool)
  | submitFuture (data ctx : Nat) (priority : UInt8) (alloc : Bool)
  | submitCoroutine (arg : Nat) (withFuture alloc : Bool)
  | other (label : Label)
  deriving DecidableEq, Repr

def Client.remember (c : Client) (data : Nat) : Client :=
  { c with passed := Function.update c.passed (c.pool.nextTaskId + 1) data }

def Client.step (c : Client) : Call → Option Client
  | .submit data priority alloc =>
    (Pool.step c.pool (.submit data priority false alloc)).map fun pool =>
      { c.remember data with pool }
  | .submitFuture data ctx priority alloc =>
    (Pool.step c.pool (.submit ctx priority true alloc)).map fun pool =>
      { c.remember data with pool }
  | .submitCoroutine arg withFuture alloc =>
    (Pool.step c.pool (.submitCoroutine arg withFuture alloc)).map fun pool =>
      { c.remember arg with pool }
  | .other (.submit ..) | .other (.submitCoroutine ..) => none
  | .other label => (Pool.step c.pool label).map fun pool => { c with pool }

namespace ThreadPool

/-- The tasks among which the cancel calls look: in the slots of the index, asleep and in
the lanes. -/
def listed (s : ThreadPool) : List Nat :=
  ((List.range s.index.cap).filterMap fun h =>
      if 1 < (s.index.slots h).taskId then (s.index.slots h).task else none) ++
    s.timerHeap.map TimerEntry.task ++ laneTasks s.lanes

/-- Both calls return LOOMWORKS_OK or neither does, and then both have cancelled the task. -/
def Agree (s : ThreadPool) (data id : Nat) (alloc : Bool) : Prop :=
  ((s.loomPoolCancel data).2 = .ok ↔ (s.loomPoolCancelById id alloc).2 = .ok) ∧
    ((s.loomPoolCancel data).2 = .ok → ∃ event, (event = .cancelled id ∨ event = .cancelledAsleep id) ∧
      (s.loomPoolCancel data).1.events = event :: s.events ∧
      (s.loomPoolCancelById id alloc).1.events = event :: s.events)

end ThreadPool

/-- The node of task i stores the pointer that was passed for it, which is not NULL, and
no other task that a cancel could find stores the same. -/
structure Unmasked (c : Client) (i : Nat) : Prop where
  pointer : c.passed i ≠ 0
  stored : (c.pool.tasks i).userData = c.passed i
  alone : ∀ t ∈ c.pool.listed, (c.pool.tasks t).userData = c.passed i → t = i

instance (c : Client) (i : Nat) : Decidable (Unmasked c i) :=
  decidable_of_iff (c.passed i ≠ 0 ∧ (c.pool.tasks i).userData = c.passed i ∧
      ∀ t ∈ c.pool.listed, (c.pool.tasks t).userData = c.passed i → t = i)
    ⟨fun ⟨pointer, stored, alone⟩ => ⟨pointer, stored, alone⟩,
      fun unmasked => ⟨unmasked.pointer, unmasked.stored, unmasked.alone⟩⟩

theorem eraseP_congr {f g : Nat → Bool} {l : List Nat} (same : ∀ t ∈ l, f t = g t) :
    l.eraseP f = l.eraseP g := by
  induction l with
  | nil => rfl
  | cons head rest ih =>
    simp only [List.eraseP_cons, same head List.mem_cons_self]
    rw [ih fun t member => same t (List.mem_cons_of_mem head member)]

theorem unlinkFirst_congr {lanes : Nat → List Nat} {f g : Nat → Bool}
    (same : ∀ t ∈ laneTasks lanes, f t = g t) : unlinkFirst f lanes = unlinkFirst g lanes := by
  have inBucket : ∀ b < priorityBuckets, ∀ t ∈ lanes b, f t = g t := by
    intro b inside t member
    exact same t (Bins.mem_all.mpr ⟨b, inside, member⟩)
  have buckets : ((List.range priorityBuckets).find? fun b => (lanes b).any f) =
      (List.range priorityBuckets).find? fun b => (lanes b).any g := by
    apply List.find?_congr
    intro b member
    have agree := inBucket b (List.mem_range.mp member)
    rw [Bool.eq_iff_iff, List.any_eq_true, List.any_eq_true]
    exact exists_congr fun t => and_congr_right fun here => by rw [agree t here]
  unfold unlinkFirst
  rw [buckets]
  split
  · rfl
  · rename_i b found
    have agree := inBucket b (by simpa using List.mem_of_find?_eq_some found)
    rw [List.find?_congr agree, eraseP_congr agree]

theorem Holds.entry_of_live {dataOf : Nat → Nat} {ix : CancelIndex} {live : Finset Nat} {t : Nat}
    (holds : Holds dataOf ix live) (member : t ∈ live) :
    ∃ h < ix.cap, ix.slots h =
      { taskId := t + 1, task := some t, data := dataOf t, userDataHash := hashPtr (dataOf t) } := by
  rcases holds with ⟨-, empty⟩ | ⟨bits, valid⟩
  · simp [empty] at member
  · obtain ⟨d, -, entry, -⟩ := valid.entry t member
    exact ⟨_, valid.size ▸ probeSlot_lt bits t d, entry⟩

namespace ThreadPool

variable {s : ThreadPool} {live : Finset Nat} {data t : Nat}

theorem cancelAsleep_events (s : ThreadPool) (t : Nat) :
    (s.cancelAsleep t).events = .cancelledAsleep t :: s.events := by
  unfold cancelAsleep resolveCancelled
  split <;> rfl

theorem listed_of_live (tracked : s.Tracked live) (member : t ∈ live) : t ∈ s.listed := by
  obtain ⟨h, inside, entry⟩ := tracked.holds.entry_of_live member
  have positive := tracked.holds.named member
  refine List.mem_append_left _ (List.mem_append_left _ (List.mem_filterMap.mpr ⟨h, ?_, ?_⟩))
  · exact List.mem_range.mpr inside
  · simp [entry, positive]

theorem listed_of_asleep {e : TimerEntry} (member : e ∈ s.timerHeap) : e.task ∈ s.listed :=
  List.mem_append_left _ (List.mem_append_right _ (List.mem_map_of_mem member))

theorem listed_of_lane (member : t ∈ laneTasks s.lanes) : t ∈ s.listed :=
  List.mem_append_right _ member

/-- Without an unflagged task that stores the pointer the scan changes nothing. -/
theorem cancelScan_miss (tracked : s.Tracked live)
    (none : ∀ t ∈ live, (s.tasks t).userData = data → (s.tasks t).cancelled = true)
    {slots : List Nat} (inside : ∀ x ∈ slots, x < s.index.cap) :
    cancelScan data slots s = (s, false) := by
  induction slots with
  | nil => rfl
  | cons x rest ih =>
    have later := ih fun y member => inside y (List.mem_cons_of_mem x member)
    unfold cancelScan
    dsimp only
    split
    · exact later
    · rename_i occupied
      obtain ⟨t, member, -, named⟩ :=
        tracked.holds.occupied (inside x List.mem_cons_self) (by omega)
      simp only [named]
      split
      · exact later
      · rename_i wanted
        obtain ⟨unflagged, own⟩ := not_or.mp wanted
        exact absurd (none t member (not_not.mp own)) unflagged

/-- The scan does not pass by the slot of an unflagged task with the pointer. -/
theorem cancelScan_hit (tracked : s.Tracked live) (unflagged : (s.tasks t).cancelled = false)
    (own : (s.tasks t).userData = data) (member : t ∈ live) {h : Nat} {slots : List Nat}
    (inside : ∀ x ∈ slots, x < s.index.cap) (visited : h ∈ slots)
    (entry : s.index.slots h =
      { taskId := t + 1, task := some t, data := s.dataOf t, userDataHash := hashPtr (s.dataOf t) }) :
    (cancelScan data slots s).2 = true := by
  have positive := tracked.holds.named member
  induction slots with
  | nil => cases visited
  | cons x rest ih =>
    unfold cancelScan
    dsimp only
    by_cases here : x = h
    · obtain ⟨final, claimed, -⟩ := @Tracked.claim True True _ _ _ tracked member
      have hash : hashPtr (s.dataOf t) = hashPtr data := congrArg hashPtr own
      have occupied : ¬t + 1 ≤ 1 := by omega
      simp [here, entry, hash, occupied, unflagged, own, claimed]
    · have later := ih (fun y member => inside y (List.mem_cons_of_mem x member))
        ((List.mem_cons.mp visited).resolve_left fun same => here same.symm)
      split
      · exact later
      · rename_i occupied
        obtain ⟨u, listed, -, named⟩ :=
          tracked.holds.occupied (inside x List.mem_cons_self) (by omega)
        simp only [named]
        split
        · exact later
        · obtain ⟨final, claimed, -⟩ := @Tracked.claim True True _ _ _ tracked listed
          simp only [claimed]

variable {id : Nat} {alloc : Bool}

/-- The part of loom_pool_cancel after the index, against that of loom_pool_cancel_by_id. -/
theorem Tracked.agree_elsewhere (tracked : s.Tracked live)
    (same : ∀ t ∈ s.listed, (s.tasks t).userData = data ↔ t = id) (pointer : data ≠ 0)
    (missed : ThreadPool.cancelScan data (List.range s.index.cap) s = (s, false))
    (unfound : cancelIndexFind s.index id = none) : s.Agree data id alloc := by
  have asleep : (s.timerHeap.find? fun e => (s.tasks e.task).userData == data) =
      s.timerHeap.find? fun e => e.task == id := by
    apply List.find?_congr
    intro e member
    rw [Bool.eq_iff_iff]
    simp [same e.task (listed_of_asleep member)]
  have queued : (s.cancelLane fun t => (s.tasks t).userData == data && !(s.tasks t).cancelled) =
      s.cancelLane fun t => t == id && !(s.tasks t).cancelled := by
    unfold ThreadPool.cancelLane
    rw [unlinkFirst_congr]
    intro t member
    rw [Bool.eq_iff_iff]
    simp [same t (listed_of_lane member)]
  unfold Agree ThreadPool.loomPoolCancel ThreadPool.loomPoolCancelById
  simp only [pointer, missed, unfound, asleep, queued, ↓reduceIte]
  cases found : s.timerHeap.find? fun e => e.task == id with
  | some entry =>
    have own : entry.task = id := by simpa using List.find?_some found
    subst own
    cases alloc with
    | true | false =>
      exact ⟨by simp, fun _ => ⟨_, Or.inr rfl, cancelAsleep_events s _, cancelAsleep_events _ _⟩⟩
  | none =>
    cases cancelled : s.cancelLane fun t => t == id && !(s.tasks t).cancelled with
    | some final =>
      obtain ⟨-, t, -, matching, logged⟩ :=
        @Tracked.cancelLane True True _ _ _ tracked _ cancelled
      simp only [Bool.and_eq_true, beq_iff_eq] at matching
      rw [matching.1] at logged
      exact ⟨by simp, fun _ => ⟨_, Or.inl rfl, logged, logged⟩⟩
    | none => simp

/-- A flagged task of the index is cancelled by neither call. -/
theorem Tracked.agree_flagged (tracked : s.Tracked live) (member : id ∈ live) (pointer : data ≠ 0)
    (flagged : (s.tasks id).cancelled = true)
    (alone : ∀ t ∈ s.listed, (s.tasks t).userData = data → t = id) : s.Agree data id alloc := by
  have missed : ThreadPool.cancelScan data (List.range s.index.cap) s = (s, false) := by
    apply cancelScan_miss tracked _ (by simp)
    intro t listed own
    rw [alone t (listed_of_live tracked listed) own]
    exact flagged
  have queued := tracked.safe.live id member
  have asleep : (s.timerHeap.find? fun e => (s.tasks e.task).userData == data) = none := by
    apply List.find?_eq_none.mpr
    intro e listed own
    have same := alone e.task (listed_of_asleep listed) (by simpa using own)
    rcases tracked.safe.awake e.task (heap_mem_tokens listed) with started | ⟨dropped, -⟩
    · rw [same] at started
      exact absurd (queued.symm.trans started) nofun
    · rw [same] at dropped
      exact absurd (queued.symm.trans dropped) nofun
  have unlinked : (s.cancelLane fun t => (s.tasks t).userData == data && !(s.tasks t).cancelled) =
      none := by
    unfold ThreadPool.cancelLane
    rw [unlinkFirst_eq_none]
    intro t listed
    by_cases own : (s.tasks t).userData = data
    · have same := alone t (listed_of_lane listed) own
      exact absurd (same ▸ member) (tracked.safe.apart t listed)
    · simp [own]
  have found := tracked.holds.find_live member
  unfold Agree ThreadPool.loomPoolCancel ThreadPool.loomPoolCancelById
  simp [pointer, missed, asleep, unlinked, found, flagged]

/-- The two calls agree on a task that alone stores the pointer. -/
theorem Tracked.agree (tracked : s.Tracked live) (pointer : data ≠ 0) (positive : 0 < id)
    (stored : (s.tasks id).userData = data)
    (alone : ∀ t ∈ s.listed, (s.tasks t).userData = data → t = id) : s.Agree data id alloc := by
  by_cases member : id ∈ live
  · cases flagged : (s.tasks id).cancelled with
    | true => exact tracked.agree_flagged member pointer flagged alone
    | false =>
      obtain ⟨h, inside, entry⟩ := tracked.holds.entry_of_live member
      have hit := cancelScan_hit tracked flagged stored member (by simp) (List.mem_range.mpr inside)
        entry
      rcases tracked.cancelScan data (List.range s.index.cap) (by simp) with missed | scanned
      · rw [missed] at hit
        cases hit
      · obtain ⟨t, final, listed, own, claimed, scan⟩ := scanned
        have same := alone t (listed_of_live tracked listed) own
        subst same
        obtain ⟨other, again, -, logged⟩ := @Tracked.claim True True _ _ _ tracked member
        cases claimed.symm.trans again
        have found := tracked.holds.find_live member
        unfold Agree ThreadPool.loomPoolCancel ThreadPool.loomPoolCancelById
        simp only [pointer, scan, found, flagged, claimed, ↓reduceIte]
        exact ⟨by simp, fun _ => ⟨_, Or.inl rfl, logged, logged⟩⟩
  · apply tracked.agree_elsewhere _ pointer _ (tracked.holds.find_dead positive member)
    · intro t listed
      exact ⟨alone t listed, fun own => own ▸ stored⟩
    · apply cancelScan_miss tracked _ (by simp)
      intro t listed own
      exact absurd (alone t (listed_of_live tracked listed) own ▸ listed) member

end ThreadPool

/-- A call is a step of the pool, and id 0 is never given out. -/
theorem Client.step_pool {c c' : Client} {call : Call} (taken : c.step call = some c') :
    (∃ label, Pool.step c.pool label = some c'.pool) ∧ c'.passed 0 = c.passed 0 := by
  unfold Client.step at taken
  split at taken
  case h_4 | h_5 => cases taken
  all_goals
    obtain ⟨pool, stepped, rfl⟩ := Option.map_eq_some_iff.mp taken
    exact ⟨⟨_, stepped⟩, by simp [Client.remember]⟩

/-- In every state a pool reaches, a task whose node alone stores the pointer that was
passed for it is cancelled by that pointer exactly if it is cancelled by its id. -/
theorem cancel_by_data_agrees_with_by_id (config : Config) (calls : List Call) {c : Client}
    (run : exec Client.step { pool := poolInit config } calls = some c) {i : Nat} (unmasked : Unmasked c i)
    (alloc : Bool) : c.pool.Agree (c.passed i) i alloc := by
  have reached : (∃ live, c.pool.Tracked live) ∧ c.passed 0 = 0 := by
    apply @exec_invariant _ _ Client.step (fun c => (∃ live, c.pool.Tracked live) ∧ c.passed 0 = 0)
      _ _ _ _ _ run
    · rintro c c' call ⟨⟨live, tracked⟩, zero⟩ taken
      obtain ⟨⟨label, stepped⟩, same⟩ := Client.step_pool taken
      exact ⟨tracked.step stepped, same.trans zero⟩
    · exact ⟨⟨∅, tracked_poolInit config⟩, rfl⟩
  obtain ⟨⟨live, tracked⟩, zero⟩ := reached
  have positive : 0 < i := by
    apply Nat.pos_of_ne_zero
    intro same
    rw [same] at unmasked
    exact unmasked.pointer zero
  exact tracked.agree unmasked.pointer positive unmasked.stored unmasked.alone

/-- One worker and a ring of eight slots. -/
def smallPool : Config := { workerCount := 1, queueCapacity := 4 }

theorem cancel_by_data_agrees_plain_task : ∃ c,
    exec Client.step { pool := poolInit smallPool } [.submit 7 5 true] = some c ∧ Unmasked c 2 ∧
      c.pool.Agree (c.passed 2) 2 true := by
  have run : (exec Client.step { pool := poolInit smallPool } [.submit 7 5 true]).map
      (fun c => decide (Unmasked c 2)) = some true := by decide +kernel
  obtain ⟨c, run, unmasked⟩ := Option.map_eq_some_iff.mp run
  have unmasked : Unmasked c 2 := of_decide_eq_true unmasked
  exact ⟨c, run, unmasked, cancel_by_data_agrees_with_by_id _ _ run unmasked true⟩

/-- A queued future task and a sleeping coroutine, each submitted with pointer 7: the
first stores its context 100, the second its handle 200. -/
theorem cancel_by_data_misses_wrapped :
    (exec Client.step { pool := poolInit smallPool } [.submitFuture 7 100 5 true]).map
        (fun c => (c.passed 2, (c.pool.loomPoolCancel 7).2, (c.pool.loomPoolCancelById 2 true).2)) =
      some (7, .errInvalid, .ok) ∧
    (exec Client.step { pool := poolInit smallPool } [.submitCoroutine 7 false true,
        .other (.pass 0 true), .other (.create 0 (some 200)), .other (.bodyEnds 0 .sleeps true)]).map
        (fun c => (c.passed 2, (c.pool.loomPoolCancel 7).2, (c.pool.loomPoolCancelById 2 true).2)) =
      some (7, .errInvalid, .ok) := by
  decide +kernel

end Loomworks.Pool

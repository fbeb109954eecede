import Loomworks.PoolControl
import Loomworks.PoolWorkers

/- Displaced workers and the cancel calls as runs of moves of the abstract
placement machine. -/
namespace Loomworks.Pool

namespace ThreadPool

variable {tame steady : Prop} {s s' : ThreadPool} {live live' : Finset Nat} {w t : Nat}

theorem Unseen.events (same : Unseen s s') : s'.events = s.events :=
  congrArg View.events (same.view ∅)

theorem pooled_clear (inside : w < s.maxWorkerCount) :
    s.pooled.Perm (s.deque w ++ (s.setDeque w []).pooled) := by
  cases mode : s.deques.isSome with
  | true =>
    have exchange : ((s.setDeque w []).dequeTasks ++ s.deque w).Perm (s.dequeTasks ++ []) := by
      unfold dequeTasks
      rw [deque_setDeque mode]
      exact Bins.all_update inside []
    rw [List.append_nil] at exchange
    calc s.pooled
        _ |>.Perm (s.ring ++ ((s.setDeque w []).dequeTasks ++ s.deque w)) :=
          exchange.symm.append_left s.ring
        _ |>.Perm (s.deque w ++ (s.ring ++ (s.setDeque w []).dequeTasks)) := by
          rw [← List.append_assoc]
          exact List.perm_append_comm
  | false =>
    have none_ : s.deques = none := by simpa using mode
    have blank : (s.setDeque w []).deque = s.deque := by
      funext i
      rw [deque_of_none none_, deque_of_none (by simp [setDeque, none_])]
    have same : (s.setDeque w []).pooled = s.pooled := by
      show s.ring ++ Bins.all s.maxWorkerCount (s.setDeque w []).deque = _
      rw [blank]
      rfl
    rw [deque_of_none none_ w, same, List.nil_append]

/-- One task of an emptied deque goes to its lane. -/
theorem view_spillDequeTask (rest : List Nat) :
    { (s.spillDequeTask t).view (live.erase t) with pooled := rest ++ (s.spillDequeTask t).pooled } =
      { s.view live with
        pooled := rest ++ s.pooled
        lanes := laneTasks (s.spillDequeTask t).lanes
        live := live.erase t
        stale := (cancelIndexRemove s.index t).Stale } := by
  show { s.view live with
    pooled := rest ++ s.pooled
    lanes := laneTasks (s.spillDequeTask t).lanes
    live := live.erase t
    stale := (cancelIndexRemove s.index t).Stale
    queueLen := s.queueLen - 1 + 1
    cap := (cancelIndexRemove s.index t).cap } = _
  rw [cancelIndexRemove_cap, Int.sub_add_cancel]
  rfl

/-- The tasks of an emptied deque go to the lanes one by one. -/
theorem moves_spill (list : List Nat) (shaped : s.Shaped) (holds : Holds s.dataOf s.index live)
    (safe : Safe { s.view live with pooled := list ++ s.pooled })
    (careful : tame → ∀ t ∈ list, phase s.events t = .queued) :
    (list.foldl spillDequeTask s).Shaped ∧ ∃ live',
      Holds (list.foldl spillDequeTask s).dataOf (list.foldl spillDequeTask s).index live' ∧
      Moves tame steady { s.view live with pooled := list ++ s.pooled }
        ((list.foldl spillDequeTask s).view live') := by
  induction list generalizing s live with
  | nil => exact ⟨shaped, live, holds, .refl⟩
  | cons t rest ih =>
    have positive : 0 < t :=
      safe.pos_of_placed (List.mem_append_left _ (List.mem_append_left _ List.mem_cons_self))
    have shaped' : (s.spillDequeTask t).Shaped :=
      ⟨shaped.counts, shaped.vacant, shaped.heap, shaped.fits⟩
    have step : Move tame steady { s.view live with pooled := (t :: rest) ++ s.pooled }
        { (s.spillDequeTask t).view (live.erase t) with
          pooled := rest ++ (s.spillDequeTask t).pooled } := by
      rw [view_spillDequeTask]
      refine Move.spill (List.Perm.refl _) (laneTasks_append (s.tasks t).priority s.lanes t) ?_ ?_
      · exact fun x stale => holds.stale_remove positive stale
      · exact fun tame => careful tame t List.mem_cons_self
    obtain ⟨final, live', held, moved⟩ := ih shaped' (holds.remove positive) (safe.move step)
      fun tame x member => careful tame x (List.mem_cons_of_mem t member)
    exact ⟨final, live', held, moved.head step⟩

theorem limit_spill (list : List Nat) (s : ThreadPool) :
    (list.foldl spillDequeTask s).maxWorkerCount = s.maxWorkerCount := by
  induction list generalizing s with
  | nil => rfl
  | cons t rest ih => exact ih _

theorem unseen_terminate (list : List Nat) (s : ThreadPool) : Unseen s (list.foldl terminate s) := by
  induction list generalizing s with
  | nil => exact Unseen.refl s
  | cons t rest ih =>
    exact ((unseen_resolveCancelled s t).trans (unseen_taskDestroy _ t .cancelled)).trans (ih _)

theorem deque_congr (same : s'.deques = s.deques) (w : Nat) : s'.deque w = s.deque w := by
  unfold deque
  rw [same]

/-- A displaced worker ends its coroutines and then spills its deque. -/
theorem leave_cases (left : s.leave w = some s') : s.workers w = .leaving ∧ ∃ ended spilt,
    Unseen { s with
      coroReady := Function.update s.coroReady w []
      timerHeap := s.timerHeap.filter fun e => e.workerIdx ≠ w } ended ∧
    ended.deque w = s.deque w ∧
    (ended.deque w).foldl spillDequeTask (ended.setDeque w []) = spilt ∧
    s' = { spilt.setWorker w .exited with posts := spilt.posts + 1 } := by
  unfold leave at left
  split at left
  · rename_i leaving
    cases left
    exact ⟨leaving, _, _, unseen_terminate _ _, deque_congr (Settles.terminate _ _).deques w, rfl, rfl⟩
  · cases left

namespace Tracked

theorem leave (tracked : s.Tracked live) (left : s.leave w = some s')
    (careful : tame → ∀ t ∈ s.deque w, (s.tasks t).cancelled = false) :
    Refines tame steady s live s' := by
  obtain ⟨leaving, ended, _, same, here, rfl, rfl⟩ := leave_cases left
  have inside : w < s.maxWorkerCount := tracked.shaped.lt_of_alive (by simp [leaving])
  have events : ended.events = s.events := same.events
  have stopped : Refines tame steady s live ended := by
    have emptied : Refines tame steady s live
        { s with coroReady := Function.update s.coroReady w [] } := by
      have shaped := tracked.shaped
      exact tracked.idle.retoken
        ⟨shaped.counts, shaped.vacant, shaped.heap, shaped.fits⟩ rfl rfl
        (tokens_setReady []) fun _ => rfl
    exact (emptied.resetHeap (List.filter_subset_self _)).unseen same
  obtain ⟨live', holds, moved⟩ := stopped.moved
  have split := pooled_clear (s := ended) (w := w) (by rwa [same.limit])
  have rearranged : Moves tame steady (s.view live)
      { (ended.setDeque w []).view live' with
        pooled := ended.deque w ++ (ended.setDeque w []).pooled } :=
    moved.tail (Move.lose split.symm.subperm fun _ => split.symm)
  have shaped : (ended.setDeque w []).Shaped := by
    have before := stopped.shaped
    exact ⟨before.counts, before.vacant, before.heap, before.fits.setDeque (Nat.zero_le _)⟩
  have queued : tame → ∀ t ∈ ended.deque w, phase ended.events t = .queued := by
    intro tame t member
    rw [here] at member
    rw [events]
    have placed : t ∈ s.pooled := (pooled_clear inside).mem_iff.mpr (List.mem_append_left _ member)
    exact tracked.safe.queued_of_unflagged (List.mem_append_left _ placed)
      (careful tame t member)
  obtain ⟨final, live'', held, spilled⟩ := @moves_spill tame steady _ live' (ended.deque w)
    shaped holds (tracked.safe.moves rearranged) queued
  have spilt : Refines tame steady s live ((ended.deque w).foldl spillDequeTask (ended.setDeque w [])) :=
    ⟨final, live'', held, rearranged.trans spilled⟩
  refine (spilt.release ?_ rfl).semaphore _ _
  rw [limit_spill]
  exact same.limit ▸ inside

end Tracked

theorem Unseen.emit (same : Unseen s s') (event : Event) : Unseen (s.emit event) (s'.emit event) :=
  ⟨fun live => congrArg (fun v => View.emit v event) (same.view live), same.data, same.index,
    same.limit, fun shaped => Shaped.emit (same.shaped ⟨shaped.counts, shaped.vacant, shaped.heap,
      shaped.fits⟩) event⟩

theorem dataOf_flag (s : ThreadPool) (t : Nat) : (s.flag t).dataOf = s.dataOf := dataOf_setTask rfl

/-- The completion of a cancelled coroutine task, as the cancel calls resolve it. -/
theorem unseen_settle (s : ThreadPool) (t : Nat) :
    Unseen s (if (s.tasks t).isCoro then s.resolveCancelled t else s) := by
  split
  · exact unseen_resolveCancelled s t
  · exact Unseen.refl s

namespace Tracked

/-- A task of the index is flagged and claimed: the claim is won. -/
theorem claim (tracked : s.Tracked live) (listed : t ∈ live) :
    ∃ final, (s.flag t).claim t = some final ∧ Refines tame steady s live final ∧
      final.events = .cancelled t :: s.events := by
  obtain ⟨won, holds, older⟩ := tracked.holds.claim_live listed
  let claimed : ThreadPool := { s.flag t with
    index := (cancelIndexClaim s.index t).1, queueLen := s.queueLen - 1 }
  have found : (s.flag t).claim t =
      some ((if (claimed.tasks t).isCoro then claimed.resolveCancelled t else claimed).emit
        (.cancelled t)) := by
    unfold ThreadPool.claim
    exact if_pos won
  have same := unseen_settle claimed t
  refine ⟨_, found, ?_, ?_⟩
  · have flagged : (s.flag t).Shaped := tracked.shaped.setTask t _
    have taken : Refines tame steady s live (claimed.emit (.cancelled t)) := by
      refine ⟨⟨flagged.counts, flagged.vacant, flagged.heap, flagged.fits⟩,
        live.erase t, ?_, .single ?_⟩
      · show Holds (s.flag t).dataOf _ _
        rw [dataOf_flag]
        exact holds
      · have seen : claimed.view (live.erase t) =
            { (s.view live).raise t with
              live := live.erase t
              stale := (cancelIndexClaim s.index t).1.Stale
              queueLen := s.queueLen - 1 } := by
          rw [← view_flag]
          show { (s.flag t).view live with
            live := live.erase t
            stale := (cancelIndexClaim s.index t).1.Stale
            queueLen := s.queueLen - 1
            cap := (cancelIndexClaim s.index t).1.cap } = _
          rw [cancelIndexClaim_cap]
          rfl
        show Move tame steady _ ((claimed.view (live.erase t)).emit (.cancelled t))
        rw [seen]
        exact Move.cancelPooled listed older
    exact taken.unseen (same.emit _)
  · exact congrArg _ same.events

/-- A task that is not in the index is flagged, and the claim is lost. -/
theorem claim_dead (tracked : s.Tracked live) (positive : 0 < t) (dead : t ∉ live) :
    (s.flag t).claim t = none := by
  have missed := tracked.holds.claim_dead positive dead
  exact if_neg (by simpa [ThreadPool.flag, setTask] using missed)

theorem flag (tracked : s.Tracked live) (t : Nat) : (s.flag t).Tracked live := by
  refine ⟨tracked.shaped.setTask t _, ?_, ?_⟩
  · show Holds (s.flag t).dataOf s.index live
    rw [dataOf_flag]
    exact tracked.holds
  · rw [view_flag]
    exact tracked.safe.raise t

/-- The scan of the index claims the first match; without one it changes nothing. -/
theorem cancelScan (tracked : s.Tracked live) (data : Nat) (slots : List Nat)
    (inside : ∀ h ∈ slots, h < s.index.cap) :
    ThreadPool.cancelScan data slots s = (s, false) ∨
      ∃ t final, t ∈ live ∧ (s.tasks t).userData = data ∧ (s.flag t).claim t = some final ∧
        ThreadPool.cancelScan data slots s = (final, true) := by
  induction slots with
  | nil => exact Or.inl rfl
  | cons h rest ih =>
    have later := ih fun x member => inside x (List.mem_cons_of_mem h member)
    unfold ThreadPool.cancelScan
    dsimp only
    split
    · exact later
    · rename_i occupied
      obtain ⟨t, listed, -, named⟩ := tracked.holds.occupied (inside h List.mem_cons_self) (by omega)
      simp only [named]
      split
      · exact later
      · rename_i wanted
        obtain ⟨final, claimed, -⟩ := @Tracked.claim True True _ _ _ tracked listed
        refine Or.inr ⟨t, final, listed, ?_, claimed, ?_⟩
        · by_contra differs
          exact wanted (Or.inr differs)
        · simp only [claimed]

theorem cancelLane (tracked : s.Tracked live) {found : Nat → Bool}
    (cancelled : s.cancelLane found = some s') :
    Refines tame steady s live s' ∧
      ∃ t, t ∈ laneTasks s.lanes ∧ found t = true ∧ s'.events = .cancelled t :: s.events := by
  unfold ThreadPool.cancelLane at cancelled
  split at cancelled
  · cases cancelled
  · rename_i t lanes taken
    cases cancelled
    obtain ⟨left, matching⟩ := unlinkFirst_perm taken
    let unlinked : ThreadPool := { s with lanes, queueLen := s.queueLen - 1 }
    have ended : Unseen unlinked _ := ((unseen_markFutureCancelled unlinked t).trans
      (unseen_settle _ t)).trans (unseen_taskDestroy _ t .cancelled)
    refine ⟨Refines.unseen ?_ (ended.emit _), t, left.mem_iff.mpr List.mem_cons_self, matching,
      congrArg _ ended.events⟩
    have shaped := tracked.shaped
    exact ⟨⟨shaped.counts, shaped.vacant, shaped.heap, shaped.fits⟩, live,
      tracked.holds, .single (Move.cancelLane left)⟩

theorem cancelAsleep (tracked : s.Tracked live) (token : t ∈ s.tokens) :
    Refines tame steady s live (s.cancelAsleep t) ∧
      (s.cancelAsleep t).events = .cancelledAsleep t :: s.events := by
  have same := unseen_resolveCancelled (s.flag t) t
  refine ⟨Refines.unseen ?_ (same.emit _), congrArg _ same.events⟩
  have flagged : (s.flag t).Shaped := tracked.shaped.setTask t _
  refine ⟨flagged.emit _, live, ?_, .single ?_⟩
  · show Holds (s.flag t).dataOf s.index live
    rw [dataOf_flag]
    exact tracked.holds
  · show Move tame steady _ (((s.flag t).view live).emit (.cancelledAsleep t))
    rw [view_flag]
    exact Move.cancelAsleep token (List.Subset.refl _)

end Tracked

/-- What a cancel call that looks for a task has done: with OK it has logged the
cancellation of one match, otherwise none. -/
def Reports (s s' : ThreadPool) (wanted : Nat → Prop) (result : LoomResult) : Prop :=
  (result = .ok → ∃ t, wanted t ∧ (s'.events = .cancelled t :: s.events ∨
    t ∈ s.timerHeap.map TimerEntry.task ∧ s'.events = .cancelledAsleep t :: s.events)) ∧
  (result ≠ .ok → s'.events = s.events)

theorem Reports.mono {wanted other : Nat → Prop} {result : LoomResult}
    (reports : Reports s s' wanted result) (weaker : ∀ t, wanted t → other t) :
    Reports s s' other result := by
  refine ⟨fun ok => ?_, reports.2⟩
  obtain ⟨t, found, logged⟩ := reports.1 ok
  exact ⟨t, weaker t found, logged⟩

theorem Reports.none {wanted : Nat → Prop} {result : LoomResult} (refused : result ≠ .ok)
    (same : s'.events = s.events) : Reports s s' wanted result :=
  ⟨fun ok => absurd ok refused, fun _ => same⟩

theorem Reports.queued {wanted : Nat → Prop} (found : wanted t)
    (logged : s'.events = .cancelled t :: s.events) : Reports s s' wanted .ok :=
  ⟨fun _ => ⟨t, found, Or.inl logged⟩, fun refused => absurd rfl refused⟩

theorem Reports.asleep {wanted : Nat → Prop} {entry : TimerEntry} (found : wanted entry.task)
    (listed : entry ∈ s.timerHeap) (logged : s'.events = .cancelledAsleep entry.task :: s.events) :
    Reports s s' wanted .ok :=
  ⟨fun _ => ⟨entry.task, found, Or.inr ⟨List.mem_map_of_mem listed, logged⟩⟩,
    fun refused => absurd rfl refused⟩

theorem heap_mem_tokens {entry : TimerEntry} (listed : entry ∈ s.timerHeap) : entry.task ∈ s.tokens :=
  mem_tokens.mpr (Or.inr (Or.inl ⟨entry, listed, rfl⟩))

theorem cancelAsleep_frame (s : ThreadPool) (t : Nat) :
    (s.cancelAsleep t).timerHeap = s.timerHeap ∧
      (s.cancelAsleep t).maxWorkerCount = s.maxWorkerCount ∧ (s.cancelAsleep t).tokens = s.tokens := by
  unfold cancelAsleep resolveCancelled
  split
  · exact ⟨rfl, rfl, rfl⟩
  · exact ⟨rfl, rfl, rfl⟩

theorem cancelAsleep_resetHeap (s : ThreadPool) (timerHeap : List TimerEntry) (t : Nat) :
    cancelAsleep { s with timerHeap } t = { s.cancelAsleep t with timerHeap } := by
  cases completion : (s.tasks t).completion with
  | true => simp [cancelAsleep, resolveCancelled, flag, setTask, setFuture, emit, completion]
  | false => simp [cancelAsleep, resolveCancelled, flag, setTask, emit, completion]

namespace Tracked

theorem loomPoolCancel (tracked : s.Tracked live) (data : Nat) :
    Refines tame steady s live (s.loomPoolCancel data).1 ∧
      Reports s (s.loomPoolCancel data).1 (fun t => (s.tasks t).userData = data)
        (s.loomPoolCancel data).2 := by
  have refused : Refines tame steady s live s ∧
      Reports s s (fun t => (s.tasks t).userData = data) .errInvalid :=
    ⟨tracked.idle, Reports.none (by decide) rfl⟩
  unfold ThreadPool.loomPoolCancel
  split
  · exact refused
  · rcases tracked.cancelScan data (List.range s.index.cap) (by simp) with missed | scanned
    · simp only [missed]
      split
      · rename_i entry asleep
        have listed := List.mem_of_find?_eq_some asleep
        obtain ⟨refines, logged⟩ := tracked.cancelAsleep (heap_mem_tokens listed)
        exact ⟨refines, Reports.asleep (by simpa using List.find?_some asleep) listed logged⟩
      · split
        · rename_i final cancelled
          obtain ⟨refines, t, -, matching, logged⟩ := tracked.cancelLane cancelled
          simp only [Bool.and_eq_true, beq_iff_eq] at matching
          exact ⟨refines, Reports.queued matching.1 logged⟩
        · exact refused
    · obtain ⟨t, final, listed, same, claimed, result⟩ := scanned
      obtain ⟨other, found, refines, logged⟩ := tracked.claim listed
      cases claimed.symm.trans found
      simp only [result]
      exact ⟨refines, Reports.queued same logged⟩

theorem loomPoolCancelById (tracked : s.Tracked live) (id : Nat) (alloc : Bool) :
    Refines tame steady s live (s.loomPoolCancelById id alloc).1 ∧
      Reports s (s.loomPoolCancelById id alloc).1 (fun t => t = id)
        (s.loomPoolCancelById id alloc).2 := by
  unfold ThreadPool.loomPoolCancelById
  split
  · rename_i t found
    split
    · exact ⟨tracked.idle, @Reports.none s s _ .errInvalid (by decide) rfl⟩
    · rcases tracked.holds.find_some found with ⟨same, listed⟩ | ⟨-, stale⟩
      · obtain ⟨final, claimed, refines, logged⟩ := tracked.claim listed
        simp only [claimed]
        exact ⟨refines, Reports.queued same logged⟩
      · -- id 0 reads a task out of a tombstone: it is flagged, and the claim fails
        obtain ⟨⟨positive, -⟩, dead⟩ := tracked.safe.stale t stale
        simp only [tracked.claim_dead positive dead]
        refine ⟨⟨tracked.shaped.setTask t _, live, (tracked.flag t).holds,
          .single ?_⟩, @Reports.none s (s.flag t) _ .errInvalid (by decide) rfl⟩
        rw [view_flag]
        exact Move.flagStale stale
  · split
    · rename_i entry asleep
      have listed := List.mem_of_find?_eq_some asleep
      have token := heap_mem_tokens listed
      have wanted : entry.task = id := by simpa using List.find?_some asleep
      obtain ⟨refines, logged⟩ := @cancelAsleep tame steady _ _ _ tracked token
      obtain ⟨heap, limit, held⟩ := cancelAsleep_frame s entry.task
      have inside : entry.workerIdx < (s.cancelAsleep entry.task).maxWorkerCount := by
        rw [limit]
        exact tracked.shaped.heap entry listed
      have fewer : s.timerHeap.eraseP (fun e => e.task == id) ⊆
          (s.cancelAsleep entry.task).timerHeap := by
        rw [heap]
        exact List.eraseP_subset
      rw [← held] at token
      rw [cancelAsleep_resetHeap]
      split
      · refine ⟨?_, Reports.asleep wanted listed logged⟩
        exact ((refines.pushReady inside token).resetHeap fewer).semaphore _ _
      · exact ⟨refines.resetHeap fewer, Reports.asleep wanted listed logged⟩
    · split
      · rename_i final cancelled
        obtain ⟨refines, t, -, matching, logged⟩ := tracked.cancelLane cancelled
        simp only [Bool.and_eq_true, beq_iff_eq] at matching
        exact ⟨refines, Reports.queued matching.1 logged⟩
      · exact ⟨tracked.idle, @Reports.none s s _ .errInvalid (by decide) rfl⟩

end Tracked

end ThreadPool

end Loomworks.Pool

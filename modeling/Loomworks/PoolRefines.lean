import Loomworks.PoolCancels

/- loom_pool_cancel_all and loom_pool_resize as runs of moves of the abstract
placement machine, and with them every step of the pool. -/
namespace Loomworks.Pool

namespace ThreadPool

variable {tame steady : Prop} {s s' : ThreadPool} {live live' : Finset Nat} {w t : Nat}

/-- What the scan of loom_pool_cancel_all over some slots of the index does. -/
structure Scanned (tame steady : Prop) (s : ThreadPool) (live : Finset Nat) (slots : List Nat)
    (final : ThreadPool) (count : Nat) (live' : Finset Nat) : Prop where
  shaped : final.Shaped
  holds : Holds final.dataOf final.index live'
  moved : Moves tame steady (s.view live) (final.view live')
  cap : final.index.cap = s.index.cap
  lanes : final.lanes = s.lanes
  logged : ∃ tasks : List Nat, tasks.length = count ∧
    final.events = tasks.map .cancelled ++ s.events
  counted : live'.card + count = live.card
  emptied : (∀ t ∈ live, (s.tasks t).cancelled = false) →
    ∀ h ∈ slots, (final.index.slots h).taskId ≤ 1
  kept : ∀ h, (s.index.slots h).taskId ≤ 1 → (final.index.slots h).taskId ≤ 1

theorem slots_claimSlot {x : Nat} (free : (s.index.slots x).taskId ≤ 1) (h t : Nat) :
    ((s.claimSlot h t).index.slots x).taskId ≤ 1 := by
  show ((s.index.setSlot h _).slots x).taskId ≤ 1
  by_cases same : x = h
  · rw [same, CancelIndex.setSlot_self]
  · rw [CancelIndex.setSlot_of_ne _ _ same]
    exact free

theorem Tracked.claimSlot (tracked : s.Tracked live) {h : Nat} (inside : h < s.index.cap)
    (listed : t ∈ live) (here : (s.index.slots h).taskId = t + 1) :
    (s.claimSlot h t).Tracked (live.erase t) ∧
      Move tame steady (s.view live) ((s.claimSlot h t).view (live.erase t)) := by
  have flagged : (s.flag t).Shaped := tracked.shaped.setTask t _
  have step : ∀ {tame steady : Prop},
      Move tame steady (s.view live) ((s.claimSlot h t).view (live.erase t)) := by
    intro tame steady
    show Move tame steady _ ({ (s.flag t).view live with
      live := live.erase t
      stale := (s.index.setSlot h _).Stale
      queueLen := s.queueLen - 1 }.emit (.cancelled t))
    rw [view_flag]
    exact Move.cancelPooled listed fun x stale => stale.of_setSlot (Or.inr rfl)
  refine ⟨⟨⟨flagged.counts, flagged.vacant, flagged.heap, flagged.fits⟩, ?_,
    tracked.safe.move (@step True True)⟩, step⟩
  show Holds (s.flag t).dataOf _ _
  rw [dataOf_flag]
  exact tracked.holds.tombstone inside listed here rfl

theorem scanned_cancelAll (tracked : s.Tracked live) (slots : List Nat)
    (inside : ∀ h ∈ slots, h < s.index.cap) :
    ∃ live', Scanned tame steady s live slots (cancelAllScan slots s).1 (cancelAllScan slots s).2
      live' := by
  induction slots generalizing s live with
  | nil =>
    exact ⟨live, tracked.shaped, tracked.holds, .refl, rfl, rfl, ⟨[], rfl, rfl⟩,
      rfl, fun _ h member => absurd member List.not_mem_nil, fun _ free => free⟩
  | cons h rest ih =>
    have bounds : ∀ x ∈ rest, x < s.index.cap := fun x member =>
      inside x (List.mem_cons_of_mem h member)
    obtain ⟨live', skipped⟩ := ih tracked bounds
    -- the slot is passed over: it has to be free, or its task flagged
    have pass : ((∀ t ∈ live, (s.tasks t).cancelled = false) → (s.index.slots h).taskId ≤ 1) →
        ∃ live', Scanned tame steady s live (h :: rest) (cancelAllScan rest s).1
          (cancelAllScan rest s).2 live' := by
      intro free
      refine ⟨live', { skipped with emptied := ?_ }⟩
      intro calm x member
      rcases List.mem_cons.mp member with same | later
      · rw [same]
        exact skipped.kept h (free calm)
      · exact skipped.emptied calm x later
    unfold cancelAllScan
    dsimp only
    split
    · rename_i free
      exact pass fun _ => free
    · rename_i taken
      obtain ⟨t, listed, here, named⟩ :=
        tracked.holds.occupied (inside h List.mem_cons_self) (by omega)
      simp only [named]
      split
      · rename_i flagged
        refine pass fun calm => ?_
        rw [calm t listed] at flagged
        cases flagged
      · obtain ⟨tracked', step⟩ :=
          @Tracked.claimSlot tame steady _ _ _ tracked h (inside h List.mem_cons_self) listed here
        obtain ⟨live'', later⟩ := ih tracked' bounds
        obtain ⟨tasks, size, events⟩ := later.logged
        have erased := Finset.card_erase_of_mem listed
        have present := Finset.card_pos.mpr ⟨t, listed⟩
        have counted := later.counted
        refine ⟨live'', later.shaped, later.holds, later.moved.head step, later.cap, later.lanes,
          ⟨tasks ++ [t], ?_, ?_⟩, ?_, ?_, ?_⟩
        · rw [List.length_append, size]
          rfl
        · rw [events, List.map_append, List.append_assoc]
          rfl
        · omega
        · intro calm x member
          rcases List.mem_cons.mp member with same | below
          · refine later.kept x ?_
            rw [same]
            show ((s.index.setSlot h _).slots h).taskId ≤ 1
            rw [CancelIndex.setSlot_self]
          · refine later.emptied ?_ x below
            intro y other
            have differs : y ≠ t := Finset.ne_of_mem_erase other
            have before := calm y (Finset.mem_of_mem_erase other)
            show (Function.update s.tasks t _ y).cancelled = false
            rw [Function.update_of_ne differs]
            exact before
        · exact fun x free => later.kept x (slots_claimSlot free h t)

/-- The tasks of the emptied lanes are destroyed one by one. -/
theorem moves_drain (list : List Nat) (shaped : s.Shaped) (holds : Holds s.dataOf s.index live) :
    (list.foldl drainTask s).Shaped ∧
      Holds (list.foldl drainTask s).dataOf (list.foldl drainTask s).index live ∧
      Moves tame steady { s.view live with lanes := list ++ laneTasks s.lanes }
        ((list.foldl drainTask s).view live) ∧
      (list.foldl drainTask s).events = list.reverse.map .cancelled ++ s.events := by
  induction list generalizing s with
  | nil => exact ⟨shaped, holds, .refl, rfl⟩
  | cons t rest ih =>
    have ended : Unseen s ((s.markFutureCancelled t).taskDestroy t .cancelled) :=
      (unseen_markFutureCancelled s t).trans (unseen_taskDestroy _ t .cancelled)
    have shaped' : (s.drainTask t).Shaped := by
      have after := ended.shaped shaped
      exact ⟨after.counts, after.vacant, after.heap, after.fits⟩
    have holds' : Holds (s.drainTask t).dataOf (s.drainTask t).index live := by
      show Holds ((s.markFutureCancelled t).taskDestroy t .cancelled).dataOf
        ((s.markFutureCancelled t).taskDestroy t .cancelled).index live
      rw [ended.data, ended.index]
      exact holds
    have lanes : (s.drainTask t).lanes = s.lanes := by
      unfold drainTask markFutureCancelled
      split <;> rfl
    have seen : (s.drainTask t).view live =
        { s.view live with queueLen := s.queueLen - 1 }.emit (.cancelled t) := by
      rw [← ended.view]
      rfl
    have step : Move tame steady { s.view live with lanes := (t :: rest) ++ laneTasks s.lanes }
        { (s.drainTask t).view live with lanes := rest ++ laneTasks (s.drainTask t).lanes } := by
      rw [seen, lanes]
      exact Move.cancelLane (List.Perm.refl _)
    obtain ⟨final, held, moved, events⟩ := ih shaped' holds'
    refine ⟨final, held, moved.head step, ?_⟩
    have first : (s.drainTask t).events = .cancelled t :: s.events :=
      congrArg View.events seen
    rw [List.foldl_cons, events, first, List.reverse_cons, List.map_append, List.append_assoc]
    rfl

theorem Tracked.loomPoolCancelAll (tracked : s.Tracked live) :
    Refines tame steady s live s.loomPoolCancelAll.1 ∧
      ∃ tasks : List Nat, tasks.length = s.loomPoolCancelAll.2 ∧
        s.loomPoolCancelAll.1.events = tasks.map .cancelled ++ s.events := by
  obtain ⟨live', scanned⟩ := @scanned_cancelAll tame steady s live tracked
    (List.range s.index.cap) (by simp)
  let final := (cancelAllScan (List.range s.index.cap) s).1
  let emptied : ThreadPool := { final with lanes := fun _ => [] }
  have shaped : emptied.Shaped :=
    ⟨scanned.shaped.counts, scanned.shaped.vacant, scanned.shaped.heap, scanned.shaped.fits⟩
  obtain ⟨shaped', holds', drained, events⟩ :=
    @moves_drain tame steady emptied live' (laneTasks final.lanes) shaped scanned.holds
  have empty : laneTasks emptied.lanes = [] := Bins.all_eq_nil fun _ _ => rfl
  rw [empty, List.append_nil] at drained
  obtain ⟨tasks, size, logged⟩ := scanned.logged
  refine ⟨⟨shaped', live', holds', scanned.moved.trans drained⟩,
    (laneTasks final.lanes).reverse ++ tasks, ?_, ?_⟩
  · rw [List.length_append, List.length_reverse, size, Nat.add_comm]
    rfl
  · have before : emptied.events = tasks.map .cancelled ++ s.events := logged
    rw [before] at events
    rw [List.map_append, List.append_assoc]
    exact events

theorem deque_growDeques (s : ThreadPool) (slotsAlloc : Bool) (i : Nat) :
    (s.growDeques slotsAlloc).deque i =
      if slotsAlloc = true ∧ i < s.maxWorkerCount then s.deque i else [] := by
  cases slotsAlloc with
  | false => rfl
  | true =>
    cases shape : s.deques with
    | none | some => simp [growDeques, deque, shape]

theorem Tracked.growDeques (tracked : s.Tracked live) {slotsAlloc : Bool}
    (careful : tame → slotsAlloc = false → ∀ w < s.maxWorkerCount, s.deque w = []) :
    Refines tame steady s live (s.growDeques slotsAlloc) := by
  have shaped := tracked.shaped
  have fewer : (s.growDeques slotsAlloc).pooled.Subperm s.pooled ∧
      (tame → (s.growDeques slotsAlloc).pooled = s.pooled) := by
    show (s.ring ++ Bins.all s.maxWorkerCount (s.growDeques slotsAlloc).deque).Subperm _ ∧
      (tame → s.ring ++ Bins.all s.maxWorkerCount (s.growDeques slotsAlloc).deque = _)
    cases slotsAlloc with
    | true =>
      have same : Bins.all s.maxWorkerCount (s.growDeques true).deque = s.dequeTasks :=
        Bins.all_congr fun i inside => by rw [deque_growDeques, if_pos ⟨rfl, inside⟩]
      rw [same]
      exact ⟨List.Subperm.refl _, fun _ => rfl⟩
    | false =>
      have none_ : Bins.all s.maxWorkerCount (s.growDeques false).deque = [] :=
        Bins.all_eq_nil fun i _ => by rw [deque_growDeques, if_neg (by simp)]
      rw [none_, List.append_nil]
      refine ⟨(List.sublist_append_left s.ring s.dequeTasks).subperm, fun calm => ?_⟩
      have empty : s.dequeTasks = [] := Bins.all_eq_nil (careful calm rfl)
      rw [pooled, empty, List.append_nil]
  refine ⟨⟨shaped.counts, shaped.vacant, shaped.heap, shaped.fits.1, ?_⟩, live, tracked.holds, ?_⟩
  · intro i
    rw [deque_growDeques]
    split
    · exact shaped.fits.2 i
    · exact Nat.zero_le _
  · refine .single (Move.lose fewer.1 fun calm => ?_)
    rw [fewer.2 calm]
    exact List.Perm.refl _

theorem Refines.growReady {final : ThreadPool} (refines : Refines tame steady s live final) {count : Nat}
    (more : final.maxWorkerCount ≤ count)
    (beyond : ∀ i, final.maxWorkerCount ≤ i → final.deque i = []) :
    Refines tame steady s live (final.growReady count) := by
  obtain ⟨live', holds, moved⟩ := refines.moved
  have shaped := refines.shaped
  have pooled : (final.growReady count).pooled = final.pooled := by
    show final.ring ++ Bins.all count final.deque = _
    rw [Bins.all_extend more fun i lower _ => beyond i lower]
    rfl
  have ready : Bins.all count (final.growReady count).coroReady =
      Bins.all final.maxWorkerCount final.coroReady := by
    rw [Bins.all_extend more]
    · exact Bins.all_congr fun i inside => if_pos inside
    · exact fun i lower _ => if_neg (by omega)
  have held : (Bins.all count fun w => (final.workers w).held) =
      Bins.all final.maxWorkerCount fun w => (final.workers w).held :=
    Bins.all_extend more fun i lower _ => by rw [shaped.vacant i lower]; rfl
  have tokens : (final.growReady count).tokens = final.tokens := by
    show Bins.all count (final.growReady count).coroReady ++ (_ ++
      Bins.all count fun w => (final.workers w).held) = _
    rw [ready, held]
    rfl
  refine ⟨⟨shaped.counts.trans more, ?_, ?_, shaped.fits⟩, live', holds, ?_⟩
  · exact fun w outside => shaped.vacant w (more.trans outside)
  · exact fun entry member => Nat.lt_of_lt_of_le (shaped.heap entry member) more
  · have seen : (final.growReady count).view live' = final.view live' := by
      show { final.view live' with
        pooled := (final.growReady count).pooled, tokens := (final.growReady count).tokens } = _
      rw [pooled, tokens]
      rfl
    rw [seen]
    exact moved

theorem Refines.startWorkers {final : ThreadPool} (refines : Refines tame steady s live final)
    {lower upper : Nat} (inside : upper ≤ final.maxWorkerCount) :
    Refines tame steady s live (final.startWorkers lower upper) := by
  have shaped := refines.shaped
  have held : ∀ w, ((final.startWorkers lower upper).workers w).held = (final.workers w).held := by
    intro w
    show WorkerPc.held (if lower ≤ w ∧ w < upper ∧ final.workers w = .absent then .looping
      else final.workers w) = _
    split
    · rename_i free
      rw [free.2.2]
      rfl
    · rfl
  have tokens : (final.startWorkers lower upper).tokens = final.tokens := by
    unfold ThreadPool.tokens
    rw [funext held]
    rfl
  refine refines.retoken ⟨shaped.counts, ?_, shaped.heap, shaped.fits⟩ rfl rfl ?_
    fun _ => rfl
  · intro w outside
    have outside : final.maxWorkerCount ≤ w := outside
    show (if lower ≤ w ∧ w < upper ∧ final.workers w = .absent then WorkerPc.looping
      else final.workers w) = .absent
    rw [if_neg (by omega)]
    exact shaped.vacant w outside
  · rw [tokens]
    exact List.Subset.refl _

theorem Refines.resetCount {final : ThreadPool} (refines : Refines tame steady s live final)
    {count : Nat} (inside : count ≤ final.maxWorkerCount) (posts : Nat) :
    Refines tame steady s live { final with workerCount := count, posts } :=
  refines.unseen ⟨fun _ => rfl, rfl, rfl, rfl, fun shaped =>
    ⟨inside, shaped.vacant, shaped.heap, shaped.fits⟩⟩

/-- A resize that has to give up the deques. -/
def Degrades (s : ThreadPool) (count : Nat) (env : ResizeEnv) : Prop :=
  s.maxWorkerCount < count ∧ s.deques.isSome = true ∧ env.dequesAlloc = true ∧
    env.slotsAlloc = false

theorem Tracked.growArrays (tracked : s.Tracked live) {count : Nat} {env : ResizeEnv}
    (careful : tame → s.Degrades count env → ∀ w < s.maxWorkerCount, s.deque w = []) :
    Refines tame steady s live (s.growArrays count env).1 ∧
      ((s.growArrays count env).2 = true → count ≤ (s.growArrays count env).1.maxWorkerCount) := by
  unfold ThreadPool.growArrays
  split
  · rename_i enough
    exact ⟨tracked.idle, fun _ => enough⟩
  · rename_i larger
    split
    · exact ⟨tracked.idle, fun failed => absurd failed Bool.false_ne_true⟩
    · rename_i allocated
      have grown : Refines tame steady s live (s.growDeques env.slotsAlloc) := by
        refine tracked.growDeques fun calm failed w inside => ?_
        cases mode : s.deques.isSome with
        | true =>
          refine careful calm ⟨by omega, mode, ?_, failed⟩ w inside
          by_contra refused
          exact allocated ⟨mode, Bool.eq_false_iff.mpr refused⟩
        | false => exact deque_of_none (by simpa using mode) w
      split
      · refine ⟨grown.growReady (Nat.le_of_not_le larger) ?_, fun _ => Nat.le_refl count⟩
        intro i beyond
        have beyond : s.maxWorkerCount ≤ i := beyond
        rw [deque_growDeques, if_neg (by omega)]
      · exact ⟨grown, fun failed => absurd failed Bool.false_ne_true⟩

theorem Tracked.loomPoolResize (tracked : s.Tracked live) {count : Nat} {env : ResizeEnv}
    (careful : tame → s.Degrades count env → ∀ w < s.maxWorkerCount, s.deque w = []) :
    Refines tame steady s live (s.loomPoolResize count env).1 := by
  obtain ⟨grown, room⟩ := @Tracked.growArrays tame steady _ _ tracked _ _ careful
  unfold ThreadPool.loomPoolResize
  split
  · exact tracked.idle
  · split
    · exact tracked.idle
    · split
      · rename_i arrays same
        rw [same] at grown
        exact grown
      · rename_i arrays same
        rw [same] at grown room
        have inside : count ≤ arrays.maxWorkerCount := room rfl
        have begun : Refines tame steady s live (arrays.startWorkers arrays.workerCount count) :=
          grown.startWorkers inside
        have started := begun.resetCount inside (arrays.posts + arrays.workerCount)
        dsimp only
        split
        · split
          · rename_i failing
            exact grown.startWorkers (Nat.le_of_lt (Nat.lt_of_lt_of_le failing.2.1 inside))
          · exact started
        · exact started

end ThreadPool

/-- The steps at which the counter stays exact: a displaced worker finds no
cancelled task in its deque, and the deques are empty when a resize has to give
them up. -/
def Careful (s : ThreadPool) : Label → Prop
  | .leave w => ∀ t ∈ s.deque w, (s.tasks t).cancelled = false
  | .resize count env => s.Degrades count env → ∀ w < s.maxWorkerCount, s.deque w = []
  | _ => True

/-- Every step of the pool is a run of moves. -/
theorem refines_step {tame steady : Prop} {s s' : ThreadPool} {live : Finset Nat} {label : Label}
    (tracked : s.Tracked live) (careful : tame → Careful s label)
    (spare : steady → 0 < s.ringSize → s.ringSize + s.maxWorkerCount * dequeRest ≤ s.index.cap)
    (stepped : step s label = some s') : s.Refines tame steady live s' := by
  cases label with
  | submit userData priority isFuture alloc =>
    cases stepped
    exact tracked.enqueueTask rfl rfl alloc spare
  | submitCoroutine arg withFuture alloc =>
    cases stepped
    exact tracked.submitCoroutine arg withFuture alloc
  | pass w cas => exact tracked.workerPass stepped
  | finish w result => exact tracked.finish stepped
  | create w handle => exact tracked.create stepped
  | checkReady w => exact tracked.checkReady stepped
  | bodyEnds w behaviour alloc => exact tracked.bodyEnds stepped
  | leave w => exact tracked.leave stepped careful
  | wake w =>
    simp only [step] at stepped
    split at stepped
    · rename_i blocked
      cases stepped
      exact tracked.wake (by simp [blocked.1]) _ _
    · cases stepped
  | post | repost =>
    simp only [step] at stepped
    split at stepped
    · cases stepped
      exact tracked.idle.semaphore _ _
    · cases stepped
  | timerFire i alloc => exact tracked.timerFire stepped
  | cancel data =>
    cases stepped
    exact (tracked.loomPoolCancel data).1
  | cancelById id alloc =>
    cases stepped
    exact (tracked.loomPoolCancelById id alloc).1
  | cancelAll =>
    cases stepped
    exact tracked.loomPoolCancelAll.1
  | resize count env =>
    cases stepped
    exact tracked.loomPoolResize careful
  | join w =>
    simp only [step] at stepped
    split at stepped
    · rename_i exited
      cases stepped
      exact tracked.idle.release (tracked.shaped.lt_of_alive (by simp [exited])) rfl
    · cases stepped

theorem ThreadPool.Tracked.refined {tame steady : Prop} {s s' : ThreadPool} {live : Finset Nat}
    (tracked : s.Tracked live) (refines : s.Refines tame steady live s') :
    ∃ live', s'.Tracked live' := by
  obtain ⟨live', holds, moved⟩ := refines.moved
  exact ⟨live', refines.shaped, holds, tracked.safe.moves moved⟩

theorem ThreadPool.Tracked.step {s s' : ThreadPool} {live : Finset Nat} {label : Label}
    (tracked : s.Tracked live) (stepped : step s label = some s') : ∃ live', s'.Tracked live' :=
  tracked.refined (@refines_step False False _ _ _ _ tracked False.elim False.elim stepped)

theorem lanes_view (s : ThreadPool) (live : Finset Nat) :
    (s.view live).lanes = laneTasks s.lanes := rfl

theorem pooled_poolInit (config : Config) : (poolInit config).pooled = [] := by
  have empty : ∀ i, (poolInit config).deque i = [] := by
    intro i
    cases alloc : config.dequesAlloc with
    | true | false => simp [poolInit, ThreadPool.deque, alloc]
  exact Bins.all_eq_nil fun i _ => empty i

theorem lanes_poolInit (config : Config) : ((poolInit config).view ∅).lanes = [] := by
  rw [lanes_view]
  exact Bins.all_eq_nil fun _ _ => rfl

theorem tracked_poolInit (config : Config) : (poolInit config).Tracked ∅ := by
  have tokens : (poolInit config).tokens = [] := by
    have ready : Bins.all config.workerCount (poolInit config).coroReady = [] :=
      Bins.all_eq_nil fun _ _ => rfl
    have held : (Bins.all config.workerCount fun w => ((poolInit config).workers w).held) = [] := by
      refine Bins.all_eq_nil fun w inside => ?_
      simp [poolInit, inside, WorkerPc.held]
    show Bins.all config.workerCount (poolInit config).coroReady ++ ([] ++
      Bins.all config.workerCount fun w => ((poolInit config).workers w).held) = []
    rw [ready, held]
    rfl
  refine ⟨⟨Nat.le_refl _, ?_, ?_, ?_, ?_⟩, ?_, ?_⟩
  · intro w outside
    have outside : config.workerCount ≤ w := outside
    exact if_neg (by omega)
  · exact fun entry member => absurd member List.not_mem_nil
  · exact Nat.zero_le _
  · intro i
    cases alloc : config.dequesAlloc with
    | true | false => simp [poolInit, ThreadPool.deque, alloc]
  · cases alloc : config.ringAlloc with
    | true =>
      right
      refine ⟨config.indexBits, ?_⟩
      simpa [poolInit, alloc] using Indexes.empty (poolInit config).dataOf config.indexBits
    | false => exact Or.inl ⟨by simp [poolInit, alloc], rfl⟩
  · refine Safe.start (pooled_poolInit config) (lanes_poolInit config) tokens rfl rfl ?_
    intro t stale
    obtain ⟨h, -, -, named⟩ := stale
    cases named

end Loomworks.Pool

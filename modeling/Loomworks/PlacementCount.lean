import Loomworks.Placement

/- The counter of an abstract pool counts the queued tasks, as long as no
cancelled task is spilled to a lane and no filled deque is thrown away. -/
namespace Loomworks.Pool

/-- The tasks of a list that are queued. -/
def pending (events : List Event) (l : List Nat) : Nat :=
  l.countP fun t => phase events t = .queued

structure Exact (v : View) : Prop where
  safe : Safe v
  count : v.queueLen = pending v.events (v.pooled ++ v.lanes)
  lanes : ∀ t ∈ v.lanes, phase v.events t = .queued
  flagged : ∀ t ∈ v.pooled, v.flag t = true → phase v.events t = .cancelled
  live : ∀ t ∈ v.live, t ∈ v.pooled
  stale : ∀ t, v.stale t → t ∉ v.pooled

variable {steady : Prop} {v v' : View} {t : Nat} {events : List Event} {event : Event}
  {l rest : List Nat}

theorem pending_perm (same : l.Perm rest) : pending events l = pending events rest :=
  same.countP_eq _

theorem pending_cons_queued (queued : phase events t = .queued) :
    pending events (t :: l) = pending events l + 1 := by
  unfold pending
  rw [List.countP_cons_of_pos (by simp [queued])]

theorem pending_cons_other (other : phase events t ≠ .queued) :
    pending events (t :: l) = pending events l := by
  unfold pending
  rw [List.countP_cons_of_neg (by simp [other])]

theorem pending_emit (elsewhere : event.task ∉ l) :
    pending (event :: events) l = pending events l := by
  unfold pending
  apply List.countP_congr
  intro x member
  have differs : event.task ≠ x := fun same => elsewhere (same ▸ member)
  rw [phase_cons_of_ne differs]

namespace Exact

theorem start (safe : Safe v) (pooled : v.pooled = []) (lanes : v.lanes = []) (live : v.live = ∅)
    (queueLen : v.queueLen = 0) : Exact v := by
  refine ⟨safe, ?_, ?_, ?_, ?_, ?_⟩ <;> simp [pooled, lanes, live, queueLen, pending]

/-- What an event about a task outside a list leaves as it was. -/
theorem kept_of_emit {motive : Phase → Prop} (before : ∀ x ∈ l, motive (phase events x))
    (elsewhere : event.task ∉ l) : ∀ x ∈ l, motive (phase (event :: events) x) := by
  intro x member
  have differs : event.task ≠ x := fun same => elsewhere (same ▸ member)
  rw [phase_cons_of_ne differs]
  exact before x member

theorem enter (valid : Exact v) {kind : Bool} {pooled lanes : List Nat} {live : Finset Nat}
    {stale : Nat → Prop} (safe : Safe ({ v.create kind with pooled, lanes, live, stale, queueLen := v.queueLen + 1 }.emit
      (.submitted (v.nextTaskId + 1))))
    (joined : (pooled ++ lanes).Perm ((v.nextTaskId + 1) :: (v.pooled ++ v.lanes)))
    (pooledNew : ∀ t ∈ pooled, t = v.nextTaskId + 1 ∨ t ∈ v.pooled)
    (lanesNew : ∀ t ∈ lanes, t = v.nextTaskId + 1 ∨ t ∈ v.lanes)
    (listed : ∀ t ∈ live, t ∈ pooled) (older : ∀ x, stale x → v.stale x) :
    Exact ({ v.create kind with pooled, lanes, live, stale, queueLen := v.queueLen + 1 }.emit
      (.submitted (v.nextTaskId + 1))) := by
  have unused : v.nextTaskId + 1 ∉ v.pooled ++ v.lanes := by
    intro member
    have bound := valid.safe.le_of_placed member
    omega
  have queued : phase (.submitted (v.nextTaskId + 1) :: v.events) (v.nextTaskId + 1) = .queued :=
    phase_cons_self (.submitted (v.nextTaskId + 1)) v.events
  refine ⟨safe, ?_, ?_, ?_, listed, ?_⟩
  · show v.queueLen + 1 = pending (.submitted (v.nextTaskId + 1) :: v.events) (pooled ++ lanes)
    rw [pending_perm joined, pending_cons_queued queued,
      pending_emit unused, valid.count]
    omega
  · intro t member
    rcases lanesNew t member with same | old
    · rw [same]
      exact queued
    · have bound := valid.safe.le_of_placed (List.mem_append_right v.pooled old)
      have differs : v.nextTaskId + 1 ≠ t := by omega
      exact (phase_cons_of_ne (show (Event.submitted _).task ≠ t from differs)).trans
        (valid.lanes t old)
  · intro t member raised
    rcases pooledNew t member with same | old
    · subst same
      simp [View.emit, View.create] at raised
    · have bound := valid.safe.le_of_placed (List.mem_append_left v.lanes old)
      have differs : t ≠ v.nextTaskId + 1 := by omega
      have before := valid.flagged t old (by simpa [View.emit, View.create, differs] using raised)
      exact (phase_cons_of_ne (Ne.symm differs)).trans before
  · intro t old member
    rcases pooledNew t member with same | before
    · have bound := (valid.safe.stale t (older t old)).1
      omega
    · exact valid.stale t (older t old) before

/-- A queued task leaves its queue with an event and is counted no more. -/
theorem depart (valid : Exact v) {pooled lanes tokens : List Nat} {live : Finset Nat}
    {stale : Nat → Prop} (safe : Safe ({ v with
      pooled, lanes, tokens, live, stale, queueLen := v.queueLen - 1 }.emit event))
    (left : (v.pooled ++ v.lanes).Perm (event.task :: (pooled ++ lanes)))
    (queued : phase v.events event.task = .queued)
    (pooledOld : pooled ⊆ v.pooled) (lanesOld : lanes ⊆ v.lanes)
    (listed : ∀ t ∈ live, t ∈ pooled) (older : ∀ x, stale x → v.stale x ∨ x = event.task) :
    Exact ({ v with
      pooled, lanes, tokens, live, stale, queueLen := v.queueLen - 1 }.emit event) := by
  have gone := (List.nodup_cons.mp (left.nodup_iff.mp valid.safe.once)).1
  have goneP : event.task ∉ pooled := fun member => gone (List.mem_append_left _ member)
  have goneL : event.task ∉ lanes := fun member => gone (List.mem_append_right _ member)
  refine ⟨safe, ?_, ?_, ?_, listed, ?_⟩
  · show v.queueLen - 1 = pending (event :: v.events) (pooled ++ lanes)
    rw [pending_emit gone, valid.count, pending_perm left, pending_cons_queued queued]
    omega
  · exact kept_of_emit (motive := (· = .queued)) (fun x member => valid.lanes x (lanesOld member))
      goneL
  · intro x member raised
    have before := valid.flagged x (pooledOld member) raised
    exact (phase_cons_of_ne fun same => goneP (same ▸ member)).trans before
  · intro x old member
    rcases older x old with before | same
    · exact valid.stale x before (pooledOld member)
    · exact goneP (same ▸ member)

theorem live_left {pooled : List Nat} (valid : Exact v) (left : v.pooled.Perm (t :: pooled)) :
    ∀ x ∈ v.live.erase t, x ∈ pooled := by
  intro x listed
  have member := valid.live x (Finset.mem_of_mem_erase listed)
  exact (List.mem_cons.mp (left.mem_iff.mp member)).resolve_left (Finset.ne_of_mem_erase listed)

theorem move (valid : Exact v) (moved : Move True steady v v') : Exact v' := by
  have safe' := valid.safe.move moved
  have safe := valid.safe
  have once := List.nodup_append.mp safe.once
  cases moved with
  | coroutines fewer => exact { valid with safe := safe' }
  | refuse =>
    refine { valid with safe := safe', flagged := ?_ }
    intro t member raised
    have bound := safe.le_of_placed (List.mem_append_left v.lanes member)
    have differs : t ≠ v.nextTaskId + 1 := by omega
    exact valid.flagged t member (by simpa [View.create, differs] using raised)
  | @submitPooled pooled live stale joined indexed older room =>
    refine valid.enter safe' (joined.append_right v.lanes) ?_ (fun t member => Or.inr member) ?_
      older
    · exact fun t member => List.mem_cons.mp (joined.mem_iff.mp member)
    · intro t listed
      rcases indexed with added | ⟨same, -⟩
      · rw [added] at listed
        rcases Finset.mem_insert.mp listed with same | old
        · exact joined.mem_iff.mpr (same ▸ List.mem_cons_self)
        · exact joined.mem_iff.mpr (List.mem_cons_of_mem _ (valid.live t old))
      · rw [same] at listed
        exact joined.mem_iff.mpr (List.mem_cons_of_mem _ (valid.live t listed))
  | @submitLane kind lanes joined =>
    refine valid.enter safe' ?_ (fun t member => Or.inr member) ?_ valid.live (fun _ old => old)
    · exact (List.Perm.append_left v.pooled joined).trans List.perm_middle
    · exact fun t member => List.mem_cons.mp (joined.mem_iff.mp member)
  | @skipPooled pooled stale t left flagged older =>
    have here : t ∈ v.pooled := left.mem_iff.mpr List.mem_cons_self
    have gone := (List.nodup_cons.mp (left.nodup_iff.mp once.1)).1
    have old : pooled ⊆ v.pooled := rest_subset left
    have cancelled := valid.flagged t here flagged
    refine ⟨safe', ?_, valid.lanes, fun x member => valid.flagged x (old member), ?_, ?_⟩
    · show v.queueLen = pending v.events (pooled ++ v.lanes)
      rw [valid.count, pending_perm (left.append_right v.lanes), List.cons_append,
        pending_cons_other (by rw [cancelled]; decide)]
    · exact valid.live_left left
    · intro x stale member
      rcases older x stale with before | same
      · exact valid.stale x before (old member)
      · exact gone (same ▸ member)
  | @runPooled pooled tokens stale t left unflagged older carried =>
    have here : t ∈ v.pooled := left.mem_iff.mpr List.mem_cons_self
    have queued := safe.queued_of_unflagged (List.mem_append_left v.lanes here) unflagged
    refine valid.depart safe' (left.append_right v.lanes) queued ?_ (fun _ member => member) ?_
      older
    · exact rest_subset left
    · exact valid.live_left left
  | @skipLane lanes t left flagged =>
    have here : t ∈ v.lanes := left.mem_iff.mpr List.mem_cons_self
    have total := (List.Perm.append_left v.pooled left).trans List.perm_middle
    refine { valid with safe := safe', count := ?_, lanes := ?_ }
    · show v.queueLen - 1 = pending v.events (v.pooled ++ lanes)
      rw [valid.count, pending_perm total, pending_cons_queued (valid.lanes t here)]
      omega
    · exact fun x member => valid.lanes x (rest_subset left member)
  | @runLane lanes _ t left | @cancelLane lanes t left =>
    have here : t ∈ v.lanes := left.mem_iff.mpr List.mem_cons_self
    have total := (List.Perm.append_left v.pooled left).trans List.perm_middle
    refine valid.depart safe' total (valid.lanes t here) (fun _ member => member) ?_ valid.live
      (fun x old => Or.inl old)
    exact rest_subset left
  | @spill pooled lanes stale t left joined older careful =>
    have gone := (List.nodup_cons.mp (left.nodup_iff.mp once.1)).1
    have old : pooled ⊆ v.pooled := rest_subset left
    have same : (v.pooled ++ v.lanes).Perm (pooled ++ lanes) :=
      (left.append_right v.lanes).trans
        ((List.Perm.append_left pooled joined).trans List.perm_middle).symm
    refine ⟨safe', ?_, ?_, fun x member => valid.flagged x (old member), ?_, ?_⟩
    · show v.queueLen = pending v.events (pooled ++ lanes)
      rw [valid.count, pending_perm same]
    · intro x member
      rcases List.mem_cons.mp (joined.mem_iff.mp member) with equal | before
      · rw [equal]
        exact careful trivial
      · exact valid.lanes x before
    · exact valid.live_left left
    · intro x stale member
      rcases older x stale with before | equal
      · exact valid.stale x before (old member)
      · exact gone (equal ▸ member)
  | @cancelPooled stale t member older =>
    have here := valid.live t member
    have queued := safe.live t member
    have split := List.perm_cons_erase here
    have total := split.append_right v.lanes
    have gone := (List.nodup_cons.mp (total.nodup_iff.mp safe.once)).1
    have goneL : t ∉ v.lanes := fun lane => gone (List.mem_append_right _ lane)
    have cancelled : phase (.cancelled t :: v.events) t = .cancelled :=
      phase_cons_self (.cancelled t) v.events
    refine ⟨safe', ?_, ?_, ?_, ?_, fun x old => valid.stale x (older x old)⟩
    · show v.queueLen - 1 = pending (.cancelled t :: v.events) (v.pooled ++ v.lanes)
      rw [pending_perm total, List.cons_append, pending_cons_other (by rw [cancelled]; decide),
        pending_emit gone, valid.count, pending_perm total, List.cons_append,
        pending_cons_queued queued]
      omega
    · exact kept_of_emit (motive := (· = .queued)) valid.lanes goneL
    · intro x inside raised
      by_cases same : x = t
      · rw [same]
        exact cancelled
      · have before := valid.flagged x inside
          (by simpa [View.emit, View.raise, same] using raised)
        exact (phase_cons_of_ne (Ne.symm same)).trans before
    · exact fun x listed => valid.live x (Finset.mem_of_mem_erase listed)
  | @cancelAsleep tokens t member fewer =>
    have gone : t ∉ v.pooled ++ v.lanes :=
      fun placed => safe.not_token (safe.waiting_of_placed placed) member
    have goneP : t ∉ v.pooled := fun placed => gone (List.mem_append_left _ placed)
    refine ⟨safe', ?_, ?_, ?_, valid.live, valid.stale⟩
    · show v.queueLen = pending (.cancelledAsleep t :: v.events) (v.pooled ++ v.lanes)
      rw [pending_emit gone, valid.count]
    · exact kept_of_emit (motive := (· = .queued)) valid.lanes
        fun lane => gone (List.mem_append_right _ lane)
    · intro x inside raised
      have differs : x ≠ t := fun same => goneP (same ▸ inside)
      have before := valid.flagged x inside
        (by simpa [View.emit, View.raise, differs] using raised)
      exact (phase_cons_of_ne (Ne.symm differs)).trans before
  | @resume t member unflagged =>
    have gone : t ∉ v.pooled ++ v.lanes :=
      fun placed => safe.not_token (safe.waiting_of_placed placed) member
    refine ⟨safe', ?_, ?_, ?_, valid.live, valid.stale⟩
    · show v.queueLen = pending (.resumed t :: v.events) (v.pooled ++ v.lanes)
      rw [pending_emit gone, valid.count]
    · exact kept_of_emit (motive := (· = .queued)) valid.lanes
        fun lane => gone (List.mem_append_right _ lane)
    · intro x inside raised
      have differs : t ≠ x := fun same => gone (List.mem_append_left _ (same ▸ inside))
      have before := valid.flagged x inside raised
      exact (phase_cons_of_ne (show (Event.resumed t).task ≠ x from differs)).trans before
  | @flagStale t old =>
    refine { valid with safe := safe', flagged := ?_ }
    intro x member raised
    have differs : x ≠ t := fun same => valid.stale t old (same ▸ member)
    exact valid.flagged x member (by simpa [View.raise, differs] using raised)
  | @lose pooled fewer careful =>
    have same := careful trivial
    refine ⟨safe', ?_, valid.lanes, ?_, ?_, ?_⟩
    · show v.queueLen = pending v.events (pooled ++ v.lanes)
      rw [valid.count, pending_perm (same.append_right v.lanes)]
    · exact fun x member => valid.flagged x (same.mem_iff.mp member)
    · exact fun x listed => same.mem_iff.mpr (valid.live x listed)
    · exact fun x old member => valid.stale x old (same.mem_iff.mp member)

theorem moves (valid : Exact v) (moved : Moves True steady v v') : Exact v' := by
  induction moved with
  | refl => exact valid
  | tail _ last ih => exact ih.move last

end Exact

/-- With a slot to spare at every insert, the index lists every queued task of
the ring and the deques. -/
structure Indexed (v : View) : Prop where
  counted : Exact v
  complete : ∀ t ∈ v.pooled, phase v.events t = .queued → t ∈ v.live

namespace Indexed

theorem card_live_le (counted : Exact v) : v.live.card ≤ v.pooled.length := by
  have sub : v.live ⊆ v.pooled.toFinset := fun t listed => List.mem_toFinset.mpr (counted.live t listed)
  exact (Finset.card_le_card sub).trans v.pooled.toFinset_card_le

/-- After an event a task outside the list has the phase it had. -/
theorem before_emit (elsewhere : event.task ∉ l) {x : Nat} (member : x ∈ l)
    (queued : phase (event :: events) x = .queued) : phase events x = .queued := by
  have differs : event.task ≠ x := fun same => elsewhere (same ▸ member)
  rwa [phase_cons_of_ne differs] at queued

theorem move (valid : Indexed v) (moved : Move True True v v') : Indexed v' := by
  have counted' := valid.counted.move moved
  have safe := valid.counted.safe
  have once := List.nodup_append.mp safe.once
  have elsewhere : (Event.submitted (v.nextTaskId + 1)).task ∉ v.pooled := by
    intro placed
    have limit := safe.le_of_placed (List.mem_append_left v.lanes placed)
    simp only [Event.task] at limit
    omega
  refine ⟨counted', ?_⟩
  cases moved with
  | coroutines | refuse | skipLane | flagStale => exact valid.complete
  | @submitPooled pooled live stale joined indexed older room =>
    intro t member queued
    have added : live = insert (v.nextTaskId + 1) v.live := by
      rcases indexed with added | ⟨-, filled⟩
      · exact added
      · have few := card_live_le valid.counted
        have spare := room trivial
        omega
    show t ∈ live
    rw [added]
    rcases List.mem_cons.mp (joined.mem_iff.mp member) with same | old
    · exact Finset.mem_insert.mpr (Or.inl same)
    · exact Finset.mem_insert_of_mem (valid.complete t old (before_emit elsewhere old queued))
  | @submitLane kind lanes joined =>
    intro t member queued
    exact valid.complete t member (before_emit elsewhere member queued)
  | @skipPooled _ _ t left | @spill _ _ _ t left =>
    have gone := (List.nodup_cons.mp (left.nodup_iff.mp once.1)).1
    intro x member queued
    have listed := valid.complete x (rest_subset left member) queued
    exact Finset.mem_erase.mpr ⟨fun same => gone (same ▸ member), listed⟩
  | @runPooled pooled tokens stale t left unflagged older carried =>
    have gone := (List.nodup_cons.mp (left.nodup_iff.mp once.1)).1
    intro x member queued
    have before := before_emit gone member queued
    have listed := valid.complete x (rest_subset left member) before
    exact Finset.mem_erase.mpr ⟨fun same => gone (same ▸ member), listed⟩
  | @runLane lanes tokens t left unflagged carried =>
    have here : t ∈ v.lanes := left.mem_iff.mpr List.mem_cons_self
    have gone : (Event.dispatched t).task ∉ v.pooled := fun placed => once.2.2 t placed t here rfl
    exact fun x member queued => valid.complete x member (before_emit gone member queued)
  | @cancelPooled stale t listed older =>
    intro x member queued
    by_cases same : x = t
    · subst same
      have cancelled := phase_cons_self (.cancelled x) v.events
      exact absurd (queued.symm.trans cancelled) (by simp [Event.lands])
    · have before : phase v.events x = .queued :=
        (phase_cons_of_ne (show (Event.cancelled t).task ≠ x from Ne.symm same)).symm.trans queued
      exact Finset.mem_erase.mpr ⟨same, valid.complete x member before⟩
  | @cancelLane lanes t left =>
    have here : t ∈ v.lanes := left.mem_iff.mpr List.mem_cons_self
    have gone : (Event.cancelled t).task ∉ v.pooled := fun placed => once.2.2 t placed t here rfl
    exact fun x member queued => valid.complete x member (before_emit gone member queued)
  | @cancelAsleep tokens t token fewer =>
    have gone : (Event.cancelledAsleep t).task ∉ v.pooled := fun placed =>
      safe.not_token (safe.waiting_of_placed (List.mem_append_left _ placed)) token
    exact fun x member queued => valid.complete x member (before_emit gone member queued)
  | @resume t token unflagged =>
    have gone : (Event.resumed t).task ∉ v.pooled := fun placed =>
      safe.not_token (safe.waiting_of_placed (List.mem_append_left _ placed)) token
    exact fun x member queued => valid.complete x member (before_emit gone member queued)
  | @lose pooled fewer careful =>
    exact fun x member queued => valid.complete x (fewer.subset member) queued

theorem moves (valid : Indexed v) (moved : Moves True True v v') : Indexed v' := by
  induction moved with
  | refl => exact valid
  | tail _ last ih => exact ih.move last

/-- The flag of a task that is not in the index: in the ring or a deque, it is a cancelled one. -/
theorem raise (valid : Indexed v) (unlisted : t ∉ v.live) : Indexed (v.raise t) := by
  have safe := valid.counted.safe
  refine ⟨{ valid.counted with safe := safe.raise t, flagged := ?_ }, valid.complete⟩
  intro x member raised
  by_cases same : x = t
  · subst same
    rcases safe.waiting_of_placed (List.mem_append_left v.lanes member) with queued | cancelled
    · exact absurd (valid.complete x member queued) unlisted
    · exact cancelled
  · exact valid.counted.flagged x member (by simpa [View.raise, same] using raised)

end Indexed

end Loomworks.Pool

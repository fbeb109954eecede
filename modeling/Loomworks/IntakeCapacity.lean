import Loomworks.IntakeCustody

/- The capacity of the queue against any number of submitters between their look at queue_len and
their count in it. -/
namespace Loomworks.Pool

namespace Intake

open Custody Tally Transition

variable {named : Prop} {s s' : State} {live : Finset Nat} {c w : Nat}

theorem queueLen_signalled (signalled : Signalled s c s') : s'.pool.queueLen = s.pool.queueLen := by
  cases signalled with
  | unbounded _ | nobody _ | wakes _ => rfl

theorem queueLen_boundary {t : Nat} {fromRing : Bool} (boundary : Boundary s w t fromRing c s') :
    s'.pool.queueLen ≤ s.pool.queueLen := by
  have kept : (unindexed s.pool t fromRing).queueLen = s.pool.queueLen := by
    unfold unindexed
    split <;> rfl
  cases boundary with
  | skips flagged signalled =>
    rw [queueLen_signalled signalled]
    exact ((ThreadPool.Beside.markFutureCancelled _ t).queueLen.trans kept).le
  | starts live kind next =>
    rw [next]
    exact kept.le
  | runs live kind signalled =>
    rw [queueLen_signalled signalled]
    show (if fromRing then s.pool.queueLen - 1 else s.pool.queueLen) ≤ s.pool.queueLen
    split <;> omega

theorem queueLen_taken {label : Label} (ringed : Ringed s) (taken : Taken s s' label)
    (other : ∀ c ok n, label ≠ .call c ok n) : s'.pool.queueLen ≤ s.pool.queueLen := by
  cases taken with
  | calls called => exact absurd rfl (other _ _ _)
  | @passes w _ cas inside looping passed =>
    cases passed with
    | takes list next | exits dry drained next | idles dry undrained nothing next =>
      rw [next]
      exact Int.le_refl _
    | fetches dry undrained found boundary =>
      refine (queueLen_boundary boundary).trans ?_
      have drawn := drawn_of_fetch ringed inside found
      generalize (s.fetch w cas).1 = s₁ at drawn
      cases drawn with
      | lane left =>
        show s.pool.queueLen - 1 ≤ s.pool.queueLen
        omega
      | ring short ready seen left total => exact Int.le_refl _
  | minor minor => exact minor.stirs.2.queueLen

/-- The tasks of the ring, the deques and the lanes that are not cancelled. -/
def State.pending (s : State) : List Nat :=
  (s.pool.pooled ++ laneTasks s.pool.lanes).filter fun t => !(s.pool.tasks t).cancelled

theorem pending_le_queueLen (good : Good named (s.custody live)) :
    (s.pending.length : Int) ≤ s.pool.queueLen := by
  let weighs (t : Nat) : Nat := weight ((s.custody live).place t) ((s.custody live).facts t).flag
  have apart : (s.pool.pooled ++ laneTasks s.pool.lanes).Nodup := by
    refine List.nodup_append.mpr ⟨good.apart.nodup .pooled, good.apart.nodup .lane, ?_⟩
    rintro t first u second rfl
    cases good.apart.unique (i := .pooled) (j := .lane) first second
  have nodup : s.pending.Nodup := apart.filter _
  have each : ∀ t ∈ s.pending.toFinset, ∃ u ∈ List.range (s.pool.nextTaskId + 1), 0 < weighs u ∧ u = t := by
    intro t member
    obtain ⟨queued, unflagged⟩ := List.mem_filter.mp (List.mem_toFinset.mp member)
    have flag : (s.pool.tasks t).cancelled = false := by simpa using unflagged
    have flag : ((s.custody live).facts t).flag = false := flag
    have heavy : ∀ site : Site, (s.custody live).place t = some site →
        0 < weight (some site) false →
        ∃ u ∈ List.range (s.pool.nextTaskId + 1), 0 < weighs u ∧ u = t := by
      intro site at_ positive
      have bound : t ≤ s.pool.nextTaskId := (good.bound at_).2
      refine ⟨t, List.mem_range.mpr (by omega), ?_, rfl⟩
      show 0 < weight ((s.custody live).place t) ((s.custody live).facts t).flag
      rw [at_, flag]
      exact positive
    rcases List.mem_append.mp queued with pooled | lane
    · exact heavy .pooled (good.place_iff.mpr pooled) (by decide)
    · exact heavy .lane (good.place_iff.mpr lane) (by decide)
  have few := card_le_tally (fun u => u) each
  rw [List.toFinset_card_of_nodup nodup] at few
  have light : tally (fun u => if 0 < weighs u then 1 else 0) (List.range (s.pool.nextTaskId + 1)) ≤
      tally weighs (List.range (s.pool.nextTaskId + 1)) := by
    refine tally_le_tally fun u _ => ?_
    split <;> omega
  have count : (tally weighs (List.range (s.pool.nextTaskId + 1)) : Int) ≤ s.pool.queueLen := good.count
  omega

/-- A submitter that counts its task still finds room for it. -/
def RoomyCall (pool : ThreadPool) : CallPc → Prop
  | .addLen _ => pool.queueLen < pool.queueCapacity
  | _ => True

def Roomy (s : State) : Label → Prop
  | .call c _ _ => RoomyCall s.pool (s.clients c).pc
  | _ => True

/-- queue_len never passes the capacity. -/
structure Bounded (capacity : Nat) (s : State) : Prop where
  kept : ∃ live, Kept False s live
  limit : s.pool.queueCapacity = capacity
  room : s.pool.queueLen ≤ capacity

namespace Bounded

variable {capacity : Nat}

theorem nonneg (bounded : Bounded capacity s) : 0 ≤ s.pool.queueLen := by
  obtain ⟨live, kept⟩ := bounded.kept
  have count : (_ : Int) ≤ s.pool.queueLen := kept.good.count
  omega

/-- What a look at queue_len under the lock tells. -/
theorem space (bounded : Bounded capacity s) (positive : capacity ≠ 0) (small : capacity < 2 ^ 32)
    (free : s.pool.full = false) : s.pool.queueLen + 1 ≤ capacity := by
  have limit := bounded.limit
  have room := bounded.room
  have nonneg := bounded.nonneg
  unfold ThreadPool.full ThreadPool.loadQueueLen at free
  have whole : (s.pool.queueLen % 2 ^ 32).toNat = s.pool.queueLen.toNat := by
    rw [Int.emod_eq_of_lt nonneg (by omega)]
  rw [whole] at free
  have below : ¬(s.pool.queueCapacity ≤ s.pool.queueLen.toNat) := by
    intro full
    rw [decide_eq_true full, Bool.and_true, decide_eq_false_iff_not] at free
    omega
  omega

theorem called {ok : Bool} {n : Nat} (bounded : Bounded capacity s) (positive : capacity ≠ 0)
    (small : capacity < 2 ^ 32) (roomy : RoomyCall s.pool (s.clients c).pc)
    (called : Called s c ok n s') : s'.pool.queueLen ≤ capacity := by
  have room := bounded.room
  cases called with
  | walks _ | gives _ _ | creates _ _ | spillRefused _ _ | posts _ | claims _ | stores _ | inserts _
  | publishes _ | counts _ => exact room
  | lane _ _ free | spills _ _ free => exact bounded.space positive small free
  | addLen here =>
    rw [here] at roomy
    have limit := bounded.limit
    have roomy : s.pool.queueLen < s.pool.queueCapacity := roomy
    show s.pool.queueLen + 1 ≤ capacity
    omega
  | subLen here =>
    show s.pool.queueLen - 1 ≤ capacity
    omega

theorem step {label : Label} (bounded : Bounded capacity s) (positive : capacity ≠ 0)
    (small : capacity < 2 ^ 32) (roomy : Roomy s label) (after : Intake.step s label = some s') :
    Bounded capacity s' := by
  obtain ⟨live, kept⟩ := bounded.kept
  obtain ⟨live', -, kept'⟩ := kept.step nofun after
  have taken := taken_of_step kept.ringed.counts after
  have settings := settings_taken kept.ringed taken
  refine ⟨⟨live', kept'⟩, ?_, ?_⟩
  · rw [← bounded.limit]
    exact congrArg ThreadPool.Settings.queueCapacity settings
  · by_cases submitter : ∃ c ok n, label = .call c ok n
    · obtain ⟨c, ok, n, rfl⟩ := submitter
      exact bounded.called positive small roomy (called_of_call after)
    · have lowered := queueLen_taken kept.ringed taken fun c ok n same => submitter ⟨c, ok, n, same⟩
      exact lowered.trans bounded.room

end Bounded

/-- pool_init may lower the capacity, but not to 0. -/
theorem settings_limited (config : Config) (processors : Nat) (limited : config.queueCapacity ≠ 0) :
    (settings config processors).queueCapacity.toNat ≠ 0 ∧
      (settings config processors).queueCapacity.toNat ≤ config.queueCapacity.toNat := by
  show (if config.queueCapacity ≤ maxQueueCapacity then config.queueCapacity
    else maxQueueCapacity).toNat ≠ 0 ∧ (if config.queueCapacity ≤ maxQueueCapacity then
      config.queueCapacity else maxQueueCapacity).toNat ≤ _
  split
  · refine ⟨fun zero => limited (UInt32.toNat_inj.mp zero), Nat.le_refl _⟩
  · rename_i large
    have above : ¬config.queueCapacity.toNat ≤ maxQueueCapacity.toNat :=
      fun small => large (UInt32.le_iff_toNat_le.mpr small)
    exact ⟨by decide, by omega⟩

/-- While every submitter that counts its task still finds room for it, no more tasks are pending
than the capacity allows. -/
theorem pending_within_capacity (config : Config) (processors clients : Nat) (labels : List Label)
    (limited : config.queueCapacity ≠ 0)
    (run : Meets step Roomy (start config processors clients) labels) :
    Always step (fun s => s.pending.length ≤ config.queueCapacity.toNat) (start config processors clients)
      labels := by
  have clamped := settings_queueCapacity config processors
  obtain ⟨positive, least⟩ := settings_limited config processors limited
  apply @always_of_meets _ _ step (Bounded (settings config processors).queueCapacity.toNat) _ Roomy
  · exact fun bounded roomy after => bounded.step positive (by omega) roomy after
  · intro s bounded
    obtain ⟨live, kept⟩ := bounded.kept
    have pending := pending_le_queueLen kept.good
    have room := bounded.room
    omega
  · exact ⟨⟨∅, Kept.start config processors clients⟩, rfl, by show (0 : Int) ≤ _; omega⟩
  · exact run

instance (pool : ThreadPool) : (pc : CallPc) → Decidable (RoomyCall pool pc)
  | .addLen _ => inferInstanceAs (Decidable (pool.queueLen < pool.queueCapacity))
  | .idle | .check | .capacity | .waitSpace | .blocked _ | .gaveUp | .lane | .create | .loadTail _
  | .loadSeq _ _ | .casTail _ _ | .storeTask _ _ | .insert _ _ | .publish _ _ | .addCount _ | .subLen _
  | .spill _ | .post _ => isTrue trivial

instance (s : State) : (label : Label) → Decidable (Roomy s label)
  | .call c _ _ => inferInstanceAs (Decidable (RoomyCall s.pool (s.clients c).pc))
  | .submit _ _ | .pass _ _ _ | .settle _ | .wake _ | .finish _ _ | .create _ _ | .checkReady _
  | .bodyEnds _ _ _ | .signal _ _ | .timerFire _ _ | .post | .cancel _ | .cancelById _ _ | .cancelAll
  | .shutdown | .join => isTrue trivial

/-- Three submitters of a ring task, a lane task and a coroutine share a queue for two: the third is
refused, and gets in once a task was cancelled. -/
theorem pending_three_submitters :
    Always step (fun s => s.pending.length ≤ 2) (start { workerCount := 1, queueCapacity := 2 } 1 3)
      ([.submit 0 { userData := 5 }] ++ List.replicate 12 (.call 0 true 0) ++
        [.submit 1 { priority := 0, isFuture := true }, .call 1 true 1, .call 1 true 1, .call 1 true 1,
          .submit 2 { isCoro := true }, .call 2 true 2, .call 2 true 2, .cancel 5,
          .submit 2 { isCoro := true }, .call 2 true 2, .call 2 true 2, .pass 0 true 0, .finish 0 7]) := by
  apply pending_within_capacity { workerCount := 1, queueCapacity := 2 } 1 3
  · decide
  · apply meets_of_decide
    decide +kernel

/-- Two submitters look at an empty queue for one task before either counts its own: both tasks are
accepted and pending. -/
theorem two_pass_capacity_check :
    ∃ labels final, exec step (start { workerCount := 1, queueCapacity := 1 } 1 2) labels = some final ∧
      final.accepted = [3, 2] ∧ final.visible = [2, 3] ∧ final.pending = [2, 3] ∧
      ¬final.pending.length ≤ 1 := by
  let labels : List Label := [.submit 0 {}, .submit 1 {}, .call 0 true 0, .call 0 true 0, .call 1 true 1,
    .call 1 true 1] ++ List.replicate 10 (.call 0 true 0) ++ List.replicate 10 (.call 1 true 1)
  have run : ((exec step (start { workerCount := 1, queueCapacity := 1 } 1 2) labels).map fun s =>
      (s.accepted, s.visible, s.pending)) = some ([3, 2], [2, 3], [2, 3]) := by
    decide +kernel
  obtain ⟨final, reached, shape⟩ := Option.map_eq_some_iff.mp run
  simp only [Prod.mk.injEq] at shape
  obtain ⟨accepted, visible, pending⟩ := shape
  refine ⟨labels, final, reached, accepted, visible, pending, ?_⟩
  rw [pending]
  decide

/-- The moves of a run and of the step after it. -/
theorem Advances.step {first : State} {label : Label} (run : Advances named first live s)
    (allowed : named → Named label) (after : Intake.step s label = some s') :
    Advances named first live s' := by
  obtain ⟨live', moved, kept⟩ := run
  obtain ⟨last, more, kept⟩ := kept.step allowed after
  exact ⟨last, moved.trans more, kept⟩

theorem advances_start (config : Config) (processors clients : Nat) :
    Advances named (start config processors clients) ∅ (start config processors clients) :=
  ⟨∅, .refl, Kept.start config processors clients⟩

/-- Every run, access by access, is a run of the custody machine, and what is good there is good of
the pool and its clients. -/
theorem intake_runs_refine_custody (config : Config) (processors clients : Nat) (labels : List Label) :
    Always step (fun s => ∃ live, Holds s.pool.dataOf s.pool.index live ∧ Good False (s.custody live) ∧
      Custody.Moves False ((start config processors clients).custody ∅) (s.custody live))
      (start config processors clients) labels := by
  apply always_of_invariant (fun run => run.step False.elim) _ labels
    (advances_start config processors clients)
  rintro s ⟨live, moved, kept⟩
  exact ⟨live, kept.index, kept.good, moved⟩

/-- Between any two accesses of a run: a find by a task's id gives that task, queued and in its own
node; queue_len counts every pending task, and ring_count the tasks of the ring but those that their
submitters have still to add. -/
theorem index_and_counters_agree (config : Config) (processors clients : Nat) (labels : List Label) :
    Always step (fun s => (∀ id t, id ≠ 0 → cancelIndexFind s.pool.index id = some t →
        t = id ∧ t ∈ s.pool.pooled ∧ s.pool.ended t = none ∧ s.tenant (s.node t) = t) ∧
      s.pending.length ≤ s.pool.queueLen ∧ s.ringCount + s.uncounted.length = s.pool.ring.length)
      (start config processors clients) labels := by
  apply always_of_invariant (fun run => run.step False.elim) _ labels
    (advances_start config processors clients)
  rintro s ⟨live, -, kept⟩
  refine ⟨fun id t nonzero found => ?_, pending_le_queueLen kept.good, kept.ringed.count⟩
  obtain ⟨same, listed⟩ | ⟨zero, -⟩ := kept.index.find_some found
  · have at_ := kept.good.live t listed
    have waits := (kept.good.fair_at at_).ended (kept.good.plain at_ (by decide))
    exact ⟨same, kept.good.place_iff.mp at_, waits.mpr rfl, kept.tenant_of_live listed⟩
  · exact absurd zero nonzero

/-- Of a thread task its place tells whether it was cancelled, how often it was dispatched and what its
future holds. -/
def TasksTold (s : State) : Prop :=
  ∃ live, Holds s.pool.dataOf s.pool.index live ∧ ∀ t, 1 < t → t ≤ s.pool.nextTaskId →
    (s.pool.tasks t).isCoro = false →
    Told (t ∈ live) (s.pool.facts s.returned t) ((s.custody live).place t)

theorem thread_tasks_told (config : Config) (processors clients : Nat) (labels : List Label)
    (named : Meets step (fun _ label => Named label) (start config processors clients) labels) :
    Always step TasksTold (start config processors clients) labels := by
  apply always_of_meets (fun run named => Advances.step run fun _ => named) _
    (@advances_start True config processors clients) named
  rintro s ⟨live, -, kept⟩
  refine ⟨live, kept.index, fun t low high plain => ?_⟩
  exact (kept.good.fair t low high).told trivial plain

/-- A lane task is cancelled and a ring task runs. -/
def cancelAndRun : List Label :=
  List.flatten [[.submit 0 { priority := 0 }], List.replicate 3 (.call 0 true 0),
    [.cancelById 2 true, .submit 0 {}], List.replicate 12 (.call 0 true 0),
    [.pass 0 true 0, .finish 0 7, .pass 0 true 0]]

theorem thread_tasks_told_over_cancel :
    (exec step (start { workerCount := 1, queueCapacity := 4 } 1 1) cancelAndRun).isSome = true ∧
      Always step TasksTold (start { workerCount := 1, queueCapacity := 4 } 1 1) cancelAndRun := by
  refine ⟨by decide +kernel, ?_⟩
  apply thread_tasks_told
  apply meets_of_decide
  decide +kernel

end Intake

end Loomworks.Pool

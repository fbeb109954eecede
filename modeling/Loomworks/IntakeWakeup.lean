import Loomworks.IntakeRing
import Loomworks.PoolPriority

/- Sleeping workers and the tasks that submitters publish. -/
namespace Loomworks.Pool

namespace ThreadPool

variable {s s' : ThreadPool} {w : Nat}

theorem lanes_takeLane_none (missed : s.takeLane 255 = none) : laneTasks s.lanes = [] := by
  have nothing : dequeueLowestPriority s.lanes 255 = none := by
    unfold takeLane at missed
    split at missed
    · assumption
    · cases missed
  apply Bins.all_eq_nil
  intro b inside
  apply List.eq_nil_iff_forall_not_mem.mpr
  intro t queued
  have above := lanes_above (Or.inl nothing) inside queued
  unfold priorityBuckets at inside
  omega

/-- A pass of a worker that wins its compare-exchange and finds nothing leaves nothing behind. -/
theorem dry_of_fetchTask {cas : Bool} (mode : s.deques.isSome = true) (ring : s.ringSize ≠ 0)
    (within : w < s.workerCount) (all : s.maxWorkerCount = s.workerCount) (won : s.ring ≠ [] → cas = true)
    (nothing : (s.fetchTask w cas).2 = none) :
    s.ring = [] ∧ s.dequeTasks = [] ∧ laneTasks s.lanes = [] := by
  obtain ⟨deques, shape⟩ := Option.isSome_iff_exists.mp mode
  unfold fetchTask at nothing
  split at nothing
  · cases nothing
  · rw [if_pos mode] at nothing
    split at nothing
    · cases nothing
    · rename_i missed
      have own := empty_of_dequePop missed
      have owned := own
      rw [deque_of_some shape] at owned
      rw [if_pos ring] at nothing
      rcases fetchRing_cases cas shape owned with ⟨same, empty⟩ | ⟨t, rest, -, same⟩
      · have bare : s.ring = [] := by
          by_contra filled
          exact filled (empty (won filled))
        have dry : s.ringHasWork = false := by
          unfold ringHasWork
          rw [bare]
          exact Bool.and_false _
        rw [same] at nothing
        change (s.fetchElsewhere w).2 = none at nothing
        unfold fetchElsewhere at nothing
        split at nothing
        · cases nothing
        · rename_i none_
          rw [dry, if_neg Bool.false_ne_true] at nothing
          split at nothing
          · cases nothing
          · rename_i left
            refine ⟨bare, Bins.all_eq_nil fun v inside => ?_, lanes_takeLane_none left⟩
            rw [all] at inside
            by_cases other : v = w
            · rw [other]
              exact own
            · have visited := mem_victims dry inside within other
              exact empty_of_dequeSteal (List.findSome?_eq_none_iff.mp none_ v visited)
      · rw [same] at nothing
        cases nothing

end ThreadPool

namespace Intake

open Transition

/-- The task can be found: it is published in the ring, or in a deque or a lane. -/
def State.Queued (s : State) (t : Nat) : Prop :=
  (∃ p, s.ring.head ≤ p ∧ s.history.published p = true ∧ s.history.claimed[p]? = some t) ∨
    t ∈ s.pool.dequeTasks ∨ t ∈ laneTasks s.pool.lanes

/-- The submitter is between its publish and its sem_post. -/
def CallPc.posting : CallPc → Bool
  | .addCount _ | .post _ => true
  | _ => false

/-- While every worker is blocked in sem_wait, a queued task has a token coming. -/
def NoLostWakeup (s : State) : Prop :=
  (∀ w < s.pool.workerCount, s.workers w = .waiting) → ∀ t ∈ s.accepted, s.Queued t →
    0 < s.pool.workSem ∨ ∃ c, (s.clients c).pc.posting = true

/-- A pass wins its compare-exchange when the head of the ring is published, and when it is not, no
position behind it is; nobody calls loom_pool_shutdown. -/
def Prompt (s : State) : Label → Prop
  | .pass _ cas _ => (s.visible ≠ [] → cas = true) ∧
      (s.visible = [] → ∀ p < s.ring.tail, s.ring.head ≤ p → s.history.published p = false)
  | .shutdown => False
  | _ => True

instance (s : State) : DecidablePred (Prompt s)
  | .pass _ cas _ => inferInstanceAs (Decidable ((s.visible ≠ [] → cas = true) ∧
      (s.visible = [] → ∀ p < s.ring.tail, s.ring.head ≤ p → s.history.published p = false)))
  | .shutdown => .isFalse id
  | .submit .. | .call .. | .settle _ | .wake _ | .finish .. | .create .. | .checkReady _ | .bodyEnds ..
  | .signal .. | .timerFire .. | .post | .cancel _ | .cancelById .. | .cancelAll | .join => .isTrue trivial

/-- Something is queued. -/
def State.Work (s : State) : Prop :=
  (∃ p, s.ring.head ≤ p ∧ s.history.published p = true) ∨ s.pool.dequeTasks ≠ [] ∨
    laneTasks s.pool.lanes ≠ []

/-- Somebody is going to look, or to post. -/
def State.Attended (s : State) : Prop :=
  0 < s.pool.workSem ∨ (∃ c, (s.clients c).pc.posting = true) ∨
    ∃ w < s.pool.workerCount, (s.workers w).awake = true

/-- What holds in a run without a shutdown of a pool with a ring and deques. -/
structure Attending (s : State) : Prop where
  ringed : Ringed s
  open_ : s.shutdown = false
  all : s.pool.maxWorkerCount = s.pool.workerCount
  ring : s.pool.ringSize ≠ 0
  mode : s.pool.deques.isSome = true
  resting : ∀ w, s.pool.workerCount ≤ w → s.workers w = .looping
  attended : s.Work → s.Attended

variable {s s' : State} {c w : Nat}

/-- What a step other than a submitter's or a pass leaves of the queues. -/
structure Fewer (s s' : State) : Prop where
  ring : s'.ring = s.ring
  history : s'.history = s.history
  lanes : ∀ b, s'.pool.lanes b ⊆ s.pool.lanes b

theorem fewer_of_minor {label : Label} (minor : Minor s s' label) : Fewer s s' := by
  obtain ⟨⟨ring, history⟩, stirs⟩ := minor.stirs
  exact ⟨ring, history, stirs.lanes⟩

theorem work_of_fewer (calm : ThreadPool.Steady s.pool s'.pool) (fewer : Fewer s s') (work : s'.Work) : s.Work := by
  have deques : s'.pool.dequeTasks = s.pool.dequeTasks := dequeTasks_calm calm
  rcases work with ring | filled | filled
  · rw [fewer.ring, fewer.history] at ring
    exact Or.inl ring
  · rw [deques] at filled
    exact Or.inr (Or.inl filled)
  · refine Or.inr (Or.inr fun empty => filled ?_)
    apply List.eq_nil_iff_forall_not_mem.mpr
    intro t queued
    obtain ⟨b, inside, member⟩ := Bins.mem_all.mp queued
    have before : t ∈ laneTasks s.pool.lanes := Bins.mem_all.mpr ⟨b, inside, fewer.lanes b member⟩
    rw [empty] at before
    cases before

theorem attended_awake (pc : WorkerPc) (inside : w < s'.pool.workerCount) (here : s'.workers w = pc)
    (awake : pc.awake = true) : s'.Attended :=
  Or.inr (Or.inr ⟨w, inside, by rw [here]; exact awake⟩)

theorem attended_of_fewer (sem : s.pool.workSem ≤ s'.pool.workSem) (clients : s'.clients = s.clients)
    (workers : ∀ v, (s.workers v).awake = true → (s'.workers v).awake = true)
    (count : s'.pool.workerCount = s.pool.workerCount) (attended : s.Attended) : s'.Attended := by
  rcases attended with token | ⟨c, posting⟩ | ⟨v, inside, awake⟩
  · exact Or.inl (Nat.lt_of_lt_of_le token sem)
  · exact Or.inr (Or.inl ⟨c, by rw [clients]; exact posting⟩)
  · exact Or.inr (Or.inr ⟨v, by rw [count]; exact inside, workers v awake⟩)

theorem posting_walk {ok : Bool} {pc pc' : CallPc} (walk : Walk s c ok pc pc') : pc.posting = false := by
  cases walk <;> rfl

namespace Attending

/-- A pass that finds nothing leaves nothing behind. -/
theorem no_work {cas : Bool} (attending : Attending s) (within : w < s.pool.workerCount)
    (prompt : Prompt s (.pass w cas c)) (nothing : (s.fetch w cas).2 = none) : ¬s.Work := by
  obtain ⟨won, settled⟩ := prompt
  obtain ⟨bare, deques, lanes⟩ := @ThreadPool.dry_of_fetchTask s.seen w cas attending.mode attending.ring
    within attending.all won nothing
  rintro (⟨p, later, published⟩ | filled | filled)
  · have before := (attending.ringed.valid attending.ring).written p published
    rw [settled bare p before later] at published
    cases published
  · exact filled deques
  · exact filled lanes

theorem inside (attending : Attending s) {pc : WorkerPc} (here : s.workers w = pc) (busy : pc ≠ .looping) :
    w < s.pool.workerCount := by
  by_contra outside
  have looping := attending.resting w (by omega)
  exact busy (here.symm.trans looping)

theorem call {ok : Bool} {n : Nat} (attending : Attending s) (called : Called s c ok n s') (work : s'.Work) :
    s'.Attended := by
  have moves : ∀ {client : Client}, s'.clients = Function.update s.clients c client →
      (s.clients c).pc.posting = false → s.pool.workSem ≤ s'.pool.workSem → s'.workers = s.workers →
      s'.pool.workerCount = s.pool.workerCount → s.Attended → s'.Attended := by
    intro client clients before sem workers count attended
    rcases attended with token | ⟨d, posting⟩ | ⟨v, inside, awake⟩
    · exact Or.inl (Nat.lt_of_lt_of_le token sem)
    · have other : d ≠ c := by
        rintro rfl
        rw [before] at posting
        cases posting
      exact Or.inr (Or.inl ⟨d, by rw [clients, Function.update_of_ne other]; exact posting⟩)
    · exact Or.inr (Or.inr ⟨v, by rw [count]; exact inside, by rw [workers]; exact awake⟩)
  have posts : ∀ {client : Client}, s'.clients = Function.update s.clients c client →
      client.pc.posting = true → s'.Attended := by
    intro client clients posting
    exact Or.inr (Or.inl ⟨c, by rw [clients, Function.update_self]; exact posting⟩)
  cases called with
  | walks walk => exact moves rfl (posting_walk walk) (Nat.le_refl _) rfl rfl (attending.attended work)
  | gives here failed =>
    have before : (s.clients c).pc.posting = false := by
      cases pc : (s.clients c).pc <;> rw [pc] at here <;> first | rfl | cases here
    exact moves rfl before (Nat.le_refl _) rfl rfl (attending.attended work)
  | lane | posts => exact Or.inl (Nat.succ_pos _)
  | creates here _ | addLen here | subLen here | spillRefused here _ | claims here | stores here
  | inserts here =>
    exact moves rfl (by rw [here]; rfl) (Nat.le_refl _) rfl rfl (attending.attended work)
  | spills | publishes | counts => exact posts rfl rfl

theorem pass {cas : Bool} (attending : Attending s) (prompt : Prompt s (.pass w cas c))
    (inside : w < s.pool.workerCount) (looping : s.workers w = .looping) (passed : Passed s w cas c s')
    (count : s'.pool.workerCount = s.pool.workerCount) (work : s'.Work) : s'.Attended := by
  have here : w < s'.pool.workerCount := Nat.lt_of_lt_of_eq inside count.symm
  cases passed with
  | @takes t rest list next =>
    refine attended_awake (.ready t) here ?_ rfl
    rw [next]
    exact setWorker_self _ _ _
  | exits dry drained next =>
    unfold State.drained at drained
    rw [attending.open_] at drained
    cases drained
  | idles dry undrained nothing next =>
    rw [next] at work
    exact absurd work (attending.no_work inside prompt nothing)
  | @fetches t fromRing dry undrained found boundary =>
    have same : (s.fetch w cas).1.workers = s.workers := rfl
    generalize (s.fetch w cas).1 = s₁ at boundary same
    cases boundary with
    | skips flagged signalled =>
      refine attended_awake (.looping) here ?_ rfl
      rw [workers_signalled signalled]
      exact (congrFun same w).trans looping
    | starts live kind next =>
      refine attended_awake (.dispatching t) here ?_ rfl
      rw [next]
      exact setWorker_self _ _ _
    | runs live kind signalled =>
      refine attended_awake (.running t) here ?_ rfl
      rw [workers_signalled signalled]
      exact setWorker_self _ _ _

theorem minor {label : Label} (attending : Attending s) (prompt : Prompt s label)
    (minor : Minor s s' label) (work : s'.Work) : s'.Attended := by
  have count : s'.pool.workerCount = s.pool.workerCount :=
    congrArg ThreadPool.Settings.workerCount minor.steady.settings
  have before := attending.attended (work_of_fewer minor.steady (fewer_of_minor minor) work)
  have turns : ∀ {w : Nat} {old new : WorkerPc}, s.workers w = old → old ≠ .looping →
      s'.workers w = new → new.awake = true → s'.Attended := by
    intro w old new here busy next awake
    have inside := attending.inside here busy
    exact attended_awake new (by omega) next awake
  have framed : ∀ {pool : ThreadPool}, pool.frame = s.pool.frame → s' = { s with pool } → s'.Attended := by
    intro pool frame same
    have sem : pool.workSem = s.pool.workSem := congrArg ThreadPool.Frame.workSem frame
    subst same
    exact attended_of_fewer (Nat.le_of_eq sem.symm) rfl (fun _ => id) count before
  cases minor with
  | @submits c request inside idle =>
    rcases before with token | ⟨d, posting⟩ | awake
    · exact Or.inl token
    · have other : d ≠ c := by
        rintro rfl
        rw [idle] at posting
        cases posting
      refine Or.inr (Or.inl ⟨d, ?_⟩)
      show (Function.update s.clients c _ d).pc.posting = true
      rw [Function.update_of_ne other]
      exact posting
    · exact Or.inr (Or.inr awake)
  | @settles w _ unlocked _ =>
    refine attended_of_fewer (s := s) (Nat.le_refl _) rfl (fun v awake => ?_) rfl before
    have other : v ≠ w := by
      rintro rfl
      rw [unlocked] at awake
      cases awake
    rw [setWorker_of_ne _ _ other]
    exact awake
  | wakes waiting => exact turns waiting nofun (setWorker_self _ _ _) rfl
  | works engaged awake _ _ =>
    refine turns rfl (fun clash => ?_) (setWorker_self _ _ _) awake
    rw [clash] at engaged
    cases engaged
  | signals here signalled =>
    refine turns here nofun ?_ (rfl : WorkerPc.looping.awake = true)
    rw [workers_signalled signalled]
    exact setWorker_self _ _ _
  | fires fired => exact framed (ThreadPool.frame_timerFire fired).1 rfl
  | posts => exact Or.inl (Nat.succ_pos _)
  | cancels _ frame _ => exact framed frame rfl
  | stays => exact before
  | shuts _ => exact prompt.elim
  | joins shut _ =>
    rw [attending.open_] at shut
    cases shut

theorem open_step {label : Label} (attending : Attending s) (prompt : Prompt s label)
    (stepped : Stepped s s' label) : s'.shutdown = false := by
  have before := attending.open_
  cases stepped with
  | submits | joins => exact before
  | calls called => cases called <;> exact before
  | shuts _ => exact prompt.elim
  | other woken =>
    rw [woken.shutdown]
    exact before

theorem mode_taken {label : Label} (attending : Attending s) (taken : Taken s s' label) :
    s'.pool.deques.isSome = true := by
  have mode := attending.mode
  cases taken with
  | calls called => cases called <;> exact mode
  | @passes w _ cas inside looping passed =>
    cases passed with
    | takes list next | exits dry drained next | idles dry undrained nothing next =>
      rw [next]
      exact mode
    | fetches dry undrained found boundary =>
      have same : (s.fetch w cas).1.pool.deques.isSome = s.pool.deques.isSome :=
        (@ThreadPool.shuffles_fetchTask s.seen w attending.ringed.counts inside cas).mode
      rw [(calm_boundary boundary).deques, same]
      exact mode
  | minor minor =>
    rw [minor.steady.deques]
    exact mode

theorem step {label : Label} (attending : Attending s) (prompt : Prompt s label)
    (after : Intake.step s label = some s') : Attending s' := by
  have ringed := attending.ringed
  have taken := taken_of_step ringed.counts after
  obtain ⟨count, most, size⟩ := ThreadPool.sizes_of_settings (settings_taken ringed taken)
  refine ⟨ringed.ofTaken taken, attending.open_step prompt (stepped_of_taken taken),
    by rw [most, count]; exact attending.all, by rw [size]; exact attending.ring, attending.mode_taken taken,
    resting_step attending.resting (worked_of_taken taken) count, fun work => ?_⟩
  cases taken with
  | calls called => exact attending.call called work
  | passes inside looping passed => exact attending.pass prompt inside looping passed count work
  | minor minor => exact attending.minor prompt minor work

theorem start (config : Config) (processors clients : Nat) (ring : config.ringAlloc = true)
    (deques : config.dequesAlloc = true) : Attending (Intake.start config processors clients) where
  ringed := Ringed.start config processors clients
  open_ := rfl
  all := rfl
  ring := by
    show (if config.ringAlloc = true then if _ then ringDefaultSlots else nextPow2 _ else 0) ≠ 0
    rw [if_pos ring]
    split
    · decide
    · have large := (nextPow2_bounds (settings config processors).queueCapacity 0).1
      exact Nat.ne_of_gt (Nat.lt_of_lt_of_le (Nat.succ_pos _) large)
  mode := by
    show Option.isSome (if config.dequesAlloc then some fun _ => [] else none) = true
    rw [deques]
    rfl
  resting := fun _ _ => rfl
  attended := by
    have pooled := pooled_poolInit (settings config processors)
    rintro (⟨p, -, published⟩ | filled | filled)
    · cases published
    · exact absurd (List.append_eq_nil_iff.mp pooled).2 filled
    · exact absurd (Bins.all_eq_nil fun _ _ => rfl) filled

theorem noLostWakeup (attending : Attending s) : NoLostWakeup s := by
  intro asleep t _ queued
  have work : s.Work := by
    rcases queued with ⟨p, later, published, -⟩ | deque | lane
    · exact Or.inl ⟨p, later, published⟩
    · exact Or.inr (Or.inl (List.ne_nil_of_mem deque))
    · exact Or.inr (Or.inr (List.ne_nil_of_mem lane))
  rcases attending.attended work with token | posting | ⟨w, inside, awake⟩
  · exact Or.inl token
  · exact Or.inr posting
  · rw [asleep w inside] at awake
    cases awake

end Attending

/-- In a pool with a ring and deques no queued task is left without a wakeup. -/
theorem no_lost_wakeup_for_queued (config : Config) (processors clients : Nat) (labels : List Label)
    (ring : config.ringAlloc = true) (deques : config.dequesAlloc = true)
    (run : Meets step Prompt (start config processors clients) labels) :
    Always step NoLostWakeup (start config processors clients) labels := by
  apply @always_of_meets _ _ step Attending NoLostWakeup Prompt
  · intro s s' label attending prompt after
    exact attending.step prompt after
  · intro s attending
    exact attending.noLostWakeup
  · exact Attending.start config processors clients ring deques
  · exact run

/-- Two workers fall asleep, one submitter posts and a worker takes the token. -/
theorem no_lost_wakeup_one_submitter :
    Always step NoLostWakeup (start { workerCount := 2, queueCapacity := 1 } 1 1)
      ([.pass 0 true 0, .settle 0, .pass 1 true 0, .settle 1, .submit 0 {}] ++
        List.replicate 12 (.call 0 true 0) ++ [.wake 1, .pass 1 true 0, .finish 1 3, .pass 1 true 0,
          .settle 1]) := by
  apply no_lost_wakeup_for_queued
  · rfl
  · rfl
  · apply meets_of_decide
    decide +kernel

/-- The worker wakes with the only token, its compare-exchange on ring_head fails spuriously, and it
sleeps again. -/
theorem token_lost_to_weak_cas :
    ∃ labels final, exec step (start { workerCount := 1, queueCapacity := 1 } 1 1) labels = some final ∧
      final.shutdown = false ∧ final.accepted = [2] ∧ final.visible = [2] ∧ final.workers 0 = .waiting ∧
        final.pool.workSem = 0 ∧ (final.clients 0).pc = .idle ∧ ¬NoLostWakeup final := by
  let labels : List Label := [.pass 0 true 0, .settle 0, .submit 0 {}] ++ List.replicate 12 (.call 0 true 0) ++
    [.wake 0, .pass 0 false 0, .settle 0]
  have run : ((exec step (start { workerCount := 1, queueCapacity := 1 } 1 1) labels).map fun s =>
      decide (s.shutdown = false ∧ s.accepted = [2] ∧ s.visible = [2] ∧ s.workers 0 = .waiting ∧
        s.pool.workSem = 0 ∧ (s.clients 0).pc = .idle ∧ s.ring.head = 0 ∧ s.history.published 0 = true ∧
        s.history.claimed = [2] ∧ s.pool.workerCount = 1 ∧ s.clientCount = 1)) = some true := by
    decide +kernel
  obtain ⟨s, reached, shape⟩ := Option.map_eq_some_iff.mp run
  obtain ⟨open_, accepted, visible, waiting, tokens, idle, head, published, claimed, count, clients⟩ :=
    of_decide_eq_true shape
  refine ⟨labels, s, reached, open_, accepted, visible, waiting, tokens, idle, fun attended => ?_⟩
  have asleep : ∀ w < s.pool.workerCount, s.workers w = .waiting := by
    intro w inside
    have zero : w = 0 := by omega
    rw [zero]
    exact waiting
  have queued : s.Queued 2 := by
    refine Or.inl ⟨0, by omega, published, ?_⟩
    rw [claimed]
    rfl
  have outside : ∀ c, (s.clients c).pc = .idle := by
    intro c
    by_cases own : c = 0
    · rw [own]
      exact idle
    · have ringed : Ringed s :=
        exec_invariant (fun ringed after => ringed.step after) (Ringed.start _ 1 1) reached
      exact ringed.idle c (by omega)
  rcases attended asleep 2 (by rw [accepted]; exact List.mem_singleton_self 2) queued with token | ⟨c, posting⟩
  · omega
  · rw [outside c] at posting
    cases posting

end Intake

end Loomworks.Pool

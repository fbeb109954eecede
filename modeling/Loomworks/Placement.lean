import Loomworks.Lifecycle

/- Where the tasks of a pool are, without how the pool keeps them: an abstract
machine whose moves are all that a pool can do to a task. Lists are read up to
order. -/
namespace Loomworks.Pool

/-- pooled: in the ring or a deque; lanes: in a lane; tokens: the coroutine tasks
that a worker, a ready FIFO or the timer heap holds. live are the tasks of the
cancel index, cap its size and stale the tasks its tombstones still name; flag and
coro are two fields of the task nodes. -/
structure View where
  pooled : List Nat
  lanes : List Nat
  tokens : List Nat
  live : Finset Nat
  stale : Nat → Prop
  flag : Nat → Bool
  coro : Nat → Bool
  events : List Event
  queueLen : Int
  nextTaskId : Nat
  cap : Nat

namespace View

def emit (v : View) (event : Event) : View := { v with events := event :: v.events }

/-- task_create: the new task is not flagged. -/
def create (v : View) (kind : Bool) : View :=
  { v with
    nextTaskId := v.nextTaskId + 1
    flag := Function.update v.flag (v.nextTaskId + 1) false
    coro := Function.update v.coro (v.nextTaskId + 1) kind }

def raise (v : View) (t : Nat) : View := { v with flag := Function.update v.flag t true }

end View

/-- tame: no cancelled task is spilled and no deque with tasks is thrown away;
steady: the index has a slot to spare at every insert. -/
inductive Move (tame steady : Prop) : View → View → Prop
  | coroutines {v : View} {tokens : List Nat} (fewer : tokens ⊆ v.tokens) :
      Move tame steady v { v with tokens }
  | refuse {v : View} {kind : Bool} : Move tame steady v (v.create kind)
  | submitPooled {v : View} {pooled : List Nat} {live : Finset Nat} {stale : Nat → Prop}
      (joined : pooled.Perm ((v.nextTaskId + 1) :: v.pooled))
      (indexed : live = insert (v.nextTaskId + 1) v.live ∨ live = v.live ∧ v.cap ≤ v.live.card)
      (older : ∀ x, stale x → v.stale x) (room : steady → v.pooled.length < v.cap) :
      Move tame steady v
        ({ v.create false with pooled, live, stale, queueLen := v.queueLen + 1 }.emit
          (.submitted (v.nextTaskId + 1)))
  | submitLane {v : View} {kind : Bool} {lanes : List Nat}
      (joined : lanes.Perm ((v.nextTaskId + 1) :: v.lanes)) :
      Move tame steady v
        ({ v.create kind with lanes, queueLen := v.queueLen + 1 }.emit
          (.submitted (v.nextTaskId + 1)))
  | skipPooled {v : View} {pooled : List Nat} {stale : Nat → Prop} {t : Nat}
      (left : v.pooled.Perm (t :: pooled)) (flagged : v.flag t = true)
      (older : ∀ x, stale x → v.stale x ∨ x = t) :
      Move tame steady v { v with pooled, live := v.live.erase t, stale }
  | runPooled {v : View} {pooled tokens : List Nat} {stale : Nat → Prop} {t : Nat}
      (left : v.pooled.Perm (t :: pooled)) (unflagged : v.flag t = false)
      (older : ∀ x, stale x → v.stale x ∨ x = t) (carried : tokens ⊆ t :: v.tokens) :
      Move tame steady v
        ({ v with
          pooled, tokens, live := v.live.erase t, stale, queueLen := v.queueLen - 1 }.emit
            (.dispatched t))
  | skipLane {v : View} {lanes : List Nat} {t : Nat} (left : v.lanes.Perm (t :: lanes))
      (flagged : v.flag t = true) :
      Move tame steady v { v with lanes, queueLen := v.queueLen - 1 }
  | runLane {v : View} {lanes tokens : List Nat} {t : Nat} (left : v.lanes.Perm (t :: lanes))
      (unflagged : v.flag t = false) (carried : tokens ⊆ t :: v.tokens) :
      Move tame steady v
        ({ v with lanes, tokens, queueLen := v.queueLen - 1 }.emit (.dispatched t))
  | spill {v : View} {pooled lanes : List Nat} {stale : Nat → Prop} {t : Nat}
      (left : v.pooled.Perm (t :: pooled)) (joined : lanes.Perm (t :: v.lanes))
      (older : ∀ x, stale x → v.stale x ∨ x = t)
      (careful : tame → phase v.events t = .queued) :
      Move tame steady v { v with pooled, lanes, live := v.live.erase t, stale }
  | cancelPooled {v : View} {stale : Nat → Prop} {t : Nat} (member : t ∈ v.live)
      (older : ∀ x, stale x → v.stale x) :
      Move tame steady v
        ({ v.raise t with live := v.live.erase t, stale, queueLen := v.queueLen - 1 }.emit
          (.cancelled t))
  | cancelLane {v : View} {lanes : List Nat} {t : Nat} (left : v.lanes.Perm (t :: lanes)) :
      Move tame steady v
        ({ v with lanes, queueLen := v.queueLen - 1 }.emit (.cancelled t))
  | cancelAsleep {v : View} {tokens : List Nat} {t : Nat} (member : t ∈ v.tokens)
      (fewer : tokens ⊆ v.tokens) :
      Move tame steady v ({ v.raise t with tokens }.emit (.cancelledAsleep t))
  | resume {v : View} {t : Nat} (member : t ∈ v.tokens) (unflagged : v.flag t = false) :
      Move tame steady v (v.emit (.resumed t))
  | flagStale {v : View} {t : Nat} (old : v.stale t) : Move tame steady v (v.raise t)
  | lose {v : View} {pooled : List Nat} (fewer : pooled.Subperm v.pooled)
      (careful : tame → pooled.Perm v.pooled) :
      Move tame steady v { v with pooled }

abbrev Moves (tame steady : Prop) : View → View → Prop := Relation.ReflTransGen (Move tame steady)

theorem cap_moves {tame steady : Prop} {v v' : View} (moved : Moves tame steady v v') :
    v'.cap = v.cap := by
  induction moved with
  | refl => rfl
  | tail _ last ih =>
    refine Eq.trans ?_ ih
    cases last <;> rfl

/-- What holds in every run. -/
structure Safe (v : View) : Prop where
  fresh : ∀ t, v.nextTaskId < t → phase v.events t = .absent
  zero : phase v.events 0 = .absent
  legal : Legal v.events
  once : (v.pooled ++ v.lanes).Nodup
  placed : ∀ t ∈ v.pooled ++ v.lanes, phase v.events t = .queued ∨
    phase v.events t = .cancelled ∧ v.flag t = true
  awake : ∀ t ∈ v.tokens, phase v.events t = .started ∨
    phase v.events t = .dropped ∧ v.flag t = true
  live : ∀ t ∈ v.live, phase v.events t = .queued
  apart : ∀ t ∈ v.lanes, t ∉ v.live
  stale : ∀ t, v.stale t → (0 < t ∧ t ≤ v.nextTaskId) ∧ t ∉ v.live
  plain : ∀ t, t ∈ v.pooled ∨ t ∈ v.live ∨ v.stale t → v.coro t = false

variable {tame steady : Prop} {v v' : View} {t : Nat}

theorem rest_subset {l rest : List Nat} (left : l.Perm (t :: rest)) : rest ⊆ l :=
  fun _ member => left.mem_iff.mpr (List.mem_cons_of_mem t member)

namespace Safe

theorem start (pooled : v.pooled = []) (lanes : v.lanes = []) (tokens : v.tokens = [])
    (live : v.live = ∅) (events : v.events = []) (stale : ∀ t, ¬v.stale t) : Safe v := by
  constructor <;> simp [pooled, lanes, tokens, live, events, stale, Legal]

theorem le_of_phase (safe : Safe v) (known : phase v.events t ≠ .absent) : t ≤ v.nextTaskId := by
  by_contra beyond
  exact known (safe.fresh t (by omega))

theorem pos_of_phase (safe : Safe v) (known : phase v.events t ≠ .absent) : 0 < t := by
  apply Nat.pos_of_ne_zero
  intro zero
  subst zero
  exact known safe.zero

theorem known_of_placed (safe : Safe v) (member : t ∈ v.pooled ++ v.lanes) :
    phase v.events t ≠ .absent := by
  rcases safe.placed t member with queued | ⟨cancelled, -⟩
  · rw [queued]
    decide
  · rw [cancelled]
    decide

theorem le_of_placed (safe : Safe v) (member : t ∈ v.pooled ++ v.lanes) : t ≤ v.nextTaskId :=
  safe.le_of_phase (safe.known_of_placed member)

theorem pos_of_placed (safe : Safe v) (member : t ∈ v.pooled ++ v.lanes) : 0 < t :=
  safe.pos_of_phase (safe.known_of_placed member)

theorem known_of_token (safe : Safe v) (member : t ∈ v.tokens) : phase v.events t ≠ .absent := by
  rcases safe.awake t member with started | ⟨dropped, -⟩
  · rw [started]
    decide
  · rw [dropped]
    decide

theorem le_of_token (safe : Safe v) (member : t ∈ v.tokens) : t ≤ v.nextTaskId :=
  safe.le_of_phase (safe.known_of_token member)

theorem queued_of_unflagged (safe : Safe v) (member : t ∈ v.pooled ++ v.lanes)
    (unflagged : v.flag t = false) : phase v.events t = .queued := by
  rcases safe.placed t member with queued | cancelled
  · exact queued
  · rw [unflagged] at cancelled
    exact absurd cancelled.2 Bool.false_ne_true

theorem not_token (safe : Safe v)
    (waiting : phase v.events t = .queued ∨ phase v.events t = .cancelled) : t ∉ v.tokens := by
  intro token
  rcases safe.awake t token with started | ⟨dropped, -⟩
  · rw [started] at waiting
    rcases waiting with waiting | waiting <;> cases waiting
  · rw [dropped] at waiting
    rcases waiting with waiting | waiting <;> cases waiting

theorem waiting_of_placed (safe : Safe v) (member : t ∈ v.pooled ++ v.lanes) :
    phase v.events t = .queued ∨ phase v.events t = .cancelled :=
  (safe.placed t member).imp (fun queued => queued) fun cancelled => cancelled.1

theorem enter (safe : Safe v) {kind : Bool} {pooled lanes : List Nat} {live : Finset Nat}
    {stale : Nat → Prop} {queueLen : Int}
    (joined : (pooled ++ lanes).Perm ((v.nextTaskId + 1) :: (v.pooled ++ v.lanes)))
    (indexed : live ⊆ insert (v.nextTaskId + 1) v.live)
    (apart : ∀ t ∈ lanes, t ∉ live) (older : ∀ x, stale x → v.stale x)
    (arrived : ∀ x ∈ pooled, x = v.nextTaskId + 1 ∨ x ∈ v.pooled)
    (plain : kind = false ∨ pooled ⊆ v.pooled ∧ live ⊆ v.live) :
    Safe ({ v.create kind with pooled, lanes, live, stale, queueLen }.emit
      (.submitted (v.nextTaskId + 1))) := by
  have unused : (v.nextTaskId + 1) ∉ v.pooled ++ v.lanes := by
    intro member
    have bound := safe.le_of_placed member
    omega
  have other : ∀ x, x ≤ v.nextTaskId →
      phase (.submitted (v.nextTaskId + 1) :: v.events) x = phase v.events x ∧
      Function.update v.flag (v.nextTaskId + 1) false x = v.flag x := by
    intro x bound
    have differs : v.nextTaskId + 1 ≠ x := by omega
    exact ⟨phase_cons_of_ne differs, by simp [Ne.symm differs]⟩
  constructor
  · intro t beyond
    have beyond : v.nextTaskId + 1 < t := beyond
    show phase (.submitted (v.nextTaskId + 1) :: v.events) t = .absent
    rw [phase_cons_of_ne (by simp only [Event.task]; omega)]
    exact safe.fresh t (by omega)
  · have named : (Event.submitted (v.nextTaskId + 1)).task ≠ 0 := Nat.succ_ne_zero v.nextTaskId
    exact (phase_cons_of_ne named).trans safe.zero
  · exact ⟨safe.fresh _ (by simp [Event.task]), safe.legal⟩
  · exact joined.nodup_iff.mpr (List.nodup_cons.mpr ⟨unused, safe.once⟩)
  · intro t member
    rcases List.mem_cons.mp (joined.mem_iff.mp member) with same | old
    · subst same
      exact Or.inl (phase_cons_self (.submitted (v.nextTaskId + 1)) v.events)
    · obtain ⟨kept, flag⟩ := other t (safe.le_of_placed old)
      have before := safe.placed t old
      rw [← kept, ← flag] at before
      exact before
  · intro t member
    obtain ⟨kept, flag⟩ := other t (safe.le_of_token member)
    have before := safe.awake t member
    rw [← kept, ← flag] at before
    exact before
  · intro t member
    rcases Finset.mem_insert.mp (indexed member) with same | old
    · subst same
      exact phase_cons_self (.submitted (v.nextTaskId + 1)) v.events
    · have before := safe.live t old
      have bound := safe.le_of_phase (by rw [before]; decide)
      exact (other t bound).1.trans before
  · exact apart
  · intro t old
    obtain ⟨bound, dead⟩ := safe.stale t (older t old)
    refine ⟨⟨bound.1, Nat.le_succ_of_le bound.2⟩, ?_⟩
    intro member
    rcases Finset.mem_insert.mp (indexed member) with same | old
    · omega
    · exact dead old
  · intro t where_
    show Function.update v.coro (v.nextTaskId + 1) kind t = false
    by_cases same : t = v.nextTaskId + 1
    · rw [same, Function.update_self]
      rcases plain with plain | ⟨pooledOld, liveOld⟩
      · exact plain
      · -- the new task went to a lane
        exfalso
        subst same
        rcases where_ with placed | listed | old
        · exact unused (List.mem_append_left _ (pooledOld placed))
        · have queued := safe.live _ (liveOld listed)
          have bound := safe.le_of_phase (by rw [queued]; decide)
          omega
        · have bound := (safe.stale _ (older _ old)).1
          omega
    · rw [Function.update_of_ne same]
      refine safe.plain t ?_
      rcases where_ with placed | listed | old
      · exact Or.inl ((arrived t placed).resolve_left same)
      · exact Or.inr (Or.inl ((Finset.mem_insert.mp (indexed listed)).resolve_left same))
      · exact Or.inr (Or.inr (older t old))

/-- Tasks only leave, except that the task taken out of the ring or a deque may
still be named by a tombstone. -/
theorem plain_of_older (safe : Safe v) {pooled : List Nat} {live : Finset Nat} {stale : Nat → Prop}
    (pooledOld : pooled ⊆ v.pooled) (liveOld : live ⊆ v.live)
    (older : ∀ x, stale x → v.stale x ∨ x = t ∧ t ∈ v.pooled) :
    ∀ x, x ∈ pooled ∨ x ∈ live ∨ stale x → v.coro x = false := by
  intro x where_
  refine safe.plain x ?_
  rcases where_ with placed | listed | old
  · exact Or.inl (pooledOld placed)
  · exact Or.inr (Or.inl (liveOld listed))
  · rcases older x old with before | ⟨same, member⟩
    · exact Or.inr (Or.inr before)
    · exact Or.inl (same ▸ member)

theorem depart (safe : Safe v) {event : Event} {pooled lanes tokens : List Nat} {live : Finset Nat}
    {stale : Nat → Prop} {queueLen : Int} (about : event.task = t)
    (left : (v.pooled ++ v.lanes).Perm (t :: (pooled ++ lanes)))
    (follows : event.follows (phase v.events t)) (pooledOld : pooled ⊆ v.pooled)
    (lanesOld : lanes ⊆ v.lanes) (liveOld : live ⊆ v.live) (gone : t ∉ live)
    (older : ∀ x, stale x → v.stale x ∨ x = t ∧ t ∈ v.pooled)
    (carried : ∀ x ∈ tokens, x ∈ v.tokens ∧ x ≠ t ∨ x = t ∧ event.lands = .started) :
    Safe ({ v with pooled, lanes, tokens, live, stale, queueLen }.emit event) := by
  have present : t ∈ v.pooled ++ v.lanes := left.mem_iff.mpr List.mem_cons_self
  have distinct := List.nodup_cons.mp (left.nodup_iff.mp safe.once)
  have bound := safe.le_of_placed present
  have positive := safe.pos_of_placed present
  have other : ∀ x, x ≠ t → phase (event :: v.events) x = phase v.events x := by
    intro x differs
    exact phase_cons_of_ne (by rw [about]; exact Ne.symm differs)
  constructor
  · intro x beyond
    have beyond : v.nextTaskId < x := beyond
    exact (other x (by omega)).trans (safe.fresh x beyond)
  · exact (other 0 (by omega)).trans safe.zero
  · exact ⟨about ▸ follows, safe.legal⟩
  · exact distinct.2
  · intro x member
    have differs : x ≠ t := fun same => distinct.1 (same ▸ member)
    have before := safe.placed x (rest_subset left member)
    rw [← other x differs] at before
    exact before
  · intro x member
    rcases carried x member with ⟨old, differs⟩ | ⟨same, started⟩
    · have before := safe.awake x old
      rw [← other x differs] at before
      exact before
    · subst same
      exact Or.inl (by rw [← about]; exact (phase_cons_self event v.events).trans started)
  · intro x member
    have differs : x ≠ t := fun same => gone (same ▸ member)
    exact (other x differs).trans (safe.live x (liveOld member))
  · intro x member
    exact fun listed => safe.apart x (lanesOld member) (liveOld listed)
  · intro x old
    rcases older x old with before | ⟨same, -⟩
    · exact ⟨(safe.stale x before).1, fun listed => (safe.stale x before).2 (liveOld listed)⟩
    · subst same
      exact ⟨⟨positive, bound⟩, gone⟩
  · exact safe.plain_of_older pooledOld liveOld older

/-- A flagged task is taken out of its queue and skipped, or moved to a lane. -/
theorem shift (safe : Safe v) {pooled lanes : List Nat} {live : Finset Nat} {stale : Nat → Prop}
    {queueLen : Int} (fewer : (pooled ++ lanes).Subperm (v.pooled ++ v.lanes))
    (pooledOld : pooled ⊆ v.pooled) (liveOld : live ⊆ v.live) (apart : ∀ t ∈ lanes, t ∉ live)
    (older : ∀ x, stale x → v.stale x ∨ x = t ∧ t ∈ v.pooled ∧ t ∉ live) :
    Safe { v with pooled, lanes, live, stale, queueLen } := by
  refine { safe with
    once := ?_
    placed := ?_
    live := ?_
    apart := apart
    stale := ?_
    plain := safe.plain_of_older (t := t) pooledOld liveOld fun x old =>
      (older x old).imp (fun before => before) fun taken => ⟨taken.1, taken.2.1⟩ }
  · obtain ⟨list, perm, sub⟩ := fewer
    exact perm.nodup_iff.mp (safe.once.sublist sub)
  · exact fun x member => safe.placed x (fewer.subset member)
  · exact fun x member => safe.live x (liveOld member)
  · intro x old
    rcases older x old with before | ⟨same, member, dead⟩
    · exact ⟨(safe.stale x before).1, fun listed => (safe.stale x before).2 (liveOld listed)⟩
    · subst same
      have placed := List.mem_append_left v.lanes member
      exact ⟨⟨safe.pos_of_placed placed, safe.le_of_placed placed⟩, dead⟩

theorem mark (safe : Safe v) {event : Event} {tokens : List Nat} {live : Finset Nat}
    {stale : Nat → Prop} {queueLen : Int} (about : event.task = t)
    (known : phase v.events t ≠ .absent) (follows : event.follows (phase v.events t))
    (settled : event.lands = .cancelled ∧ t ∉ v.tokens ∨
      event.lands = .dropped ∧ t ∉ v.pooled ++ v.lanes)
    (fewer : tokens ⊆ v.tokens) (liveOld : live ⊆ v.live) (gone : t ∉ live)
    (older : ∀ x, stale x → v.stale x) :
    Safe ({ v.raise t with tokens, live, stale, queueLen }.emit event) := by
  have bound := safe.le_of_phase known
  have positive := safe.pos_of_phase known
  have lands : phase (event :: v.events) t = event.lands := by
    rw [← about]
    exact phase_cons_self event v.events
  have other : ∀ x, x ≠ t → phase (event :: v.events) x = phase v.events x ∧
      Function.update v.flag t true x = v.flag x := by
    intro x differs
    exact ⟨phase_cons_of_ne (by rw [about]; exact Ne.symm differs), by simp [differs]⟩
  constructor
  · intro x beyond
    have beyond : v.nextTaskId < x := beyond
    exact (other x (by omega)).1.trans (safe.fresh x beyond)
  · exact (other 0 (by omega)).1.trans safe.zero
  · exact ⟨about ▸ follows, safe.legal⟩
  · exact safe.once
  · intro x member
    by_cases same : x = t
    · subst same
      rcases settled with ⟨cancelled, -⟩ | ⟨-, elsewhere⟩
      · exact Or.inr ⟨lands.trans cancelled, by simp [View.emit, View.raise]⟩
      · exact absurd member elsewhere
    · have before := safe.placed x member
      rw [← (other x same).1, ← (other x same).2] at before
      exact before
  · intro x member
    by_cases same : x = t
    · subst same
      rcases settled with ⟨-, elsewhere⟩ | ⟨dropped, -⟩
      · exact absurd (fewer member) elsewhere
      · exact Or.inr ⟨lands.trans dropped, by simp [View.emit, View.raise]⟩
    · have before := safe.awake x (fewer member)
      rw [← (other x same).1, ← (other x same).2] at before
      exact before
  · intro x member
    have differs : x ≠ t := fun same => gone (same ▸ member)
    exact (other x differs).1.trans (safe.live x (liveOld member))
  · exact fun x member listed => safe.apart x member (liveOld listed)
  · intro x old
    have before := safe.stale x (older x old)
    exact ⟨before.1, fun listed => before.2 (liveOld listed)⟩
  · exact safe.plain_of_older (t := t) (fun _ member => member) liveOld fun x old => Or.inl (older x old)

/-- A flag makes no difference to where a task is. -/
theorem raise (safe : Safe v) (t : Nat) : Safe (v.raise t) := by
  have raised : ∀ x, v.flag x = true → Function.update v.flag t true x = true := by
    intro x before
    by_cases same : x = t
    · simp [same]
    · simpa [same] using before
  refine { safe with placed := ?_, awake := ?_ }
  · exact fun x member =>
      (safe.placed x member).imp (fun queued => queued) fun cancelled =>
        ⟨cancelled.1, raised x cancelled.2⟩
  · exact fun x member =>
      (safe.awake x member).imp (fun started => started) fun dropped =>
        ⟨dropped.1, raised x dropped.2⟩

theorem move (safe : Safe v) (moved : Move tame steady v v') : Safe v' := by
  cases moved with
  | coroutines fewer => exact { safe with awake := fun t member => safe.awake t (fewer member) }
  | refuse =>
    have flag : ∀ x, x ≤ v.nextTaskId →
        Function.update v.flag (v.nextTaskId + 1) false x = v.flag x := by
      intro x bound
      have differs : x ≠ v.nextTaskId + 1 := by omega
      simp [differs]
    refine { safe with fresh := ?_, placed := ?_, awake := ?_, stale := ?_, plain := ?_ }
    · intro t beyond
      have beyond : v.nextTaskId + 1 < t := beyond
      exact safe.fresh t (by omega)
    · intro t member
      have before := safe.placed t member
      rw [← flag t (safe.le_of_placed member)] at before
      exact before
    · intro t member
      have before := safe.awake t member
      rw [← flag t (safe.le_of_token member)] at before
      exact before
    · intro t old
      obtain ⟨⟨positive, bound⟩, dead⟩ := safe.stale t old
      exact ⟨⟨positive, Nat.le_succ_of_le bound⟩, dead⟩
    · intro t where_
      have bound : t ≤ v.nextTaskId := by
        rcases where_ with placed | listed | old
        · exact safe.le_of_placed (List.mem_append_left _ placed)
        · exact safe.le_of_phase (by rw [safe.live t listed]; decide)
        · exact (safe.stale t old).1.2
      have differs : t ≠ v.nextTaskId + 1 := by omega
      exact (Function.update_of_ne differs _ _).trans (safe.plain t where_)
  | @submitPooled pooled live stale joined indexed older room =>
    have within : live ⊆ insert (v.nextTaskId + 1) v.live := by
      rcases indexed with added | ⟨same, -⟩
      · rw [added]
      · rw [same]
        exact Finset.subset_insert _ _
    refine safe.enter (joined.append_right v.lanes) within ?_ older
      (fun x member => List.mem_cons.mp (joined.mem_iff.mp member)) (Or.inl rfl)
    intro t member listed
    rcases Finset.mem_insert.mp (within listed) with same | old
    · have bound := safe.le_of_placed (List.mem_append_right v.pooled member)
      omega
    · exact safe.apart t member old
  | @submitLane kind lanes joined =>
    refine safe.enter ?_ (Finset.subset_insert _ _) ?_ (fun _ old => old)
      (fun _ member => Or.inr member) (Or.inr ⟨fun _ member => member, fun _ member => member⟩)
    · exact (List.Perm.append_left v.pooled joined).trans List.perm_middle
    · intro t member listed
      rcases List.mem_cons.mp (joined.mem_iff.mp member) with same | old
      · have bound := safe.le_of_phase (t := t) (by rw [safe.live t listed]; decide)
        omega
      · exact safe.apart t old listed
  | @skipPooled pooled stale t left flagged older =>
    have total := left.append_right v.lanes
    refine safe.shift (t := t) ?_ ?_ (Finset.erase_subset t v.live) ?_ ?_
    · exact ((List.sublist_cons_self t _).subperm).trans total.symm.subperm
    · exact rest_subset left
    · exact fun x member listed => safe.apart x member (Finset.mem_of_mem_erase listed)
    · intro x old
      rcases older x old with before | same
      · exact Or.inl before
      · exact Or.inr ⟨same, left.mem_iff.mpr List.mem_cons_self, by simp⟩
  | @runPooled pooled tokens stale t left unflagged older carried =>
    have total := left.append_right v.lanes
    have queued := safe.queued_of_unflagged (total.mem_iff.mpr List.mem_cons_self) unflagged
    have here : t ∈ v.pooled := left.mem_iff.mpr List.mem_cons_self
    refine safe.depart rfl total queued ?_ (fun _ member => member) (Finset.erase_subset t v.live)
      (Finset.notMem_erase t v.live) ?_ ?_
    · exact rest_subset left
    · exact fun x old => (older x old).imp (fun before => before) fun same => ⟨same, here⟩
    intro x member
    by_cases same : x = t
    · exact Or.inr ⟨same, rfl⟩
    · exact Or.inl ⟨(List.mem_cons.mp (carried member)).resolve_left same, same⟩
  | @skipLane lanes t left flagged =>
    have total := (List.Perm.append_left v.pooled left).trans List.perm_middle
    refine safe.shift (t := t) ?_ (fun _ member => member) (fun _ listed => listed) ?_
      (fun x old => Or.inl old)
    · exact ((List.sublist_cons_self t _).subperm).trans total.symm.subperm
    · exact fun x member => safe.apart x (rest_subset left member)
  | @runLane lanes tokens t left unflagged carried =>
    have total := (List.Perm.append_left v.pooled left).trans List.perm_middle
    have here : t ∈ v.lanes := left.mem_iff.mpr List.mem_cons_self
    have queued := safe.queued_of_unflagged (List.mem_append_right v.pooled here) unflagged
    refine safe.depart rfl total queued (fun _ member => member) ?_ (fun _ listed => listed)
      (safe.apart t here) (fun x old => Or.inl old) ?_
    · exact rest_subset left
    · intro x member
      by_cases same : x = t
      · exact Or.inr ⟨same, rfl⟩
      · exact Or.inl ⟨(List.mem_cons.mp (carried member)).resolve_left same, same⟩
  | @spill pooled lanes stale t left joined older careful =>
    have total : (v.pooled ++ v.lanes).Perm (t :: (pooled ++ v.lanes)) := left.append_right v.lanes
    have arrived : (pooled ++ lanes).Perm (t :: (pooled ++ v.lanes)) :=
      (List.Perm.append_left pooled joined).trans List.perm_middle
    refine safe.shift (t := t) (arrived.trans total.symm).subperm ?_ (Finset.erase_subset t v.live)
      ?_ ?_
    · exact rest_subset left
    · intro x member listed
      rcases List.mem_cons.mp (joined.mem_iff.mp member) with same | old
      · subst same
        simp at listed
      · exact safe.apart x old (Finset.mem_of_mem_erase listed)
    · intro x old
      rcases older x old with before | same
      · exact Or.inl before
      · exact Or.inr ⟨same, left.mem_iff.mpr List.mem_cons_self, by simp⟩
  | @cancelPooled stale t member older =>
    have queued := safe.live t member
    exact safe.mark rfl (by rw [queued]; decide) (Or.inl queued)
      (Or.inl ⟨rfl, safe.not_token (Or.inl queued)⟩) (fun _ listed => listed)
      (Finset.erase_subset t v.live) (Finset.notMem_erase t v.live) older
  | @cancelLane lanes t left =>
    have total := (List.Perm.append_left v.pooled left).trans List.perm_middle
    have here : t ∈ v.lanes := left.mem_iff.mpr List.mem_cons_self
    have waiting := safe.waiting_of_placed (List.mem_append_right v.pooled here)
    refine safe.depart rfl total waiting (fun _ member => member) ?_ (fun _ listed => listed)
      (safe.apart t here) (fun x old => Or.inl old) ?_
    · exact rest_subset left
    · intro x member
      refine Or.inl ⟨member, fun same => ?_⟩
      subst same
      exact safe.not_token waiting member
  | @cancelAsleep tokens t member fewer =>
    have awake := safe.awake t member
    refine safe.mark rfl (safe.known_of_token member) ?_ (Or.inr ⟨rfl, ?_⟩) fewer (fun _ listed => listed) ?_
      (fun _ old => old)
    · exact awake.imp (fun started => started) (fun dropped => dropped.1)
    · exact fun placed => safe.not_token (safe.waiting_of_placed placed) member
    · exact fun listed => safe.not_token (Or.inl (safe.live t listed)) member
  | @resume t member unflagged =>
    have started : phase v.events t = .started := by
      rcases safe.awake t member with started | ⟨-, flagged⟩
      · exact started
      · rw [unflagged] at flagged
        exact absurd flagged Bool.false_ne_true
    have same : ∀ x, phase (.resumed t :: v.events) x = phase v.events x := by
      intro x
      by_cases here : t = x
      · subst here
        rw [started]
        exact phase_cons_self (.resumed t) v.events
      · exact phase_cons_of_ne here
    constructor
    · exact fun x beyond => (same x).trans (safe.fresh x beyond)
    · exact (same 0).trans safe.zero
    · exact ⟨started, safe.legal⟩
    · exact safe.once
    · intro x member
      have before := safe.placed x member
      rw [← same x] at before
      exact before
    · intro x member
      have before := safe.awake x member
      rw [← same x] at before
      exact before
    · exact fun x listed => (same x).trans (safe.live x listed)
    · exact safe.apart
    · exact safe.stale
    · exact safe.plain
  | @flagStale t old => exact safe.raise t
  | @lose pooled fewer careful =>
    refine safe.shift (t := 0) (List.Subperm.append fewer (List.Subperm.refl v.lanes)) fewer.subset
      (fun _ listed => listed) safe.apart (fun x old => Or.inl old)

theorem moves (safe : Safe v) (moved : Moves tame steady v v') : Safe v' := by
  induction moved with
  | refl => exact safe
  | tail _ last ih => exact ih.move last

end Safe

end Loomworks.Pool

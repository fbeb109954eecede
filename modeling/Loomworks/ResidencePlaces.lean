import Loomworks.ResidenceSites

/- Every coroutine of the pool is in one place. -/
namespace Loomworks.Pool.Residence

open Sites Transition
open Function (update update_of_ne update_self)

variable {s s' : State} {w t : Nat} {lossy : Prop} {actor : Actor} {label : Label}

/-- Every task in a place is a waiting one, and its coroutine, if there is one, belongs
to the worker of the place. -/
structure Housed (h : Homes) : Prop where
  apart : Apart h.site
  known : ∀ {p t}, t ∈ h.site p → 1 < t ∧ t ≤ h.nextTaskId ∧ h.ended t = none ∧ h.owner t = p.owner
  born : ∀ {t w}, h.owner t = some w → 1 < t ∧ t ≤ h.nextTaskId

/-- Every submitted task that has not come to its end is in some place. -/
def Complete (h : Homes) : Prop :=
  ∀ t, 1 < t → t ≤ h.nextTaskId → h.ended t = none → ∃ p, t ∈ h.site p

theorem Route.owner_eq {p q : Spot} (route : Route actor p q) : q.owner = p.owner := by
  cases route <;> rfl

theorem Housed.effect {h h' : Homes} (housed : Housed h) (first : 0 < h.nextTaskId)
    (effect : Effect lossy actor h h') : Housed h' := by
  cases effect with
  | quiet site same =>
    refine ⟨housed.apart.perm same, ?_, housed.born⟩
    intro p t member
    exact housed.known ((same p).mem_iff.mp member)
  | submits site called moved =>
    refine ⟨moved.apart housed.apart, ?_, ?_⟩
    · intro p t member
      rcases moved.mem.mp member with ⟨other, before⟩ | ⟨own, dest⟩
      · obtain ⟨low, high, unended, owner⟩ := housed.known before
        refine ⟨low, Nat.le_succ_of_le high, ?_, ?_⟩
        · exact (update_of_ne other _ _).trans unended
        · exact (update_of_ne other _ _).trans owner
      · cases dest
        rw [own]
        refine ⟨Nat.succ_lt_succ first, Nat.le_refl _, ?_, ?_⟩
        · exact update_self _ _ _
        · exact update_self _ _ _
    · intro t w owner
      by_cases own : t = h.nextTaskId + 1
      · rw [own]
        exact ⟨Nat.succ_lt_succ first, Nat.le_refl _⟩
      · have before : h.owner t = some w := (update_of_ne own _ _).symm.trans owner
        obtain ⟨low, high⟩ := housed.born before
        exact ⟨low, Nat.le_succ_of_le high⟩
  | shifts site t p q route member moved =>
    refine ⟨moved.apart housed.apart, ?_, housed.born⟩
    intro p' x inside
    rcases moved.mem.mp inside with ⟨-, before⟩ | ⟨own, dest⟩
    · exact housed.known before
    · cases dest
      rw [own, route.owner_eq]
      exact housed.known member
  | creates site t w own member moved =>
    refine ⟨moved.apart housed.apart, ?_, ?_⟩
    · intro p x inside
      rcases moved.mem.mp inside with ⟨other, before⟩ | ⟨own, dest⟩
      · obtain ⟨low, high, unended, owner⟩ := housed.known before
        exact ⟨low, high, unended, (update_of_ne other _ _).trans owner⟩
      · cases dest
        rw [own]
        obtain ⟨low, high, unended, -⟩ := housed.known member
        exact ⟨low, high, unended, update_self _ _ _⟩
    · intro x v owner
      by_cases own : x = t
      · rw [own]
        obtain ⟨low, high, -⟩ := housed.known member
        exact ⟨low, high⟩
      · exact housed.born ((update_of_ne own _ _).symm.trans owner)
  | drains site w own free taken left rest =>
    refine ⟨housed.apart.transfer taken left rest, ?_, housed.born⟩
    intro p t member
    by_cases isReady : p = .ready w
    · rw [isReady] at member
      change t ∈ site (.ready w) at member
      rw [left] at member
      cases member
    · by_cases isHeld : p = .held w
      · rw [isHeld] at member ⊢
        change t ∈ site (.held w) at member
        rw [taken] at member
        have known := housed.known member
        exact known
      · exact housed.known ((rest p isReady isHeld).mem_iff.mp member)
  | ends site t p how exit member moved =>
    refine ⟨moved.apart housed.apart, ?_, housed.born⟩
    intro p' x inside
    rcases moved.mem.mp inside with ⟨other, before⟩ | ⟨-, dest⟩
    · obtain ⟨low, high, unended, owner⟩ := housed.known before
      exact ⟨low, high, (update_of_ne other _ _).trans unended, owner⟩
    · cases dest
  | loses site t w cause called member moved =>
    refine ⟨moved.apart housed.apart, ?_, housed.born⟩
    intro p x inside
    rcases moved.mem.mp inside with ⟨-, before⟩ | ⟨-, dest⟩
    · exact housed.known before
    · cases dest

theorem Complete.effect {h h' : Homes} (complete : Complete h) (effect : Effect False actor h h') :
    Complete h' := by
  intro t low high unended
  cases effect with
  | quiet site same =>
    obtain ⟨p, member⟩ := complete t low high unended
    exact ⟨p, (same p).mem_iff.mpr member⟩
  | submits site called moved =>
    by_cases own : t = h.nextTaskId + 1
    · exact ⟨.queued, moved.mem.mpr (Or.inr ⟨own, rfl⟩)⟩
    · have high : t ≤ h.nextTaskId + 1 := high
      have before : h.ended t = none := (update_of_ne own _ _).symm.trans unended
      obtain ⟨p, member⟩ := complete t low (by omega) before
      exact ⟨p, moved.mem.mpr (Or.inl ⟨own, member⟩)⟩
  | shifts site x p q route member moved =>
    by_cases own : t = x
    · exact ⟨q, moved.mem.mpr (Or.inr ⟨own, rfl⟩)⟩
    · obtain ⟨p', inside⟩ := complete t low high unended
      exact ⟨p', moved.mem.mpr (Or.inl ⟨own, inside⟩)⟩
  | creates site x w own member moved =>
    by_cases own : t = x
    · exact ⟨.held w, moved.mem.mpr (Or.inr ⟨own, rfl⟩)⟩
    · obtain ⟨p', inside⟩ := complete t low high unended
      exact ⟨p', moved.mem.mpr (Or.inl ⟨own, inside⟩)⟩
  | drains site w own free taken left rest =>
    obtain ⟨p, member⟩ := complete t low high unended
    by_cases isReady : p = .ready w
    · rw [isReady, ← taken] at member
      exact ⟨.held w, member⟩
    · by_cases isHeld : p = .held w
      · rw [isHeld, free] at member
        cases member
      · exact ⟨p, (rest p isReady isHeld).mem_iff.mpr member⟩
  | ends site x p how exit member moved =>
    have own : t ≠ x := by
      intro same
      have closed : update h.ended x (some how) t = none := unended
      rw [same, update_self] at closed
      cases closed
    have before : h.ended t = none := (update_of_ne own _ _).symm.trans unended
    obtain ⟨p', inside⟩ := complete t low high before
    exact ⟨p', moved.mem.mpr (Or.inl ⟨own, inside⟩)⟩
  | loses site x w cause called member moved => exact cause.elim

/-- What holds in every state of every run. -/
structure Placed (s : State) : Prop where
  housed : Housed s.homes
  first : 0 < s.nextTaskId
  locked : ∀ {w}, (s.workers w).locks = true → s.lock = .worker w
  slots : ∀ {w}, s.workers w ≠ .absent → w < s.maxWorkerCount
  owners : ∀ {t w}, s.owner t = some w → w < s.maxWorkerCount

theorem Placed.known (placed : Placed s) {p : Spot} {t : Nat} (member : t ∈ s.site p) :
    1 < t ∧ t ≤ s.nextTaskId ∧ s.ended t = none ∧ s.owner t = p.owner :=
  @Housed.known s.homes placed.housed p t member

theorem Placed.timer_lt (placed : Placed s) {v t : Nat} (member : t ∈ s.site (.timer v)) :
    v < s.maxWorkerCount :=
  placed.owners (placed.known member).2.2.2

theorem Placed.fresh (placed : Placed s) (p : Spot) : s.nextTaskId + 1 ∉ s.site p := by
  intro member
  have high := (placed.known member).2.1
  omega

theorem effect_step (placed : Placed s) (stepped : step s label = some s') :
    Effect (label = .handOver false) label.actor s.homes s'.homes := by
  have apart := placed.housed.apart
  cases own : label.actor with
  | worker w => exact effect_worker apart placed.locked (worker_step own stepped)
  | timer => exact effect_timer apart placed.timer_lt (timer_step own stepped)
  | caller => exact effect_caller apart placed.fresh (caller_step own stepped)

/-- What a step of a worker does to pool->lock. -/
structure Turns (s s' : State) (w : Nat) : Prop where
  live : s.workers w ≠ .absent ∧ s.workers w ≠ .exited
  others : ∀ v, v ≠ w → s'.workers v = s.workers v
  room : s'.maxWorkerCount = s.maxWorkerCount
  lock : s'.lock = s.lock ∧ (s'.workers w).locks = (s.workers w).locks ∨
    s.lock = .free ∧ s'.lock = .worker w ∨
    (s.workers w).locks = true ∧ (s'.workers w).locks = false ∧ s'.lock = .free

theorem turns_keep {s₁ : State} {old pc : WorkerPc} (here : s.workers w = old)
    (kept : s₁.workers = s.workers) (lock : s₁.lock = s.lock)
    (room : s₁.maxWorkerCount = s.maxWorkerCount) (locks : pc.locks = old.locks)
    (live : old ≠ .absent ∧ old ≠ .exited) : Turns s (s₁.setWorker w pc) w := by
  rw [← here] at live
  refine ⟨live, ?_, room, Or.inl ⟨lock, ?_⟩⟩
  · intro v other
    show update s₁.workers w pc v = _
    rw [kept, update_of_ne other]
  · show (update s₁.workers w pc w).locks = _
    rw [update_self, here, locks]

theorem turns_unlock {s₁ : State} {old pc : WorkerPc} (here : s.workers w = old)
    (kept : s₁.workers = s.workers) (lock : s₁.lock = .free)
    (room : s₁.maxWorkerCount = s.maxWorkerCount) (own : old.locks = true) (gives : pc.locks = false) :
    Turns s (s₁.setWorker w pc) w := by
  rw [← here] at own
  refine ⟨⟨?_, ?_⟩, ?_, room, Or.inr (Or.inr ⟨own, ?_, lock⟩)⟩
  · intro absent
    rw [absent] at own
    cases own
  · intro exited
    rw [exited] at own
    cases own
  · intro v other
    show update s₁.workers w pc v = _
    rw [kept, update_of_ne other]
  · show (update s₁.workers w pc w).locks = _
    rw [update_self, gives]

theorem turns_terminate {old pc : WorkerPc} (here : s.workers w = old) (locks : pc.locks = old.locks)
    (live : old ≠ .absent ∧ old ≠ .exited) : Turns s ((s.terminate t).setWorker w pc) w := by
  obtain ⟨tasks, futures, -, shape⟩ := State.terminate_eq s t
  rw [shape]
  exact turns_keep here rfl rfl rfl locks live

theorem turns_worker (stepped : WorkerStep s w label s') : Turns s s' w := by
  cases stepped with
  | takes _ _ here | displaced here | drained here | looks here | peeks here | stays _ here
  | finishes here | uncreated _ here | creates _ _ here | resumes _ here | sleeps _ _ _ _ _ here
  | yields _ _ here | ends _ _ _ _ _ here | parked _ here | leaveReady here | leaveScan here
  | leavePick _ _ _ here | leaveSpill here => exact turns_keep here rfl rfl rfl rfl ⟨nofun, nofun⟩
  | chooses here free =>
    refine ⟨?_, fun v other => update_of_ne other _ _, rfl, Or.inr (Or.inl ⟨free, rfl⟩)⟩
    rw [here]
    exact ⟨nofun, nofun⟩
  | exits here | runs here | idles here | skips _ _ here | dispatches _ _ here | leaves here =>
    exact turns_unlock here rfl rfl rfl rfl rfl
  | drops _ here | leaveNext _ _ here | leaveTimer _ here =>
    exact turns_terminate here rfl ⟨nofun, nofun⟩

/-- What the steps of the other threads do to the workers and to the lock. -/
structure Calls (s s' : State) : Prop where
  workers : ∀ v, s'.workers v = s.workers v ∨
    s.workers v = .absent ∧ s'.workers v = .top ∧ v < s'.maxWorkerCount ∨
    s.workers v = .exited ∧ s'.workers v = .absent
  lock : ∀ v, s.lock = .worker v → s'.lock = .worker v
  room : s.maxWorkerCount ≤ s'.maxWorkerCount

theorem calls_same (workers : s'.workers = s.workers) (lock : s'.lock = s.lock)
    (room : s'.maxWorkerCount = s.maxWorkerCount) : Calls s s' :=
  ⟨fun v => Or.inl (congrFun workers v), fun _ held => lock.trans held, Nat.le_of_eq room.symm⟩

theorem calls_timer (stepped : TimerStep s label s') : Calls s s' := by
  cases stepped <;> exact calls_same rfl rfl rfl

/-- The slot of a worker that has left is free again. -/
theorem calls_joined {s₁ : State} (here : s.workers w = .exited) (kept : s₁.workers = s.workers)
    (lock : s₁.lock = s.lock) (room : s₁.maxWorkerCount = s.maxWorkerCount) :
    Calls s (s₁.setWorker w .absent) := by
  refine ⟨fun v => ?_, fun v held => lock.trans held, Nat.le_of_eq room.symm⟩
  show update s₁.workers w .absent v = _ ∨ _
  rw [kept]
  by_cases same : v = w
  · rw [same]
    exact Or.inr (Or.inr ⟨here, update_self _ _ _⟩)
  · exact Or.inl (update_of_ne same _ _)

theorem calls_caller (stepped : CallerStep s label s') : Calls s s' := by
  cases stepped with
  | refused | submits | closes | passes | untimed | stops | returns => exact calls_same rfl rfl rfl
  | flags | unlinks =>
    unfold State.resolveCancelled
    split <;> exact calls_same rfl rfl rfl
  | seizes id entry timerHeap free removed =>
    obtain ⟨tasks, futures, -, shape⟩ := State.resolveCancelled_eq
      ({ s with timerHeap, lock := .canceller entry }.flag entry.taskId) entry.taskId
    rw [shape]
    refine ⟨fun _ => Or.inl rfl, fun v held => ?_, Nat.le_refl _⟩
    rw [free] at held
    cases held
  | hands entry holder | loses entry holder =>
    refine ⟨fun _ => Or.inl rfl, fun v held => ?_, Nat.le_refl _⟩
    rw [holder] at held
    cases held
  | resizes count =>
    refine ⟨fun v => ?_, fun _ held => held, Nat.le_max_left _ _⟩
    by_cases fresh : s.workerCount ≤ v ∧ v < count ∧ s.workers v = .absent
    · exact Or.inr (Or.inl
        ⟨fresh.2.2, if_pos fresh, Nat.lt_of_lt_of_le fresh.2.1 (Nat.le_max_right _ _)⟩)
    · exact Or.inl (if_neg fresh)
  | joins w here beyond => exact calls_joined here rfl rfl rfl
  | awaits i here exited => exact calls_joined exited rfl rfl rfl

theorem calls_step (foreign : ∀ w, label.actor ≠ .worker w) (stepped : step s label = some s') :
    Calls s s' := by
  cases own : label.actor with
  | worker w => exact absurd own (foreign w)
  | timer => exact calls_timer (timer_step own stepped)
  | caller => exact calls_caller (caller_step own stepped)

theorem Effect.next_le {h h' : Homes} (effect : Effect lossy actor h h') : h.nextTaskId ≤ h'.nextTaskId := by
  cases effect with
  | submits => exact Nat.le_succ _
  | quiet | shifts | creates | drains | ends | loses => exact Nat.le_refl _

/-- A coroutine gets its worker when that creates it. -/
theorem Effect.owner_new {h h' : Homes} (effect : Effect lossy actor h h') (owner : h'.owner t = some w) :
    h.owner t = some w ∨ ∃ x, x ∈ h.site (.dispatching w) := by
  cases effect with
  | submits site called moved =>
    by_cases own : t = h.nextTaskId + 1
    · rw [own] at owner
      change update h.owner _ none _ = _ at owner
      rw [update_self] at owner
      cases owner
    · exact Or.inl ((update_of_ne own _ _).symm.trans owner)
  | creates site x v own member moved =>
    by_cases same : t = x
    · rw [same] at owner
      change update h.owner x (some v) x = some w at owner
      rw [update_self] at owner
      cases owner
      exact Or.inr ⟨x, member⟩
    · exact Or.inl ((update_of_ne same _ _).symm.trans owner)
  | quiet | shifts | drains | ends | loses => exact Or.inl owner

theorem Turns.locked (turns : Turns s s' w) (placed : Placed s) {v : Nat}
    (locks : (s'.workers v).locks = true) : s'.lock = .worker v := by
  by_cases own : v = w
  · rw [own] at locks ⊢
    rcases turns.lock with ⟨lock, same⟩ | ⟨-, lock⟩ | ⟨-, gives, -⟩
    · rw [lock]
      exact placed.locked (same.symm.trans locks)
    · exact lock
    · rw [gives] at locks
      cases locks
  · rw [turns.others v own] at locks
    have holder := placed.locked locks
    rcases turns.lock with ⟨lock, -⟩ | ⟨free, -⟩ | ⟨mine, -⟩
    · rw [lock]
      exact holder
    · rw [free] at holder
      cases holder
    · rw [placed.locked mine] at holder
      exact absurd (Lock.worker.inj holder).symm own

theorem Turns.slots (turns : Turns s s' w) (placed : Placed s) {v : Nat}
    (live : s'.workers v ≠ .absent) : v < s'.maxWorkerCount := by
  rw [turns.room]
  by_cases own : v = w
  · rw [own]
    exact placed.slots turns.live.1
  · rw [turns.others v own] at live
    exact placed.slots live

theorem Placed.step (placed : Placed s) (stepped : step s label = some s') :
    Placed s' := by
  have effect := effect_step placed stepped
  have housed : Housed s'.homes := placed.housed.effect placed.first effect
  have first : 0 < s'.nextTaskId := Nat.lt_of_lt_of_le placed.first effect.next_le
  have owners : s.maxWorkerCount ≤ s'.maxWorkerCount → ∀ {t w}, s'.owner t = some w →
      w < s'.maxWorkerCount := by
    intro room t w owner
    apply Nat.lt_of_lt_of_le _ room
    rcases effect.owner_new owner with before | ⟨x, member⟩
    · exact placed.owners before
    · apply placed.slots
      intro absent
      change x ∈ (s.workers w).dispatches at member
      rw [absent] at member
      cases member
  cases own : label.actor with
  | worker w =>
    have turns := turns_worker (worker_step own stepped)
    exact ⟨housed, first, turns.locked placed, turns.slots placed,
      owners (Nat.le_of_eq turns.room.symm)⟩
  | timer | caller =>
    have calls : Calls s s' := calls_step (fun w => by rw [own]; nofun) stepped
    refine ⟨housed, first, ?_, ?_, owners calls.room⟩
    · intro v locks
      rcases calls.workers v with same | ⟨-, top, -⟩ | ⟨-, absent⟩
      · rw [same] at locks
        exact calls.lock v (placed.locked locks)
      · rw [top] at locks
        cases locks
      · rw [absent] at locks
        cases locks
    · intro v live
      rcases calls.workers v with same | ⟨-, -, within⟩ | ⟨-, absent⟩
      · rw [same] at live
        exact Nat.lt_of_lt_of_le (placed.slots live) calls.room
      · exact within
      · exact absurd absent live

theorem site_start (workerCount : Nat) (p : Spot) : (start workerCount).site p = [] := by
  cases p with
  | dispatching w =>
    show (if w < workerCount then WorkerPc.top else .absent).dispatches = []
    split <;> rfl
  | held w =>
    show (if w < workerCount then WorkerPc.top else .absent).holds = []
    split <;> rfl
  | queued | ready | timer | handed => rfl

theorem placed_start (workerCount : Nat) : Placed (start workerCount) := by
  have pcs : ∀ w, (start workerCount).workers w = .top ∧ w < workerCount ∨
      (start workerCount).workers w = .absent := by
    intro w
    by_cases inside : w < workerCount
    · exact Or.inl ⟨if_pos inside, inside⟩
    · exact Or.inr (if_neg inside)
  refine ⟨⟨⟨?_, ?_⟩, ?_, nofun⟩, Nat.one_pos, ?_, ?_, nofun⟩
  · intro p
    show ((start workerCount).site p).Nodup
    rw [site_start]
    exact List.nodup_nil
  · intro p q t member
    change t ∈ (start workerCount).site p at member
    rw [site_start] at member
    cases member
  · intro p t member
    change t ∈ (start workerCount).site p at member
    rw [site_start] at member
    cases member
  · intro w locks
    rcases pcs w with ⟨top, -⟩ | absent
    · rw [top] at locks
      cases locks
    · rw [absent] at locks
      cases locks
  · intro w live
    rcases pcs w with ⟨-, inside⟩ | absent
    · exact inside
    · exact absurd absent live

/-- The coroutine of a task has not been destroyed, whatever became of the task. -/
def State.Undestroyed (s : State) (t : Nat) : Prop := s.ended t = none ∨ s.ended t = some .leaked

/-- Each coroutine that is created and not destroyed is in one place of its worker:
executing without a registered sleep or otherwise in the worker's hands, once in its
ready FIFO, once in the timer heap, or in the hands of a cancel_by_id that is to hand
it over. -/
structure OnePlace (s : State) : Prop where
  housed : ∀ t w, s.owner t = some w → s.Undestroyed t → ∃ p, p.owner = some w ∧ t ∈ s.site p
  once : ∀ p, (s.site p).Nodup
  alone : ∀ p q t, t ∈ s.site p → t ∈ s.site q → p = q
  live : ∀ p t w, p.owner = some w → t ∈ s.site p → s.owner t = some w ∧ s.ended t = none

/-- No task was destroyed before its coroutine. -/
def Unleaked (s : State) : Prop := ∀ t, s.ended t ≠ some .leaked

namespace Unleaked

theorem write (unleaked : Unleaked s) (ending : Option Ending) (clean : ending ≠ some .leaked)
    (ended : s'.ended = update s.ended t ending) : Unleaked s' := by
  intro x
  rw [ended]
  by_cases own : x = t
  · rw [own, update_self]
    exact clean
  · rw [update_of_ne own]
    exact unleaked x

theorem terminate (unleaked : Unleaked s) (pc : WorkerPc) :
    Unleaked ((s.terminate t).setWorker w pc) := by
  obtain ⟨tasks, futures, -, shape⟩ := State.terminate_eq s t
  rw [shape]
  exact unleaked.write (some .cancelled) (by decide) rfl

theorem resolveCancelled (unleaked : Unleaked s) : Unleaked (s.resolveCancelled t) := by
  obtain ⟨tasks, futures, -, shape⟩ := State.resolveCancelled_eq s t
  rw [shape]
  exact unleaked

theorem step (unleaked : Unleaked s) (handsOver : HandsOver s label)
    (stepped : Residence.step s label = some s') : Unleaked s' := by
  cases own : label.actor with
  | worker w =>
    cases worker_step own stepped with
    | ends t first tasks futures how here off leaks =>
      refine unleaked.write (some how) ?_ rfl
      exact fun leaked => leaks (Option.some.inj leaked) handsOver
    | skips t | uncreated t => exact unleaked.write (t := t) (some _) (by decide) rfl
    | drops | leaveNext | leaveTimer => exact unleaked.terminate _
    | _ => exact unleaked
  | timer =>
    cases timer_step own stepped with
    | _ => exact unleaked
  | caller =>
    cases caller_step own stepped with
    | submits => exact unleaked.write none (by decide) rfl
    | flags => exact unleaked.resolveCancelled (s := s.flag _)
    | unlinks label found t picked =>
      have unlinked : Unleaked { s with lane := s.lane.eraseP found } := unleaked
      exact (unlinked.resolveCancelled (t := t)).write (t := t) (some .cancelled) (by decide)
        rfl
    | seizes id entry timerHeap =>
      have seized : Unleaked ({ s with timerHeap, lock := .canceller entry }.flag entry.taskId) :=
        unleaked
      exact seized.resolveCancelled
    | _ => exact unleaked

end Unleaked

theorem Placed.onePlace (placed : Placed s) (complete : Complete s.homes) (unleaked : Unleaked s) :
    OnePlace s := by
  refine ⟨?_, placed.housed.apart.nodup, fun p q t => placed.housed.apart.unique, ?_⟩
  · intro t w owner undestroyed
    have unended := undestroyed.resolve_right (unleaked t)
    obtain ⟨low, high⟩ := placed.housed.born owner
    obtain ⟨p, member⟩ := complete t low high unended
    have agree := (placed.known member).2.2.2
    exact ⟨p, agree.symm.trans owner, member⟩
  · intro p t w own member
    obtain ⟨-, -, unended, owner⟩ := placed.known member
    exact ⟨owner.trans own, unended⟩

/-- In every run, resizes and shutdown included, in which no coroutine is left without a ready
node or without its mark; whatever else cannot be allocated. -/
theorem coroutines_in_one_place (workerCount : Nat) (labels : List Label)
    (handsOver : Meets step HandsOver (start workerCount) labels) :
    Always step OnePlace (start workerCount) labels := by
  apply @always_of_meets _ _ step (fun s => Placed s ∧ Complete s.homes ∧ Unleaked s) OnePlace HandsOver
  · intro s s' label invariant handsOver stepped
    obtain ⟨placed, complete, unleaked⟩ := invariant
    refine ⟨placed.step stepped, ?_, unleaked.step handsOver stepped⟩
    have effect := effect_step placed stepped
    have kept : label ≠ .handOver false := by
      rintro rfl
      exact Bool.false_ne_true handsOver
    rw [eq_false kept] at effect
    exact complete.effect effect
  · intro s invariant
    exact invariant.1.onePlace invariant.2.1 invariant.2.2
  · refine ⟨placed_start workerCount, ?_, fun t => by simp [start]⟩
    intro t low high
    have high : t ≤ 1 := high
    omega
  · exact handsOver

/-- The coroutine sleeps, its entry is armed again for want of a node, fires, and is
resumed; the next sleep is cancelled. -/
theorem coroutine_in_one_place_over_sleeps :
    Always step OnePlace (start 1)
      [.submitCoroutine 70 true true, .enter 0, .decide 0 false, .fetch 0 false, .create 0 (some 80),
        .sleep 0 5 true, .timerPeek, .timerPeek, .timerWakes 9, .timerFire false, .timerPeek,
        .timerPeek, .timerWakes 9, .timerFire true, .bodyEnds 0 .sleeps true, .enter 0, .checkReady 0,
        .sleep 0 20 true, .cancelById 2, .handOver true, .bodyEnds 0 .sleeps true, .enter 0,
        .checkReady 0] := by
  apply coroutines_in_one_place
  apply meets_of_decide
  decide +kernel

/-- Coroutine 2 sleeps; cancel_by_id takes it out of the timer heap and has no memory
for a ready node: the coroutine is in no FIFO and not in the heap, and was not
destroyed. -/
theorem cancelled_sleeper_is_lost :
    ∃ labels final, exec step (start 1) labels = some final ∧ final.owner 2 = some 0 ∧
      final.ended 2 = none ∧ final.lock = .free ∧ final.workers 0 = .top ∧
      final.timerHeap.entries = [] ∧ final.coroReady 0 = [] ∧ ¬OnePlace final := by
  let labels : List Label := [.submitCoroutine 70 true true, .enter 0, .decide 0 false,
    .fetch 0 false, .create 0 (some 80), .sleep 0 5 true, .bodyEnds 0 .sleeps true, .cancelById 2,
    .handOver false]
  have run : ((exec step (start 1) labels).map fun s => (s.owner 2, s.ended 2, s.workers 0)) =
      some (some 0, none, .top) := by
    decide +kernel
  have queues : ((exec step (start 1) labels).map fun s =>
      (s.lock, s.timerHeap.entries, s.coroReady 0)) = some (.free, [], []) := by
    decide +kernel
  obtain ⟨final, reached, shape⟩ := Option.map_eq_some_iff.mp run
  rw [reached] at queues
  simp only [Option.map_some, Option.some.injEq, Prod.mk.injEq] at shape queues
  obtain ⟨owner, unended, pc⟩ := shape
  obtain ⟨lock, heap, fifo⟩ := queues
  refine ⟨labels, final, reached, owner, unended, lock, pc, heap, fifo, ?_⟩
  intro onePlace
  obtain ⟨p, own, member⟩ := onePlace.housed 2 0 owner (Or.inl unended)
  cases p with
  | queued | dispatching => cases own
  | held w =>
    cases own
    change 2 ∈ (final.workers 0).holds at member
    rw [pc] at member
    cases member
  | ready w =>
    cases own
    change 2 ∈ final.coroReady 0 at member
    rw [fifo] at member
    cases member
  | timer w =>
    change 2 ∈ (final.timerHeap.entries.filter _).map _ at member
    rw [heap] at member
    cases member
  | handed w =>
    change 2 ∈ Lock.hands w final.lock at member
    rw [lock] at member
    cases member

end Loomworks.Pool.Residence

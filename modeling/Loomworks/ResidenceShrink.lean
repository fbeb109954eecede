import Loomworks.ResidenceExits

/- A displaced worker terminates every coroutine it owns. -/
namespace Loomworks.Pool.Residence

open Sites Transition
open Function (update update_of_ne update_self)

variable {s s' s₁ : State} {w t : Nat} {lossy : Prop} {actor : Actor} {label : Label}

/-- The task was terminated: its CANCELLED event was fired and a future its submitter
waits for reports the cancellation. -/
structure Settled (s : State) (t : Nat) : Prop where
  ended : s.ended t = some .cancelled
  fired : t ∈ s.cancelledFired
  told : (s.tasks t).awaited = true → loomFutureWait (s.futures t) = some .errCancelled

/-- While a task goes on, its future is still to be completed or reports a
cancellation. -/
def Promised (s : State) (t : Nat) : Prop :=
  s.ended t = none → (s.tasks t).awaited = true →
    (s.tasks t).completion = true ∨ loomFutureWait (s.futures t) = some .errCancelled

/-- A step changes nothing of a task that has come to its end and keeps the promises. -/
structure Keeps (s s' : State) : Prop where
  closed : ∀ t ≤ s.nextTaskId, s.ended t ≠ none →
    s'.tasks t = s.tasks t ∧ s'.futures t = s.futures t ∧ s'.ended t = s.ended t
  fired : ∀ t ∈ s.cancelledFired, t ∈ s'.cancelledFired
  next : s.nextTaskId ≤ s'.nextTaskId
  promised : (∀ t, Promised s t) → ∀ t, Promised s' t

theorem Keeps.trans (first : Keeps s s₁) (second : Keeps s₁ s') : Keeps s s' := by
  refine ⟨?_, fun t member => second.fired t (first.fired t member),
    Nat.le_trans first.next second.next, fun promised => second.promised (first.promised promised)⟩
  intro t low spent
  obtain ⟨tasks, futures, ended⟩ := first.closed t low spent
  have still : s₁.ended t ≠ none := by
    rw [ended]
    exact spent
  obtain ⟨tasks', futures', ended'⟩ := second.closed t (Nat.le_trans low first.next) still
  exact ⟨tasks'.trans tasks, futures'.trans futures, ended'.trans ended⟩

theorem Settled.keeps (settled : Settled s t) (low : t ≤ s.nextTaskId) (keeps : Keeps s s') :
    Settled s' t := by
  have spent : s.ended t ≠ none := by
    rw [settled.ended]
    nofun
  obtain ⟨tasks, futures, ended⟩ := keeps.closed t low spent
  refine ⟨ended.trans settled.ended, keeps.fired t settled.fired, ?_⟩
  rw [tasks, futures]
  exact settled.told

theorem keeps_frame (tasks : s'.tasks = s.tasks) (futures : s'.futures = s.futures)
    (ended : s'.ended = s.ended) (fired : ∀ t ∈ s.cancelledFired, t ∈ s'.cancelledFired)
    (next : s'.nextTaskId = s.nextTaskId) : Keeps s s' := by
  refine ⟨?_, fired, Nat.le_of_eq next.symm, ?_⟩
  · intro t _ _
    rw [tasks, futures, ended]
    exact ⟨rfl, rfl, rfl⟩
  · intro promised t
    unfold Promised
    rw [tasks, futures, ended]
    exact promised t

/-- A task that has not come to its end is changed. -/
theorem keeps_touch (unended : s.ended t = none) (off : s.Off t s'.tasks s'.futures)
    (ended : ∀ x, x ≠ t → s'.ended x = s.ended x)
    (fired : ∀ t ∈ s.cancelledFired, t ∈ s'.cancelledFired) (next : s'.nextTaskId = s.nextTaskId)
    (own : Promised s t → Promised s' t) : Keeps s s' := by
  refine ⟨?_, fired, Nat.le_of_eq next.symm, ?_⟩
  · intro x _ spent
    have other : x ≠ t := fun same => spent (by rw [same, unended])
    exact ⟨(off x other).1, (off x other).2, ended x other⟩
  · intro promised x
    by_cases same : x = t
    · rw [same]
      exact own (promised t)
    · unfold Promised
      rw [(off x same).1, (off x same).2, ended x same]
      exact promised x

theorem keeps_end {how : Ending} (unended : s.ended t = none) (off : s.Off t s'.tasks s'.futures)
    (ended : s'.ended = update s.ended t (some how))
    (fired : ∀ t ∈ s.cancelledFired, t ∈ s'.cancelledFired) (next : s'.nextTaskId = s.nextTaskId) :
    Keeps s s' := by
  refine keeps_touch unended off ?_ fired next ?_
  · intro x other
    rw [ended, update_of_ne other]
  · intro _ open_
    rw [ended, update_self] at open_
    cases open_

theorem keeps_resolveCancelled (unended : s.ended t = none) : Keeps s (s.resolveCancelled t) := by
  unfold State.resolveCancelled
  split
  · refine keeps_touch unended ?_ (fun _ _ => rfl) (fun _ member => member) rfl ?_
    · intro x other
      exact ⟨update_of_ne other _ _, update_of_ne other _ _⟩
    · intro _ _ _
      right
      show loomFutureWait (update s.futures t _ t) = _
      rw [update_self]
      exact loomFutureWait_coroMarkCancelled _
  · exact keeps_frame rfl rfl rfl (fun _ member => member) rfl

/-- A change of the fields that futures do not depend on. -/
theorem keeps_setTask {task : CoroTask} (unended : s.ended t = none)
    (awaited : task.awaited = (s.tasks t).awaited) (completion : task.completion = (s.tasks t).completion) :
    Keeps s (s.setTask t task) := by
  refine keeps_touch unended ?_ (fun _ _ => rfl) (fun _ member => member) rfl ?_
  · intro x other
    exact ⟨update_of_ne other _ _, rfl⟩
  · intro promised open_ waits
    change (update s.tasks t task t).awaited = true at waits
    rw [update_self, awaited] at waits
    show (update s.tasks t task t).completion = true ∨ _
    rw [update_self, completion]
    exact promised open_ waits

theorem keeps_terminate (unended : s.ended t = none) (pc : WorkerPc) :
    Keeps s ((s.terminate t).setWorker w pc) := by
  obtain ⟨tasks, futures, off, shape⟩ := State.terminate_eq s t
  rw [shape]
  exact keeps_end unended off rfl (fun _ member => List.mem_cons_of_mem _ member) rfl

/-- loom_coro_terminate with what goes with it. -/
theorem settled_terminate (promised : Promised s t) (unended : s.ended t = none) (pc : WorkerPc) :
    Settled ((s.terminate t).setWorker w pc) t := by
  have told : ((s.terminate t).tasks t).awaited = true →
      loomFutureWait ((s.terminate t).futures t) = some .errCancelled := by
    unfold State.terminate State.resolveCancelled State.taskDestroy
    split
    · intro _
      show loomFutureWait (update s.futures t _ t) = _
      rw [update_self]
      exact loomFutureWait_coroMarkCancelled _
    · rename_i complete
      intro awaited
      exact (promised unended awaited).resolve_left complete
  obtain ⟨tasks, futures, off, shape⟩ := State.terminate_eq s t
  rw [shape] at told ⊢
  exact ⟨update_self _ _ _, List.mem_cons_self, told⟩

theorem Placed.holds_unended (placed : Placed s) (member : t ∈ (s.workers w).holds) :
    s.ended t = none := by
  have here : t ∈ s.site (.held w) := member
  exact (placed.known here).2.2.1

theorem Placed.asleep_unended (placed : Placed s) {entry : Timer.Entry}
    (member : entry ∈ s.timerHeap.entries) : s.ended entry.taskId = none :=
  (placed.known (State.mem_site_timer member)).2.2.1

theorem keeps_worker (placed : Placed s) (stepped : WorkerStep s w label s') : Keeps s s' := by
  have held : ∀ {t pc}, s.workers w = pc → t ∈ pc.holds → s.ended t = none := by
    intro t pc here member
    apply placed.holds_unended (w := w)
    rw [here]
    exact member
  cases stepped with
  | skips t rest here lane =>
    exact keeps_end (placed.known (State.mem_queued lane)).2.2.1 (fun _ _ => ⟨rfl, rfl⟩) rfl
      (fun _ member => member) rfl
  | uncreated t here =>
    exact keeps_end (placed.known (State.mem_dispatching here)).2.2.1 (fun _ _ => ⟨rfl, rfl⟩) rfl
      (fun _ member => member) rfl
  | creates t coro here =>
    have renamed : Keeps s (s.setTask t { s.tasks t with userData := coro }) :=
      keeps_setTask (placed.known (State.mem_dispatching here)).2.2.1 rfl rfl
    exact renamed.trans (keeps_frame rfl rfl rfl (fun _ member => member) rfl)
  | drops _ here | leaveNext _ _ here | leaveTimer _ here =>
    exact keeps_terminate (held here List.mem_cons_self) _
  | ends t first tasks futures how here off leaks =>
    exact keeps_end (held here List.mem_cons_self) off rfl (fun _ member => member) rfl
  | takes | chooses | displaced | drained | looks | peeks | exits | stays | runs | idles | dispatches
  | finishes | resumes | sleeps | yields | parked | leaveReady | leaveScan | leavePick | leaveSpill
  | leaves => exact keeps_frame rfl rfl rfl (fun _ member => member) rfl

theorem keeps_submits {arg : Nat} {withFuture alive : Bool} {timer : TimerPc} :
    Keeps s { s with
      timer, timerThreadAlive := alive
      tasks := update s.tasks (s.nextTaskId + 1)
        { userData := arg, completion := withFuture, awaited := withFuture }
      nextTaskId := s.nextTaskId + 1
      futures := update s.futures (s.nextTaskId + 1) {}
      owner := update s.owner (s.nextTaskId + 1) none
      ended := update s.ended (s.nextTaskId + 1) none
      lane := s.lane ++ [s.nextTaskId + 1] } := by
  refine ⟨?_, fun _ member => member, Nat.le_succ _, ?_⟩
  · intro t low _
    have other : t ≠ s.nextTaskId + 1 := by omega
    exact ⟨update_of_ne other _ _, update_of_ne other _ _,
      update_of_ne other _ _⟩
  · intro promised t
    by_cases own : t = s.nextTaskId + 1
    · intro _ awaited
      left
      rw [own] at awaited ⊢
      change (update s.tasks (s.nextTaskId + 1) _ _).awaited = true at awaited
      show (update s.tasks (s.nextTaskId + 1) _ _).completion = true
      rw [update_self] at awaited ⊢
      exact awaited
    · intro open_ awaited
      change update s.ended _ none t = none at open_
      change (update s.tasks _ _ t).awaited = true at awaited
      show (update s.tasks _ _ t).completion = true ∨
        loomFutureWait (update s.futures _ _ t) = _
      rw [update_of_ne own] at open_ awaited
      rw [update_of_ne own, update_of_ne own]
      exact promised t open_ awaited

theorem keeps_caller (placed : Placed s) (stepped : CallerStep s label s') : Keeps s s' := by
  cases stepped with
  | submits => exact keeps_submits
  | flags data entry member =>
    have unended := placed.asleep_unended member
    have flagged : Keeps s (s.flag entry.taskId) := keeps_setTask unended rfl rfl
    have resolved : Keeps (s.flag entry.taskId) ((s.flag entry.taskId).resolveCancelled entry.taskId) :=
      keeps_resolveCancelled unended
    exact (flagged.trans resolved).trans
      (keeps_frame rfl rfl rfl (fun _ member => List.mem_cons_of_mem _ member) rfl)
  | unlinks _ found t picked =>
    have member : t ∈ s.site .queued := List.mem_of_find?_eq_some picked
    obtain ⟨tasks, futures, off, shape⟩ :=
      State.resolveCancelled_eq { s with lane := s.lane.eraseP found } t
    rw [shape]
    exact keeps_end (placed.known member).2.2.1 off rfl
      (fun _ member => List.mem_cons_of_mem _ member) rfl
  | seizes id entry timerHeap free removed =>
    have taken := (Timer.TimerHeap.entries_removeByTask removed).2
    have unended := placed.asleep_unended (taken.mem_iff.mpr List.mem_cons_self)
    let seized : State := { s with timerHeap, lock := .canceller entry }
    have first : Keeps s seized := keeps_frame rfl rfl rfl (fun _ member => member) rfl
    have flagged : Keeps seized (seized.flag entry.taskId) := keeps_setTask unended rfl rfl
    have resolved : Keeps (seized.flag entry.taskId)
        ((seized.flag entry.taskId).resolveCancelled entry.taskId) :=
      keeps_resolveCancelled unended
    exact (first.trans flagged).trans resolved
  | hands | loses =>
    exact keeps_frame rfl rfl rfl (fun _ member => List.mem_cons_of_mem _ member) rfl
  | refused | resizes | joins | closes | passes | awaits | untimed | stops | returns =>
    exact keeps_frame rfl rfl rfl (fun _ member => member) rfl

theorem keeps_step (placed : Placed s) (stepped : step s label = some s') : Keeps s s' := by
  cases own : label.actor with
  | worker w => exact keeps_worker placed (worker_step own stepped)
  | timer =>
    have timed := timer_step own stepped
    cases timed <;> exact keeps_frame rfl rfl rfl (fun _ member => member) rfl
  | caller => exact keeps_caller placed (caller_step own stepped)

/-- The worker is on the exit path of a displaced one. -/
def WorkerPc.leaving : WorkerPc → Bool
  | .leaveReady | .leaveFifo _ | .leaveScan | .leaveTimer _ | .leaveSpill => true
  | _ => false

theorem WorkerPc.locks_of_leaving {pc : WorkerPc} (leaving : pc.leaving = true) : pc.locks = true := by
  cases pc <;> first | rfl | cases leaving

/-- A coroutine stays with its worker until that is done with it. -/
theorem Effect.stays_owned {h h' : Homes} {p : Spot} (housed : Housed h)
    (effect : Effect lossy actor h h') (member : t ∈ h.site p) (owner : p.owner = some w)
    (unhanded : h.site (.handed w) = []) :
    (∃ q : Spot, q.owner = some w ∧ t ∈ h'.site q) ∨ actor = .worker w ∧ h'.ended t ≠ none := by
  have known := housed.known member
  have place : ∀ {q}, t ∈ h.site q → q = p := fun inside => housed.apart.unique inside member
  cases effect with
  | quiet site same => exact Or.inl ⟨p, owner, (same p).mem_iff.mpr member⟩
  | submits site called moved =>
    have other : t ≠ h.nextTaskId + 1 := by
      have high := known.2.1
      omega
    exact Or.inl ⟨p, owner, moved.mem.mpr (Or.inl ⟨other, member⟩)⟩
  | shifts site x a b route inside moved =>
    by_cases own : t = x
    · rw [← own] at inside
      refine Or.inl ⟨b, ?_, moved.mem.mpr (Or.inr ⟨own, rfl⟩)⟩
      rw [route.owner_eq, place inside, owner]
    · exact Or.inl ⟨p, owner, moved.mem.mpr (Or.inl ⟨own, member⟩)⟩
  | creates site x v own inside moved =>
    have other : t ≠ x := by
      intro same
      rw [← same] at inside
      rw [← place inside] at owner
      cases owner
    exact Or.inl ⟨p, owner, moved.mem.mpr (Or.inl ⟨other, member⟩)⟩
  | drains site v own free taken left rest =>
    by_cases isReady : p = .ready v
    · rw [isReady] at owner member
      rw [← taken] at member
      exact Or.inl ⟨.held v, owner, member⟩
    · by_cases isHeld : p = .held v
      · rw [isHeld, free] at member
        cases member
      · exact Or.inl ⟨p, owner, (rest p isReady isHeld).mem_iff.mpr member⟩
  | ends site x a how exit inside moved =>
    by_cases own : t = x
    · rw [← own] at inside
      rw [← place inside] at owner
      cases exit with
      | cancelled | skipped | uncreated => cases owner
      | finished v =>
        cases owner
        refine Or.inr ⟨rfl, ?_⟩
        show update h.ended x (some how) t ≠ none
        rw [own, update_self]
        nofun
    · exact Or.inl ⟨p, owner, moved.mem.mpr (Or.inl ⟨own, member⟩)⟩
  | loses site x v cause called inside moved =>
    have other : t ≠ x := by
      intro same
      rw [← same] at inside
      rw [← place inside] at owner
      cases owner
      rw [unhanded] at inside
      cases inside
    exact Or.inl ⟨p, owner, moved.mem.mpr (Or.inl ⟨other, member⟩)⟩

theorem leaving_setWorker {pc : WorkerPc} (still : pc.leaving = true) :
    ((s.setWorker w pc).workers w).leaving = true := by
  show (update s.workers w pc w).leaving = true
  rw [update_self]
  exact still

/-- A worker on its way out terminates a coroutine, or ends none. -/
theorem leaving_cases (stepped : WorkerStep s w label s') (leaving : (s.workers w).leaving = true) :
    (∃ x pc, pc.leaving = true ∧ s' = (s.terminate x).setWorker w pc) ∨
      ((s'.workers w).leaving = true ∨ s'.workers w = .exited) ∧ s'.owed = s.owed ∧
        s'.ended = s.ended := by
  cases stepped with
  | leaveNext | leaveTimer => exact Or.inl ⟨_, _, rfl, rfl⟩
  | leaveReady | leaveScan | leavePick | leaveSpill =>
    exact Or.inr ⟨Or.inl (leaving_setWorker rfl), rfl, rfl⟩
  | leaves => exact Or.inr ⟨Or.inr (update_self _ _ _), rfl, rfl⟩
  | takes _ _ here | chooses here | displaced here | drained here | looks here | peeks here
  | exits here | stays _ here | runs here | idles here | skips _ _ here | dispatches _ _ here
  | finishes here | uncreated _ here | creates _ _ here | drops _ here | resumes _ here
  | sleeps _ _ _ _ _ here | yields _ _ here | ends _ _ _ _ _ here | parked _ here =>
    rw [here] at leaving
    cases leaving

theorem settled_of_leaving (stepped : WorkerStep s w label s') (leaving : (s.workers w).leaving = true)
    (promised : Promised s t) (unended : s.ended t = none) (spent : s'.ended t ≠ none) :
    Settled s' t := by
  have terminated : ∀ {x pc}, ((s.terminate x).setWorker w pc).ended t ≠ none →
      Settled ((s.terminate x).setWorker w pc) t := by
    intro x pc spent
    by_cases own : t = x
    · rw [← own]
      exact settled_terminate promised unended pc
    · refine absurd ?_ spent
      obtain ⟨tasks, futures, -, shape⟩ := State.terminate_eq s x
      rw [shape]
      exact (update_of_ne own _ _).trans unended
  obtain ⟨x, pc, -, rfl⟩ | ⟨-, -, same⟩ := leaving_cases stepped leaving
  · exact terminated spent
  · exact absurd (same ▸ unended) spent

theorem owed_terminate (s : State) (w x : Nat) (pc : WorkerPc) :
    ((s.terminate x).setWorker w pc).owed = s.owed := by
  obtain ⟨tasks, futures, -, shape⟩ := State.terminate_eq s x
  rw [shape]
  rfl

theorem leaving_or_exited (stepped : WorkerStep s w label s') (leaving : (s.workers w).leaving = true) :
    ((s'.workers w).leaving = true ∨ s'.workers w = .exited) ∧ s'.owed = s.owed := by
  obtain ⟨x, pc, still, rfl⟩ | ⟨gone, owed, -⟩ := leaving_cases stepped leaving
  · exact ⟨Or.inl (leaving_setWorker still), owed_terminate s w x pc⟩
  · exact ⟨gone, owed⟩

/-- owed is written when a displaced worker begins to leave. -/
theorem owed_worker (stepped : WorkerStep s w label s') :
    s'.owed = s.owed ∨ s'.owed = update s.owed w (s.coroReady w ++ s.sleeping w) ∧
      (s'.workers w).leaving = true ∧ s'.site (.ready w) = s.site (.ready w) ∧
      s'.site (.timer w) = s.site (.timer w) := by
  cases stepped with
  | displaced here beyond running =>
    refine Or.inr ⟨rfl, ?_, rfl, rfl⟩
    show (update s.workers w .leaveReady w).leaving = true
    rw [update_self]
    rfl
  | drops | leaveNext | leaveTimer => exact Or.inl (owed_terminate _ _ _ _)
  | takes | chooses | drained | looks | peeks | exits | stays | runs | idles | skips | dispatches
  | finishes | uncreated | creates | resumes | sleeps | yields | ends | parked | leaveReady | leaveScan
  | leavePick | leaveSpill | leaves => exact Or.inl rfl

theorem owed_foreign (foreign : ∀ w, label.actor ≠ .worker w) (stepped : step s label = some s') :
    s'.owed = s.owed := by
  cases own : label.actor with
  | worker w => exact absurd own (foreign w)
  | timer =>
    have timed := timer_step own stepped
    cases timed <;> rfl
  | caller =>
    have called := caller_step own stepped
    cases called with
    | flags | unlinks | seizes =>
      unfold State.resolveCancelled
      split <;> rfl
    | refused | submits | hands | loses | resizes | joins | closes | passes | awaits | untimed | stops
    | returns => rfl

/-- What a displaced worker owned when it began to leave is settled or still with it. -/
structure Owing (s : State) : Prop where
  owed : ∀ w, ∀ t ∈ s.owed w, t ≤ s.nextTaskId ∧
    (Settled s t ∨ (s.workers w).leaving = true ∧ ∃ p : Spot, p.owner = some w ∧ t ∈ s.site p)
  promised : ∀ t, Promised s t

theorem Owing.step (owing : Owing s) (placed : Placed s) (cleared : Cleared s')
    (stepped : step s label = some s') : Owing s' := by
  have keeps := keeps_step placed stepped
  have effect := effect_step placed stepped
  refine ⟨?_, keeps.promised owing.promised⟩
  have kept : ∀ w, s'.owed w = s.owed w → ∀ t ∈ s'.owed w, t ≤ s'.nextTaskId ∧
      (Settled s' t ∨ (s'.workers w).leaving = true ∧ ∃ p : Spot, p.owner = some w ∧ t ∈ s'.site p) := by
    intro w same t member
    rw [same] at member
    obtain ⟨low, state⟩ := owing.owed w t member
    refine ⟨Nat.le_trans low keeps.next, ?_⟩
    rcases state with settled | ⟨leaving, p, owner, inside⟩
    · exact Or.inl (settled.keeps low keeps)
    · have unhanded := placed.handed_nil (w := w) (WorkerPc.locks_of_leaving leaving)
      by_cases own : label.actor = .worker w
      · have own_step := worker_step own stepped
        obtain ⟨pc, -⟩ := leaving_or_exited own_step leaving
        rcases effect.stays_owned placed.housed inside owner unhanded with ⟨q, owner', inside'⟩ | ⟨-, spent⟩
        · rcases pc with leaving' | exited
          · exact Or.inr ⟨leaving', q, owner', inside'⟩
          · have empty : s'.site q = [] := cleared.places (Or.inl exited) owner'
            change t ∈ s'.site q at inside'
            rw [empty] at inside'
            cases inside'
        · exact Or.inl (settled_of_leaving own_step leaving (owing.promised t)
            (placed.known inside).2.2.1 spent)
      · rcases effect.stays_owned placed.housed inside owner unhanded with ⟨q, owner', inside'⟩ | ⟨acts, -⟩
        · refine Or.inr ⟨?_, q, owner', inside'⟩
          rcases workers_foreign own stepped with same | ⟨absent, -⟩ | ⟨exited, -⟩
          · rw [same]
            exact leaving
          · rw [absent] at leaving
            cases leaving
          · rw [exited] at leaving
            cases leaving
        · exact absurd acts own
  intro w
  cases acting : label.actor with
  | worker v =>
    rcases owed_worker (worker_step acting stepped) with same | ⟨begun, leaving, ready, timer⟩
    · exact kept w (congrFun same w)
    · by_cases own : w = v
      · intro t member
        rw [own, begun, update_self] at member
        rw [own]
        rcases List.mem_append.mp member with fifo | asleep
        · have inside : t ∈ s.site (.ready v) := fifo
          refine ⟨Nat.le_trans (placed.known inside).2.1 keeps.next, Or.inr ⟨leaving, .ready v, rfl, ?_⟩⟩
          rw [ready]
          exact inside
        · have inside : t ∈ s.site (.timer v) := asleep
          refine ⟨Nat.le_trans (placed.known inside).2.1 keeps.next, Or.inr ⟨leaving, .timer v, rfl, ?_⟩⟩
          rw [timer]
          exact inside
      · have other : s'.owed w = s.owed w := by
          rw [begun, update_of_ne own]
        exact kept w other
  | timer | caller =>
    have same := owed_foreign (fun v => by rw [acting]; nofun) stepped
    exact kept w (congrFun same w)

/-- Whatever is resized and whichever ready node or timer entry cannot be allocated: a coroutine is in
one place at most, one of the worker that created it, and has not ended there; until it ends its future
is not forgotten. -/
theorem coroutine_keeps_worker_and_future (workerCount : Nat) (labels : List Label) :
    Always step (fun s => (∀ p t, t ∈ s.site p → s.owner t = p.owner ∧ s.ended t = none ∧
      (s.site p).Nodup ∧ ∀ q, t ∈ s.site q → q = p) ∧ ∀ t, Promised s t) (start workerCount) labels := by
  refine @always_of_invariant _ _ step (fun s => Placed s ∧ ∀ t, Promised s t) _ ?_ ?_ _ labels
    ⟨placed_start workerCount, fun t _ awaited => by cases awaited⟩
  · rintro s s' label ⟨placed, promised⟩ stepped
    exact ⟨placed.step stepped, (keeps_step placed stepped).promised promised⟩
  · rintro s ⟨placed, promised⟩
    refine ⟨fun p t member => ?_, promised⟩
    obtain ⟨-, -, unended, owner⟩ := placed.known member
    have apart := placed.housed.apart
    exact ⟨owner, unended, apart.nodup p, fun q other => apart.unique other member⟩

end Loomworks.Pool.Residence

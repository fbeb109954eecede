import Loomworks.Residence

/- The branches of the steps, with what each of them has tested. -/
namespace Loomworks.Pool.Residence

open Loomworks.Timer (Entry TimerHeap)

namespace State

/-- Tables that differ from those of a state at most at one task. -/
def Off (s : State) (t : Nat) (tasks : Nat → CoroTask) (futures : Nat → Future) : Prop :=
  ∀ x, x ≠ t → tasks x = s.tasks x ∧ futures x = s.futures x

theorem resolveCancelled_eq (s : State) (t : Nat) :
    ∃ tasks futures, s.Off t tasks futures ∧ s.resolveCancelled t = { s with tasks, futures } := by
  unfold resolveCancelled
  split
  · exact ⟨_, _, fun x other => ⟨Function.update_of_ne other _ _, Function.update_of_ne other _ _⟩, rfl⟩
  · exact ⟨_, _, fun x _ => ⟨rfl, rfl⟩, rfl⟩

theorem resolve_eq (s : State) (t : Nat) (status : LoomResult) :
    ∃ tasks futures, s.Off t tasks futures ∧ s.resolve t status = { s with tasks, futures } := by
  unfold resolve
  split
  · exact ⟨_, _, fun x other => ⟨Function.update_of_ne other _ _, Function.update_of_ne other _ _⟩, rfl⟩
  · exact ⟨_, _, fun x _ => ⟨rfl, rfl⟩, rfl⟩

theorem terminate_eq (s : State) (t : Nat) :
    ∃ tasks futures, s.Off t tasks futures ∧ s.terminate t =
      { s with
        tasks, futures
        cancelledFired := t :: s.cancelledFired
        ended := Function.update s.ended t (some .cancelled) } := by
  obtain ⟨tasks, futures, off, resolved⟩ := resolveCancelled_eq (s.fireCancelled t) t
  refine ⟨tasks, futures, off, ?_⟩
  unfold terminate
  rw [resolved]
  rfl

/-- After a resume the coroutine is ready again or its task at its end. It is not destroyed if
another one was marked in its place, or if there is no memory for its first ready node. -/
theorem afterBody_cases (s : State) (w t : Nat) (first : Bool) (behaviour : Behaviour) (alloc : Bool)
    (awake : behaviour ≠ .sleeps) :
    s.afterBody w t first behaviour alloc = (s.pushReady w t).setWorker w .top ∨
      ∃ tasks futures how, s.Off t tasks futures ∧
        (how = .leaked → behaviour = .failsOther ∨ first = true ∧ behaviour = .yields ∧ alloc = false) ∧
        s.afterBody w t first behaviour alloc =
          { s with tasks, futures, ended := Function.update s.ended t (some how) }.setWorker w .top := by
  have destroyed : ∀ status state how, ∃ tasks futures, s.Off t tasks futures ∧
      ((s.resolve t status).recycle t state how).setWorker w .top =
        ({ s with tasks, futures }.recycle t state how).setWorker w .top := by
    intro status state how
    obtain ⟨tasks, futures, off, shape⟩ := resolve_eq s t status
    exact ⟨tasks, futures, off, by rw [shape]⟩
  have same : s.Off t s.tasks s.futures := fun _ _ => ⟨rfl, rfl⟩
  cases first with
  | false =>
    cases behaviour with
    | yields => exact Or.inl rfl
    | sleeps => exact absurd rfl awake
    | returns => exact Or.inr ⟨s.tasks, s.futures, .returned, same, (fun clash => by cases clash), rfl⟩
    | fails | timesOut | timerFails | overflows =>
      exact Or.inr ⟨s.tasks, s.futures, .failed, same, (fun clash => by cases clash), rfl⟩
    | failsOther => exact Or.inr ⟨s.tasks, s.futures, .leaked, same, fun _ => Or.inl rfl, rfl⟩
  | true =>
    cases behaviour with
    | yields =>
      cases alloc with
      | true => exact Or.inl rfl
      | false =>
        obtain ⟨tasks, futures, off, shape⟩ := destroyed .errFailed .suspended .failed
        exact Or.inr ⟨tasks, futures, .leaked, off, fun _ => Or.inr ⟨rfl, rfl, rfl⟩, shape⟩
    | sleeps => exact absurd rfl awake
    | timesOut | timerFails =>
      exact Or.inr ⟨s.tasks, s.futures, .failed, same, (fun clash => by cases clash), rfl⟩
    | returns =>
      obtain ⟨tasks, futures, off, shape⟩ := destroyed .ok .done .returned
      exact Or.inr ⟨tasks, futures, .returned, off, (fun clash => by cases clash), shape⟩
    | fails | overflows =>
      obtain ⟨tasks, futures, off, shape⟩ := destroyed .errFailed .error .failed
      exact Or.inr ⟨tasks, futures, .failed, off, (fun clash => by cases clash), shape⟩
    | failsOther =>
      obtain ⟨tasks, futures, off, shape⟩ := destroyed .errFailed .running .failed
      exact Or.inr ⟨tasks, futures, .leaked, off, fun _ => Or.inl rfl, shape⟩

end State

/-- Who takes a step. -/
inductive Actor where
  | worker (w : Nat)
  | timer
  | caller
  deriving DecidableEq, Repr

def Label.actor : Label → Actor
  | .enter w | .decide w _ | .drainCheck w | .fetch w _ | .finish w | .create w _ | .checkReady w
  | .sleep w _ _ | .bodyEnds w _ _ | .leave w => .worker w
  | .timerPeek | .timerWakes _ | .timerFire _ => .timer
  | _ => .caller

/-- The worker executes a coroutine for the first time. -/
def WorkerPc.first : WorkerPc → Bool
  | .inBody _ first => first
  | _ => false

/-- cancel_by_id and the worker after a first resume get the memory for a ready node, and no
body calls loom_coro_fail while another coroutine is g_current. -/
def HandsOver (s : State) : Label → Prop
  | .handOver alloc => alloc = true
  | .bodyEnds w behaviour alloc =>
    behaviour ≠ .failsOther ∧ ((s.workers w).first = true → behaviour = .yields → alloc = true)
  | _ => True

instance (s : State) : DecidablePred (HandsOver s)
  | .handOver alloc => inferInstanceAs (Decidable (alloc = true))
  | .bodyEnds w behaviour alloc => inferInstanceAs (Decidable (behaviour ≠ .failsOther ∧
      ((s.workers w).first = true → behaviour = .yields → alloc = true)))
  | .submitCoroutine .. | .enter _ | .decide .. | .drainCheck _ | .fetch .. | .finish _ | .create ..
  | .checkReady _ | .sleep .. | .leave _ | .timerPeek | .timerWakes _ | .timerFire _ | .cancel _
  | .cancelById _ | .resize _ | .join _ | .shutdown => .isTrue trivial

/-- The entry the next round of the timer thread's drain is about. -/
def State.fires (s : State) : Option Entry :=
  match s.timer with
  | .draining now =>
    if s.timerHeap.len = 0 ∨ now < (s.timerHeap.slots 0).deadlineNs then none
    else some (s.timerHeap.slots 0)
  | _ => none

/-- The branches of a worker's steps. -/
inductive WorkerStep (s : State) (w : Nat) (label : Label) : State → Prop
  | takes (t : Nat) (rest : List Nat) (here : s.workers w = .top) (free : s.lock = .free)
      (ready : s.coroReady w = t :: rest) :
      WorkerStep s w label
        ({ s with coroReady := Function.update s.coroReady w rest }.setWorker w (.ready t))
  | chooses (here : s.workers w = .top) (free : s.lock = .free) :
      WorkerStep s w label ({ s with lock := .worker w }.setWorker w .chosen)
  | displaced (here : s.workers w = .chosen) (beyond : s.workerCount ≤ w)
      (running : s.shutdown = false) :
      WorkerStep s w label
        ({ s with owed := Function.update s.owed w (s.coroReady w ++ s.sleeping w) }.setWorker w .leaveReady)
  | drained (here : s.workers w = .chosen) (closing : s.shutdown = true) (empty : s.lane = []) :
      WorkerStep s w label (s.setWorker w .drainHeap)
  | looks (here : s.workers w = .chosen) : WorkerStep s w label (s.setWorker w .fetch)
  | peeks (here : s.workers w = .drainHeap) :
      WorkerStep s w label (s.setWorker w (.drainReady (s.timerHeap.len == 0)))
  | exits (here : s.workers w = .drainReady true) (empty : s.coroReady w = []) :
      WorkerStep s w label (s.unlock.setWorker w .exited)
  | stays (timerEmpty : Bool) (here : s.workers w = .drainReady timerEmpty) :
      WorkerStep s w label (s.setWorker w .fetch)
  | runs (here : s.workers w = .fetch) : WorkerStep s w label (s.unlock.setWorker w .running)
  | idles (here : s.workers w = .fetch) : WorkerStep s w label (s.unlock.setWorker w .top)
  | skips (t : Nat) (rest : List Nat) (here : s.workers w = .fetch) (lane : s.lane = t :: rest) :
      WorkerStep s w label (({ s with lane := rest }.unlock.taskDestroy t .cancelled).setWorker w .top)
  | dispatches (t : Nat) (rest : List Nat) (here : s.workers w = .fetch) (lane : s.lane = t :: rest) :
      WorkerStep s w label ({ s with lane := rest }.unlock.setWorker w (.dispatching t))
  | finishes (here : s.workers w = .running) : WorkerStep s w label (s.setWorker w .top)
  | uncreated (t : Nat) (here : s.workers w = .dispatching t) :
      WorkerStep s w label ((s.taskDestroy t .failed).setWorker w .top)
  | creates (t coro : Nat) (here : s.workers w = .dispatching t) :
      WorkerStep s w label
        ({ s.setTask t { s.tasks t with userData := coro } with
          owner := Function.update s.owner t (some w) }.setWorker w (.inBody t true))
  | drops (t : Nat) (here : s.workers w = .ready t) : WorkerStep s w label ((s.terminate t).setWorker w .top)
  | resumes (t : Nat) (here : s.workers w = .ready t) : WorkerStep s w label (s.setWorker w (.inBody t false))
  | sleeps (t : Nat) (first : Bool) (deadline : Int) (alloc : Bool) (timerHeap : TimerHeap)
      (here : s.workers w = .inBody t first)
      (pushed : s.timerHeap.loomTimerPush ⟨deadline, t, w⟩ alloc = some timerHeap) :
      WorkerStep s w label ({ s with timerHeap }.setWorker w (.asleep t))
  | yields (t : Nat) (first : Bool) (here : s.workers w = .inBody t first) :
      WorkerStep s w label ((s.pushReady w t).setWorker w .top)
  | ends (t : Nat) (first : Bool) (tasks : Nat → CoroTask) (futures : Nat → Future) (how : Ending)
      (here : s.workers w = .inBody t first) (off : s.Off t tasks futures)
      (leaks : how = .leaked → ¬HandsOver s label) :
      WorkerStep s w label
        ({ s with tasks, futures, ended := Function.update s.ended t (some how) }.setWorker w .top)
  | parked (t : Nat) (here : s.workers w = .asleep t) : WorkerStep s w label (s.setWorker w .top)
  | leaveReady (here : s.workers w = .leaveReady) :
      WorkerStep s w label
        ({ s with coroReady := Function.update s.coroReady w [] }.setWorker w (.leaveFifo (s.coroReady w)))
  | leaveNext (t : Nat) (rest : List Nat) (here : s.workers w = .leaveFifo (t :: rest)) :
      WorkerStep s w label ((s.terminate t).setWorker w (.leaveFifo rest))
  | leaveScan (here : s.workers w = .leaveFifo []) : WorkerStep s w label (s.setWorker w .leaveScan)
  | leavePick (victim entry : Entry) (timerHeap : TimerHeap) (here : s.workers w = .leaveScan)
      (found : s.timerHeap.entries.find? (fun e => e.workerIdx = w) = some victim)
      (removed : s.timerHeap.loomTimerRemoveByTask victim.taskId = some (entry, timerHeap)) :
      WorkerStep s w label ({ s with timerHeap }.setWorker w (.leaveTimer entry.taskId))
  | leaveTimer (t : Nat) (here : s.workers w = .leaveTimer t) :
      WorkerStep s w label ((s.terminate t).setWorker w .leaveScan)
  | leaveSpill (here : s.workers w = .leaveScan)
      (nobody : s.timerHeap.entries.find? (fun e => e.workerIdx = w) = none) :
      WorkerStep s w label (s.setWorker w .leaveSpill)
  | leaves (here : s.workers w = .leaveSpill) : WorkerStep s w label (s.unlock.setWorker w .exited)

/-- The branches of the timer thread's steps. -/
inductive TimerStep (s : State) (label : Label) : State → Prop
  | loads (here : s.timer = .top) : TimerStep s label { s with timer := .peek s.timerThreadAlive }
  | stops (here : s.timer = .peek false) (empty : s.timerHeap.len = 0) :
      TimerStep s label { s with timer := .exited }
  | waits (alive : Bool) (here : s.timer = .peek alive) : TimerStep s label { s with timer := .waiting }
  | wakes (now : Int) (here : s.timer = .waiting) : TimerStep s label { s with timer := .draining now }
  | done (now : Int) (here : s.timer = .draining now) : TimerStep s label { s with timer := .top }
  | fires (entry : Entry) (timerHeap : TimerHeap) (allocated : label = .timerFire true)
      (due : s.fires = some entry) (popped : s.timerHeap.loomTimerPopDue = some (entry, timerHeap)) :
      TimerStep s label ({ s with timerHeap }.pushReady entry.workerIdx entry.taskId)
  | vanishes (entry : Entry) (timerHeap : TimerHeap)
      (popped : s.timerHeap.loomTimerPopDue = some (entry, timerHeap))
      (beyond : s.maxWorkerCount ≤ entry.workerIdx) : TimerStep s label { s with timerHeap }
  | rearms (now : Int) (entry : Entry) (timerHeap again : TimerHeap) (here : s.timer = .draining now)
      (popped : s.timerHeap.loomTimerPopDue = some (entry, timerHeap))
      (pushed : timerHeap.loomTimerPush entry false = some again) :
      TimerStep s label { s with timerHeap := again, timer := .top }

/-- The branches of the other calls. -/
inductive CallerStep (s : State) : Label → State → Prop
  | refused (label : Label) : CallerStep s label s
  | submits (arg : Nat) (withFuture : Bool) (timer : TimerPc) (alive : Bool) (free : s.lock = .free)
      (running : s.shutdown = false) (thread : timer ≠ .absent)
      (kept : s.timer ≠ .absent → timer = s.timer ∧ alive = s.timerThreadAlive) :
      CallerStep s (.submitCoroutine arg withFuture true)
        { s with
          timer, timerThreadAlive := alive
          tasks := Function.update s.tasks (s.nextTaskId + 1)
            { userData := arg, completion := withFuture, awaited := withFuture }
          nextTaskId := s.nextTaskId + 1
          futures := Function.update s.futures (s.nextTaskId + 1) {}
          owner := Function.update s.owner (s.nextTaskId + 1) none
          ended := Function.update s.ended (s.nextTaskId + 1) none
          lane := s.lane ++ [s.nextTaskId + 1] }
  | flags (data : Nat) (entry : Entry) (member : entry ∈ s.timerHeap.entries) :
      CallerStep s (.cancel data)
        (((s.flag entry.taskId).resolveCancelled entry.taskId).fireCancelled entry.taskId)
  | unlinks (label : Label) (found : Nat → Bool) (t : Nat) (picked : s.lane.find? found = some t) :
      CallerStep s label
        ((({ s with lane := s.lane.eraseP found }.resolveCancelled t).taskDestroy t
          .cancelled).fireCancelled t)
  | seizes (id : Nat) (entry : Entry) (timerHeap : TimerHeap) (free : s.lock = .free)
      (removed : s.timerHeap.loomTimerRemoveByTask id = some (entry, timerHeap)) :
      CallerStep s (.cancelById id)
        (({ s with timerHeap, lock := .canceller entry }.flag entry.taskId).resolveCancelled entry.taskId)
  | hands (entry : Entry) (holder : s.lock = .canceller entry) :
      CallerStep s (.handOver true)
        ((s.pushReady entry.workerIdx entry.taskId).unlock.fireCancelled entry.taskId)
  | loses (entry : Entry) (holder : s.lock = .canceller entry) :
      CallerStep s (.handOver false) (s.unlock.fireCancelled entry.taskId)
  | resizes (count : Nat) :
      CallerStep s (.resize count)
        { s with
          workerCount := count
          maxWorkerCount := max s.maxWorkerCount count
          workers := fun w =>
            if s.workerCount ≤ w ∧ w < count ∧ s.workers w = .absent then .top else s.workers w }
  | joins (w : Nat) (here : s.workers w = .exited) (beyond : s.workerCount ≤ w) :
      CallerStep s (.join w) (s.setWorker w .absent)
  | closes (here : s.shutdownCall = .idle) :
      CallerStep s .shutdown { s with shutdown := true, shutdownCall := .joining 0 }
  | passes (i : Nat) (here : s.shutdownCall = .joining i) (absent : s.workers i = .absent) :
      CallerStep s .shutdown { s with shutdownCall := .joining (i + 1) }
  | awaits (i : Nat) (here : s.shutdownCall = .joining i) (exited : s.workers i = .exited) :
      CallerStep s .shutdown ({ s with shutdownCall := .joining (i + 1) }.setWorker i .absent)
  | untimed (i : Nat) (here : s.shutdownCall = .joining i) (all : s.maxWorkerCount ≤ i) :
      CallerStep s .shutdown { s with shutdownCall := .returned }
  | stops (i : Nat) (here : s.shutdownCall = .joining i) (all : s.maxWorkerCount ≤ i) :
      CallerStep s .shutdown { s with timerThreadAlive := false, shutdownCall := .joinTimer }
  | returns (here : s.shutdownCall = .joinTimer) (exited : s.timer = .exited) :
      CallerStep s .shutdown { s with shutdownCall := .returned }

variable {s s' : State} {w : Nat} {label : Label}

theorem WorkerStep.afterBody {t : Nat} {first alloc : Bool} {behaviour : Behaviour}
    (here : s.workers w = .inBody t first) (awake : behaviour ≠ .sleeps)
    (named : label = .bodyEnds w behaviour alloc ∨ behaviour = .timerFails) :
    WorkerStep s w label (s.afterBody w t first behaviour alloc) := by
  rcases s.afterBody_cases w t first behaviour alloc awake with
    parked | ⟨tasks, futures, how, off, leaks, ended⟩
  · rw [parked]
    exact .yields t first here
  · rw [ended]
    refine .ends t first tasks futures how here off fun leaked handsOver => ?_
    rcases named with rfl | same
    · rcases leaks leaked with other | ⟨rfl, yields, failed⟩
      · exact handsOver.1 other
      · have again : (s.workers w).first = true := by rw [here]; rfl
        exact Bool.false_ne_true (failed.symm.trans (handsOver.2 again yields))
    · rw [same] at leaks
      rcases leaks leaked with clash | ⟨-, clash, -⟩ <;> cases clash

theorem worker_step (own : label.actor = .worker w) (stepped : step s label = some s') :
    WorkerStep s w label s' := by
  cases label with
  | enter =>
    cases own
    change s.enter w = some s' at stepped
    unfold State.enter at stepped
    split at stepped
    · rename_i guard
      split at stepped
      · rename_i t rest ready
        cases stepped
        exact .takes t rest guard.1 guard.2 ready
      · cases stepped
        exact .chooses guard.1 guard.2
    · cases stepped
  | decide _ busy =>
    cases own
    change s.decide w busy = some s' at stepped
    unfold State.decide at stepped
    split at stepped
    · rename_i here
      split at stepped
      · rename_i outside
        cases stepped
        exact .displaced here outside.1 outside.2
      · split at stepped
        · rename_i idle
          cases stepped
          exact .drained here idle.1 idle.2.1
        · cases stepped
          exact .looks here
    · cases stepped
  | drainCheck =>
    cases own
    change s.drainCheck w = some s' at stepped
    unfold State.drainCheck at stepped
    split at stepped
    · rename_i here
      cases stepped
      exact .peeks here
    · rename_i timerEmpty here
      split at stepped
      · rename_i empty
        cases stepped
        rw [empty.1] at here
        exact .exits here empty.2
      · cases stepped
        exact .stays timerEmpty here
    · cases stepped
  | fetch _ other =>
    cases own
    change s.fetch w other = some s' at stepped
    unfold State.fetch at stepped
    split at stepped
    · rename_i here
      split at stepped
      · cases stepped
        exact .runs here
      · split at stepped
        · cases stepped
          exact .idles here
        · rename_i t rest lane
          dsimp only at stepped
          split at stepped
          · cases stepped
            exact .skips t rest here lane
          · cases stepped
            exact .dispatches t rest here lane
    · cases stepped
  | finish =>
    cases own
    change s.finish w = some s' at stepped
    unfold State.finish at stepped
    split at stepped
    · rename_i here
      cases stepped
      exact .finishes here
    · cases stepped
  | create _ handle =>
    cases own
    change s.create w handle = some s' at stepped
    unfold State.create at stepped
    split at stepped
    · rename_i t here
      cases stepped
      exact .uncreated t here
    · rename_i t coro here
      cases stepped
      exact .creates t coro here
    · cases stepped
  | checkReady =>
    cases own
    change s.checkReady w = some s' at stepped
    unfold State.checkReady at stepped
    split at stepped
    · rename_i t here
      split at stepped
      · cases stepped
        exact .drops t here
      · cases stepped
        exact .resumes t here
    · cases stepped
  | sleep _ deadline alloc =>
    cases own
    change s.sleep w deadline alloc = some s' at stepped
    unfold State.sleep at stepped
    split at stepped
    · rename_i t first here
      split at stepped
      · rename_i timerHeap pushed
        cases stepped
        exact .sleeps t first deadline alloc timerHeap here pushed
      · cases stepped
        exact .afterBody here (by decide) (Or.inr rfl)
    · cases stepped
  | bodyEnds _ behaviour alloc =>
    cases own
    change s.bodyEnds w behaviour alloc = some s' at stepped
    unfold State.bodyEnds at stepped
    split at stepped
    · rename_i t first here
      split at stepped
      · cases stepped
      · rename_i ends
        cases stepped
        exact .afterBody here (fun sleeps => ends (Or.inl sleeps)) (Or.inl rfl)
    · rename_i t here
      cases stepped
      exact .parked t here
    · cases stepped
  | leave =>
    cases own
    change s.leave w = some s' at stepped
    unfold State.leave at stepped
    split at stepped
    · rename_i here
      cases stepped
      exact .leaveReady here
    · rename_i t rest here
      cases stepped
      exact .leaveNext t rest here
    · rename_i here
      cases stepped
      exact .leaveScan here
    · rename_i here
      split at stepped
      · rename_i nobody
        cases stepped
        exact .leaveSpill here nobody
      · rename_i victim found
        split at stepped
        · cases stepped
        · rename_i entry timerHeap removed
          cases stepped
          exact .leavePick victim entry timerHeap here found removed
    · rename_i t here
      cases stepped
      exact .leaveTimer t here
    · rename_i here
      cases stepped
      exact .leaves here
    · cases stepped
  | _ => cases own

theorem timer_step (own : label.actor = .timer) (stepped : step s label = some s') :
    TimerStep s label s' := by
  cases label with
  | timerPeek =>
    change s.timerPeek = some s' at stepped
    unfold State.timerPeek at stepped
    split at stepped
    · rename_i here
      cases stepped
      exact .loads here
    · rename_i alive here
      split at stepped
      · rename_i empty
        cases stepped
        rw [empty.1] at here
        exact .stops here empty.2
      · cases stepped
        exact .waits alive here
    · cases stepped
  | timerWakes now =>
    change s.timerWakes now = some s' at stepped
    unfold State.timerWakes at stepped
    split at stepped
    · rename_i here
      cases stepped
      exact .wakes now here
    · cases stepped
  | timerFire alloc =>
    change s.timerFire alloc = some s' at stepped
    unfold State.timerFire at stepped
    split at stepped
    · rename_i now here
      split at stepped
      · cases stepped
        exact .done now here
      · rename_i due
        split at stepped
        · cases stepped
        · rename_i entry timerHeap popped
          dsimp only at stepped
          split at stepped
          · rename_i allocated
            split at stepped
            · cases stepped
              have root := (TimerHeap.entries_popDue popped).2.1
              have fired : s.fires = some entry := by
                unfold State.fires
                rw [here]
                dsimp only
                rw [if_neg due, root]
              rw [allocated]
              exact .fires entry timerHeap rfl fired popped
            · rename_i beyond
              cases stepped
              exact .vanishes entry timerHeap popped (Nat.le_of_not_lt beyond)
          · rename_i failed
            have failed : alloc = false := by simpa using failed
            rw [failed] at stepped
            split at stepped
            · rename_i again pushed
              cases stepped
              exact .rearms now entry timerHeap again here popped pushed
            · rename_i lost
              obtain ⟨final, pushed, -⟩ := TimerHeap.push_after_pop popped entry false
              rw [lost] at pushed
              cases pushed
    · cases stepped
  | _ => cases own

theorem cancelLane_step (label : Label) (found : Nat → Bool) : CallerStep s label (s.cancelLane found) := by
  unfold State.cancelLane
  split
  · exact .refused label
  · rename_i t picked
    exact .unlinks label found t picked

theorem caller_step (own : label.actor = .caller) (stepped : step s label = some s') :
    CallerStep s label s' := by
  cases label with
  | submitCoroutine arg withFuture alloc =>
    change s.loomPoolSubmitCoroutine arg withFuture alloc = some s' at stepped
    unfold State.loomPoolSubmitCoroutine at stepped
    split at stepped
    · rename_i free
      split at stepped
      · cases stepped
        exact .refused _
      · rename_i accepted
        rw [not_or] at accepted
        have running : s.shutdown = false := by simpa using accepted.1
        have allocated : alloc = true := by simpa using accepted.2
        rw [allocated]
        unfold State.ensureTimerThread at stepped
        split at stepped
        · rename_i absent
          cases stepped
          exact .submits arg withFuture .top true free running nofun fun thread => absurd absent thread
        · rename_i thread
          cases stepped
          exact .submits arg withFuture s.timer s.timerThreadAlive free running thread fun _ => ⟨rfl, rfl⟩
    · cases stepped
  | cancel data =>
    change s.loomPoolCancel data = some s' at stepped
    unfold State.loomPoolCancel at stepped
    split at stepped
    · split at stepped
      · cases stepped
        exact .refused _
      · split at stepped
        · rename_i entry found
          cases stepped
          exact .flags data entry (List.mem_of_find?_eq_some found)
        · cases stepped
          exact cancelLane_step _ _
    · cases stepped
  | cancelById id =>
    change s.loomPoolCancelById id = some s' at stepped
    unfold State.loomPoolCancelById at stepped
    split at stepped
    · rename_i free
      split at stepped
      · cases stepped
        exact .refused _
      · split at stepped
        · rename_i entry timerHeap removed
          cases stepped
          exact .seizes id entry timerHeap free removed
        · cases stepped
          exact cancelLane_step _ _
    · cases stepped
  | handOver alloc =>
    change s.handOver alloc = some s' at stepped
    unfold State.handOver at stepped
    split at stepped
    · rename_i entry holder
      cases stepped
      cases alloc with
      | true => exact .hands entry holder
      | false => exact .loses entry holder
    · cases stepped
  | resize count =>
    change s.loomPoolResize count = some s' at stepped
    unfold State.loomPoolResize at stepped
    split at stepped
    · split at stepped
      · cases stepped
        exact .refused _
      · cases stepped
        exact .resizes count
    · cases stepped
  | join w =>
    change s.join w = some s' at stepped
    unfold State.join at stepped
    split at stepped
    · rename_i guard
      cases stepped
      exact .joins w guard.1 guard.2
    · cases stepped
  | shutdown =>
    change s.loomPoolShutdown = some s' at stepped
    unfold State.loomPoolShutdown at stepped
    split at stepped
    · rename_i here
      split at stepped
      · cases stepped
        exact .closes here
      · cases stepped
    · rename_i i here
      split at stepped
      · split at stepped
        · rename_i absent
          cases stepped
          exact .passes i here absent
        · rename_i exited
          cases stepped
          exact .awaits i here exited
        · cases stepped
      · rename_i all
        split at stepped
        · cases stepped
          exact .untimed i here (Nat.le_of_not_lt all)
        · cases stepped
          exact .stops i here (Nat.le_of_not_lt all)
    · rename_i here
      split at stepped
      · rename_i exited
        cases stepped
        exact .returns here exited
      · cases stepped
    · cases stepped
  | _ => cases own

end Loomworks.Pool.Residence

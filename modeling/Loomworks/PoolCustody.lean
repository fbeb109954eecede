import Loomworks.Custody
import Loomworks.PoolRefines

/- What a pool tells of who has each task, and the cancel calls as moves of it. -/
namespace Loomworks.Pool

namespace ThreadPool

open Custody

variable {s s' : ThreadPool} {t : Nat}

/-- returned lists what the function of each task has returned. -/
def facts (s : ThreadPool) (returned : Nat → List Nat) (t : Nat) : Facts where
  coro := (s.tasks t).isCoro
  isFuture := (s.tasks t).isFuture
  flag := (s.tasks t).cancelled
  ended := s.ended t
  future := s.futures t
  returned := returned t
  dispatched := s.events.count (.dispatched t)
  claimed := decide (.cancelled t ∈ s.events)

def custody (s : ThreadPool) (holds : Nat → Option (Nat × Stage)) (running : Nat → Option Nat)
    (returned : Nat → List Nat) (live : Finset Nat) : Custody where
  holds := holds
  pooled := s.pooled
  lanes := laneTasks s.lanes
  running := running
  live := live
  next := s.nextTaskId
  queueLen := s.queueLen
  facts := s.facts returned

/-- The task waits for its worker or for its timer. -/
def Parked (s : ThreadPool) (t : Nat) : Prop :=
  (∃ w, t ∈ s.coroReady w) ∨ ∃ entry ∈ s.timerHeap, entry.task = t

/-- Nothing but what is known of one task changes. -/
structure Beside (t : Nat) (s s' : ThreadPool) : Prop where
  pooled : s'.pooled = s.pooled
  lanes : s'.lanes = s.lanes
  next : s'.nextTaskId = s.nextTaskId
  queueLen : s'.queueLen = s.queueLen
  index : s'.index = s.index
  ready : s'.coroReady = s.coroReady
  heap : s'.timerHeap = s.timerHeap
  others : ∀ returned x, x ≠ t → s'.facts returned x = s.facts returned x
  data : ∀ x, x ≠ t → s'.dataOf x = s.dataOf x
  kind : (s'.tasks t).isCoro = (s.tasks t).isCoro
  ended : s'.ended t = none → s.ended t = none

namespace Beside

theorem refl (t : Nat) (s : ThreadPool) : Beside t s s :=
  ⟨rfl, rfl, rfl, rfl, rfl, rfl, rfl, fun _ _ _ => rfl, fun _ _ => rfl, rfl, id⟩

theorem trans {s'' : ThreadPool} (first : Beside t s s') (second : Beside t s' s'') : Beside t s s'' where
  pooled := second.pooled.trans first.pooled
  lanes := second.lanes.trans first.lanes
  next := second.next.trans first.next
  queueLen := second.queueLen.trans first.queueLen
  index := second.index.trans first.index
  ready := second.ready.trans first.ready
  heap := second.heap.trans first.heap
  others := fun returned x other => (second.others returned x other).trans (first.others returned x other)
  data := fun x other => (second.data x other).trans (first.data x other)
  kind := second.kind.trans first.kind
  ended := fun none_ => first.ended (second.ended none_)

theorem setTask (s : ThreadPool) {task : Task} (kind : task.isCoro = (s.tasks t).isCoro) :
    Beside t s (s.setTask t task) := by
  have kept : ∀ x, x ≠ t → (s.setTask t task).tasks x = s.tasks x :=
    fun x other => Function.update_of_ne other _ _
  refine ⟨rfl, rfl, rfl, rfl, rfl, rfl, rfl, fun returned x other => ?_, fun x other => ?_, ?_, id⟩
  · unfold facts
    rw [kept x other]
    rfl
  · exact congrArg Task.userData (kept x other)
  · have own : (s.setTask t task).tasks t = task := Function.update_self _ _ _
    rw [own, kind]

theorem setFuture (s : ThreadPool) (t : Nat) (fut : Future) : Beside t s (s.setFuture t fut) := by
  refine ⟨rfl, rfl, rfl, rfl, rfl, rfl, rfl, fun returned x other => ?_, fun _ _ => rfl, rfl, id⟩
  have kept : (s.setFuture t fut).futures x = s.futures x := Function.update_of_ne other _ _
  unfold facts
  rw [kept]
  rfl

theorem taskDestroy (s : ThreadPool) (t : Nat) (how : Ending) : Beside t s (s.taskDestroy t how) := by
  refine ⟨rfl, rfl, rfl, rfl, rfl, rfl, rfl, fun returned x other => ?_, fun _ _ => rfl, rfl, fun none_ => ?_⟩
  · have kept : (s.taskDestroy t how).ended x = s.ended x := Function.update_of_ne other _ _
    unfold facts
    rw [kept]
    rfl
  · have ended : (s.taskDestroy t how).ended t = some how := Function.update_self _ _ _
    rw [ended] at none_
    cases none_

theorem emit (s : ThreadPool) {event : Event} (own : event.task = t) : Beside t s (s.emit event) := by
  refine ⟨rfl, rfl, rfl, rfl, rfl, rfl, rfl, fun returned x other => ?_, fun _ _ => rfl, rfl, id⟩
  have apart : ∀ e : Event, e.task = x → e ≠ event := by
    rintro e same rfl
    exact other (same.symm.trans own)
  have count : (event :: s.events).count (.dispatched x) = s.events.count (.dispatched x) :=
    List.count_cons_of_ne (apart _ rfl).symm
  have claimed : decide (Event.cancelled x ∈ event :: s.events) = decide (Event.cancelled x ∈ s.events) := by
    apply decide_eq_decide.mpr
    rw [List.mem_cons]
    exact or_iff_right (apart _ rfl)
  show Facts.mk _ _ _ _ _ _ ((event :: s.events).count _) (decide (_ ∈ event :: s.events)) = _
  rw [count, claimed]
  rfl

theorem resolveCancelled (s : ThreadPool) (t : Nat) : Beside t s (s.resolveCancelled t) := by
  unfold ThreadPool.resolveCancelled
  split
  · exact (setFuture s t _).trans (setTask _ rfl)
  · exact refl t s

theorem resolve (s : ThreadPool) (t : Nat) (status : LoomResult) : Beside t s (s.resolve t status) := by
  unfold ThreadPool.resolve
  split
  · exact (setFuture s t _).trans (setTask _ rfl)
  · exact refl t s

theorem markFutureCancelled (s : ThreadPool) (t : Nat) : Beside t s (s.markFutureCancelled t) := by
  unfold ThreadPool.markFutureCancelled
  split
  · exact setFuture s t _
  · exact refl t s

theorem flag (s : ThreadPool) (t : Nat) : Beside t s (s.flag t) := setTask s rfl

theorem terminate (s : ThreadPool) (t : Nat) : Beside t s (s.terminate t) :=
  (resolveCancelled s t).trans (taskDestroy _ t .cancelled)

theorem cancelAsleep (s : ThreadPool) (t : Nat) : Beside t s (s.cancelAsleep t) :=
  ((flag s t).trans (resolveCancelled _ t)).trans (emit _ rfl)

theorem afterFirst (s : ThreadPool) (w t : Nat) (crc : Coro.CoroResult) (state : Coro.CoroState)
    (alloc : Bool) : Beside t s (s.afterFirst w t crc state alloc) ∨
      s.afterFirst w t crc state alloc = s.pushReady w t ∨
      s.afterFirst w t crc state alloc = s.timerPush ⟨t, w⟩ := by
  unfold ThreadPool.afterFirst
  split
  · split
    · split
      · exact Or.inr (Or.inl rfl)
      · exact Or.inl ((resolve s t _).trans (taskDestroy _ t _))
    · exact Or.inr (Or.inr rfl)
    · exact Or.inl ((resolve s t _).trans (taskDestroy _ t _))
    · exact Or.inl (taskDestroy s t _)
  · split
    · exact Or.inl ((resolve s t _).trans (taskDestroy _ t _))
    · exact Or.inl (taskDestroy s t _)

theorem afterResume (s : ThreadPool) (w t : Nat) (crc : Coro.CoroResult) (state : Coro.CoroState) :
    Beside t s (s.afterResume w t crc state) ∨ s.afterResume w t crc state = s.pushReady w t ∨
      s.afterResume w t crc state = s.timerPush ⟨t, w⟩ := by
  unfold ThreadPool.afterResume
  split
  · split
    · exact Or.inr (Or.inl rfl)
    · exact Or.inr (Or.inr rfl)
    · exact Or.inl (taskDestroy s t _)
    · exact Or.inl (taskDestroy s t _)
  · exact Or.inl (taskDestroy s t _)

variable {held : Nat → Option (Nat × Stage)} {running : Nat → Option Nat} {returned : Nat → List Nat}
  {live : Finset Nat}

theorem custody (beside : Beside t s s') : s'.custody held running returned live =
    (s.custody held running returned live).setFacts t (s'.facts returned t) := by
  refine Custody.ext rfl beside.pooled (congrArg laneTasks beside.lanes) rfl rfl beside.next
    beside.queueLen ?_
  funext x
  by_cases own : x = t
  · rw [own, setFacts_self]
    rfl
  · rw [setFacts_of_ne _ _ own]
    exact beside.others returned x own

/-- The index does not look at a task that it does not list. -/
theorem holds (beside : Beside t s s') (absent : t ∉ live) (index : Holds s.dataOf s.index live) :
    Holds s'.dataOf s'.index live := by
  rw [beside.index]
  refine index.congr fun x member => beside.data x ?_
  rintro rfl
  exact absent member

theorem parked (beside : Beside t s s') (x : Nat) (parked : s'.Parked x) : s.Parked x := by
  unfold Parked at parked
  rwa [beside.ready, beside.heap] at parked

end Beside

variable {named : Prop} {held : Nat → Option (Nat × Stage)} {running : Nat → Option Nat}
  {returned : Nat → List Nat} {live live' : Finset Nat}

theorem facts_taskDestroy (s : ThreadPool) (t : Nat) (how : Ending) :
    (s.taskDestroy t how).facts returned t = { s.facts returned t with ended := some how } := by
  have own : (s.taskDestroy t how).ended t = some how := Function.update_self _ _ _
  unfold facts
  rw [own]
  rfl

theorem facts_markFutureCancelled (s : ThreadPool) (t : Nat) :
    (s.markFutureCancelled t).facts returned t =
      { s.facts returned t with
        future := if (s.tasks t).isFuture then futureMarkCancelled (s.futures t) else s.futures t } := by
  unfold markFutureCancelled
  split
  · have own : (s.setFuture t (futureMarkCancelled (s.futures t))).futures t =
        futureMarkCancelled (s.futures t) := Function.update_self _ _ _
    unfold facts
    rw [own]
    rfl
  · rfl

theorem custody_taskCreate (s : ThreadPool) {task : Task} (unflagged : task.cancelled = false) :
    (s.taskCreate task).custody held running returned live =
      Custody.setFacts { s.custody held running returned live with next := s.nextTaskId + 1 }
        (s.nextTaskId + 1) ((s.facts returned (s.nextTaskId + 1)).create task.isCoro task.isFuture) := by
  refine Custody.ext rfl rfl rfl rfl rfl rfl rfl ?_
  funext x
  by_cases own : x = s.nextTaskId + 1
  · have created : (s.taskCreate task).tasks x = task := by
      rw [own]
      exact Function.update_self _ _ _
    have future : (s.taskCreate task).futures x = {} := by
      rw [own]
      exact Function.update_self _ _ _
    have ended : (s.taskCreate task).ended x = none := by
      rw [own]
      exact Function.update_self _ _ _
    show (s.taskCreate task).facts returned x = _
    unfold facts
    rw [created, future, ended, own, setFacts_self, unflagged]
    rfl
  · have kept : (s.taskCreate task).tasks x = s.tasks x := Function.update_of_ne own _ _
    have future : (s.taskCreate task).futures x = s.futures x := Function.update_of_ne own _ _
    have ended : (s.taskCreate task).ended x = s.ended x := Function.update_of_ne own _ _
    rw [setFacts_of_ne _ _ own]
    show (s.taskCreate task).facts returned x = s.facts returned x
    unfold facts
    rw [kept, future, ended]
    rfl

theorem facts_skip (s : ThreadPool) (t : Nat) :
    ((s.markFutureCancelled t).taskDestroy t .cancelled).facts returned t = (s.facts returned t).skip := by
  rw [facts_taskDestroy, facts_markFutureCancelled]
  rfl

theorem facts_cancelled (s : ThreadPool) (t : Nat) :
    (s.emit (.cancelled t)).facts returned t = { s.facts returned t with claimed := true } := by
  have count : (Event.cancelled t :: s.events).count (.dispatched t) = s.events.count (.dispatched t) :=
    List.count_cons_of_ne (by simp)
  have claimed : decide (Event.cancelled t ∈ Event.cancelled t :: s.events) = true :=
    decide_eq_true List.mem_cons_self
  show Facts.mk _ _ _ _ _ _ ((Event.cancelled t :: s.events).count _)
    (decide (_ ∈ Event.cancelled t :: s.events)) = _
  rw [count, claimed]
  rfl

theorem facts_run (s : ThreadPool) (t : Nat) :
    ((s.taskDestroy t .dispatched).emit (.dispatched t)).facts returned t = (s.facts returned t).run := by
  have own : (s.taskDestroy t .dispatched).ended t = some .dispatched := Function.update_self _ _ _
  have count : (Event.dispatched t :: s.events).count (.dispatched t) =
      s.events.count (.dispatched t) + 1 := List.count_cons_self
  have claimed : decide (Event.cancelled t ∈ Event.dispatched t :: s.events) =
      decide (Event.cancelled t ∈ s.events) := by
    apply decide_eq_decide.mpr
    rw [List.mem_cons]
    exact or_iff_right nofun
  show Facts.mk _ _ _ ((s.taskDestroy t .dispatched).ended t) _ _ ((Event.dispatched t :: s.events).count _)
    (decide (_ ∈ Event.dispatched t :: s.events)) = _
  rw [own, count, claimed]
  rfl

theorem facts_flag (s : ThreadPool) (t : Nat) :
    (s.flag t).facts returned t = { s.facts returned t with flag := true } := by
  have own : (s.flag t).tasks t = { s.tasks t with cancelled := true } := Function.update_self _ _ _
  unfold facts
  rw [own]
  rfl

theorem custody_finish (s : ThreadPool) (t result : Nat) :
    ThreadPool.custody (if (s.tasks t).isFuture then
        s.setFuture t { s.futures t with result, hasResult := true, ready := true } else s) held running
        (Function.update returned t (result :: returned t)) live =
      (s.custody held running returned live).setFacts t ((s.facts returned t).finish result) := by
  have others : ∀ x, x ≠ t → Function.update returned t (result :: returned t) x = returned x :=
    fun x other => Function.update_of_ne other _ _
  have own : Function.update returned t (result :: returned t) t = result :: returned t :=
    Function.update_self _ _ _
  split
  · rename_i kind
    refine Custody.ext rfl rfl rfl rfl rfl rfl rfl ?_
    funext x
    by_cases here : x = t
    · have future : (s.setFuture t { s.futures t with result, hasResult := true, ready := true }).futures t =
          { s.futures t with result, hasResult := true, ready := true } := Function.update_self _ _ _
      rw [here, setFacts_self]
      show Facts.mk _ _ _ _ (ThreadPool.futures _ t) (Function.update returned t (result :: returned t) t) _ _ = _
      rw [future, own]
      show _ = Facts.mk _ _ _ _ (if (s.tasks t).isFuture then _ else _) _ _ _
      rw [if_pos kind]
      rfl
    · rw [setFacts_of_ne _ _ here]
      show ThreadPool.facts _ _ x = s.facts returned x
      rw [← (Beside.setFuture s t { s.futures t with result, hasResult := true, ready := true }).others
        returned x here]
      show Facts.mk _ _ _ _ _ (Function.update returned t (result :: returned t) x) _ _ = _
      rw [others x here]
      rfl
  · rename_i kind
    refine Custody.ext rfl rfl rfl rfl rfl rfl rfl ?_
    funext x
    by_cases here : x = t
    · rw [here, setFacts_self]
      show Facts.mk _ _ _ _ _ (Function.update returned t (result :: returned t) t) _ _ = _
      rw [own]
      show _ = Facts.mk _ _ _ _ (if (s.tasks t).isFuture then _ else _) _ _ _
      rw [if_neg kind]
      rfl
    · rw [setFacts_of_ne _ _ here]
      show Facts.mk _ _ _ _ _ (Function.update returned t (result :: returned t) x) _ _ = _
      rw [others x here]
      rfl

theorem parked_pushReady {w x : Nat} (parked : (s.pushReady w t).Parked x) : s.Parked x ∨ x = t := by
  rcases parked with ⟨v, member⟩ | asleep
  · change x ∈ Function.update s.coroReady w (s.coroReady w ++ [t]) v at member
    by_cases own : v = w
    · rw [own, Function.update_self] at member
      rcases List.mem_append.mp member with old | new
      · exact Or.inl (Or.inl ⟨w, old⟩)
      · exact Or.inr (List.mem_singleton.mp new)
    · rw [Function.update_of_ne own] at member
      exact Or.inl (Or.inl ⟨v, member⟩)
  · exact Or.inl (Or.inr asleep)

theorem parked_timerPush {entry : TimerEntry} {x : Nat} (parked : (s.timerPush entry).Parked x) :
    s.Parked x ∨ x = entry.task := by
  rcases parked with ready | ⟨other, member, same⟩
  · exact Or.inl (Or.inl ready)
  · rcases List.mem_append.mp member with old | new
    · exact Or.inl (Or.inr ⟨other, old, same⟩)
    · rw [List.mem_singleton.mp new] at same
      exact Or.inr same.symm

/-- What a call under the lock does to the tasks, to the index and to the coroutines. -/
structure Calls (named : Prop) (held : Nat → Option (Nat × Stage)) (running : Nat → Option Nat)
    (returned : Nat → List Nat) (s : ThreadPool) (live : Finset Nat) (s' : ThreadPool)
    (live' : Finset Nat) : Prop where
  moves : Custody.Moves named (s.custody held running returned live) (s'.custody held running returned live')
  holds : Holds s'.dataOf s'.index live'
  stale : ∀ x, s'.index.Stale x → s.index.Stale x
  parked : ∀ x, s'.Parked x → s.Parked x

theorem Calls.refl (index : Holds s.dataOf s.index live) :
    Calls named held running returned s live s live :=
  ⟨.refl, index, fun _ => id, fun _ => id⟩

theorem Calls.trans {s'' : ThreadPool} {live'' : Finset Nat}
    (first : Calls named held running returned s live s' live')
    (second : Calls named held running returned s' live' s'' live'') :
    Calls named held running returned s live s'' live'' where
  moves := first.moves.trans second.moves
  holds := second.holds
  stale := fun x stale => first.stale x (second.stale x stale)
  parked := fun x parked => first.parked x (second.parked x parked)

section Cancels

variable (good : Good named (s.custody held running returned live)) (index : Holds s.dataOf s.index live)

include good in
theorem plain_of_live (listed : t ∈ live) : (s.tasks t).isCoro = false :=
  good.plain (good.live t listed) nofun

include good in
theorem notMem_of_coro (kind : (s.tasks t).isCoro = true) : t ∉ live :=
  fun listed => absurd ((plain_of_live good listed).symm.trans kind) nofun

/-- A task of the index is flagged, and its entry goes. -/
theorem calls_flagged {after : CancelIndex} (listed : t ∈ live)
    (unflagged : (s.tasks t).cancelled = false) (holds : Holds s.dataOf after (live.erase t))
    (older : ∀ x, after.Stale x → s.index.Stale x) : Calls named held running returned s live
      ({ s.flag t with index := after, queueLen := s.queueLen - 1 }.emit (.cancelled t))
      (live.erase t) := by
  let lowered : ThreadPool := { s with index := after, queueLen := s.queueLen - 1 }
  have beside : Beside t lowered ((lowered.flag t).emit (.cancelled t)) :=
    (Beside.flag lowered t).trans (Beside.emit _ rfl)
  have facts : ((lowered.flag t).emit (.cancelled t)).facts returned t =
      { s.facts returned t with flag := true, claimed := true } := by
    rw [facts_cancelled]
    exact congrArg (fun f : Facts => { f with claimed := true }) (facts_flag lowered t)
  refine ⟨.single ?_, ?_, older, fun _ => id⟩
  · show Custody.Move named _ (((lowered.flag t).emit (.cancelled t)).custody _ _ _ _)
    rw [beside.custody, facts]
    exact Custody.Move.cancelPooled listed unflagged
  · show Holds (s.flag t).dataOf _ _
    rw [dataOf_flag]
    exact holds

include good index

/-- A task of the index is flagged and claimed: the claim is won. -/
theorem calls_claim (listed : t ∈ live) (unflagged : (s.tasks t).cancelled = false) :
    ∃ final, (s.flag t).claim t = some final ∧
      Calls named held running returned s live final (live.erase t) := by
  obtain ⟨won, after, older⟩ := index.claim_live listed
  have plain := plain_of_live good listed
  let claimed : ThreadPool := { s.flag t with
    index := (cancelIndexClaim s.index t).1, queueLen := s.queueLen - 1 }
  have kind : (claimed.tasks t).isCoro = false := (Beside.flag s t).kind.trans plain
  have found : (s.flag t).claim t = some (claimed.emit (.cancelled t)) := by
    unfold ThreadPool.claim
    refine (if_pos won).trans ?_
    show some ((if (claimed.tasks t).isCoro then claimed.resolveCancelled t else claimed).emit _) = _
    rw [kind]
    rfl
  exact ⟨_, found, calls_flagged listed unflagged after older⟩

/-- The scan of the index claims the first match; without one it changes nothing. -/
theorem calls_cancelScan (data : Nat) (slots : List Nat) (inside : ∀ h ∈ slots, h < s.index.cap) :
    cancelScan data slots s = (s, false) ∨
      ∃ final live', cancelScan data slots s = (final, true) ∧
        Calls named held running returned s live final live' := by
  induction slots with
  | nil => exact Or.inl rfl
  | cons h rest ih =>
    have later := ih fun x member => inside x (List.mem_cons_of_mem h member)
    unfold cancelScan
    dsimp only
    split
    · exact later
    · rename_i occupied
      obtain ⟨t, listed, -, pointer⟩ := index.occupied (inside h List.mem_cons_self) (by omega)
      simp only [pointer]
      split
      · exact later
      · rename_i wanted
        have unflagged : (s.tasks t).cancelled = false :=
          Bool.eq_false_iff.mpr fun flagged => wanted (Or.inl flagged)
        obtain ⟨final, claimed, calls⟩ := calls_claim good index listed unflagged
        refine Or.inr ⟨final, live.erase t, ?_, calls⟩
        simp only [claimed]

theorem calls_cancelLane {found : Nat → Bool} (cancelled : s.cancelLane found = some s') :
    Calls named held running returned s live s' live := by
  unfold cancelLane at cancelled
  split at cancelled
  · cases cancelled
  · rename_i t lanes taken
    cases cancelled
    obtain ⟨left, -⟩ := unlinkFirst_perm taken
    let unlinked : ThreadPool := { s with lanes, queueLen := s.queueLen - 1 }
    have absent : t ∉ live := good.not_live (by rw [good.place_lane left]; exact nofun)
    have settled : ∀ u : ThreadPool, Beside t u (if (u.tasks t).isCoro then u.resolveCancelled t else u) := by
      intro u
      split
      · exact Beside.resolveCancelled u t
      · exact Beside.refl t u
    have beside : Beside t unlinked _ := (((Beside.markFutureCancelled unlinked t).trans
      (settled _)).trans (Beside.taskDestroy _ t .cancelled)).trans (@Beside.emit t _ (.cancelled t) rfl)
    have cleared : Holds unlinked.dataOf unlinked.index live := index
    refine ⟨.single ?_, beside.holds absent cleared, ?_, beside.parked⟩
    · rw [beside.custody]
      cases kind : (s.tasks t).isCoro with
      | false =>
        have same : ((unlinked.markFutureCancelled t).tasks t).isCoro = false :=
          (Beside.markFutureCancelled unlinked t).kind.trans kind
        rw [same, facts_cancelled]
        show Custody.Move _ _ (Custody.setFacts _ t { ThreadPool.facts
          ((unlinked.markFutureCancelled t).taskDestroy t .cancelled) returned t with claimed := true })
        rw [facts_skip]
        exact Custody.Move.cancelLane left kind
      | true => exact Custody.Move.leaveLane left kind (beside.kind.trans kind) beside.ended
    · intro x stale
      rwa [beside.index] at stale

theorem calls_cancelAsleep (known : t ≤ s.nextTaskId) (kind : (s.tasks t).isCoro = true) :
    Calls named held running returned s live (s.cancelAsleep t) live := by
  have beside := Beside.cancelAsleep s t
  refine ⟨.single ?_, beside.holds (notMem_of_coro good kind) index, ?_, beside.parked⟩
  · rw [beside.custody]
    exact Custody.Move.aside known kind (beside.kind.trans kind) beside.ended
  · intro x stale
    rwa [beside.index] at stale

theorem calls_cancel (parked : ∀ x, s.Parked x → (s.tasks x).isCoro = true ∧ x ≤ s.nextTaskId)
    (data : Nat) :
    ∃ live', Calls named held running returned s live (s.loomPoolCancel data).1 live' := by
  unfold loomPoolCancel
  split
  · exact ⟨live, Calls.refl index⟩
  · rcases calls_cancelScan good index data (List.range s.index.cap) (by simp) with
      missed | ⟨final, live', result, calls⟩
    · simp only [missed]
      split
      · rename_i entry asleep
        obtain ⟨kind, known⟩ := parked entry.task
          (Or.inr ⟨entry, List.mem_of_find?_eq_some asleep, rfl⟩)
        exact ⟨live, calls_cancelAsleep good index known kind⟩
      · split
        · rename_i final cancelled
          exact ⟨live, calls_cancelLane good index cancelled⟩
        · exact ⟨live, Calls.refl index⟩
    · simp only [result]
      exact ⟨live', calls⟩

/-- A sleeping coroutine is flagged, and moved to the FIFO of its worker if there is memory. -/
theorem calls_rouse {entry : TimerEntry} {timerHeap : List TimerEntry} (asleep : entry ∈ s.timerHeap)
    (fewer : timerHeap ⊆ s.timerHeap) (posts : Nat) (known : entry.task ≤ s.nextTaskId)
    (kind : (s.tasks entry.task).isCoro = true) (alloc : Bool) :
    Calls named held running returned s live
      (if alloc then
        { (cancelAsleep { s with timerHeap } entry.task).pushReady entry.workerIdx entry.task with posts }
      else cancelAsleep { s with timerHeap } entry.task) live := by
  have cleared : Calls named held running returned s live { s with timerHeap } live := by
    refine ⟨.refl, index, fun _ => id, ?_⟩
    rintro x (ready | ⟨other, member, same⟩)
    · exact Or.inl ready
    · exact Or.inr ⟨other, fewer member, same⟩
  have roused := cleared.trans
    (@calls_cancelAsleep { s with timerHeap } entry.task named held running returned live good index known kind)
  generalize cancelAsleep { s with timerHeap } entry.task = pool at roused ⊢
  split
  · refine ⟨roused.moves, roused.holds, roused.stale, ?_⟩
    intro x parked
    rcases parked_pushReady parked with before | rfl
    · exact roused.parked x before
    · exact Or.inr ⟨entry, asleep, rfl⟩
  · exact roused

omit good in
/-- loom_pool_cancel_all claims the task of a slot. -/
theorem calls_claimSlot {h : Nat} (inside : h < s.index.cap) (listed : t ∈ live)
    (unflagged : (s.tasks t).cancelled = false) (here : (s.index.slots h).taskId = t + 1) :
    Calls named held running returned s live (s.claimSlot h t) (live.erase t) := by
  exact calls_flagged listed unflagged (index.tombstone inside listed here rfl)
    fun x stale => stale.of_setSlot (Or.inr rfl)

theorem calls_cancelAllScan (slots : List Nat) (inside : ∀ h ∈ slots, h < s.index.cap) :
    ∃ live', Calls named held running returned s live (cancelAllScan slots s).1 live' := by
  induction slots generalizing s live with
  | nil => exact ⟨live, Calls.refl index⟩
  | cons h rest ih =>
    have bounds : ∀ x ∈ rest, x < s.index.cap := fun x member =>
      inside x (List.mem_cons_of_mem h member)
    unfold cancelAllScan
    dsimp only
    split
    · exact ih good index bounds
    · rename_i taken
      obtain ⟨t, listed, here, pointer⟩ := index.occupied (inside h List.mem_cons_self) (by omega)
      simp only [pointer]
      split
      · exact ih good index bounds
      · rename_i unflagged
        have calls : Calls named held running returned s live (s.claimSlot h t) (live.erase t) :=
          calls_claimSlot index (inside h List.mem_cons_self) listed (Bool.eq_false_iff.mpr unflagged) here
        obtain ⟨live', later⟩ := ih (good.moves calls.moves) calls.holds bounds
        exact ⟨live', calls.trans later⟩

end Cancels

/-- The tasks of the emptied lanes are destroyed one by one. -/
theorem moves_drainTasks (list : List Nat)
    (good : Good named { s.custody held running returned live with lanes := list ++ laneTasks s.lanes })
    (index : Holds s.dataOf s.index live) :
    Custody.Moves named { s.custody held running returned live with lanes := list ++ laneTasks s.lanes }
        ((list.foldl drainTask s).custody held running returned live) ∧
      Holds (list.foldl drainTask s).dataOf (list.foldl drainTask s).index live ∧
      (list.foldl drainTask s).index = s.index ∧
      ∀ x, (list.foldl drainTask s).Parked x → s.Parked x := by
  induction list generalizing s with
  | nil => exact ⟨.refl, index, rfl, fun _ => id⟩
  | cons t rest ih =>
    let lowered : ThreadPool := { s with queueLen := s.queueLen - 1 }
    have same : s.drainTask t =
        ((lowered.markFutureCancelled t).taskDestroy t .cancelled).emit (.cancelled t) := by
      unfold drainTask markFutureCancelled
      split <;> rfl
    have beside : Beside t lowered (s.drainTask t) := by
      rw [same]
      exact ((Beside.markFutureCancelled lowered t).trans (Beside.taskDestroy _ t _)).trans
        (Beside.emit _ rfl)
    have left : ((t :: rest) ++ laneTasks s.lanes).Perm (t :: (rest ++ laneTasks s.lanes)) :=
      List.Perm.refl _
    have absent : t ∉ live := good.not_live (by rw [good.place_lane left]; exact nofun)
    have step : Custody.Move named
        { s.custody held running returned live with lanes := (t :: rest) ++ laneTasks s.lanes }
        { (s.drainTask t).custody held running returned live with
          lanes := rest ++ laneTasks (s.drainTask t).lanes } := by
      rw [beside.custody, beside.lanes]
      cases kind : (s.tasks t).isCoro with
      | false =>
        rw [same, facts_cancelled, facts_skip]
        exact Custody.Move.cancelLane left kind
      | true => exact Custody.Move.leaveLane left kind (beside.kind.trans kind) beside.ended
    obtain ⟨moves, holds, kept, parked⟩ := ih (good.move step) (beside.holds absent index)
    exact ⟨moves.head step, holds, kept.trans beside.index, fun x later => beside.parked x (parked x later)⟩

theorem calls_cancelAll (good : Good named (s.custody held running returned live))
    (index : Holds s.dataOf s.index live) :
    ∃ live', Calls named held running returned s live s.loomPoolCancelAll.1 live' := by
  obtain ⟨live', scanned⟩ := calls_cancelAllScan good index (List.range s.index.cap) (by simp)
  let final := (cancelAllScan (List.range s.index.cap) s).1
  let emptied : ThreadPool := { final with lanes := fun _ => [] }
  have empty : laneTasks emptied.lanes = [] := Bins.all_eq_nil fun _ _ => rfl
  have whole : { emptied.custody held running returned live' with
      lanes := laneTasks final.lanes ++ laneTasks emptied.lanes } =
      final.custody held running returned live' := by
    rw [empty, List.append_nil]
    rfl
  obtain ⟨moves, holds, kept, parked⟩ := @moves_drainTasks emptied named held running returned live'
    (laneTasks final.lanes) (by rw [whole]; exact good.moves scanned.moves) scanned.holds
  rw [whole] at moves
  refine ⟨live', scanned.moves.trans moves, holds, fun x stale => ?_, fun x later => ?_⟩
  · change (List.foldl drainTask emptied (laneTasks final.lanes)).index.Stale x at stale
    rw [kept] at stale
    exact scanned.stale x stale
  · exact scanned.parked x (parked x later)

end ThreadPool

end Loomworks.Pool

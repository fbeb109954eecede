import Loomworks.ResidenceStep
import Loomworks.Sites

/- What a step does to the places of the pool's coroutines. -/
namespace Loomworks.Pool.Residence

open Loomworks.Timer (Entry TimerHeap)
open Sites

/-- Where the task of a coroutine can be: in the lane, on its way to be created, in the
hands of its worker, in a ready FIFO, in the timer heap or in the hands of a
cancel_by_id. -/
inductive Spot where
  | queued
  | dispatching (w : Nat)
  | held (w : Nat)
  | ready (w : Nat)
  | timer (w : Nat)
  | handed (w : Nat)
  deriving DecidableEq, Repr

/-- The worker of the coroutines in a spot; before its creation one has none. -/
def Spot.owner : Spot → Option Nat
  | .queued | .dispatching _ => none
  | .held w | .ready w | .timer w | .handed w => some w

/-- The coroutines a worker has in its hands, without one whose sleep is registered. -/
def WorkerPc.holds : WorkerPc → List Nat
  | .ready t | .inBody t _ | .leaveTimer t => [t]
  | .leaveFifo rest => rest
  | _ => []

def WorkerPc.dispatches : WorkerPc → List Nat
  | .dispatching t => [t]
  | _ => []

/-- The worker holds pool->lock. -/
def WorkerPc.locks : WorkerPc → Bool
  | .chosen | .drainHeap | .drainReady _ | .fetch | .leaveReady | .leaveFifo _ | .leaveScan
  | .leaveTimer _ | .leaveSpill => true
  | _ => false

def Lock.hands (w : Nat) : Lock → List Nat
  | .canceller entry => if entry.workerIdx = w then [entry.taskId] else []
  | _ => []

namespace State

def site (s : State) : Spot → List Nat
  | .queued => s.lane
  | .dispatching w => (s.workers w).dispatches
  | .held w => (s.workers w).holds
  | .ready w => s.coroReady w
  | .timer w => s.sleeping w
  | .handed w => s.lock.hands w

end State

/-- The places and what is known of the tasks. -/
structure Homes where
  site : Spot → List Nat
  owner : Nat → Option Nat
  ended : Nat → Option Ending
  nextTaskId : Nat

def State.homes (s : State) : Homes := ⟨s.site, s.owner, s.ended, s.nextTaskId⟩

/-- The ways a coroutine goes from one place to the next one. -/
inductive Route : Actor → Spot → Spot → Prop
  | fetches (w : Nat) : Route (.worker w) .queued (.dispatching w)
  | takes (w : Nat) : Route (.worker w) (.ready w) (.held w)
  | parks (w : Nat) : Route (.worker w) (.held w) (.ready w)
  | sleeps (w : Nat) : Route (.worker w) (.held w) (.timer w)
  | picks (w : Nat) : Route (.worker w) (.timer w) (.held w)
  | fires (w : Nat) : Route .timer (.timer w) (.ready w)
  | seized (w : Nat) : Route .caller (.timer w) (.handed w)
  | hands (w : Nat) : Route .caller (.handed w) (.ready w)

/-- Where a task can come to its end. -/
inductive Exit : Actor → Spot → Prop
  | cancelled : Exit .caller .queued
  | skipped (w : Nat) : Exit (.worker w) .queued
  | uncreated (w : Nat) : Exit (.worker w) (.dispatching w)
  | finished (w : Nat) : Exit (.worker w) (.held w)

/-- What a step can do to the places; lossy steps can lose a coroutine. -/
inductive Effect (lossy : Prop) (actor : Actor) (h : Homes) : Homes → Prop
  | quiet (site : Spot → List Nat) (same : ∀ p, (site p).Perm (h.site p)) :
      Effect lossy actor h { h with site }
  | submits (site : Spot → List Nat) (called : actor = .caller)
      (moved : Relocates h.site site (h.nextTaskId + 1) (some .queued)) :
      Effect lossy actor h
        { site
          owner := Function.update h.owner (h.nextTaskId + 1) none
          ended := Function.update h.ended (h.nextTaskId + 1) none
          nextTaskId := h.nextTaskId + 1 }
  | shifts (site : Spot → List Nat) (t : Nat) (p q : Spot) (route : Route actor p q)
      (member : t ∈ h.site p) (moved : Relocates h.site site t (some q)) :
      Effect lossy actor h { h with site }
  | creates (site : Spot → List Nat) (t w : Nat) (own : actor = .worker w)
      (member : t ∈ h.site (.dispatching w)) (moved : Relocates h.site site t (some (.held w))) :
      Effect lossy actor h { h with site, owner := Function.update h.owner t (some w) }
  | drains (site : Spot → List Nat) (w : Nat) (own : actor = .worker w)
      (free : h.site (.held w) = []) (taken : site (.held w) = h.site (.ready w))
      (left : site (.ready w) = [])
      (rest : ∀ p, p ≠ .ready w → p ≠ .held w → (site p).Perm (h.site p)) :
      Effect lossy actor h { h with site }
  | ends (site : Spot → List Nat) (t : Nat) (p : Spot) (how : Ending) (exit : Exit actor p)
      (member : t ∈ h.site p) (moved : Relocates h.site site t none) :
      Effect lossy actor h { h with site, ended := Function.update h.ended t (some how) }
  | loses (site : Spot → List Nat) (t w : Nat) (cause : lossy) (called : actor = .caller)
      (member : t ∈ h.site (.handed w)) (moved : Relocates h.site site t none) :
      Effect lossy actor h { h with site }

variable {s s' : State} {w t : Nat} {lossy : Prop} {actor : Actor}

namespace State

theorem site_setWorker_of_ne {pc : WorkerPc} {p : Spot} (held : p ≠ .held w)
    (dispatching : p ≠ .dispatching w) : (s.setWorker w pc).site p = s.site p := by
  cases p with
  | held v =>
    have other : v ≠ w := fun same => held (by rw [same])
    show (Function.update s.workers w pc v).holds = (s.workers v).holds
    rw [Function.update_of_ne other]
  | dispatching v =>
    have other : v ≠ w := fun same => dispatching (by rw [same])
    show (Function.update s.workers w pc v).dispatches = (s.workers v).dispatches
    rw [Function.update_of_ne other]
  | queued | ready | timer | handed => rfl

theorem site_setWorker_held (s : State) (w : Nat) (pc : WorkerPc) :
    (s.setWorker w pc).site (.held w) = pc.holds := by
  show (Function.update s.workers w pc w).holds = pc.holds
  rw [Function.update_self]

theorem site_setWorker_dispatching (s : State) (w : Nat) (pc : WorkerPc) :
    (s.setWorker w pc).site (.dispatching w) = pc.dispatches := by
  show (Function.update s.workers w pc w).dispatches = pc.dispatches
  rw [Function.update_self]

/-- A worker that creates nothing changes only what it has in its hands. -/
theorem site_setWorker {old pc : WorkerPc} {p : Spot} (here : s.workers w = old)
    (dispatches : pc.dispatches = old.dispatches) (elsewhere : p ≠ .held w) :
    (s.setWorker w pc).site p = s.site p := by
  by_cases own : p = .dispatching w
  · rw [own, site_setWorker_dispatching, dispatches, ← here]
    rfl
  · exact site_setWorker_of_ne elsewhere own

theorem site_setWorker_same {old pc : WorkerPc} (here : s.workers w = old)
    (holds : pc.holds = old.holds) (dispatches : pc.dispatches = old.dispatches) {p : Spot} :
    (s.setWorker w pc).site p = s.site p := by
  by_cases own : p = .held w
  · rw [own, site_setWorker_held, holds, ← here]
    rfl
  · exact site_setWorker here dispatches own

theorem site_pushReady (s : State) (w t : Nat) :
    ((s.pushReady w t).site (.ready w)).Perm (t :: s.site (.ready w)) := by
  show (Function.update s.coroReady w (s.coroReady w ++ [t]) w).Perm _
  rw [Function.update_self]
  exact List.perm_append_singleton t _

theorem site_coroReady {list : List Nat} {p : Spot} (elsewhere : p ≠ .ready w) :
    ({ s with coroReady := Function.update s.coroReady w list }).site p = s.site p := by
  cases p with
  | ready v =>
    have other : v ≠ w := fun same => elsewhere (by rw [same])
    exact Function.update_of_ne other _ _
  | queued | dispatching | held | timer | handed => rfl

/-- The timer spots after an entry has come to the heap. -/
theorem site_timer_put {timerHeap : TimerHeap} {entry : Entry}
    (put : timerHeap.entries.Perm (entry :: s.timerHeap.entries)) :
    (({ s with timerHeap }).site (.timer entry.workerIdx)).Perm
        (entry.taskId :: s.site (.timer entry.workerIdx)) ∧
      ∀ v, v ≠ entry.workerIdx → (({ s with timerHeap }).site (.timer v)).Perm (s.site (.timer v)) := by
  have filtered : ∀ v, (({ s with timerHeap }).site (.timer v)).Perm
      (((entry :: s.timerHeap.entries).filter fun e : Entry => e.workerIdx = v).map Entry.taskId) :=
    fun v => (put.filter _).map _
  constructor
  · have here := filtered entry.workerIdx
    rw [List.filter_cons_of_pos (by simp)] at here
    exact here
  · intro v other
    have here := filtered v
    rw [List.filter_cons_of_neg (by simpa using Ne.symm other)] at here
    exact here

/-- The timer spots after an entry has left the heap. -/
theorem site_timer_take {timerHeap : TimerHeap} {entry : Entry}
    (taken : s.timerHeap.entries.Perm (entry :: timerHeap.entries)) :
    (s.site (.timer entry.workerIdx)).Perm
        (entry.taskId :: ({ s with timerHeap }).site (.timer entry.workerIdx)) ∧
      ∀ v, v ≠ entry.workerIdx → (({ s with timerHeap }).site (.timer v)).Perm (s.site (.timer v)) := by
  have back := @site_timer_put { s with timerHeap } s.timerHeap entry taken
  exact ⟨back.1, fun v other => (back.2 v other).symm⟩

theorem mem_site_timer {entry : Entry} (member : entry ∈ s.timerHeap.entries) :
    entry.taskId ∈ s.site (.timer entry.workerIdx) := by
  apply List.mem_map_of_mem
  exact List.mem_filter.mpr ⟨member, decide_eq_true rfl⟩

theorem relocates_toHand {s₁ : State} {old pc : WorkerPc} (a : Spot) (apart : Apart s.site)
    (here : s₁.workers w = old) (empty : old.holds = []) (dispatches : pc.dispatches = old.dispatches)
    (holds : pc.holds = [t]) (differs : a ≠ .held w) (taken : (s.site a).Perm (t :: s₁.site a))
    (rest : ∀ p, p ≠ a → (s₁.site p).Perm (s.site p)) :
    Relocates s.site (s₁.setWorker w pc).site t (some (.held w)) := by
  have free : s.site (.held w) = [] := by
    have same := rest (.held w) (Ne.symm differs)
    have nothing : s₁.site (.held w) = [] := by
      show (s₁.workers w).holds = []
      rw [here, empty]
    rw [nothing] at same
    exact same.nil_eq.symm
  apply apart.relocate differs
  · rw [site_setWorker here dispatches differs]
    exact taken
  · rw [site_setWorker_held, holds, free]
  · intro p notA notHeld
    rw [site_setWorker here dispatches notHeld]
    exact rest p notA

theorem relocates_fromHand {s₁ : State} {old pc : WorkerPc} (b : Spot) (apart : Apart s.site)
    (here : s.workers w = old) (kept : s₁.workers = s.workers) (holds : old.holds = [t])
    (dispatches : pc.dispatches = old.dispatches) (empty : pc.holds = []) (differs : b ≠ .held w)
    (put : (s₁.site b).Perm (t :: s.site b)) (rest : ∀ p, p ≠ b → (s₁.site p).Perm (s.site p)) :
    Relocates s.site (s₁.setWorker w pc).site t (some b) := by
  have there : s₁.workers w = old := by rw [kept, here]
  apply apart.relocate (Ne.symm differs)
  · rw [site_setWorker_held, empty]
    show ((s.workers w).holds).Perm [t]
    rw [here, holds]
  · rw [site_setWorker there dispatches differs]
    exact put
  · intro p notHeld notB
    rw [site_setWorker there dispatches notHeld]
    exact rest p notB

theorem relocates_endHand {s₁ : State} {old pc : WorkerPc} (apart : Apart s.site)
    (here : s.workers w = old) (kept : s₁.workers = s.workers) (same : s₁.site = s.site)
    (holds : old.holds = t :: pc.holds) (dispatches : pc.dispatches = old.dispatches) :
    Relocates s.site (s₁.setWorker w pc).site t none := by
  have there : s₁.workers w = old := by rw [kept, here]
  apply apart.remove (a := .held w)
  · rw [site_setWorker_held]
    show ((s.workers w).holds).Perm (t :: pc.holds)
    rw [here, holds]
  · intro p notHeld
    rw [site_setWorker there dispatches notHeld, same]

theorem effect_setWorker {s₁ : State} {old pc : WorkerPc} (here : s.workers w = old)
    (kept : s₁.workers = s.workers) (same : ∀ p, (s₁.site p).Perm (s.site p))
    (holds : pc.holds = old.holds) (dispatches : pc.dispatches = old.dispatches)
    (owner : s₁.owner = s.owner) (ended : s₁.ended = s.ended) (next : s₁.nextTaskId = s.nextTaskId) :
    Effect lossy actor s.homes (s₁.setWorker w pc).homes := by
  have there : s₁.workers w = old := by rw [kept, here]
  have whole : (s₁.setWorker w pc).homes = { s.homes with site := (s₁.setWorker w pc).site } := by
    show Homes.mk _ s₁.owner s₁.ended s₁.nextTaskId = _
    rw [owner, ended, next]
    rfl
  rw [whole]
  apply Effect.quiet
  intro p
  rw [site_setWorker_same there holds dispatches]
  exact same p

/-- Giving up a lock that no canceller holds moves nothing. -/
theorem site_unlock (own : s.lock = .worker w) (p : Spot) : s.unlock.site p = s.site p := by
  cases p with
  | handed v =>
    show Lock.hands v .free = Lock.hands v s.lock
    rw [own]
    rfl
  | _ => rfl

theorem effect_endHand {s₁ : State} {old pc : WorkerPc} {how : Ending} (apart : Apart s.site)
    (here : s.workers w = old) (kept : s₁.workers = s.workers) (same : s₁.site = s.site)
    (holds : old.holds = t :: pc.holds) (dispatches : pc.dispatches = old.dispatches)
    (owner : s₁.owner = s.owner) (ended : s₁.ended = Function.update s.ended t (some how))
    (next : s₁.nextTaskId = s.nextTaskId) :
    Effect lossy (.worker w) s.homes (s₁.setWorker w pc).homes := by
  have whole : (s₁.setWorker w pc).homes =
      { s.homes with
        site := (s₁.setWorker w pc).site, ended := Function.update s.homes.ended t (some how) } := by
    show Homes.mk _ s₁.owner s₁.ended s₁.nextTaskId = _
    rw [owner, ended, next]
    rfl
  have member : t ∈ s.site (.held w) := by
    show t ∈ (s.workers w).holds
    rw [here, holds]
    exact List.mem_cons_self
  rw [whole]
  exact Effect.ends _ t (.held w) how (.finished w) member
    (relocates_endHand apart here kept same holds dispatches)

theorem effect_terminate {old pc : WorkerPc} (apart : Apart s.site) (here : s.workers w = old)
    (holds : old.holds = t :: pc.holds) (dispatches : pc.dispatches = old.dispatches) :
    Effect lossy (.worker w) s.homes ((s.terminate t).setWorker w pc).homes := by
  obtain ⟨tasks, futures, -, shape⟩ := terminate_eq s t
  rw [shape]
  exact effect_endHand apart here rfl (funext fun p => by cases p <;> rfl) holds dispatches rfl rfl rfl

theorem effect_same (site : ∀ p, (s'.site p).Perm (s.site p)) (owner : s'.owner = s.owner)
    (ended : s'.ended = s.ended) (next : s'.nextTaskId = s.nextTaskId) :
    Effect lossy actor s.homes s'.homes := by
  have whole : s'.homes = { s.homes with site := s'.site } := by
    show Homes.mk _ s'.owner s'.ended s'.nextTaskId = _
    rw [owner, ended, next]
    rfl
  rw [whole]
  exact Effect.quiet _ site

theorem mem_queued {rest : List Nat} (lane : s.lane = t :: rest) : t ∈ s.site .queued := by
  show t ∈ s.lane
  rw [lane]
  exact List.mem_cons_self

theorem mem_dispatching (here : s.workers w = .dispatching t) : t ∈ s.site (.dispatching w) := by
  show t ∈ (s.workers w).dispatches
  rw [here]
  exact List.mem_cons_self

/-- A dispatched task is the only one of its worker. -/
theorem dispatched {s₁ : State} {pc : WorkerPc} (here : s.workers w = .dispatching t)
    (dispatches : pc.dispatches = []) :
    (s.site (.dispatching w)).Perm (t :: (s₁.setWorker w pc).site (.dispatching w)) := by
  rw [site_setWorker_dispatching, dispatches]
  show ((s.workers w).dispatches).Perm [t]
  rw [here]
  rfl

/-- Taking from the lane and giving up the lock. -/
theorem site_lane (own : s.lock = .worker w) (rest : List Nat) {p : Spot} (elsewhere : p ≠ .queued) :
    ({ s with lane := rest }.unlock).site p = s.site p := by
  cases p with
  | queued => exact absurd rfl elsewhere
  | handed v =>
    show Lock.hands v .free = Lock.hands v s.lock
    rw [own]
    rfl
  | dispatching | held | ready | timer => rfl

/-- What a canceller has in its hands. -/
theorem site_handed {entry : Entry} (holder : s.lock = .canceller entry) :
    entry.taskId ∈ s.site (.handed entry.workerIdx) ∧
      (s.site (.handed entry.workerIdx)).Perm [entry.taskId] ∧
      ∀ v, v ≠ entry.workerIdx → s.site (.handed v) = [] := by
  have hands : ∀ v, s.site (.handed v) = if entry.workerIdx = v then [entry.taskId] else [] := by
    intro v
    show Lock.hands v s.lock = _
    rw [holder]
    rfl
  refine ⟨?_, ?_, ?_⟩
  · rw [hands, if_pos rfl]
    exact List.mem_cons_self
  · rw [hands, if_pos rfl]
  · intro v other
    rw [hands, if_neg (Ne.symm other)]

end State

variable {label : Label}

open State

theorem effect_worker (apart : Apart s.site) (locked : (s.workers w).locks = true → s.lock = .worker w)
    (stepped : WorkerStep s w label s') : Effect lossy (.worker w) s.homes s'.homes := by
  have holds : ∀ {t}, t ∈ (s.workers w).holds → t ∈ s.site (.held w) := fun member => member
  cases stepped with
  | takes t rest here free ready =>
    have member : t ∈ s.site (.ready w) := by
      show t ∈ s.coroReady w
      rw [ready]
      exact List.mem_cons_self
    refine Effect.shifts _ t (.ready w) (.held w) (.takes w) member ?_
    refine relocates_toHand (.ready w) apart here rfl rfl rfl nofun ?_ ?_
    · show (s.coroReady w).Perm (t :: Function.update s.coroReady w rest w)
      rw [ready, Function.update_self]
    · intro p elsewhere
      rw [site_coroReady elsewhere]
  | chooses here free =>
    refine effect_setWorker here rfl ?_ rfl rfl rfl rfl rfl
    intro p
    cases p with
    | handed v =>
      show (Lock.hands v (.worker w)).Perm (Lock.hands v s.lock)
      rw [free]
      rfl
    | _ => rfl
  | displaced here beyond running =>
    exact effect_setWorker here rfl (fun p => by cases p <;> rfl) rfl rfl rfl rfl rfl
  | drained here | looks here | peeks here | stays _ here | finishes here | resumes _ here
  | parked _ here | leaveScan here | leaveSpill here =>
    exact effect_setWorker here rfl (fun _ => .refl _) rfl rfl rfl rfl rfl
  | exits here | runs here | idles here | leaves here =>
    rw [here] at locked
    exact effect_setWorker here rfl (fun p => by rw [site_unlock (locked rfl)]) rfl rfl rfl rfl rfl
  | skips t rest here lane =>
    rw [here] at locked
    refine Effect.ends _ t .queued .cancelled (.skipped w) (mem_queued lane) ?_
    refine apart.remove (a := .queued) (.of_eq lane) fun p elsewhere => ?_
    have kept := site_setWorker_same
      (s := ({ s with lane := rest }.unlock).taskDestroy t .cancelled) (w := w) (p := p) here
      (show WorkerPc.top.holds = WorkerPc.fetch.holds from rfl) rfl
    rw [kept]
    show List.Perm _ (s.site p)
    rw [← site_lane (locked rfl) rest elsewhere]
    cases p <;> rfl
  | dispatches t rest here lane =>
    rw [here] at locked
    refine Effect.shifts _ t .queued (.dispatching w) (.fetches w) (mem_queued lane) ?_
    refine apart.relocate (a := .queued) (b := .dispatching w) nofun (.of_eq lane) ?_ ?_
    · rw [site_setWorker_dispatching]
      show [t].Perm (t :: (s.workers w).dispatches)
      rw [here]
      rfl
    · intro p notQueued notHere
      by_cases own : p = .held w
      · rw [own, site_setWorker_held]
        show [].Perm (s.workers w).holds
        rw [here]
        rfl
      · rw [site_setWorker_of_ne own notHere]
        exact .of_eq (site_lane (locked rfl) rest notQueued)
  | uncreated t here =>
    refine Effect.ends _ t (.dispatching w) .failed (.uncreated w) (mem_dispatching here) ?_
    refine apart.remove (a := .dispatching w) (dispatched here rfl) fun p elsewhere => ?_
    by_cases own : p = .held w
    · rw [own, site_setWorker_held]
      show [].Perm (s.workers w).holds
      rw [here]
      rfl
    · rw [site_setWorker_of_ne own elsewhere]
      cases p <;> rfl
  | creates t coro here =>
    refine Effect.creates _ t w rfl (mem_dispatching here) ?_
    refine apart.relocate (a := .dispatching w) (b := .held w) nofun (dispatched here rfl) ?_ ?_
    · rw [site_setWorker_held]
      show [t].Perm (t :: (s.workers w).holds)
      rw [here]
      rfl
    · intro p notHere notHeld
      rw [site_setWorker_of_ne notHeld notHere]
      cases p <;> rfl
  | drops _ here | leaveNext _ _ here | leaveTimer _ here =>
    exact effect_terminate apart here rfl rfl
  | sleeps t first deadline alloc timerHeap here pushed =>
    have member : t ∈ s.site (.held w) := holds (by rw [here]; exact List.mem_cons_self)
    obtain ⟨put, others⟩ := site_timer_put (s := s) (TimerHeap.entries_push pushed)
    refine Effect.shifts _ t (.held w) (.timer w) (.sleeps w) member ?_
    refine relocates_fromHand (.timer w) apart here rfl rfl rfl rfl nofun put ?_
    intro p elsewhere
    cases p with
    | timer v => exact others v fun same => elsewhere (by rw [same])
    | queued | dispatching | held | ready | handed => rfl
  | yields t first here =>
    have member : t ∈ s.site (.held w) := holds (by rw [here]; exact List.mem_cons_self)
    refine Effect.shifts _ t (.held w) (.ready w) (.parks w) member ?_
    refine relocates_fromHand (.ready w) apart here rfl rfl rfl rfl nofun (site_pushReady s w t) ?_
    intro p elsewhere
    exact .of_eq (site_coroReady elsewhere)
  | ends t first tasks futures how here off leaks =>
    exact effect_endHand apart here rfl (funext fun p => by cases p <;> rfl) rfl rfl rfl rfl rfl
  | leaveReady here =>
    have there : ({ s with coroReady := Function.update s.coroReady w [] }).workers w = .leaveReady := here
    refine Effect.drains _ w rfl ?_ ?_ ?_ ?_
    · show (s.workers w).holds = []
      rw [here]
      rfl
    · exact site_setWorker_held _ _ _
    · exact Eq.trans (site_setWorker there rfl nofun) (Function.update_self _ _ _)
    · intro p notReady notHeld
      exact .of_eq (Eq.trans (site_setWorker there rfl notHeld) (site_coroReady notReady))
  | leavePick victim entry timerHeap here found removed =>
    obtain ⟨named, taken⟩ := TimerHeap.entries_removeByTask removed
    have there : entry.taskId ∈ s.site (.timer entry.workerIdx) :=
      mem_site_timer (taken.mem_iff.mpr List.mem_cons_self)
    have own : entry.workerIdx = w := by
      have mine := mem_site_timer (List.mem_of_find?_eq_some found)
      have matched := List.find?_some found
      rw [named] at there
      have same := Spot.timer.inj (apart.unique there mine)
      rw [same]
      exact of_decide_eq_true matched
    rw [own] at there
    obtain ⟨gone, others⟩ := site_timer_take (s := s) taken
    rw [own] at gone others
    refine Effect.shifts _ entry.taskId (.timer w) (.held w) (.picks w) there ?_
    refine relocates_toHand (.timer w) apart here rfl rfl rfl nofun gone ?_
    intro p elsewhere
    cases p with
    | timer v => exact others v fun same => elsewhere (by rw [same])
    | queued | dispatching | held | ready | handed => rfl

theorem effect_timer (apart : Apart s.site)
    (bounded : ∀ {v t}, t ∈ s.site (.timer v) → v < s.maxWorkerCount)
    (stepped : TimerStep s label s') : Effect lossy .timer s.homes s'.homes := by
  have popped_mem : ∀ {entry : Entry} {timerHeap : TimerHeap},
      s.timerHeap.loomTimerPopDue = some (entry, timerHeap) →
      entry.taskId ∈ s.site (.timer entry.workerIdx) := fun popped =>
    mem_site_timer ((TimerHeap.entries_popDue popped).1.mem_iff.mpr List.mem_cons_self)
  cases stepped with
  | loads | stops | waits | wakes | done =>
    exact effect_same (fun p => by cases p <;> rfl) rfl rfl rfl
  | fires entry timerHeap allocated due popped =>
    obtain ⟨gone, others⟩ := site_timer_take (s := s) (TimerHeap.entries_popDue popped).1
    refine Effect.shifts _ entry.taskId _ _ (.fires entry.workerIdx) (popped_mem popped) ?_
    apply apart.relocate (a := .timer entry.workerIdx) (b := .ready entry.workerIdx) nofun
    · exact gone
    · exact site_pushReady _ _ _
    · intro p notTimer notReady
      rw [pushReady, site_coroReady notReady]
      cases p with
      | timer v => exact others v fun same => notTimer (by rw [same])
      | queued | dispatching | held | ready | handed => rfl
  | vanishes entry timerHeap popped beyond =>
    exact absurd (bounded (popped_mem popped)) (Nat.not_lt.mpr beyond)
  | rearms now entry timerHeap again here popped pushed =>
    refine effect_same (fun p => ?_) rfl rfl rfl
    have back := (TimerHeap.entries_push pushed).trans (TimerHeap.entries_popDue popped).1.symm
    cases p with
    | timer v => exact (back.filter _).map _
    | queued | dispatching | held | ready | handed => rfl

theorem effect_caller (apart : Apart s.site) (fresh : ∀ p, s.nextTaskId + 1 ∉ s.site p)
    (stepped : CallerStep s label s') :
    Effect (label = .handOver false) .caller s.homes s'.homes := by
  cases stepped with
  | refused => exact effect_same (fun _ => .refl _) rfl rfl rfl
  | submits arg withFuture timer alive free running thread kept =>
    refine Effect.submits _ rfl ?_
    apply apart.insert (b := .queued) fresh
    · exact List.perm_append_singleton _ s.lane
    · intro p elsewhere
      cases p with
      | queued => exact absurd rfl elsewhere
      | dispatching | held | ready | timer | handed => rfl
  | flags data entry member =>
    obtain ⟨tasks, futures, -, shape⟩ := resolveCancelled_eq (s.flag entry.taskId) entry.taskId
    rw [shape]
    exact effect_same (fun p => by cases p <;> rfl) rfl rfl rfl
  | unlinks _ found t picked =>
    obtain ⟨tasks, futures, -, shape⟩ :=
      resolveCancelled_eq { s with lane := s.lane.eraseP found } t
    rw [shape]
    have member : t ∈ s.site .queued := List.mem_of_find?_eq_some picked
    refine Effect.ends _ t .queued .cancelled .cancelled member ?_
    apply apart.remove (a := .queued)
    · exact perm_eraseP picked
    · intro p elsewhere
      cases p with
      | queued => exact absurd rfl elsewhere
      | dispatching | held | ready | timer | handed => rfl
  | seizes id entry timerHeap free removed =>
    obtain ⟨tasks, futures, -, shape⟩ := resolveCancelled_eq
      ({ s with timerHeap, lock := .canceller entry }.flag entry.taskId) entry.taskId
    rw [shape]
    obtain ⟨-, taken⟩ := TimerHeap.entries_removeByTask removed
    have there : entry.taskId ∈ s.site (.timer entry.workerIdx) :=
      mem_site_timer (taken.mem_iff.mpr List.mem_cons_self)
    obtain ⟨gone, others⟩ := site_timer_take (s := s) taken
    refine Effect.shifts _ entry.taskId _ _ (.seized entry.workerIdx) there ?_
    apply apart.relocate (a := .timer entry.workerIdx) (b := .handed entry.workerIdx) nofun
    · exact gone
    · show (Lock.hands entry.workerIdx (.canceller entry)).Perm
        (entry.taskId :: Lock.hands entry.workerIdx s.lock)
      rw [free]
      simp [Lock.hands]
    · intro p notTimer notHanded
      cases p with
      | timer v => exact others v fun same => notTimer (by rw [same])
      | handed v =>
        have other : entry.workerIdx ≠ v := fun same => notHanded (by rw [same])
        show (Lock.hands v (.canceller entry)).Perm (Lock.hands v s.lock)
        rw [free]
        simp [Lock.hands, other]
      | queued | dispatching | held | ready => rfl
  | hands entry holder =>
    obtain ⟨member, gone, nobody⟩ := site_handed holder
    refine Effect.shifts _ entry.taskId _ _ (.hands entry.workerIdx) member ?_
    apply apart.relocate (a := .handed entry.workerIdx) (b := .ready entry.workerIdx) nofun
    · exact gone
    · exact site_pushReady s _ _
    · intro p notHanded notReady
      cases p with
      | handed v => exact .of_eq (nobody v fun same => notHanded (by rw [same])).symm
      | ready v =>
        have other : v ≠ entry.workerIdx := fun same => notReady (by rw [same])
        exact .of_eq (Function.update_of_ne other _ _)
      | queued | dispatching | held | timer => rfl
  | loses entry holder =>
    obtain ⟨member, gone, nobody⟩ := site_handed holder
    refine Effect.loses _ entry.taskId entry.workerIdx rfl rfl member ?_
    apply apart.remove (a := .handed entry.workerIdx)
    · exact gone
    · intro p notHanded
      cases p with
      | handed v => exact .of_eq (nobody v fun same => notHanded (by rw [same])).symm
      | queued | dispatching | held | ready | timer => rfl
  | resizes count =>
    refine effect_same (fun p => .of_eq ?_) rfl rfl rfl
    cases p with
    | dispatching v =>
      show (if _ then WorkerPc.top else s.workers v).dispatches = (s.workers v).dispatches
      split
      · rename_i fresh
        rw [fresh.2.2]
        rfl
      · rfl
    | held v =>
      show (if _ then WorkerPc.top else s.workers v).holds = (s.workers v).holds
      split
      · rename_i fresh
        rw [fresh.2.2]
        rfl
      · rfl
    | queued | ready | timer | handed => rfl
  | joins w here beyond => exact effect_setWorker here rfl (fun _ => .refl _) rfl rfl rfl rfl rfl
  | closes | passes | untimed | stops | returns =>
    exact effect_same (fun p => by cases p <;> rfl) rfl rfl rfl
  | awaits i here exited =>
    exact effect_setWorker exited rfl (fun p => by cases p <;> rfl) rfl rfl rfl rfl rfl

end Loomworks.Pool.Residence

import Loomworks.ResidencePlaces

/- Workers that leave: what is empty on the way out and afterwards. -/
namespace Loomworks.Pool.Residence

open Loomworks.Timer (Entry TimerHeap)
open Sites Transition

variable {s s' : State} {w t : Nat} {lossy : Prop} {actor : Actor} {label : Label}

/-- A displaced worker that has drained its FIFO. -/
def WorkerPc.drained : WorkerPc → Bool
  | .leaveFifo _ | .leaveScan | .leaveTimer _ | .leaveSpill => true
  | _ => false

/-- The places of a worker that are empty from where it is. -/
def WorkerPc.bare (w : Nat) : WorkerPc → List Spot
  | .absent | .exited => [.held w, .ready w, .timer w, .handed w]
  | .leaveFifo _ | .leaveScan | .leaveTimer _ => [.ready w]
  | .leaveSpill => [.ready w, .timer w]
  | .drainReady true => [.timer w]
  | _ => []

def Cleared (s : State) : Prop := ∀ w, ∀ p ∈ (s.workers w).bare w, s.site p = []

/-- The timer thread pushes no ready node for a displaced worker between that worker's
drain of its FIFO and its exit. -/
def Undisturbed (s : State) : Label → Prop
  | .timerFire true => ∀ entry ∈ s.fires, (s.workers entry.workerIdx).drained = false
  | _ => True

instance (s : State) (label : Label) : Decidable (Undisturbed s label) := by
  cases label with
  | timerFire alloc =>
    cases alloc with
    | true =>
      exact inferInstanceAs (Decidable (∀ entry ∈ s.fires,
        (s.workers entry.workerIdx).drained = false))
    | false => exact isTrue trivial
  | _ => exact isTrue trivial

theorem owner_of_bare {pc : WorkerPc} {p : Spot} (member : p ∈ pc.bare w) : p.owner = some w := by
  unfold WorkerPc.bare at member
  split at member <;> simp at member
  · rcases member with rfl | rfl | rfl | rfl <;> rfl
  · rcases member with rfl | rfl | rfl | rfl <;> rfl
  · rw [member]
    rfl
  · rw [member]
    rfl
  · rw [member]
    rfl
  · rcases member with rfl | rfl <;> rfl
  · rw [member]
    rfl

theorem mem_places {p : Spot} (owner : p.owner = some w) :
    p ∈ [Spot.held w, .ready w, .timer w, .handed w] := by
  cases p with
  | queued | dispatching => cases owner
  | held | ready | timer | handed =>
    cases owner
    simp

/-- The places of a worker that is gone are all empty; on its way out a worker holds
pool->lock. -/
theorem bare_cases {pc : WorkerPc} {p : Spot} (member : p ∈ pc.bare w) :
    (∀ q : Spot, q.owner = some w → q ∈ pc.bare w) ∨
      pc.locks = true ∧ (p = .timer w ∨ p = .ready w ∧ pc.drained = true) := by
  cases pc with
  | absent | exited => exact Or.inl fun q owner => mem_places owner
  | leaveFifo | leaveScan | leaveTimer =>
    exact Or.inr ⟨rfl, Or.inr ⟨List.mem_singleton.mp member, rfl⟩⟩
  | leaveSpill =>
    rcases List.mem_pair.mp member with ready | timer
    · exact Or.inr ⟨rfl, Or.inr ⟨ready, rfl⟩⟩
    · exact Or.inr ⟨rfl, Or.inl timer⟩
  | drainReady timerEmpty =>
    cases timerEmpty with
    | true => exact Or.inr ⟨rfl, Or.inl (List.mem_singleton.mp member)⟩
    | false => cases member
  | top | chosen | drainHeap | fetch | leaveReady | running | dispatching | ready | inBody | asleep =>
    cases member

theorem Cleared.places (cleared : Cleared s) (gone : s.workers w = .exited ∨ s.workers w = .absent)
    {p : Spot} (owner : p.owner = some w) : s.site p = [] := by
  apply cleared w
  rcases gone with exited | absent
  · rw [exited]
    exact mem_places owner
  · rw [absent]
    exact mem_places owner

/-- How an empty place gets its first coroutine. -/
theorem Effect.stays_nil {h h' : Homes} {p : Spot} (effect : Effect lossy actor h h')
    (empty : h.site p = []) :
    h'.site p = [] ∨ (∃ q, Route actor q p ∧ h.site q ≠ []) ∨ p = .queued ∨
      ∃ v, p = .held v ∧ actor = .worker v := by
  have kept : ∀ {site : Spot → List Nat} {x : Nat} {dest : Option Spot},
      Relocates h.site site x dest → dest ≠ some p → site p = [] := by
    intro site x dest moved elsewhere
    apply List.eq_nil_iff_forall_not_mem.mpr
    intro y member
    rcases moved.mem.mp member with ⟨-, before⟩ | ⟨-, here⟩
    · rw [empty] at before
      cases before
    · exact elsewhere here
  cases effect with
  | quiet site same =>
    have none_ := same p
    rw [empty] at none_
    exact Or.inl none_.eq_nil
  | submits site called moved =>
    by_cases here : p = .queued
    · exact Or.inr (Or.inr (Or.inl here))
    · exact Or.inl (kept moved fun same => here (Option.some.inj same).symm)
  | shifts site x a b route member moved =>
    by_cases here : p = b
    · rw [here]
      exact Or.inr (Or.inl ⟨a, route, List.ne_nil_of_mem member⟩)
    · exact Or.inl (kept moved fun same => here (Option.some.inj same).symm)
  | creates site x v own member moved =>
    by_cases here : p = .held v
    · exact Or.inr (Or.inr (Or.inr ⟨v, here, own⟩))
    · exact Or.inl (kept moved fun same => here (Option.some.inj same).symm)
  | drains site v own free taken left rest =>
    by_cases isHeld : p = .held v
    · exact Or.inr (Or.inr (Or.inr ⟨v, isHeld, own⟩))
    · by_cases isReady : p = .ready v
      · rw [isReady]
        exact Or.inl left
      · have none_ := rest p isReady isHeld
        rw [empty] at none_
        exact Or.inl none_.eq_nil
  | ends _ _ _ _ _ _ moved | loses _ _ _ _ _ _ moved => exact Or.inl (kept moved nofun)

theorem Placed.handed_nil (placed : Placed s) {v w : Nat} (locks : (s.workers v).locks = true) :
    s.site (.handed w) = [] := by
  show Lock.hands w s.lock = []
  rw [placed.locked locks]
  rfl

/-- The timer thread pushes ready nodes for one worker at a time. -/
theorem coroReady_timer (stepped : TimerStep s label s') :
    s'.coroReady w = s.coroReady w ∨
      label = .timerFire true ∧ ∃ entry, s.fires = some entry ∧ entry.workerIdx = w := by
  cases stepped with
  | fires entry timerHeap allocated due popped =>
    by_cases own : w = entry.workerIdx
    · exact Or.inr ⟨allocated, entry, due, own.symm⟩
    · exact Or.inl (Function.update_of_ne own _ _)
  | loads | stops | waits | wakes | done | vanishes | rearms => exact Or.inl rfl

/-- Where a worker is that takes no step itself. -/
theorem workers_foreign (foreign : label.actor ≠ .worker w)
    (stepped : step s label = some s') :
    s'.workers w = s.workers w ∨ s.workers w = .absent ∧ s'.workers w = .top ∨
      s.workers w = .exited ∧ s'.workers w = .absent := by
  cases own : label.actor with
  | worker v =>
    have turns := turns_worker (worker_step own stepped)
    refine Or.inl (turns.others w fun same => foreign ?_)
    rw [own, same]
  | timer | caller =>
    have calls : Calls s s' := calls_step (fun v => by rw [own]; nofun) stepped
    rcases calls.workers w with same | ⟨absent, top, -⟩ | gone
    · exact Or.inl same
    · exact Or.inr (Or.inl ⟨absent, top⟩)
    · exact Or.inr (Or.inr gone)

/-- The steps of the other threads fill none of the places. -/
theorem Cleared.foreign (cleared : Cleared s) (placed : Placed s)
    (undisturbed : Undisturbed s label) (foreign : label.actor ≠ .worker w)
    (stepped : step s label = some s') : ∀ p ∈ (s'.workers w).bare w, s'.site p = [] := by
  intro p member
  have before : p ∈ (s.workers w).bare w := by
    rcases workers_foreign foreign stepped with same | ⟨-, top⟩ | ⟨exited, absent⟩
    · rwa [same] at member
    · rw [top] at member
      cases member
    · rw [absent] at member
      rw [exited]
      exact member
  have empty : s.site p = [] := cleared w p before
  have owner := owner_of_bare before
  have effect := effect_step placed stepped
  rcases effect.stays_nil empty with none_ | ⟨q, route, filled⟩ | queued | ⟨v, held, own⟩
  · exact none_
  · generalize acting : label.actor = actor at route
    cases route with
    | fetches v => cases owner
    | takes v | parks v | sleeps v | picks v =>
      cases owner
      exact absurd acting foreign
    | fires v =>
      cases owner
      rcases bare_cases before with gone | ⟨-, timer | ⟨-, drained⟩⟩
      · exact absurd (cleared w _ (gone (.timer w) rfl)) filled
      · cases timer
      · rcases coroReady_timer (w := w) (timer_step acting stepped) with same | ⟨rfl, entry, fired, own⟩
        · show s'.coroReady w = []
          rw [same]
          exact empty
        · have calm := undisturbed entry fired
          rw [own, drained] at calm
          cases calm
    | seized v =>
      cases owner
      rcases bare_cases before with gone | ⟨-, timer | ⟨ready, -⟩⟩
      · exact absurd (cleared w _ (gone (.timer w) rfl)) filled
      · cases timer
      · cases ready
    | hands v =>
      cases owner
      rcases bare_cases before with gone | ⟨locks, -⟩
      · exact absurd (cleared w _ (gone (.handed w) rfl)) filled
      · exact absurd (placed.handed_nil locks) filled
  · rw [queued] at owner
    cases owner
  · rw [held] at owner
    cases owner
    exact absurd own foreign

theorem sleeping_nil (empty : s.timerHeap.len = 0) : s.site (.timer w) = [] := by
  show (s.timerHeap.entries.filter _).map _ = []
  rw [TimerHeap.entries_eq_nil.mpr empty]
  rfl

/-- A worker leaves with nothing in its FIFO and in the timer heap. -/
theorem vacated {p : Spot} (ready : s.coroReady w = []) (timer : s.site (.timer w) = [])
    (member : p ∈ WorkerPc.exited.bare w) : (s.unlock.setWorker w .exited).site p = [] := by
  change p ∈ [Spot.held w, .ready w, .timer w, .handed w] at member
  simp only [List.mem_cons, List.not_mem_nil, or_false] at member
  rcases member with rfl | rfl | rfl | rfl
  · exact State.site_setWorker_held _ _ _
  · exact ready
  · exact timer
  · rfl

/-- The worker's own steps lead to places in the code where more is empty. -/
theorem Cleared.own (cleared : Cleared s) (stepped : WorkerStep s w label s') :
    ∀ p ∈ (s'.workers w).bare w, s'.site p = [] := by
  have moved : ∀ {s₁ : State} {pc : WorkerPc}, (∀ p ∈ pc.bare w, (s₁.setWorker w pc).site p = []) →
      ∀ p ∈ ((s₁.setWorker w pc).workers w).bare w, (s₁.setWorker w pc).site p = [] := by
    intro s₁ pc empty p member
    change p ∈ (Function.update s₁.workers w pc w).bare w at member
    rw [Function.update_self] at member
    exact empty p member
  have readied : ∀ {s₁ : State} {pc : WorkerPc}, pc.bare w = [.ready w] → s₁.coroReady w = [] →
      ∀ p ∈ ((s₁.setWorker w pc).workers w).bare w, (s₁.setWorker w pc).site p = [] := by
    intro s₁ pc only empty
    refine moved fun p member => ?_
    rw [only] at member
    cases List.mem_singleton.mp member
    exact empty
  have before := cleared w
  cases stepped with
  | takes | chooses | displaced | drained | looks | stays | runs | idles | skips | dispatches
  | finishes | uncreated | creates | drops | resumes | sleeps | yields | ends | parked =>
    exact moved fun _ member => nomatch member
  | peeks here =>
    apply moved
    intro p member
    cases timerEmpty : s.timerHeap.len == 0 with
    | false =>
      rw [timerEmpty] at member
      cases member
    | true =>
      rw [timerEmpty] at member
      cases List.mem_singleton.mp member
      exact sleeping_nil (beq_iff_eq.mp timerEmpty)
  | exits here empty =>
    rw [here] at before
    exact moved fun p member => vacated empty (before (.timer w) List.mem_cons_self) member
  | leaveReady here => exact readied rfl (Function.update_self w [] s.coroReady)
  | leaveNext t _ here | leaveTimer t here =>
    rw [here] at before
    obtain ⟨tasks, futures, -, shape⟩ := State.terminate_eq s t
    rw [shape]
    exact readied rfl (before (.ready w) List.mem_cons_self)
  | leaveScan here | leavePick _ _ _ here =>
    rw [here] at before
    exact readied rfl (before (.ready w) List.mem_cons_self)
  | leaveSpill here nobody =>
    rw [here] at before
    apply moved
    intro p member
    rcases List.mem_pair.mp member with rfl | rfl
    · exact before (.ready w) List.mem_cons_self
    · show (s.timerHeap.entries.filter _).map _ = []
      rw [List.filter_eq_nil_iff.mpr fun e inside => List.find?_eq_none.mp nobody e inside]
      rfl
  | leaves here =>
    rw [here] at before
    exact moved fun p member => vacated (before (.ready w) List.mem_cons_self)
      (before (.timer w) (List.mem_cons_of_mem _ List.mem_cons_self)) member

theorem Cleared.step (cleared : Cleared s) (placed : Placed s)
    (undisturbed : Undisturbed s label) (stepped : step s label = some s') : Cleared s' := by
  intro w
  by_cases own : label.actor = .worker w
  · exact cleared.own (worker_step own stepped)
  · exact cleared.foreign placed undisturbed own stepped

end Loomworks.Pool.Residence

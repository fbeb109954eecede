import Mathlib

/- The life of a task in a pool, as the log of what happens to it, newest event
first. -/
namespace Loomworks.Pool

/-- What the pool does to a task, and what its cancel functions report: cancelled
for a queued task, cancelledAsleep for a coroutine in the timer heap. -/
inductive Event where
  | submitted (t : Nat)
  | dispatched (t : Nat)
  | resumed (t : Nat)
  | cancelled (t : Nat)
  | cancelledAsleep (t : Nat)
  deriving DecidableEq, Repr

inductive Phase where
  | absent | queued | cancelled | started | dropped
  deriving DecidableEq, Repr

def Event.task : Event → Nat
  | .submitted t | .dispatched t | .resumed t | .cancelled t | .cancelledAsleep t => t

/-- The phase an event puts its task in. -/
def Event.lands : Event → Phase
  | .submitted _ => .queued
  | .dispatched _ | .resumed _ => .started
  | .cancelled _ => .cancelled
  | .cancelledAsleep _ => .dropped

/-- The phases an event may find its task in. A task is started once, from the
queue; cancelled and dropped are for good. -/
def Event.follows : Event → Phase → Prop
  | .submitted _, phase => phase = .absent
  | .dispatched _, phase => phase = .queued
  | .resumed _, phase => phase = .started
  | .cancelled _, phase => phase = .queued ∨ phase = .cancelled
  | .cancelledAsleep _, phase => phase = .started ∨ phase = .dropped

def phase : List Event → Nat → Phase
  | [], _ => .absent
  | event :: earlier, t => if event.task = t then event.lands else phase earlier t

def Legal : List Event → Prop
  | [] => True
  | event :: earlier => event.follows (phase earlier event.task) ∧ Legal earlier

variable {events earlier later : List Event} {event : Event} {t : Nat}

@[simp] theorem phase_nil (t : Nat) : phase [] t = .absent := rfl

@[simp] theorem phase_cons_self (event : Event) (earlier : List Event) :
    phase (event :: earlier) event.task = event.lands := by
  simp [phase]

theorem phase_cons (event : Event) (earlier : List Event) (t : Nat) :
    phase (event :: earlier) t = if event.task = t then event.lands else phase earlier t := rfl

theorem phase_cons_of_ne (other : event.task ≠ t) : phase (event :: earlier) t = phase earlier t := by
  simp [phase, other]

/-- Phases that no event leads out of hold from the event that leads into them. -/
theorem Legal.absorbed (closed : Phase → Prop)
    (stays : ∀ event current, closed current → Event.follows event current → closed event.lands)
    (legal : Legal events) (member : event ∈ events) (enters : closed event.lands) :
    closed (phase events event.task) := by
  induction events with
  | nil => simp at member
  | cons newest earlier ih =>
    rcases List.mem_cons.mp member with same | before
    · subst same
      rw [phase_cons_self]
      exact enters
    · have past := ih legal.2 before
      by_cases here : newest.task = event.task
      · rw [phase_cons, if_pos here]
        exact stays newest _ past (here ▸ legal.1)
      · rw [phase_cons_of_ne here]
        exact past

/-- A task that was started stays so, unless it is cancelled asleep. -/
theorem Legal.started (legal : Legal events) (member : event ∈ events)
    (starts : event.lands = .started) :
    phase events event.task = .started ∨ phase events event.task = .dropped := by
  refine legal.absorbed (fun current => current = .started ∨ current = .dropped) ?_ member
    (Or.inl starts)
  intro event current past follows
  rcases past with past | past <;> cases event <;> simp_all [Event.follows, Event.lands]

theorem Legal.cancelled (legal : Legal events) (member : .cancelled t ∈ events) :
    phase events t = .cancelled := by
  refine legal.absorbed (fun current => current = .cancelled) ?_ member rfl
  intro event current past follows
  cases event <;> simp_all [Event.follows, Event.lands]

theorem Legal.dropped (legal : Legal events) (member : .cancelledAsleep t ∈ events) :
    phase events t = .dropped := by
  refine legal.absorbed (fun current => current = .dropped) ?_ member rfl
  intro event current past follows
  cases event <;> simp_all [Event.follows, Event.lands]

end Loomworks.Pool

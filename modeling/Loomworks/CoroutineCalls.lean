import Loomworks.Coroutine

/- Coroutines that resume coroutines (src/coroutine.c). The calls into the coroutine layer are
numbered, and a context is told apart by the call that saved it. The thread itself is stepped by
the model of the layer; what is added here is written down beside it and read by nothing. -/
namespace Loomworks.Coro.Calls

/-- A loom_coro_resume call that switched: who made it, which call it was, whom it switched to. -/
structure Call where
  caller : Code
  number : Nat
  coro : CoroId
  deriving DecidableEq, Repr

/-- Control arrives in a coroutine, by a resume of it or by the return of a resume it made. state
is the one the coroutine had, due is whether its deadline had passed, freed is whether its stack
was released. -/
structure Switch where
  coro : CoroId
  resumed : Bool
  state : CoroState
  due : Bool
  freed : Bool
  deriving DecidableEq, Repr

/-- now numbers the next call; control continues in the executing code after its call mark. The
other marks belong to the saved contexts of the coroutines, to g_scheduler and to g_guard_jmp.
calls are the resume calls that control has not come back to, newest first; attempts are the
coroutines of the calls that reached sigsetjmp, entered those whose entry function was called. -/
structure State where
  base : Thread
  created : Nat := 0
  freed : List CoroId := []
  now : Nat := 0
  mark : Nat := 0
  ctxMark : CoroId → Nat := fun _ => 0
  schedMark : Nat := 0
  jmpMark : Nat := 0
  calls : List Call := []
  attempts : List CoroId := []
  entered : List CoroId := []
  log : List Switch := []

/-- What is set on a coroutine between its creation and its first resume. -/
structure Setup where
  sleepReg : Bool := false
  executionStartNs : Int := 0
  maxExecutionNs : Int := 0
  deriving DecidableEq, Repr

inductive Label where
  | create (setup : Setup)
  | destroy (c : CoroId)
  | act (action : Action)
  deriving DecidableEq, Repr

/-- The coroutine that a call takes off the processor by a swap to g_scheduler. -/
def leaving (t : Thread) : Action → Option CoroId
  | .yield _ | .sleepUntil .. => t.gCurrent.filter fun cur => (t.coros cur).state = .running
  | .terminate c =>
    if (t.coros c).owner = t.self ∧ t.gCurrent = some c ∧ (t.coros c).state = .running then some c
    else none
  | .ret => match t.executing with
    | .caller => none
    | .body c => some c
  | .resume .. | .fail _ => none

namespace State

/-- The call returns to the code that made it. -/
def stays (s : State) (base : Thread) : State := { s with base, mark := s.now, now := s.now + 1 }

/-- Control comes back to the resume call with that number. -/
def returns (s : State) (base : Thread) (number : Nat) : State :=
  { s with
    base
    mark := number
    now := s.now + 1
    calls := s.calls.filter fun call => call.number ≠ number
    log := match base.executing with
      | .caller => s.log
      | .body p => ⟨p, false, (base.coros p).state, false, decide (p ∈ s.freed)⟩ :: s.log }

/-- cur is saved and the call behind g_scheduler returns. -/
def leaves (s : State) (cur : CoroId) (base : Thread) : State :=
  { s with ctxMark := Function.update s.ctxMark cur s.now }.returns base s.schedMark

/-- The swap of a resume; a context that was never saved since it was armed runs coro_entry. -/
def enters (s : State) (c : CoroId) (env : ResumeEnv) (base : Thread) : State :=
  let coro := s.base.coros c
  let armed := coro.state = .new ∨ coro.ctx = .entry c
  { s with
    base
    mark := if armed then s.now else s.ctxMark c
    now := s.now + 1
    schedMark := s.now
    calls := ⟨s.base.executing, s.now, c⟩ :: s.calls
    entered := if armed then c :: s.entered else s.entered
    log := ⟨c, true, coro.state, decide (coro.wakeDeadlineNs ≤ env.nowNs), decide (c ∈ s.freed)⟩ :: s.log }

def resumes (s : State) (c : CoroId) (env : ResumeEnv) (base : Thread) : State :=
  if (s.base.coros c).owner ≠ s.base.self then s.stays base
  else
    let s := { s with jmpMark := s.now, attempts := c :: s.attempts }
    if env.schedulerReady && resumable (s.base.coros c) env then s.enters c env base
    else s.stays base

/-- What a call of the executing code means for the books. -/
def note (s : State) (base : Thread) : Action → State
  | .resume c env => s.resumes c env base
  | .fail _ => if s.base.gCurrent = none then s.stays base else s.returns base s.jmpMark
  | action => match leaving s.base action with
    | some cur => s.leaves cur base
    | none => s.stays base

def live (s : State) (c : CoroId) : Prop := c < s.created ∧ c ∉ s.freed

instance (s : State) (c : CoroId) : Decidable (s.live c) :=
  inferInstanceAs (Decidable (c < s.created ∧ c ∉ s.freed))

/-- The coroutines that a call names exist. -/
def names (s : State) : Action → Bool
  | .resume c _ | .terminate c => s.live c
  | .yield _ | .sleepUntil .. | .fail _ | .ret => true

def loomCoroCreate (s : State) (setup : Setup) : State :=
  let coro : Coroutine :=
    { owner := s.base.self, sleepReg := setup.sleepReg, executionStartNs := setup.executionStartNs
      maxExecutionNs := setup.maxExecutionNs }
  { s.stays { s.base.setCoro s.created coro with result := .ok } with created := s.created + 1 }

def loomCoroDestroy (s : State) (c : CoroId) : State :=
  let coro := s.base.coros c
  if coro.state = .running ∨ coro.state = .suspended ∨ coro.state = .sleeping then
    s.stays { s.base with result := .errInvalid }
  else
    let current := if s.base.gCurrent = some c then none else s.base.gCurrent
    { s.stays { s.base with gCurrent := current, result := .ok } with freed := c :: s.freed }

end State

def step (s : State) : Label → Option State
  | .create setup => some (s.loomCoroCreate setup)
  | .destroy c => if s.live c then some (s.loomCoroDestroy c) else none
  | .act action =>
    if s.names action then (Coro.step s.base action).map fun base => s.note base action else none

/-- A thread before its first call. -/
def start (self : Nat) : State := { base := initial self fun _ => { owner := self } }

end Loomworks.Coro.Calls

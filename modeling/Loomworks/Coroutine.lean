import Loomworks.Transition

/- The stackful coroutine layer of one thread (src/coroutine.c). A context is
what the swap saves and restores: which code continues. The stacks themselves,
guard pages and the ASan bookkeeping do not decide where control goes. -/
namespace Loomworks.Coro

abbrev CoroId := Nat

/-- loom_coro_state_t. -/
inductive CoroState where
  | new | running | suspended | sleeping | done | error | timeout
  deriving DecidableEq, Repr

/-- loom_coro_result_t. -/
inductive CoroResult where
  | ok | errAlloc | errContext | errMprotect | errInvalid | errGuard | errRunning
  | errTimer | errTimeout | errFailed
  deriving DecidableEq, Repr

/-- The code on the processor: the thread's own, or a coroutine's body. -/
inductive Code where
  | caller
  | body (coro : CoroId)
  deriving DecidableEq, Repr

/-- loom_coro_ctx_t: zeroed, armed to run coro_entry, or saved by a swap. -/
inductive Context where
  | unarmed
  | entry (coro : CoroId)
  | saved (code : Code)
  deriving DecidableEq, Repr

/-- The fields of struct loom_coroutine that steer control. -/
structure Coroutine where
  state : CoroState := .new
  owner : Nat := 0
  ctx : Context := .unarmed
  wakeDeadlineNs : Int := 0
  sleepReg : Bool := false
  executionStartNs : Int := 0
  maxExecutionNs : Int := 0
  exitCode : UInt32 := 0
  exitFailed : Bool := false
  deriving DecidableEq, Repr

/-- The thread-local scheduler state. gGuardJmp is the frame of the resume call
that ran sigsetjmp last: the code that made it and the coroutine it drives.
result is what the latest coroutine call returned to its caller, and switches
lists, newest first, the coroutines a resume switched to. -/
structure Thread where
  self : Nat
  coros : CoroId → Coroutine
  gCurrent : Option CoroId := none
  gScheduler : Context := .unarmed
  gGuardJmp : Option (Code × CoroId) := none
  executing : Code := .caller
  result : CoroResult := .ok
  switches : List CoroId := []

/-- What loom_coro_resume learns from its environment. -/
structure ResumeEnv where
  schedulerReady : Bool := true
  ctxGetOk : Bool := true
  nowNs : Int := 0
  deriving DecidableEq, Repr

/-- A call into the coroutine layer by the code that is executing. -/
inductive Action where
  | resume (coro : CoroId) (env : ResumeEnv)
  | yield (nowNs : Option Int)
  | sleepUntil (deadlineNs : Int) (registered : CoroResult)
  | fail (err : UInt32)
  | terminate (coro : CoroId)
  | ret
  deriving DecidableEq, Repr

def Thread.setCoro (t : Thread) (c : CoroId) (coro : Coroutine) : Thread :=
  { t with coros := Function.update t.coros c coro }

/-- Control arrives at a context: coro_entry stamps g_current and RUNNING on
first arrival, a saved context continues where its swap left off. -/
def switchTo (t : Thread) : Context → Thread
  | .unarmed => t
  | .entry c =>
    { t.setCoro c { t.coros c with state := .running } with
      gCurrent := some c, executing := .body c }
  | .saved code => { t with executing := code }

/-- loom_coro_ctx_swap(&cur->ctx, &g_scheduler): whatever code is executing is
saved under cur, and the resume call behind g_scheduler returns OK. -/
def swapToScheduler (t : Thread) (cur : CoroId) : Thread :=
  let saved := t.setCoro cur { t.coros cur with ctx := .saved t.executing }
  { switchTo saved t.gScheduler with result := .ok }

/-- The coroutine may be switched to now: it is not finished, and a sleeper's
deadline has passed. -/
def resumable (coro : Coroutine) (env : ResumeEnv) : Bool :=
  match coro.state with
  | .done | .error => false
  | .new => env.ctxGetOk
  | .sleeping => decide (coro.wakeDeadlineNs ≤ env.nowNs)
  | .running | .suspended | .timeout => true

/-- The swap at the end of loom_coro_resume, with the context armed for a first
run and a met deadline cleared. -/
def enterCoro (t : Thread) (c : CoroId) : Thread :=
  let coro := t.coros c
  let ctx := if coro.state = .new then .entry c else coro.ctx
  let deadline := if coro.state = .sleeping then 0 else coro.wakeDeadlineNs
  let ready := t.setCoro c
    { coro with state := .running, ctx := ctx, wakeDeadlineNs := deadline }
  switchTo { ready with gScheduler := .saved t.executing, switches := c :: t.switches } ctx

/-- The code an early return of loom_coro_resume reports. -/
def resumeError (t : Thread) (c : CoroId) (env : ResumeEnv) : CoroResult :=
  if env.schedulerReady = false then .errContext
  else match (t.coros c).state with
    | .new => .errContext
    | _ => .errRunning

def loomCoroResume (t : Thread) (c : CoroId) (env : ResumeEnv) : Thread :=
  if (t.coros c).owner ≠ t.self then { t with result := .errInvalid }
  else
    let armed := { t with gGuardJmp := some (t.executing, c) }
    if env.schedulerReady && resumable (t.coros c) env then enterCoro armed c
    else { armed with result := resumeError t c env }

/-- check_coro_timeout; a failing clock reads as none. -/
def checkCoroTimeout (coro : Coroutine) (nowNs : Option Int) : Bool :=
  match nowNs with
  | none => false
  | some now => decide (0 < coro.maxExecutionNs ∧ coro.maxExecutionNs < now - coro.executionStartNs)

def loomCoroYield (t : Thread) (nowNs : Option Int) : Thread :=
  match t.gCurrent with
  | none => t
  | some cur =>
    if (t.coros cur).state ≠ .running then t
    else
      let next := if checkCoroTimeout (t.coros cur) nowNs then .timeout else .suspended
      swapToScheduler (t.setCoro cur { t.coros cur with state := next }) cur

/-- registered is what the pool's sleep_reg hook returns; a stand-alone
coroutine has no hook. -/
def loomCoroSleepUntil (t : Thread) (deadlineNs : Int) (registered : CoroResult) : Thread :=
  match t.gCurrent with
  | none => { t with result := .errInvalid }
  | some cur =>
    if (t.coros cur).state ≠ .running then { t with result := .errInvalid }
    else
      let next := if (t.coros cur).sleepReg = true ∧ registered ≠ .ok then .error else .sleeping
      swapToScheduler
        (t.setCoro cur { t.coros cur with state := next, wakeDeadlineNs := deadlineNs }) cur

/-- siglongjmp to g_guard_jmp: the resume call in that frame returns, telling a
reported failure from a guard fault by the exit_failed flag of its coroutine. -/
def siglongjmp (t : Thread) : Thread :=
  match t.gGuardJmp with
  | none => t
  | some (code, target) =>
    { t with
      executing := code
      result := if (t.coros target).exitFailed then .errFailed else .errGuard }

def loomCoroFail (t : Thread) (err : UInt32) : Thread :=
  match t.gCurrent with
  | none => t
  | some c =>
    siglongjmp { t.setCoro c
      { t.coros c with exitCode := err, exitFailed := true, state := .error } with
      gCurrent := none }

def loomCoroTerminate (t : Thread) (c : CoroId) : Thread :=
  if (t.coros c).owner ≠ t.self then { t with result := .errInvalid }
  else if (t.coros c).state = .done ∨ (t.coros c).state = .error then { t with result := .ok }
  else
    let marked := t.setCoro c { t.coros c with state := .done }
    if t.gCurrent = some c ∧ (t.coros c).state = .running then
      swapToScheduler { marked with gCurrent := none } c
    else { marked with result := .ok }

/-- The tail of coro_entry once the entry function has returned; the link set
at the first run is the scheduler. -/
def coroReturn (t : Thread) (c : CoroId) : Thread :=
  swapToScheduler { t.setCoro c { t.coros c with state := .done } with gCurrent := none } c

def step (t : Thread) : Action → Option Thread
  | .resume c env => some (loomCoroResume t c env)
  | .yield now => some (loomCoroYield t now)
  | .sleepUntil deadline registered => some (loomCoroSleepUntil t deadline registered)
  | .fail err => some (loomCoroFail t err)
  | .terminate c => some (loomCoroTerminate t c)
  | .ret => match t.executing with
    | .caller => none
    | .body c => some (coroReturn t c)

/-- A thread before its first resume. -/
def initial (self : Nat) (coros : CoroId → Coroutine) : Thread :=
  { self := self, coros := coros }

@[simp] theorem setCoro_coros (t : Thread) (c : CoroId) (coro : Coroutine) :
    (t.setCoro c coro).coros = Function.update t.coros c coro := rfl

@[simp] theorem setCoro_self (t : Thread) (c : CoroId) (coro : Coroutine) :
    (t.setCoro c coro).self = t.self := rfl

@[simp] theorem setCoro_gCurrent (t : Thread) (c : CoroId) (coro : Coroutine) :
    (t.setCoro c coro).gCurrent = t.gCurrent := rfl

@[simp] theorem setCoro_gScheduler (t : Thread) (c : CoroId) (coro : Coroutine) :
    (t.setCoro c coro).gScheduler = t.gScheduler := rfl

@[simp] theorem setCoro_gGuardJmp (t : Thread) (c : CoroId) (coro : Coroutine) :
    (t.setCoro c coro).gGuardJmp = t.gGuardJmp := rfl

@[simp] theorem setCoro_executing (t : Thread) (c : CoroId) (coro : Coroutine) :
    (t.setCoro c coro).executing = t.executing := rfl

@[simp] theorem setCoro_switches (t : Thread) (c : CoroId) (coro : Coroutine) :
    (t.setCoro c coro).switches = t.switches := rfl

end Loomworks.Coro

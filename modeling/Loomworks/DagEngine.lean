import Loomworks.Transition
import Loomworks.DagKahn

/- The run phase of a task DAG (src/dag.c): loom_dag_submit, the runners it and
they release, and the joiners. Every done_mu section, every pool submit and
every atomic operation another thread can observe is one step. The build-phase
fields are the immutable parameter g. -/
namespace Loomworks.Dag

/-- The run-phase fields of struct loom_dag_node. -/
structure NodeRun where
  future : Future := {}
  status : LoomResult := .ok
  pendingPreds : Int := 0
  futureOwner : Bool := false

/-- The next step of a dag_release_node call. -/
inductive ReleasePc where
  | start
  | owned
  | counted
  | accepted
  | refused (rc : LoomResult)
  | undoing (rc : LoomResult)
  | preInit (rc : LoomResult)
  deriving DecidableEq, Repr

/-- What a step of dag_release_node leads to. -/
inductive After where
  | next (pc : ReleasePc)
  | returned (rc : LoomResult)
  deriving DecidableEq, Repr

/-- The next step of a dag_runner_fn call; i is its successor index, kept when
the loop is left. -/
inductive RunnerPc where
  | queued
  | inFn
  | completing (status : LoomResult)
  | loop (i : Nat)
  | countdown (i : Nat)
  | releasing (i : Nat) (pc : ReleasePc)
  | epilogue (i : Nat)
  | finished (i : Nat)
  deriving DecidableEq, Repr

structure Runner where
  node : NodeId
  pc : RunnerPc := .queued
  deriving DecidableEq, Repr

/-- What loom_dag_submit found before it froze the DAG. -/
inductive Verdict where
  | empty | noMemory | cyclic | acyclic
  deriving DecidableEq, Repr

/-- The next step of the loom_dag_submit call; i is its root index. -/
inductive SubmitPc where
  | idle
  | freezing (verdict : Verdict)
  | failing (rc : LoomResult)
  | signalling (rc : LoomResult)
  | roots (i : Nat)
  | releasing (i : Nat) (pc : ReleasePc)
  | finished (i : Nat) (rc : LoomResult)
  deriving DecidableEq, Repr

inductive JoinKind where
  | wait | waitTimeout | destroy
  deriving DecidableEq, Repr

/-- A loom_dag_wait, wait_timeout or destroy call. -/
inductive JoinPc where
  | entering | checking | blocked
  | notSubmitted | timedOut | returned (rc : LoomResult)
  | marking | freeing
  deriving DecidableEq, Repr

structure Joiner where
  kind : JoinKind
  pc : JoinPc := .entering
  deriving DecidableEq, Repr

inductive Event where
  | called (node : NodeId)
  | returned (node : NodeId) (status : LoomResult)
  | refused (node : NodeId) (rc : LoomResult)
  deriving DecidableEq, Repr

/-- log lists what the user tasks did and which releases failed, newest first. -/
structure Engine where
  run : NodeId → NodeRun := fun _ => {}
  submitted : Bool := false
  destroyed : Bool := false
  freed : Bool := false
  failed : Bool := false
  failError : LoomResult := .ok
  inFlight : Int := 0
  releasedTotal : Nat := 0
  addedCount : Nat
  submitter : SubmitPc := .idle
  runners : List Runner := []
  joiners : List Joiner := []
  log : List Event := []

/-- The environment's part in a step: allocation and initialisation outcomes,
the pool's answer, what the user task returns, the joiner a signal wakes and
whether a timed wait expires. -/
structure Env where
  arraysOk : Bool := true
  ctxOk : Bool := true
  mutexOk : Bool := true
  condOk : Bool := true
  submitRc : LoomResult := .ok
  fnRc : LoomResult := .ok
  wake : Nat := 0
  expired : Bool := false
  deriving DecidableEq, Repr

inductive Label where
  | submitter (env : Env)
  | runner (k : Nat) (env : Env)
  | join (kind : JoinKind)
  | joiner (k : Nat) (env : Env)
  deriving DecidableEq, Repr

def Engine.setRun (e : Engine) (n : NodeId) (node : NodeRun) : Engine :=
  { e with run := Function.update e.run n node }

def Engine.setRunner (e : Engine) (k : Nat) (r : Runner) : Engine :=
  { e with runners := e.runners.set k r }

def Engine.setJoiner (e : Engine) (k : Nat) (j : Joiner) : Engine :=
  { e with joiners := e.joiners.set k j }

def dagDrained (e : Engine) : Bool :=
  decide (e.inFlight = 0) && (e.failed || decide (e.releasedTotal = e.addedCount))

def Joiner.isBlocked (j : Joiner) : Bool := j.pc == .blocked

/-- The blocked joiner a signal reaches, past the end of the list if there is
none. -/
def signalIndex (joiners : List Joiner) (wake : Nat) : Nat :=
  if (joiners[wake]?).any Joiner.isBlocked then wake else joiners.findIdx Joiner.isBlocked

/-- pthread_cond_signal(&done_cv). -/
def signalDone (joiners : List Joiner) (wake : Nat) : List Joiner :=
  joiners.modify (signalIndex joiners wake) fun j => { j with pc := .checking }

def signalIfDrained (e : Engine) (wake : Nat) : Engine :=
  if dagDrained e then { e with joiners := signalDone e.joiners wake } else e

/-- The first failure wins fail_error. -/
def dagRecordReleaseFailure (e : Engine) (rc : LoomResult) (wake : Nat) : Engine :=
  let e := if e.failed then e else { e with failError := rc, failed := true }
  signalIfDrained { e with releasedTotal := e.releasedTotal + 1 } wake

def dagReleaseNode (e : Engine) (n : NodeId) (env : Env) : ReleasePc → Engine × After
  | .start =>
    -- malloc and loom_future_init touch nothing another thread reads before
    -- the store of future_owner
    if env.ctxOk = false then (e, .next (.preInit .errAlloc))
    else
      let init := loomFutureInit (e.run n).future env.mutexOk env.condOk
      if init.2 ≠ .ok then (e, .next (.preInit init.2))
      else (e.setRun n { e.run n with future := init.1, futureOwner := true }, .next .owned)
  | .owned => ({ e with inFlight := e.inFlight + 1 }, .next .counted)
  | .counted =>
    if env.submitRc = .ok then
      ({ e with runners := e.runners ++ [{ node := n }] }, .next .accepted)
    else (e, .next (.refused env.submitRc))
  | .accepted =>
    (signalIfDrained { e with releasedTotal := e.releasedTotal + 1 } env.wake, .returned .ok)
  | .refused rc =>
    (e.setRun n
      { e.run n with status := rc, future := loomFutureComplete (e.run n).future rc },
      .next (.undoing rc))
  | .undoing rc =>
    (dagRecordReleaseFailure
      { e with inFlight := e.inFlight - 1, log := .refused n rc :: e.log } rc env.wake,
      .returned rc)
  | .preInit rc =>
    (dagRecordReleaseFailure { e with log := .refused n rc :: e.log } rc env.wake, .returned rc)

/-- Where a runner continues after a step of its i-th successor's release. -/
def succNext (i : Nat) : After → RunnerPc
  | .next pc => .releasing i pc
  | .returned _ => .loop (i + 1)

def dagRunnerFn (g : Graph) (e : Engine) (k : Nat) (r : Runner) (env : Env) : Option Engine :=
  match r.pc with
  | .queued =>
    if g.isAdded r.node then
      some ({ e with log := .called r.node :: e.log }.setRunner k { r with pc := .inFn })
    else some (e.setRunner k { r with pc := .completing .ok })
  | .inFn =>
    some ({ e with log := .returned r.node env.fnRc :: e.log }.setRunner k
      { r with pc := .completing env.fnRc })
  | .completing status =>
    some ((e.setRun r.node { e.run r.node with
        status := status, future := loomFutureComplete (e.run r.node).future status }).setRunner k
      { r with pc := .loop 0 })
  | .loop i =>
    if i < (g.nodes r.node).succs.length ∧ e.failed = false then
      some (e.setRunner k { r with pc := .countdown i })
    else some (e.setRunner k { r with pc := .epilogue i })
  | .countdown i =>
    ((g.nodes r.node).succs[i]?).map fun succ =>
      let before := (e.run succ).pendingPreds
      let e := e.setRun succ { e.run succ with pendingPreds := before - 1 }
      if before = 1 then e.setRunner k { r with pc := .releasing i .start }
      else e.setRunner k { r with pc := .loop (i + 1) }
  | .releasing i pc =>
    ((g.nodes r.node).succs[i]?).map fun succ =>
      let after := dagReleaseNode e succ env pc
      after.1.setRunner k { r with pc := succNext i after.2 }
  | .epilogue i =>
    some ((signalIfDrained { e with inFlight := e.inFlight - 1 } env.wake).setRunner k
      { r with pc := .finished i })
  | .finished _ => none

/-- The part of loom_dag_submit before the freeze: dag->lock is held and no
runner exists, so the counts and the seeded countdowns are first read after the
store of submitted. -/
def submitPrologue (g : Graph) (e : Engine) (env : Env) : Engine :=
  if e.destroyed then { e with submitter := .finished 0 .errInvalid }
  else if g.added = 0 then { e with addedCount := 0, submitter := .freezing .empty }
  else if env.arraysOk = false then { e with submitter := .freezing .noMemory }
  else if hasCycle g then { e with submitter := .freezing .cyclic }
  else { e with
    run := fun n => if g.isAdded n then
      { e.run n with pendingPreds := (g.nodes n).inDegree } else e.run n
    addedCount := g.added
    submitter := .freezing .acyclic }

/-- Where the root loop continues after a step of root i's release. -/
def rootNext (i : Nat) : After → SubmitPc
  | .next pc => .releasing i pc
  | .returned .ok => .roots (i + 1)
  | .returned rc => .finished (i + 1) rc

def loomDagSubmit (g : Graph) (e : Engine) (env : Env) : Option Engine :=
  match e.submitter with
  | .idle => some (submitPrologue g e env)
  | .freezing verdict =>
    some { e with
      submitted := true
      submitter := match verdict with
        | .empty => .signalling .ok
        | .noMemory => .failing .errAlloc
        | .cyclic => .failing .errInvalid
        | .acyclic => .roots 0 }
  | .failing rc =>
    some { e with failError := rc, failed := true, submitter := .signalling rc }
  | .signalling rc =>
    some { signalIfDrained e env.wake with submitter := .finished 0 rc }
  | .roots i =>
    if i < g.nodeCapacity then
      if g.isRoot i then some { e with submitter := .releasing i .start }
      else some { e with submitter := .roots (i + 1) }
    else some { e with submitter := .finished i .ok }
  | .releasing i pc =>
    let after := dagReleaseNode e i env pc
    some { after.1 with submitter := rootNext i after.2 }
  | .finished _ _ => none

/-- dag->lock is free: no loom_dag_submit call is in progress. -/
def lockFree (e : Engine) : Bool :=
  match e.submitter with
  | .idle | .finished _ _ => true
  | _ => false

def dagWaitInternal (e : Engine) (k : Nat) (j : Joiner) (env : Env) : Option Engine :=
  match j.pc with
  | .entering =>
    let pc := if e.submitted then .checking
      else if j.kind = .destroy then .marking else .notSubmitted
    some (e.setJoiner k { j with pc := pc })
  | .checking =>
    let pc := if dagDrained e then
        (if j.kind = .destroy then .marking
         else .returned (if e.failed then e.failError else .ok))
      else .blocked
    some (e.setJoiner k { j with pc := pc })
  | .blocked =>
    -- woken for no reason, or past the deadline
    let pc := if j.kind = .waitTimeout ∧ env.expired then .timedOut else .checking
    some (e.setJoiner k { j with pc := pc })
  | .marking =>
    if lockFree e then
      some ({ e with destroyed := true }.setJoiner k { j with pc := .freeing })
    else none
  | .freeing => some ({ e with freed := true }.setJoiner k { j with pc := .returned .ok })
  | .notSubmitted | .timedOut | .returned _ => none

def step (g : Graph) (e : Engine) : Label → Option Engine
  | .submitter env => loomDagSubmit g e env
  | .runner k env => (e.runners[k]?).bind fun r => dagRunnerFn g e k r env
  | .join kind => some { e with joiners := e.joiners ++ [{ kind := kind }] }
  | .joiner k env => (e.joiners[k]?).bind fun j => dagWaitInternal e k j env

/-- A DAG that was built and not yet submitted. -/
def start (g : Graph) : Engine := { addedCount := g.addedCount }

def loomDagNodeStatus (e : Engine) (n : NodeId) : LoomResult :=
  if (e.run n).futureOwner = false then .errInvalid
  else if (e.run n).future.ready then (e.run n).status else .errInvalid

/-- The code a finished loom_dag_wait or wait_timeout call returned. -/
def waitResult : JoinPc → Option LoomResult
  | .notSubmitted => some .errInvalid
  | .timedOut => some .errTimeout
  | .returned rc => some rc
  | _ => none

end Loomworks.Dag

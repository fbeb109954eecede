import Loomworks.CoroutineCalls

/- Where control goes when a coroutine gives it up. -/
namespace Loomworks.Coro.Calls

open Transition

/-- The ways a coroutine gives up the processor. -/
def exits (c : CoroId) : Action → Bool
  | .yield _ | .sleepUntil .. | .fail _ | .ret => true
  | .terminate d => d = c
  | .resume .. => false

/-- A coroutine that gives up the processor does so to the latest resume of it that control has
not come back to, and right after that call. -/
def Returns (s : State) : Label → Prop
  | .act action => ∀ c s', s.base.executing = .body c → exits c action = true →
      step s (.act action) = some s' →
      ∃ call, s.calls.find? (fun call => call.coro = c) = some call ∧
        s'.base.executing = call.caller ∧ s'.mark = call.number
  | _ => True

/-- Nobody resumes a running coroutine, and nobody but itself terminates one. -/
def Orderly (s : State) : Label → Prop
  | .act (.resume c _) => (s.base.coros c).state ≠ .running
  | .act (.terminate c) => (s.base.coros c).state = .running → s.base.executing = .body c
  | _ => True

/-- c is g_current, and no resume has switched since c was entered. -/
def InCharge (s : State) (c : CoroId) : Prop :=
  s.base.gCurrent = some c ∧ s.base.switches.head? = some c

/-- A coroutine that yields, sleeps or terminates itself is in charge. One that fails is g_current
and nobody has called resume since it was entered, not even in vain; loom_coro_fail does nothing
elsewhere. One that returns has not switched to another coroutine. -/
def Current (s : State) : Label → Prop
  | .act (.yield _) | .act (.sleepUntil ..) => ∀ c, s.base.executing = .body c → InCharge s c
  | .act (.terminate c) => s.base.executing = .body c → InCharge s c
  | .act (.fail _) =>
    (∀ c, s.base.executing = .body c → s.base.gCurrent = some c) ∧
    ∀ c, s.base.gCurrent = some c → s.base.executing = .body c ∧ s.attempts.head? = some c
  | .act .ret => ∀ c, s.base.executing = .body c → s.base.switches.head? = some c
  | _ => True

/-- The code runs in the coroutine of the newest call, the caller of that one in the coroutine of
the next, down to the thread's own code. -/
def Chain : Code → List Call → Prop
  | code, [] => code = .caller
  | code, call :: rest => code = .body call.coro ∧ Chain call.caller rest

/-- Off the processor a coroutine that can go on has saved its own continuation. -/
def Parked (c : CoroId) (coro : Coroutine) : Prop :=
  coro.state = .suspended ∨ coro.state = .sleeping ∨ coro.state = .timeout → coro.ctx = .saved (.body c)

structure Nested (s : State) : Prop where
  owned : ∀ c, (s.base.coros c).owner = s.base.self
  fresh : ∀ c, s.created ≤ c → (s.base.coros c).state = .new
  chain : Chain s.base.executing s.calls
  distinct : (s.calls.map Call.coro).Nodup
  running : ∀ c, (s.base.coros c).state = .running ↔ c ∈ s.calls.map Call.coro
  parked : ∀ c, Parked c (s.base.coros c)
  numbered : (s.calls.map Call.number).Pairwise (· > ·)
  older : ∀ call ∈ s.calls, call.number < s.now
  latest : ∀ call ∈ s.calls.tail,
    s.base.switches.head? ≠ some call.coro ∧ s.attempts.head? ≠ some call.coro
  sched : ∀ call rest, s.calls = call :: rest → s.base.switches.head? = some call.coro →
    s.base.gScheduler = .saved call.caller ∧ s.schedMark = call.number
  jmp : ∀ call rest, s.calls = call :: rest → s.attempts.head? = some call.coro →
    s.base.gGuardJmp = some (call.caller, call.coro) ∧ s.jmpMark = call.number

variable {s s' : State} {c : CoroId}

/-- The call returns to the code that made it and moves no context; a resume that is turned down
may still have taken g_guard_jmp. -/
structure Quiet (s s' : State) : Prop where
  self : s'.base.self = s.base.self
  executing : s'.base.executing = s.base.executing
  calls : s'.calls = s.calls
  switches : s'.base.switches = s.base.switches
  sched : s'.base.gScheduler = s.base.gScheduler ∧ s'.schedMark = s.schedMark
  jmp : (s'.base.gGuardJmp = s.base.gGuardJmp ∧ s'.jmpMark = s.jmpMark ∧ s'.attempts = s.attempts) ∨
    ∃ c, s'.attempts = c :: s.attempts ∧ (s.base.coros c).state ≠ .running
  now : s'.now = s.now + 1
  coros : ∀ c, s'.base.coros c = s.base.coros c ∨
    (s.base.coros c).state ≠ .running ∧ (s'.base.coros c).owner = s.base.self ∧
      ((s.base.coros c).state = .new ∧ (s'.base.coros c).state = .new ∨
        (s'.base.coros c).state = .done ∧ c < s'.created)
  created : s.created ≤ s'.created
  books : s'.entered = s.entered ∧ s'.log = s.log
  freed : s'.freed = s.freed ∨ ∃ c, s'.freed = c :: s.freed ∧ (s.base.coros c).state ≠ .running

theorem Nested.quiet (inv : Nested s) (quiet : Quiet s s') : Nested s' := by
  refine ⟨?_, ?_, ?_, ?_, ?_, ?_, ?_, ?_, ?_, ?_, ?_⟩
  · intro c
    rw [quiet.self]
    rcases quiet.coros c with same | ⟨-, owner, -⟩
    · rw [same]
      exact inv.owned c
    · exact owner
  · intro c beyond
    rcases quiet.coros c with same | ⟨-, -, ⟨-, new⟩ | ⟨-, below⟩⟩
    · rw [same]
      exact inv.fresh c (Nat.le_trans quiet.created beyond)
    · exact new
    · exact absurd below (Nat.not_lt.mpr beyond)
  · rw [quiet.executing, quiet.calls]
    exact inv.chain
  · rw [quiet.calls]
    exact inv.distinct
  · intro c
    rw [quiet.calls, ← inv.running c]
    rcases quiet.coros c with same | ⟨idle, -, ⟨-, new⟩ | ⟨done, -⟩⟩
    · rw [same]
    · simp [new, idle]
    · simp [done, idle]
  · intro c
    rcases quiet.coros c with same | ⟨-, -, ⟨-, new⟩ | ⟨done, -⟩⟩
    · rw [same]
      exact inv.parked c
    · simp [Parked, new]
    · simp [Parked, done]
  · rw [quiet.calls]
    exact inv.numbered
  · intro call member
    rw [quiet.calls] at member
    rw [quiet.now]
    exact Nat.lt_succ_of_lt (inv.older call member)
  · intro call member
    rw [quiet.calls] at member
    obtain ⟨switched, attempted⟩ := inv.latest call member
    rw [quiet.switches]
    refine ⟨switched, ?_⟩
    rcases quiet.jmp with ⟨-, -, same⟩ | ⟨d, added, idle⟩
    · rw [same]
      exact attempted
    · rw [added]
      rintro ⟨rfl⟩
      exact idle ((inv.running _).mpr (List.mem_map.mpr ⟨call, List.mem_of_mem_tail member, rfl⟩))
  · intro call rest shape
    rw [quiet.calls] at shape
    rw [quiet.switches, quiet.sched.1, quiet.sched.2]
    exact inv.sched call rest shape
  · intro call rest shape attempted
    rw [quiet.calls] at shape
    rcases quiet.jmp with ⟨guard, mark, same⟩ | ⟨d, added, idle⟩
    · rw [same] at attempted
      rw [guard, mark]
      exact inv.jmp call rest shape attempted
    · rw [added] at attempted
      obtain rfl : d = call.coro := Option.some.inj attempted
      exact absurd ((inv.running _).mpr (by rw [shape]; exact List.mem_cons_self ..)) idle

/-- A resume switches to c. -/
structure Enters (s s' : State) (c : CoroId) : Prop where
  self : s'.base.self = s.base.self
  idle : (s.base.coros c).state ≠ .running
  live : c < s.created
  executing : s'.base.executing = .body c
  calls : s'.calls = ⟨s.base.executing, s.now, c⟩ :: s.calls
  switches : s'.base.switches = c :: s.base.switches
  attempts : s'.attempts = c :: s.attempts
  sched : s'.base.gScheduler = .saved s.base.executing ∧ s'.schedMark = s.now
  jmp : s'.base.gGuardJmp = some (s.base.executing, c) ∧ s'.jmpMark = s.now
  now : s'.now = s.now + 1
  coro : (s'.base.coros c).state = .running ∧ (s'.base.coros c).owner = (s.base.coros c).owner
  others : ∀ d, d ≠ c → s'.base.coros d = s.base.coros d
  created : s'.created = s.created
  freed : s'.freed = s.freed ∧ c ∉ s.freed
  entered : s'.entered = if (s.base.coros c).state = .new then c :: s.entered else s.entered
  unfinished : (s.base.coros c).state ≠ .done ∧ (s.base.coros c).state ≠ .error
  log : ∃ due, s'.log = ⟨c, true, (s.base.coros c).state, due, false⟩ :: s.log ∧
    ((s.base.coros c).state = .sleeping → due = true)

theorem Nested.enters (inv : Nested s) (enters : Enters s s' c) : Nested s' := by
  have absent : c ∉ s.calls.map Call.coro := fun member => enters.idle ((inv.running c).mpr member)
  refine ⟨?_, ?_, ?_, ?_, ?_, ?_, ?_, ?_, ?_, ?_, ?_⟩
  · intro d
    rw [enters.self]
    by_cases same : d = c
    · rw [same, enters.coro.2]
      exact inv.owned c
    · rw [enters.others d same]
      exact inv.owned d
  · intro d beyond
    rw [enters.created] at beyond
    have other : d ≠ c := by
      rintro rfl
      exact absurd enters.live (Nat.not_lt.mpr beyond)
    rw [enters.others d other]
    exact inv.fresh d beyond
  · rw [enters.executing, enters.calls]
    exact ⟨rfl, inv.chain⟩
  · rw [enters.calls, List.map_cons]
    exact List.nodup_cons.mpr ⟨absent, inv.distinct⟩
  · intro d
    rw [enters.calls, List.map_cons, List.mem_cons]
    by_cases same : d = c
    · rw [same]
      exact ⟨fun _ => Or.inl rfl, fun _ => enters.coro.1⟩
    · rw [enters.others d same, inv.running d]
      exact ⟨Or.inr, fun member => member.resolve_left same⟩
  · intro d
    by_cases same : d = c
    · rw [same]
      simp [Parked, enters.coro.1]
    · rw [enters.others d same]
      exact inv.parked d
  · rw [enters.calls, List.map_cons]
    refine List.pairwise_cons.mpr ⟨?_, inv.numbered⟩
    intro number member
    obtain ⟨call, old, rfl⟩ := List.mem_map.mp member
    exact inv.older call old
  · intro call member
    rw [enters.calls] at member
    rw [enters.now]
    rcases List.mem_cons.mp member with rfl | old
    · exact Nat.lt_succ_self _
    · exact Nat.lt_succ_of_lt (inv.older call old)
  · intro call member
    rw [enters.calls, List.tail_cons] at member
    have other : c ≠ call.coro := fun same => absent (same ▸ List.mem_map.mpr ⟨call, member, rfl⟩)
    rw [enters.switches, enters.attempts]
    exact ⟨fun same => other (Option.some.inj same), fun same => other (Option.some.inj same)⟩
  · intro call rest shape _
    rw [enters.calls] at shape
    cases shape
    exact enters.sched
  · intro call rest shape _
    rw [enters.calls] at shape
    cases shape
    exact enters.jmp

/-- The coroutine of the newest call gives control back to it. -/
structure Leaves (s s' : State) (call : Call) (rest : List Call) : Prop where
  shape : s.calls = call :: rest
  self : s'.base.self = s.base.self
  executing : s'.base.executing = call.caller
  mark : s'.mark = call.number
  calls : s'.calls = rest
  switches : s'.base.switches = s.base.switches
  attempts : s'.attempts = s.attempts
  now : s'.now = s.now + 1
  coro : (s'.base.coros call.coro).state ≠ .running ∧ Parked call.coro (s'.base.coros call.coro) ∧
    (s'.base.coros call.coro).owner = (s.base.coros call.coro).owner
  others : ∀ d, d ≠ call.coro → s'.base.coros d = s.base.coros d
  created : s'.created = s.created
  used : (s'.base.coros call.coro).state ≠ .new
  books : s'.entered = s.entered ∧ s'.freed = s.freed
  log : s'.log = match call.caller with
    | .caller => s.log
    | .body p => ⟨p, false, (s'.base.coros p).state, false, decide (p ∈ s.freed)⟩ :: s.log

theorem Nested.leaves (inv : Nested s) {call : Call} {rest : List Call} (leaves : Leaves s s' call rest) :
    Nested s' := by
  have chain := inv.chain
  have distinct := inv.distinct
  have numbered := inv.numbered
  have latest := inv.latest
  rw [leaves.shape] at chain latest
  rw [leaves.shape, List.map_cons, List.nodup_cons] at distinct
  rw [leaves.shape, List.map_cons, List.pairwise_cons] at numbered
  have active : (s.base.coros call.coro).state = .running :=
    (inv.running _).mpr (by rw [leaves.shape]; exact List.mem_cons_self ..)
  refine ⟨?_, ?_, ?_, ?_, ?_, ?_, ?_, ?_, ?_, ?_, ?_⟩
  · intro d
    rw [leaves.self]
    by_cases same : d = call.coro
    · rw [same, leaves.coro.2.2]
      exact inv.owned _
    · rw [leaves.others d same]
      exact inv.owned d
  · intro d beyond
    rw [leaves.created] at beyond
    have other : d ≠ call.coro := by
      rintro rfl
      rw [inv.fresh _ beyond] at active
      cases active
    rw [leaves.others d other]
    exact inv.fresh d beyond
  · rw [leaves.executing, leaves.calls]
    exact chain.2
  · rw [leaves.calls]
    exact distinct.2
  · intro d
    rw [leaves.calls]
    by_cases same : d = call.coro
    · rw [same]
      exact ⟨fun still => absurd still leaves.coro.1, fun member => absurd member distinct.1⟩
    · rw [leaves.others d same, inv.running d, leaves.shape, List.map_cons, List.mem_cons]
      exact ⟨fun member => member.resolve_left same, Or.inr⟩
  · intro d
    by_cases same : d = call.coro
    · rw [same]
      exact leaves.coro.2.1
    · rw [leaves.others d same]
      exact inv.parked d
  · rw [leaves.calls]
    exact numbered.2
  · intro old member
    rw [leaves.calls] at member
    rw [leaves.now]
    exact Nat.lt_succ_of_lt (inv.older old (by rw [leaves.shape]; exact List.mem_cons_of_mem _ member))
  · intro old member
    rw [leaves.calls] at member
    rw [leaves.switches, leaves.attempts]
    exact latest old (List.mem_of_mem_tail member)
  -- the caller is not the one that was entered last, nor the one somebody tried to enter last
  · intro next below shape switched
    rw [leaves.calls] at shape
    rw [leaves.switches] at switched
    exact absurd switched (latest next (by rw [List.tail_cons, shape]; exact List.mem_cons_self ..)).1
  · intro next below shape attempted
    rw [leaves.calls] at shape
    rw [leaves.attempts] at attempted
    exact absurd attempted (latest next (by rw [List.tail_cons, shape]; exact List.mem_cons_self ..)).2

/-- A coroutine that executes is that of the newest call. -/
theorem Nested.newest (inv : Nested s) (here : s.base.executing = .body c) :
    ∃ call rest, s.calls = call :: rest ∧ call.coro = c := by
  have chain := inv.chain
  cases shape : s.calls with
  | nil =>
    rw [shape, here] at chain
    cases chain
  | cons call rest =>
    rw [shape, here] at chain
    exact ⟨call, rest, rfl, (Code.body.inj chain.1).symm⟩

theorem Nested.active (inv : Nested s) (here : s.base.executing = .body c) :
    (s.base.coros c).state = .running := by
  obtain ⟨call, rest, shape, rfl⟩ := inv.newest here
  exact (inv.running _).mpr (by rw [shape]; exact List.mem_cons_self ..)

/-- While the thread's own code executes no coroutine is running. -/
theorem Nested.idle (inv : Nested s) (here : s.base.executing = .caller) (c : CoroId) :
    (s.base.coros c).state ≠ .running := by
  have chain := inv.chain
  cases shape : s.calls with
  | nil =>
    intro active
    have member := (inv.running c).mp active
    rw [shape] at member
    cases member
  | cons call rest =>
    rw [shape, here] at chain
    cases chain.1

theorem Nested.filter_newest (inv : Nested s) {call : Call} {rest : List Call}
    (shape : s.calls = call :: rest) :
    (s.calls.filter fun other => other.number ≠ call.number) = rest := by
  have numbered := inv.numbered
  rw [shape, List.map_cons, List.pairwise_cons] at numbered
  rw [shape, List.filter_cons_of_neg (by simp)]
  refine List.filter_eq_self.mpr ?_
  intro other member
  have below := numbered.1 _ (List.mem_map.mpr ⟨other, member, rfl⟩)
  exact decide_eq_true (Nat.ne_of_lt below)

/-- What the code does to a coroutine before it switches away from it. -/
structure Marked (t marked : Thread) (c : CoroId) : Prop where
  self : marked.self = t.self
  executing : marked.executing = t.executing
  sched : marked.gScheduler = t.gScheduler
  jmp : marked.gGuardJmp = t.gGuardJmp
  switches : marked.switches = t.switches
  others : ∀ d, d ≠ c → marked.coros d = t.coros d
  stopped : (marked.coros c).state ≠ .running ∧ (marked.coros c).state ≠ .new
  owner : (marked.coros c).owner = (t.coros c).owner

theorem marked_setCoro (t : Thread) {coro : Coroutine}
    (stopped : coro.state ≠ .running ∧ coro.state ≠ .new) (owner : coro.owner = (t.coros c).owner)
    (current : Option CoroId) : Marked t { t.setCoro c coro with gCurrent := current } c := by
  refine ⟨rfl, rfl, rfl, rfl, rfl, ?_, ?_, ?_⟩
  · intro d other
    exact Function.update_of_ne other _ _
  · simp only [setCoro_coros, Function.update_self]
    exact stopped
  · simp only [setCoro_coros, Function.update_self]
    exact owner

/-- A coroutine that no other was entered after swaps back to its resumer. -/
theorem Nested.swaps (inv : Nested s) (here : s.base.executing = .body c)
    (last : s.base.switches.head? = some c) {marked : Thread} (marks : Marked s.base marked c) :
    ∃ call rest, Leaves s (s.leaves c (swapToScheduler marked c)) call rest := by
  obtain ⟨call, rest, shape, rfl⟩ := inv.newest here
  obtain ⟨sched, number⟩ := inv.sched call rest shape last
  have target : swapToScheduler marked call.coro =
      { marked.setCoro call.coro { marked.coros call.coro with ctx := .saved (.body call.coro) } with
        executing := call.caller, result := .ok } := by
    simp only [swapToScheduler, marks.executing, here, marks.sched, sched, switchTo]
  refine ⟨call, rest, shape, ?_, ?_, number, ?_, ?_, rfl, rfl, ?_, ?_, rfl, ?_, ⟨rfl, rfl⟩, ?_⟩
  · rw [target]
    exact marks.self
  · rw [target]
    rfl
  · show (s.calls.filter fun other => other.number ≠ s.schedMark) = rest
    rw [number]
    exact inv.filter_newest shape
  · rw [target]
    exact marks.switches
  · rw [target]
    simp only [State.leaves, State.returns, setCoro_coros, Function.update_self]
    exact ⟨marks.stopped.1, fun _ => rfl, marks.owner⟩
  · intro d other
    rw [target]
    exact (Function.update_of_ne other _ _).trans (marks.others d other)
  · rw [target]
    simp only [State.leaves, State.returns, setCoro_coros, Function.update_self]
    exact marks.stopped.2
  · rw [target]
    rfl

theorem quiet_stays (s : State) (t : Thread)
    (same : t = { s.base with gCurrent := t.gCurrent, result := t.result }) : Quiet s (s.stays t) := by
  rw [same]
  exact ⟨rfl, rfl, rfl, rfl, ⟨rfl, rfl⟩, Or.inl ⟨rfl, rfl, rfl⟩, rfl, fun _ => Or.inl rfl,
    Nat.le_refl _, ⟨rfl, rfl⟩, Or.inl rfl⟩

/-- A suspended, sleeping or timed out coroutine goes on where it stopped, a new one is entered. -/
theorem enterCoro_spec (t : Thread) (ready : (t.coros c).state = .new ∨ (t.coros c).ctx = .saved (.body c)) :
    (enterCoro t c).executing = .body c ∧ (enterCoro t c).gScheduler = .saved t.executing ∧
      (enterCoro t c).switches = c :: t.switches ∧ (enterCoro t c).gGuardJmp = t.gGuardJmp ∧
      (enterCoro t c).self = t.self ∧ ((enterCoro t c).coros c).state = .running ∧
      ((enterCoro t c).coros c).owner = (t.coros c).owner ∧
      ∀ d, d ≠ c → (enterCoro t c).coros d = t.coros d := by
  by_cases new : (t.coros c).state = .new
  · and_intros <;> simp +contextual [enterCoro, new, switchTo]
  · have ctx := ready.resolve_left new
    and_intros <;> simp +contextual [enterCoro, new, ctx, switchTo]

theorem Nested.resume (inv : Nested s) (live : s.live c) (idle : (s.base.coros c).state ≠ .running)
    (env : ResumeEnv) :
    Quiet s (s.resumes c env (loomCoroResume s.base c env)) ∨
      Enters s (s.resumes c env (loomCoroResume s.base c env)) c := by
  have mine : ¬ (s.base.coros c).owner ≠ s.base.self := fun other => other (inv.owned c)
  simp only [State.resumes, loomCoroResume, mine, if_false]
  by_cases ready : (env.schedulerReady && resumable (s.base.coros c) env) = true
  · simp only [ready, if_true]
    have able := (Bool.and_eq_true_iff.mp ready).2
    have armed : (s.base.coros c).state = .new ∨ (s.base.coros c).ctx = .saved (.body c) := by
      have parked := inv.parked c
      cases state : (s.base.coros c).state <;> simp_all [Parked, resumable]
    have fresh : ((s.base.coros c).state = .new ∨ (s.base.coros c).ctx = .entry c) ↔
        (s.base.coros c).state = .new := by
      constructor
      · rintro (new | entry)
        · exact new
        · rcases armed with new | saved
          · exact new
          · rw [saved] at entry
            cases entry
      · exact Or.inl
    obtain ⟨executing, sched, switches, jmp, self, state, owner, others⟩ :=
      enterCoro_spec { s.base with gGuardJmp := some (s.base.executing, c) } armed
    refine Or.inr ⟨self, idle, live.1, executing, rfl, switches, rfl, ⟨sched, rfl⟩, ⟨jmp, rfl⟩, rfl,
      ⟨state, owner⟩, others, rfl, ⟨rfl, live.2⟩, ?_, ?_, ?_⟩
    · simp only [State.enters, fresh]
    · constructor
      · intro done
        simp [resumable, done] at able
      · intro error
        simp [resumable, error] at able
    · refine ⟨_, by simp only [State.enters, live.2, decide_false]; rfl, ?_⟩
      intro sleeping
      simpa [resumable, sleeping] using able
  · simp only [ready]
    exact Or.inl ⟨rfl, rfl, rfl, rfl, ⟨rfl, rfl⟩, Or.inr ⟨c, rfl, idle⟩, rfl, fun _ => Or.inl rfl,
      Nat.le_refl _, ⟨rfl, rfl⟩, Or.inl rfl⟩

/-- A coroutine that fails lands in the latest resume call that reached sigsetjmp. -/
theorem Nested.fails (inv : Nested s) (here : s.base.executing = .body c)
    (current : s.base.gCurrent = some c) (last : s.attempts.head? = some c) (err : UInt32) :
    ∃ call rest, Leaves s (s.returns (loomCoroFail s.base err) s.jmpMark) call rest := by
  obtain ⟨call, rest, shape, rfl⟩ := inv.newest here
  obtain ⟨jmp, number⟩ := inv.jmp call rest shape last
  have target : ∃ result, loomCoroFail s.base err =
      { s.base.setCoro call.coro
          { s.base.coros call.coro with exitCode := err, exitFailed := true, state := .error } with
        gCurrent := none, executing := call.caller, result } := by
    simp only [loomCoroFail, current, siglongjmp, setCoro_gGuardJmp, jmp]
    exact ⟨_, rfl⟩
  obtain ⟨result, target⟩ := target
  rw [target]
  refine ⟨call, rest, shape, rfl, rfl, number, ?_, rfl, rfl, rfl, ?_, ?_, rfl, ?_, ⟨rfl, rfl⟩, rfl⟩
  · show (s.calls.filter fun other => other.number ≠ s.jmpMark) = rest
    rw [number]
    exact inv.filter_newest shape
  · simp [State.returns, Parked]
  · intro d other
    exact Function.update_of_ne other _ _
  · simp [State.returns]

/-- However a coroutine gives up the processor, its resumer gets it. -/
theorem Nested.exit (inv : Nested s) {action : Action} (current : Current s (.act action))
    (here : s.base.executing = .body c) (leaves : exits c action = true) {base : Thread}
    (after : Coro.step s.base action = some base) :
    ∃ call rest, Leaves s (s.note base action) call rest := by
  have active := inv.active here
  cases action with
  | resume d env => cases leaves
  | yield now =>
    obtain ⟨mine, last⟩ := current c here
    have away : leaving s.base (.yield now) = some c := by simp [leaving, mine, active]
    obtain rfl := Option.some.inj after
    simp only [State.note, away, loomCoroYield, mine, active, ne_eq, not_true_eq_false, if_false]
    refine inv.swaps here last (marked_setCoro s.base ?_ ?_ s.base.gCurrent)
    · dsimp only
      split <;> decide
    · rfl
  | sleepUntil deadline registered =>
    obtain ⟨mine, last⟩ := current c here
    have away : leaving s.base (.sleepUntil deadline registered) = some c := by
      simp [leaving, mine, active]
    obtain rfl := Option.some.inj after
    simp only [State.note, away, loomCoroSleepUntil, mine, active, ne_eq, not_true_eq_false, if_false]
    refine inv.swaps here last (marked_setCoro s.base ?_ ?_ s.base.gCurrent)
    · dsimp only
      split <;> decide
    · rfl
  | fail err =>
    have mine := current.1 c here
    obtain rfl := Option.some.inj after
    simp only [State.note, mine, reduceCtorEq, if_false]
    exact inv.fails here mine (current.2 c mine).2 err
  | terminate d =>
    obtain rfl : d = c := of_decide_eq_true leaves
    obtain ⟨mine, last⟩ := current here
    have away : leaving s.base (.terminate d) = some d := by simp [leaving, mine, active, inv.owned]
    obtain rfl := Option.some.inj after
    simp only [State.note, away, loomCoroTerminate, mine, active, inv.owned, ne_eq, not_true_eq_false,
      if_false, reduceCtorEq, or_self, and_self, if_true]
    refine inv.swaps here last (marked_setCoro s.base ?_ ?_ none)
    · exact (by decide : CoroState.done ≠ .running ∧ CoroState.done ≠ .new)
    · exact (inv.owned d).symm
  | ret =>
    have last := current c here
    have away : leaving s.base .ret = some c := by simp [leaving, here]
    simp only [Coro.step, here, Option.some.injEq] at after
    obtain rfl := after
    simp only [State.note, away, coroReturn]
    refine inv.swaps here last (marked_setCoro s.base ?_ ?_ none)
    · exact (by decide : CoroState.done ≠ .running ∧ CoroState.done ≠ .new)
    · rfl

/-- A call that is none of these ways out, or made outside every coroutine. -/
theorem Nested.others (inv : Nested s) {action : Action} (orderly : Orderly s (.act action))
    (current : Current s (.act action)) (named : s.names action = true)
    (inside : ∀ c, s.base.executing = .body c → exits c action = false) {base : Thread}
    (after : Coro.step s.base action = some base) :
    Quiet s (s.note base action) ∨ ∃ c env, action = .resume c env ∧ Enters s (s.note base action) c := by
  have outside : (∀ c, exits c action = true) → s.base.executing = .caller := by
    intro always
    cases here : s.base.executing with
    | caller => rfl
    | body c => exact absurd ((always c).symm.trans (inside c here)) (by decide)
  cases action with
  | resume c env =>
    obtain rfl := Option.some.inj after
    exact (inv.resume (of_decide_eq_true named) orderly env).imp_right fun enters => ⟨c, env, rfl, enters⟩
  | yield now =>
    have idle := inv.idle (outside fun _ => rfl)
    obtain rfl := Option.some.inj after
    refine Or.inl ?_
    cases mine : s.base.gCurrent with
    | none =>
      simp only [State.note, leaving, loomCoroYield, mine, Option.filter_none]
      exact quiet_stays s _ rfl
    | some cur =>
      simp only [State.note, leaving, loomCoroYield, mine, Option.filter_some, idle cur, decide_false,
        Bool.false_eq_true, if_false, ne_eq, not_false_eq_true, if_true]
      exact quiet_stays s _ rfl
  | sleepUntil deadline registered =>
    have idle := inv.idle (outside fun _ => rfl)
    obtain rfl := Option.some.inj after
    refine Or.inl ?_
    cases mine : s.base.gCurrent with
    | none =>
      simp only [State.note, leaving, loomCoroSleepUntil, mine, Option.filter_none]
      exact quiet_stays s _ rfl
    | some cur =>
      simp only [State.note, leaving, loomCoroSleepUntil, mine, Option.filter_some, idle cur, decide_false,
        Bool.false_eq_true, if_false, ne_eq, not_false_eq_true, if_true]
      exact quiet_stays s _ rfl
  | fail err =>
    have here := outside fun _ => rfl
    have none : s.base.gCurrent = none := by
      cases mine : s.base.gCurrent with
      | none => rfl
      | some c => exact absurd (here.symm.trans (current.2 c mine).1) (by simp)
    obtain rfl := Option.some.inj after
    simp only [State.note, loomCoroFail, none, if_true]
    exact Or.inl (quiet_stays s _ rfl)
  | terminate c =>
    have idle : (s.base.coros c).state ≠ .running := by
      intro active
      exact absurd (inside c (orderly active)) (by simp [exits])
    have live : s.live c := of_decide_eq_true named
    obtain rfl := Option.some.inj after
    refine Or.inl ?_
    have away : leaving s.base (.terminate c) = none := by simp [leaving, idle]
    simp only [State.note, away, loomCoroTerminate, idle, inv.owned, ne_eq, not_true_eq_false, if_false, and_false]
    split
    · exact quiet_stays s _ rfl
    · refine ⟨rfl, rfl, rfl, rfl, ⟨rfl, rfl⟩, Or.inl ⟨rfl, rfl, rfl⟩, rfl, ?_, Nat.le_refl _,
        ⟨rfl, rfl⟩, Or.inl rfl⟩
      intro d
      by_cases same : d = c
      · refine Or.inr ⟨same ▸ idle, ?_, Or.inr ⟨?_, same ▸ live.1⟩⟩
        · simp [State.stays, same]
        · simp [State.stays, same]
      · exact Or.inl (Function.update_of_ne same _ _)
  | ret =>
    have here := outside fun _ => rfl
    simp only [Coro.step, here] at after
    cases after

theorem Nested.create (inv : Nested s) (setup : Setup) : Quiet s (s.loomCoroCreate setup) := by
  refine ⟨rfl, rfl, rfl, rfl, ⟨rfl, rfl⟩, Or.inl ⟨rfl, rfl, rfl⟩, rfl, ?_, Nat.le_succ _,
    ⟨rfl, rfl⟩, Or.inl rfl⟩
  intro d
  by_cases same : d = s.created
  · have new := inv.fresh d (Nat.le_of_eq same.symm)
    refine Or.inr ⟨?_, ?_, Or.inl ⟨new, ?_⟩⟩
    · rw [new]
      exact fun running => CoroState.noConfusion running
    · simp [State.loomCoroCreate, State.stays, same]
    · simp [State.loomCoroCreate, State.stays, same]
  · exact Or.inl (Function.update_of_ne same _ _)

theorem quiet_destroy (s : State) (c : CoroId) : Quiet s (s.loomCoroDestroy c) := by
  unfold State.loomCoroDestroy
  dsimp only
  split
  · exact quiet_stays s _ rfl
  · rename_i finished
    exact ⟨rfl, rfl, rfl, rfl, ⟨rfl, rfl⟩, Or.inl ⟨rfl, rfl, rfl⟩, rfl, fun _ => Or.inl rfl,
      Nat.le_refl _, ⟨rfl, rfl⟩, Or.inr ⟨c, rfl, fun running => finished (Or.inl running)⟩⟩

theorem Nested.effect (inv : Nested s) {label : Label} (orderly : Orderly s label) (current : Current s label)
    (after : step s label = some s') :
    Quiet s s' ∨ (∃ c env, label = .act (.resume c env) ∧ Enters s s' c) ∨
      ∃ call rest, Leaves s s' call rest := by
  cases label with
  | create setup =>
    obtain rfl := Option.some.inj after
    exact Or.inl (inv.create setup)
  | destroy c =>
    simp only [step, Option.ite_none_right_eq_some, Option.some.injEq] at after
    obtain ⟨-, rfl⟩ := after
    exact Or.inl (quiet_destroy s c)
  | act action =>
    simp only [step, Option.ite_none_right_eq_some, Option.map_eq_some_iff] at after
    obtain ⟨named, base, taken, rfl⟩ := after
    by_cases out : ∃ c, s.base.executing = .body c ∧ exits c action = true
    · obtain ⟨c, here, leaves⟩ := out
      exact Or.inr (Or.inr (inv.exit current here leaves taken))
    · have inside : ∀ c, s.base.executing = .body c → exits c action = false := by
        intro c here
        exact Bool.eq_false_iff.mpr fun leaves => out ⟨c, here, leaves⟩
      rcases inv.others orderly current named inside taken with quiet | ⟨c, env, rfl, enters⟩
      · exact Or.inl quiet
      · exact Or.inr (Or.inl ⟨c, env, rfl, enters⟩)

theorem Nested.step {label : Label} (inv : Nested s) (orderly : Orderly s label) (current : Current s label)
    (after : step s label = some s') : Nested s' := by
  rcases inv.effect orderly current after with quiet | ⟨c, env, -, enters⟩ | ⟨call, rest, leaves⟩
  · exact inv.quiet quiet
  · exact inv.enters enters
  · exact inv.leaves leaves

theorem nested_start (self : Nat) : Nested (start self) := by
  refine ⟨fun _ => rfl, fun _ _ => rfl, rfl, List.nodup_nil, ?_, ?_, List.Pairwise.nil, ?_, ?_, ?_, ?_⟩
  · intro c
    exact ⟨fun running => CoroState.noConfusion running, fun member => absurd member List.not_mem_nil⟩
  · intro c
    rintro (state | state | state) <;> cases state
  · intro call member
    cases member
  · intro call member
    cases member
  · intro call rest shape
    cases shape
  · intro call rest shape
    cases shape

theorem Nested.returns (inv : Nested s) {label : Label} (current : Current s label) : Returns s label := by
  cases label with
  | create | destroy => trivial
  | act action =>
    intro c s' here leaves after
    simp only [Calls.step, Option.ite_none_right_eq_some, Option.map_eq_some_iff] at after
    obtain ⟨named, base, taken, rfl⟩ := after
    obtain ⟨call, rest, left⟩ := inv.exit current here leaves taken
    have chain := inv.chain
    rw [left.shape, here] at chain
    refine ⟨call, ?_, left.executing, left.mark⟩
    rw [left.shape]
    exact List.find?_cons_of_pos (decide_eq_true (Code.body.inj chain.1).symm)

/-- Control comes back to the resumer wherever coroutines that are in charge give it up, to any
depth of resumes inside resumes. -/
theorem control_returns_to_resumer (self : Nat) (labels : List Label)
    (orderly : Meets step Orderly (start self) labels) (current : Meets step Current (start self) labels) :
    Meets step Returns (start self) labels :=
  Meets.of_invariant (fun inv allowed after => inv.step allowed.1 allowed.2 after)
    (fun inv allowed => inv.returns allowed.2) (nested_start self) (orderly.and current)

instance (code : Code) (P : CoroId → Prop) [DecidablePred P] : Decidable (∀ c, code = .body c → P c) :=
  match code with
  | .caller => .isTrue fun _ other => nomatch other
  | .body d => decidable_of_iff (P d) ⟨fun holds _ same => Code.body.inj same ▸ holds, fun holds => holds d rfl⟩

instance (current : Option CoroId) (P : CoroId → Prop) [DecidablePred P] :
    Decidable (∀ c, current = some c → P c) :=
  match current with
  | none => .isTrue fun _ other => nomatch other
  | some d => decidable_of_iff (P d) ⟨fun holds _ same => Option.some.inj same ▸ holds, fun holds => holds d rfl⟩

instance (s : State) (c : CoroId) : Decidable (InCharge s c) :=
  inferInstanceAs (Decidable (_ ∧ _))

instance (s : State) : (label : Label) → Decidable (Orderly s label)
  | .create _ | .destroy _ | .act (.yield _) | .act (.sleepUntil ..) | .act (.fail _) | .act .ret =>
    .isTrue trivial
  | .act (.resume c _) => inferInstanceAs (Decidable ((s.base.coros c).state ≠ .running))
  | .act (.terminate c) =>
    inferInstanceAs (Decidable ((s.base.coros c).state = .running → s.base.executing = .body c))

instance (s : State) : (label : Label) → Decidable (Current s label)
  | .create _ | .destroy _ | .act (.resume ..) => .isTrue trivial
  | .act (.yield _) | .act (.sleepUntil ..) =>
    inferInstanceAs (Decidable (∀ c, s.base.executing = .body c → InCharge s c))
  | .act (.terminate c) => inferInstanceAs (Decidable (s.base.executing = .body c → InCharge s c))
  | .act (.fail _) => inferInstanceAs (Decidable ((∀ c, s.base.executing = .body c → s.base.gCurrent = some c) ∧
      ∀ c, s.base.gCurrent = some c → s.base.executing = .body c ∧ s.attempts.head? = some c))
  | .act .ret =>
    inferInstanceAs (Decidable (∀ c, s.base.executing = .body c → s.base.switches.head? = some c))

/-- Coroutine 0 sleeps, is resumed and resumes coroutine 1 twice, which yields and then fails. -/
def twoDeep : List Label :=
  [.create {}, .create {}, .act (.resume 0 {}), .act (.sleepUntil 5 .ok), .act (.resume 0 { nowNs := 5 }),
    .act (.resume 1 {}), .act (.yield none), .act (.resume 1 {}), .act (.fail 7)]

theorem control_returns_two_deep : ∃ s,
    exec step (start 0) twoDeep = some s ∧ s.base.executing = .body 0 ∧ s.mark = 7 ∧
    s.calls = [⟨.caller, 4, 0⟩] ∧ Meets step Returns (start 0) twoDeep := by
  have orderly : Meets step Orderly (start 0) twoDeep := by
    apply meets_of_decide
    decide +kernel
  have current : Meets step Current (start 0) twoDeep := by
    apply meets_of_decide
    decide +kernel
  have run : ((exec step (start 0) twoDeep).map fun s => (s.base.executing, s.mark, s.calls)) =
      some (.body 0, 7, [⟨.caller, 4, 0⟩]) := by decide +kernel
  obtain ⟨s, run, shape⟩ := Option.map_eq_some_iff.mp run
  simp only [Prod.mk.injEq] at shape
  exact ⟨s, run, shape.1, shape.2.1, shape.2.2, control_returns_to_resumer 0 twoDeep orderly current⟩

/-- Coroutine 0 resumes coroutine 1 and, when that has yielded, returns: control does not come back
to the thread but to coroutine 0 itself, after its own call of resume. -/
theorem outer_coroutine_returns_into_itself : ∃ before after,
    exec step (start 0) [.create {}, .create {}, .act (.resume 0 {}), .act (.resume 1 {}),
      .act (.yield none)] = some before ∧
    before.base.executing = .body 0 ∧ before.calls = [⟨.caller, 2, 0⟩] ∧
    step before (.act .ret) = some after ∧ after.base.executing = .body 0 ∧ after.mark = 3 ∧
    ¬ Returns before (.act .ret) := by
  have run : ((exec step (start 0) [.create {}, .create {}, .act (.resume 0 {}), .act (.resume 1 {}),
      .act (.yield none)]).map fun s => (s.base.executing, s.calls,
        (step s (.act .ret)).map fun s => (s.base.executing, s.mark))) =
      some (.body 0, [⟨.caller, 2, 0⟩], some (.body 0, 3)) := by decide +kernel
  obtain ⟨before, run, shape⟩ := Option.map_eq_some_iff.mp run
  simp only [Prod.mk.injEq] at shape
  obtain ⟨here, calls, last⟩ := shape
  obtain ⟨after, taken, shape⟩ := Option.map_eq_some_iff.mp last
  simp only [Prod.mk.injEq] at shape
  refine ⟨before, after, run, here, calls, taken, shape.1, shape.2, ?_⟩
  intro returns
  obtain ⟨call, found, caller, -⟩ := returns 0 after here rfl taken
  rw [calls] at found
  obtain rfl : (⟨.caller, 2, 0⟩ : Call) = call := by simpa using found
  rw [shape.1] at caller
  cases caller

end Loomworks.Coro.Calls

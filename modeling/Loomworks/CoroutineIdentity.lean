import Loomworks.Coroutine

namespace Loomworks.Coro

open Transition

/-- Resumes come from the thread's own code; a body yields, sleeps, fails,
terminates itself or returns. -/
def InScope (t : Thread) : Action → Prop
  | .resume _ _ => t.executing = .caller
  | .terminate c => t.executing = .body c
  | _ => t.executing ≠ .caller

instance (t : Thread) : DecidablePred (InScope t)
  | .resume .. => inferInstanceAs (Decidable (t.executing = .caller))
  | .terminate c => inferInstanceAs (Decidable (t.executing = .body c))
  | .yield _ | .sleepUntil .. | .fail _ | .ret => inferInstanceAs (Decidable (t.executing ≠ .caller))

/-- A resume that re-enters a coroutine finds it to be the one entered last: no
other coroutine ran since it gave up the processor. -/
def Uninterleaved (t : Thread) : Action → Prop
  | .resume c env =>
    (t.coros c).owner = t.self → env.schedulerReady = true → resumable (t.coros c) env = true →
      (t.coros c).state ≠ .new → t.switches.head? = some c
  | _ => True

instance (t : Thread) : DecidablePred (Uninterleaved t)
  | .resume c env => inferInstanceAs (Decidable ((t.coros c).owner = t.self → env.schedulerReady = true →
      resumable (t.coros c) env = true → (t.coros c).state ≠ .new → t.switches.head? = some c))
  | .yield _ | .sleepUntil .. | .fail _ | .terminate _ | .ret => .isTrue trivial

/-- A yield by c takes c, and only c, off the processor. -/
def YieldSuspends (t : Thread) (c : CoroId) : Prop :=
  ∀ now, (loomCoroYield t now).executing = .caller ∧
    (((loomCoroYield t now).coros c).state = .suspended ∨
      ((loomCoroYield t now).coros c).state = .timeout) ∧
    ∀ d, d ≠ c → (loomCoroYield t now).coros d = t.coros d

/-- A sleep by c takes c off the processor; only a refused registration makes
it an error. -/
def SleepSuspends (t : Thread) (c : CoroId) : Prop :=
  ∀ deadline registered,
    (loomCoroSleepUntil t deadline registered).executing = .caller ∧
    (loomCoroSleepUntil t deadline registered).result ≠ .errInvalid ∧
    ((loomCoroSleepUntil t deadline registered).coros c).state =
      (if (t.coros c).sleepReg = true ∧ registered ≠ .ok then .error else .sleeping) ∧
    ∀ d, d ≠ c → (loomCoroSleepUntil t deadline registered).coros d = t.coros d

/-- A failure by c is recorded on c and reported by the resume driving c. -/
def FailMarks (t : Thread) (c : CoroId) : Prop :=
  ∀ err, (loomCoroFail t err).executing = .caller ∧
    (loomCoroFail t err).result = .errFailed ∧
    ((loomCoroFail t err).coros c).state = .error ∧
    ((loomCoroFail t err).coros c).exitFailed = true ∧
    ((loomCoroFail t err).coros c).exitCode = err ∧
    ∀ d, d ≠ c → (loomCoroFail t err).coros d = t.coros d

def IdentityAt (t : Thread) : Prop :=
  ∀ c, t.executing = .body c →
    t.gCurrent = some c ∧ YieldSuspends t c ∧ SleepSuspends t c ∧ FailMarks t c

/-- Off the processor a coroutine is never RUNNING, and what it saved is its
own continuation. -/
def Parked (c : CoroId) (coro : Coroutine) : Prop :=
  coro.state ≠ .running ∧
    (coro.state ≠ .new → coro.state ≠ .done → coro.state ≠ .error → coro.ctx = .saved (.body c))

structure Consistent (t : Thread) : Prop where
  parked : ∀ c, t.executing ≠ .body c → Parked c (t.coros c)
  latest : ∀ c, t.gCurrent = some c → t.switches.head? = some c
  current : ∀ c, t.switches.head? = some c → (t.coros c).state ≠ .done →
    (t.coros c).state ≠ .error → t.gCurrent = some c
  active : ∀ c, t.executing = .body c → t.gCurrent = some c ∧ (t.coros c).state = .running ∧
    t.gScheduler = .saved .caller ∧ t.gGuardJmp = some (.caller, c)

theorem initial_consistent (self : Nat) (coros : CoroId → Coroutine)
    (fresh : ∀ c, (coros c).state = .new) : Consistent (initial self coros) where
  parked := by
    intro c _
    exact ⟨by simp [initial, fresh c], fun used => absurd (fresh c) used⟩
  latest := by
    intro c current
    cases current
  current := by
    intro c head
    cases head
  active := by
    intro c running
    cases running

/-- Where a swap to the scheduler leaves the thread when c is executing. -/
theorem swapToScheduler_saved (t : Thread) (c : CoroId) (link : t.gScheduler = .saved .caller) :
    swapToScheduler t c =
      { t with
        coros := Function.update t.coros c { t.coros c with ctx := .saved t.executing }
        executing := .caller
        result := .ok } := by
  simp only [swapToScheduler, link, switchTo, Thread.setCoro]

/-- Giving up the processor: c leaves with a state that is not RUNNING, keeping
or clearing g_current; a cleared g_current means c is finished. -/
theorem Consistent.leave {t next : Thread} {c : CoroId} {coro : Coroutine}
    (valid : Consistent t) (running : t.executing = .body c)
    (coros : next.coros = Function.update t.coros c coro)
    (executing : next.executing = .caller) (switches : next.switches = t.switches)
    (stopped : Parked c coro)
    (current : next.gCurrent = t.gCurrent ∨
      next.gCurrent = none ∧ (coro.state = .done ∨ coro.state = .error)) :
    Consistent next := by
  obtain ⟨mine, -, -, -⟩ := valid.active c running
  have head := valid.latest c mine
  refine ⟨?_, ?_, ?_, ?_⟩
  · intro d _
    rw [coros]
    by_cases same : d = c
    · subst same
      simpa using stopped
    · rw [Function.update_of_ne same]
      apply valid.parked d
      rw [running]
      simpa using fun equal => same equal.symm
  · intro d is
    rw [switches]
    rcases current with kept | ⟨cleared, -⟩
    · exact valid.latest d (kept ▸ is)
    · rw [cleared] at is
      cases is
  · intro d top notDone notError
    rw [switches, head] at top
    cases top
    rw [coros, Function.update_self] at notDone notError
    rcases current with kept | ⟨-, finished⟩
    · rw [kept, mine]
    · rcases finished with finished | finished
      · exact absurd finished notDone
      · exact absurd finished notError
  · intro d body
    rw [executing] at body
    cases body

/-- An early return of resume changes nothing but the jump buffer. -/
theorem Consistent.idle {t next : Thread} (valid : Consistent t)
    (caller : t.executing = .caller) (coros : next.coros = t.coros)
    (executing : next.executing = .caller) (switches : next.switches = t.switches)
    (current : next.gCurrent = t.gCurrent) : Consistent next := by
  refine ⟨?_, ?_, ?_, ?_⟩
  · intro c _
    rw [coros]
    exact valid.parked c (by simp [caller])
  · intro c is
    rw [switches]
    exact valid.latest c (current ▸ is)
  · intro c top notDone notError
    rw [coros] at notDone notError
    rw [current]
    exact valid.current c (switches ▸ top) notDone notError
  · intro c body
    rw [executing] at body
    cases body

/-- A switch into c: from a fresh context g_current is stamped, from a saved
one it must already be c. -/
theorem Consistent.enter {t : Thread} {c : CoroId} (valid : Consistent t)
    (caller : t.executing = .caller) (jump : t.gGuardJmp = some (.caller, c))
    (notDone : (t.coros c).state ≠ .done) (notError : (t.coros c).state ≠ .error)
    (aligned : (t.coros c).state ≠ .new → t.gCurrent = some c) :
    Consistent (enterCoro t c) := by
  have other : ∀ d, d ≠ c → t.executing ≠ .body d := by simp [caller]
  by_cases first : (t.coros c).state = .new
  · refine ⟨?_, ?_, ?_, ?_⟩
    · intro d outside
      have same : d ≠ c := by
        rintro rfl
        simp [enterCoro, first, switchTo] at outside
      simpa [enterCoro, first, switchTo, same] using valid.parked d (other d same)
    · intro d is
      simpa [enterCoro, first, switchTo] using is
    · intro d top _ _
      simpa [enterCoro, first, switchTo] using top
    · intro d body
      have same : c = d := by simpa [enterCoro, first, switchTo] using body
      subst same
      simp [enterCoro, first, switchTo, caller, jump]
  · have saved := (valid.parked c (by simp [caller])).2 first notDone notError
    have mine := aligned first
    refine ⟨?_, ?_, ?_, ?_⟩
    · intro d outside
      have same : d ≠ c := by
        rintro rfl
        simp [enterCoro, first, saved, switchTo] at outside
      simpa [enterCoro, first, saved, switchTo, same] using valid.parked d (other d same)
    · intro d is
      simpa [enterCoro, first, saved, switchTo, mine] using is
    · intro d top _ _
      simpa [enterCoro, first, saved, switchTo, mine] using top
    · intro d body
      have same : c = d := by simpa [enterCoro, first, saved, switchTo] using body
      subst same
      simp [enterCoro, first, saved, switchTo, caller, jump, mine]

theorem yield_of_active {t : Thread} {c : CoroId} (now : Option Int)
    (mine : t.gCurrent = some c) (state : (t.coros c).state = .running)
    (link : t.gScheduler = .saved .caller) :
    loomCoroYield t now =
      { t with
        coros := Function.update t.coros c
          { t.coros c with
            state := if checkCoroTimeout (t.coros c) now then .timeout else .suspended
            ctx := .saved t.executing }
        executing := .caller
        result := .ok } := by
  simp only [loomCoroYield, mine, state, ne_eq, not_true_eq_false, ↓reduceIte]
  rw [swapToScheduler_saved _ _ (by simpa using link)]
  simp [Thread.setCoro, mine]

theorem sleepUntil_of_active {t : Thread} {c : CoroId} (deadline : Int) (registered : CoroResult)
    (mine : t.gCurrent = some c) (state : (t.coros c).state = .running)
    (link : t.gScheduler = .saved .caller) :
    loomCoroSleepUntil t deadline registered =
      { t with
        coros := Function.update t.coros c
          { t.coros c with
            state := if (t.coros c).sleepReg = true ∧ registered ≠ .ok then .error else .sleeping
            wakeDeadlineNs := deadline
            ctx := .saved t.executing }
        executing := .caller
        result := .ok } := by
  simp only [loomCoroSleepUntil, mine, state, ne_eq, not_true_eq_false, ↓reduceIte]
  rw [swapToScheduler_saved _ _ (by simpa using link)]
  simp [Thread.setCoro, mine]

theorem fail_of_active {t : Thread} {c : CoroId} (err : UInt32)
    (mine : t.gCurrent = some c) (jump : t.gGuardJmp = some (.caller, c)) :
    loomCoroFail t err =
      { t with
        coros := Function.update t.coros c
          { t.coros c with exitCode := err, exitFailed := true, state := .error }
        gCurrent := none
        executing := .caller
        result := .errFailed } := by
  simp [loomCoroFail, mine, siglongjmp, Thread.setCoro, jump]

theorem terminate_of_active {t : Thread} {c : CoroId} (owned : (t.coros c).owner = t.self)
    (mine : t.gCurrent = some c) (state : (t.coros c).state = .running)
    (link : t.gScheduler = .saved .caller) :
    loomCoroTerminate t c =
      { t with
        coros := Function.update t.coros c
          { t.coros c with state := .done, ctx := .saved t.executing }
        gCurrent := none
        executing := .caller
        result := .ok } := by
  simp only [loomCoroTerminate, owned, ne_eq, not_true_eq_false, ↓reduceIte, mine, state,
    and_self]
  rw [swapToScheduler_saved _ _ (by simpa using link)]
  simp [Thread.setCoro]

theorem coroReturn_of_active {t : Thread} {c : CoroId} (link : t.gScheduler = .saved .caller) :
    coroReturn t c =
      { t with
        coros := Function.update t.coros c
          { t.coros c with state := .done, ctx := .saved t.executing }
        gCurrent := none
        executing := .caller
        result := .ok } := by
  rw [coroReturn, swapToScheduler_saved _ _ (by simpa using link)]
  simp [Thread.setCoro]

theorem Consistent.identity {t : Thread} (valid : Consistent t) : IdentityAt t := by
  intro c body
  obtain ⟨mine, state, link, jump⟩ := valid.active c body
  refine ⟨mine, ?_, ?_, ?_⟩
  · intro now
    rw [yield_of_active now mine state link]
    refine ⟨rfl, ?_, fun d other => by simp [other]⟩
    by_cases late : checkCoroTimeout (t.coros c) now = true
    · exact Or.inr (by simp [late])
    · exact Or.inl (by simp [late])
  · intro deadline registered
    rw [sleepUntil_of_active deadline registered mine state link]
    exact ⟨rfl, by simp, by simp, fun d other => by simp [other]⟩
  · intro err
    rw [fail_of_active err mine jump]
    exact ⟨rfl, rfl, by simp, by simp, by simp, fun d other => by simp [other]⟩

/-- A resume in scope either returns at once or switches into its coroutine. -/
theorem Consistent.resume {t : Thread} (valid : Consistent t) (c : CoroId) (env : ResumeEnv)
    (caller : t.executing = .caller) (aligned : Uninterleaved t (.resume c env)) :
    Consistent (loomCoroResume t c env) := by
  unfold loomCoroResume
  split
  · exact valid.idle caller rfl caller rfl rfl
  · rename_i owned
    dsimp only
    split
    · rename_i enters
      obtain ⟨ready, resumes⟩ := Bool.and_eq_true_iff.mp enters
      have armed : Consistent { t with gGuardJmp := some (t.executing, c) } :=
        valid.idle caller rfl caller rfl rfl
      have notDone : (t.coros c).state ≠ .done := by
        intro done
        simp [resumable, done] at resumes
      have notError : (t.coros c).state ≠ .error := by
        intro error
        simp [resumable, error] at resumes
      apply armed.enter caller (by simp [caller]) notDone notError
      intro used
      have owner : (t.coros c).owner = t.self := by simpa using owned
      exact valid.current c (aligned owner ready resumes used) notDone notError
    · exact valid.idle caller rfl caller rfl rfl

theorem Consistent.taken {t next : Thread} {action : Action} (valid : Consistent t)
    (inScope : InScope t action) (aligned : Uninterleaved t action)
    (taken : step t action = some next) : Consistent next := by
  cases action with
  | resume c env =>
    cases taken
    exact valid.resume c env inScope aligned
  | yield now =>
    cases taken
    cases body : t.executing with
    | caller => exact absurd body inScope
    | body c =>
      obtain ⟨mine, state, link, -⟩ := valid.active c body
      rw [yield_of_active now mine state link]
      refine valid.leave body rfl rfl rfl ⟨?_, fun _ _ _ => by simp [body]⟩ (Or.inl rfl)
      dsimp only
      split <;> simp
  | sleepUntil deadline registered =>
    cases taken
    cases body : t.executing with
    | caller => exact absurd body inScope
    | body c =>
      obtain ⟨mine, state, link, -⟩ := valid.active c body
      rw [sleepUntil_of_active deadline registered mine state link]
      refine valid.leave body rfl rfl rfl ⟨?_, fun _ _ _ => by simp [body]⟩ (Or.inl rfl)
      dsimp only
      split <;> simp
  | fail err =>
    cases taken
    cases body : t.executing with
    | caller => exact absurd body inScope
    | body c =>
      obtain ⟨mine, -, -, jump⟩ := valid.active c body
      rw [fail_of_active err mine jump]
      exact valid.leave body rfl rfl rfl ⟨by simp, fun _ _ finished => absurd rfl finished⟩
        (Or.inr ⟨rfl, Or.inr rfl⟩)
  | terminate c =>
    cases taken
    obtain ⟨mine, state, link, -⟩ := valid.active c inScope
    by_cases owned : (t.coros c).owner = t.self
    · rw [terminate_of_active owned mine state link]
      exact valid.leave inScope rfl rfl rfl ⟨by simp, fun _ finished => absurd rfl finished⟩
        (Or.inr ⟨rfl, Or.inl rfl⟩)
    · have rejected : loomCoroTerminate t c = { t with result := .errInvalid } := by
        simp [loomCoroTerminate, owned]
      rw [rejected]
      exact ⟨valid.parked, valid.latest, valid.current, valid.active⟩
  | ret =>
    cases body : t.executing with
    | caller => exact absurd body inScope
    | body c =>
      obtain ⟨-, -, link, -⟩ := valid.active c body
      have returned : next = coroReturn t c := by
        simpa [step, body, eq_comm] using taken
      rw [returned, coroReturn_of_active link]
      exact valid.leave body rfl rfl rfl ⟨by simp, fun _ finished => absurd rfl finished⟩
        (Or.inr ⟨rfl, Or.inl rfl⟩)

/-- Re-entering a coroutine that is not the latest one leaves g_current behind. -/
theorem Consistent.uninterleaved_of_identity {t : Thread} {action : Action}
    (valid : Consistent t) (inScope : InScope t action)
    (identity : ∀ next, step t action = some next → IdentityAt next) :
    Uninterleaved t action := by
  cases action with
  | resume c env =>
    intro owned ready resumes used
    have caller : t.executing = .caller := inScope
    have notDone : (t.coros c).state ≠ .done := by
      intro done
      simp [resumable, done] at resumes
    have notError : (t.coros c).state ≠ .error := by
      intro error
      simp [resumable, error] at resumes
    have saved := (valid.parked c (by simp [caller])).2 used notDone notError
    have after := identity _ rfl c (by
      simp [loomCoroResume, owned, ready, resumes, enterCoro, used, saved, switchTo])
    apply valid.latest c
    simpa [loomCoroResume, owned, ready, resumes, enterCoro, used, saved, switchTo] using after.1
  | _ => trivial

/-- While a body runs, g_current names it in every state of a run exactly when
no coroutine is re-entered after another one has run. -/
theorem identity_iff_uninterleaved (self : Nat) (coros : CoroId → Coroutine)
    (fresh : ∀ c, (coros c).state = .new) (actions : List Action)
    (inScope : Meets step InScope (initial self coros) actions) :
    Always step IdentityAt (initial self coros) actions ↔
      Meets step Uninterleaved (initial self coros) actions := by
  have start := initial_consistent self coros fresh
  constructor
  · intro always
    exact meets_of_always (fun valid scope aligned taken => valid.taken scope aligned taken)
      (fun valid scope identity => valid.uninterleaved_of_identity scope identity)
      start inScope always
  · intro aligned
    exact always_of_meets (fun valid both taken => valid.taken both.1 both.2 taken)
      (fun valid => valid.identity) start (inScope.and aligned)

/-- Two coroutines that yield once each, the second entered when the first has returned. -/
def successive : List Action :=
  [.resume 0 {}, .yield none, .resume 0 {}, .ret, .resume 1 {}, .yield none, .resume 1 {}, .ret]

theorem identity_of_successive :
    (exec step (initial 0 fun _ => {}) successive).isSome = true ∧
      Always step IdentityAt (initial 0 fun _ => {}) successive := by
  refine ⟨by decide +kernel, (identity_iff_uninterleaved 0 (fun _ => {}) (fun _ => rfl) _ ?_).mpr ?_⟩
  · apply meets_of_decide
    decide +kernel
  · apply meets_of_decide
    decide +kernel

/-- Two coroutines that yield in turn: when the first is re-entered, g_current
still names the second, which is SUSPENDED, so the next yield returns at once. -/
theorem identity_lost_when_interleaved :
    Meets step InScope (initial 0 fun _ => {})
      [.resume 0 {}, .yield none, .resume 1 {}, .yield none, .resume 0 {}] ∧
    ¬ Always step IdentityAt (initial 0 fun _ => {})
      [.resume 0 {}, .yield none, .resume 1 {}, .yield none, .resume 0 {}] := by
  constructor
  · apply meets_of_decide
    decide +kernel
  · intro always
    have last := always.final rfl
    have current : some 1 = some 0 := (last 0 rfl).1
    cases current

end Loomworks.Coro

import Loomworks.Coroutine
import Loomworks.TimerHeap

/- loom_coro_sleep (src/coroutine.c) and the two places that end a sleep: loom_coro_resume
and the timer thread (src/thread_pool.c). Times are int64_t; a sum that overflows is taken
to wrap. -/
namespace Loomworks.Sleep

open Transition Loomworks.Coro Loomworks.Timer

/-- The int64_t that an integer wraps to. -/
def int64 (x : Int) : Int := x.bmod (2 ^ 64)

/-- A reading of CLOCK_MONOTONIC. -/
structure Timespec where
  tvSec : Int
  tvNsec : Int
  sec : 0 ≤ tvSec
  nsec : 0 ≤ tvNsec ∧ tvNsec < 1000000000

namespace Timespec

/-- The reading in nanoseconds. -/
def ns (ts : Timespec) : Int := ts.tvSec * 1000000000 + ts.tvNsec

/-- now_ns as the source computes it. -/
def nowNs (ts : Timespec) : Int := int64 (int64 (ts.tvSec * 1000000000) + ts.tvNsec)

end Timespec

/-- The deadline loom_coro_sleep passes on. -/
def sleepDeadline (ts : Timespec) (durationNs : Int) : Int := int64 (ts.nowNs + durationNs)

/-- loom_coro_sleep; registered is what the pool's sleep_reg hook returns. -/
def loomCoroSleep (t : Thread) (ts : Timespec) (durationNs : Int) (registered : CoroResult) : Thread :=
  if durationNs < 0 then { t with result := .errInvalid }
  else loomCoroSleepUntil t (sleepDeadline ts durationNs) registered

/-- The timer thread's loop over the due entries: those it hands to the ready FIFOs, and the
heap it leaves. Without memory for a ready node the entry goes back and the loop ends. -/
def drainDue (now : Int) (calloc : Nat → Bool) : (rounds : Nat) → TimerHeap → List Entry × TimerHeap
  | 0, heap => ([], heap)
  | rounds + 1, heap =>
    if 0 < heap.len ∧ (heap.slots 0).deadlineNs ≤ now then
      match heap.loomTimerPopDue with
      | none => ([], heap)
      | some (e, rest) =>
        if calloc rounds then
          let more := drainDue now calloc rounds rest
          (e :: more.1, more.2)
        else ([], (rest.loomTimerPush e true).getD rest)
    else ([], heap)

/-- A resume of c reads the clock before the limit. -/
def Early (c : CoroId) (limit : Int) (_ : Thread) : Action → Prop
  | .resume d env => d = c → ∃ clock : Timespec, env.nowNs = clock.nowNs ∧ clock.ns < limit
  | _ => True

/-- A thread with coroutines that have not run, as far as the resumes made so far go. -/
def Started (t : Thread) : Prop :=
  ∃ self coros, (∀ c, (coros c).ctx = .unarmed) ∧ Reachable Coro.step (initial self coros) t

/-- A sleep from ts on: the deadline is exact, no resume before it switches to the sleeper
whatever else the thread does, and the timer thread does not hand it out before. -/
structure SleepsFully (ts : Timespec) (durationNs : Int) : Prop where
  exact : sleepDeadline ts durationNs = ts.ns + durationNs
  resume : ∀ t c registered, Started t → t.gCurrent = some c → (t.coros c).state = .running →
    ∀ actions, Meets Coro.step (Early c (ts.ns + durationNs))
      (loomCoroSleep t ts durationNs registered) actions →
    Always Coro.step (fun later => later.switches.count c = t.switches.count c)
      (loomCoroSleep t ts durationNs registered) actions
  timer : ∀ heap calloc rounds, ∀ clock : Timespec, clock.ns < ts.ns + durationNs →
    ∀ e ∈ (drainDue clock.nowNs calloc rounds heap).1, e.deadlineNs ≠ sleepDeadline ts durationNs

variable {t t' : Thread} {c d : CoroId} {deadline : Int}

theorem int64_of_small {x : Int} (low : 0 ≤ x) (high : x < 2 ^ 63) : int64 x = x :=
  Int.bmod_eq_of_le_mul_two (by omega) (by omega)

theorem nowNs_of_small {ts : Timespec} (small : ts.ns < 2 ^ 63) : ts.nowNs = ts.ns := by
  have sec := ts.sec
  have nsec := ts.nsec
  unfold Timespec.ns at small
  have seconds : int64 (ts.tvSec * 1000000000) = ts.tvSec * 1000000000 :=
    int64_of_small (by omega) (by omega)
  unfold Timespec.nowNs Timespec.ns
  rw [seconds, int64_of_small (by omega) (by omega)]

theorem ns_nonneg (ts : Timespec) : 0 ≤ ts.ns := by
  have sec := ts.sec
  have nsec := ts.nsec
  unfold Timespec.ns
  omega

theorem sleepDeadline_of_small {ts : Timespec} {durationNs : Int} (positive : 0 ≤ durationNs)
    (small : ts.ns + durationNs < 2 ^ 63) : sleepDeadline ts durationNs = ts.ns + durationNs := by
  have now := ns_nonneg ts
  unfold sleepDeadline
  rw [nowNs_of_small (by omega), int64_of_small (by omega) small]

/-- An int64_t is below 2 ^ 63, so that a larger sum is not represented. -/
theorem sleepDeadline_lt (ts : Timespec) (durationNs : Int) : sleepDeadline ts durationNs < 2 ^ 63 := by
  have := @Int.bmod_lt (ts.nowNs + durationNs) (2 ^ 64) (by decide)
  unfold sleepDeadline int64
  omega

/-- Contexts run the coroutine they belong to. -/
structure Armed (t : Thread) : Prop where
  entry : ∀ e x, (t.coros e).ctx = .entry x → x = e
  scheduler : ∀ x, t.gScheduler ≠ .entry x

/-- c has not been woken: it sleeps towards the deadline or has ended. -/
def Asleep (c : CoroId) (deadline : Int) (t : Thread) : Prop :=
  (t.coros c).state = .sleeping ∧ (t.coros c).wakeDeadlineNs = deadline ∨
    (t.coros c).state = .done ∨ (t.coros c).state = .error

@[simp] theorem switchTo_ctx (t : Thread) (ctx : Context) (e : CoroId) :
    ((switchTo t ctx).coros e).ctx = (t.coros e).ctx := by
  cases ctx with
  | unarmed => rfl
  | saved code => rfl
  | entry x =>
    by_cases same : e = x
    · subst same
      simp [switchTo]
    · simp [switchTo, Function.update_of_ne same]

@[simp] theorem switchTo_gScheduler (t : Thread) (ctx : Context) :
    (switchTo t ctx).gScheduler = t.gScheduler := by
  cases ctx <;> rfl

@[simp] theorem switchTo_switches (t : Thread) (ctx : Context) :
    (switchTo t ctx).switches = t.switches := by
  cases ctx <;> rfl

theorem switchTo_coros {ctx : Context} (other : ctx ≠ .entry c) :
    (switchTo t ctx).coros c = t.coros c := by
  cases ctx with
  | unarmed => rfl
  | saved code => rfl
  | entry x =>
    have apart : c ≠ x := fun same => other (same ▸ rfl)
    simp [switchTo, Function.update_of_ne apart]

/-- What a call that does not wake c leaves of it. -/
structure Spares (c : CoroId) (t t' : Thread) : Prop where
  coro : (t'.coros c).state = (t.coros c).state ∧
      (t'.coros c).wakeDeadlineNs = (t.coros c).wakeDeadlineNs ∨
    (t'.coros c).state = .done ∨ (t'.coros c).state = .error
  switches : t'.switches.count c = t.switches.count c

theorem Spares.trans {t₁ t₂ t₃ : Thread} (first : Spares c t₁ t₂) (second : Spares c t₂ t₃) :
    Spares c t₁ t₃ := by
  refine ⟨?_, second.switches.trans first.switches⟩
  rcases second.coro with ⟨state, wake⟩ | ended
  · rw [state, wake]
    exact first.coro
  · exact Or.inr ended

theorem Spares.asleep (spares : Spares c t t') (asleep : Asleep c deadline t) :
    Asleep c deadline t' := by
  rcases spares.coro with ⟨state, wake⟩ | ended
  · unfold Asleep
    rw [state, wake]
    exact asleep
  · exact Or.inr ended

theorem armed_setCoro (armed : Armed t) (d : CoroId) (coro : Coroutine)
    (own : ∀ x, coro.ctx = .entry x → x = d) : Armed (t.setCoro d coro) where
  entry e x ctx := by
    by_cases same : e = d
    · subst same
      rw [setCoro_coros, Function.update_self] at ctx
      exact own x ctx
    · rw [setCoro_coros, Function.update_of_ne same] at ctx
      exact armed.entry e x ctx
  scheduler := armed.scheduler

theorem armed_switchTo (armed : Armed t) (ctx : Context) : Armed (switchTo t ctx) where
  entry e x is := armed.entry e x (by simpa using is)
  scheduler x is := armed.scheduler x (by simpa using is)

theorem armed_swapToScheduler (armed : Armed t) (d : CoroId) : Armed (swapToScheduler t d) := by
  have saved : Armed (t.setCoro d { t.coros d with ctx := .saved t.executing }) :=
    armed_setCoro armed d _ (fun x clash => by cases clash)
  have switched := armed_switchTo saved t.gScheduler
  exact ⟨switched.entry, switched.scheduler⟩

theorem spares_swapToScheduler (armed : Armed t) (d : CoroId) :
    Spares c t (swapToScheduler t d) := by
  have back := @switchTo_coros (t.setCoro d { t.coros d with ctx := .saved t.executing }) c
    t.gScheduler (armed.scheduler c)
  have same : (swapToScheduler t d).coros c =
      (t.setCoro d { t.coros d with ctx := .saved t.executing }).coros c := back
  refine ⟨Or.inl ?_, ?_⟩
  · rw [same, setCoro_coros]
    by_cases own : c = d
    · subst own
      simp
    · rw [Function.update_of_ne own]
      exact ⟨rfl, rfl⟩
  · show (switchTo _ _).switches.count c = _
    rw [switchTo_switches, setCoro_switches]

theorem spares_setCoro (t : Thread) (d : CoroId) (coro : Coroutine)
    (ended : d = c → coro.state = .done ∨ coro.state = .error) : Spares c t (t.setCoro d coro) := by
  refine ⟨?_, rfl⟩
  rw [setCoro_coros]
  by_cases own : c = d
  · subst own
    rw [Function.update_self]
    exact Or.inr (ended rfl)
  · rw [Function.update_of_ne own]
    exact Or.inl ⟨rfl, rfl⟩

/-- A coroutine that is not RUNNING gives up nothing. -/
theorem ne_of_running (asleep : Asleep c deadline t) (running : (t.coros d).state = .running) :
    d ≠ c := by
  rintro rfl
  rcases asleep with ⟨state, -⟩ | state | state
  · rw [running] at state
    cases state
  · rw [running] at state
    cases state
  · rw [running] at state
    cases state

theorem enterCoro_ctx (armed : Armed t) (d x : CoroId)
    (is : (if (t.coros d).state = .new then Context.entry d else (t.coros d).ctx) = .entry x) :
    x = d := by
  split at is
  · cases is
    rfl
  · exact armed.entry d x is

theorem armed_resume (armed : Armed t) (d : CoroId) (env : ResumeEnv) :
    Armed (loomCoroResume t d env) := by
  unfold loomCoroResume
  split
  · exact ⟨armed.entry, armed.scheduler⟩
  · dsimp only
    split
    · unfold enterCoro
      dsimp only
      apply armed_switchTo
      refine ⟨fun e x is => ?_, fun x clash => by cases clash⟩
      have set := armed_setCoro armed d
        { t.coros d with
          state := .running
          ctx := if (t.coros d).state = .new then .entry d else (t.coros d).ctx
          wakeDeadlineNs := if (t.coros d).state = .sleeping then 0 else (t.coros d).wakeDeadlineNs }
        (enterCoro_ctx armed d)
      exact set.entry e x is
    · exact ⟨armed.entry, armed.scheduler⟩

theorem spares_resume (armed : Armed t) (asleep : Asleep c deadline t) (d : CoroId) (env : ResumeEnv)
    (early : d = c → env.nowNs < deadline) : Spares c t (loomCoroResume t d env) := by
  unfold loomCoroResume
  split
  · exact ⟨Or.inl ⟨rfl, rfl⟩, rfl⟩
  · dsimp only
    split
    · rename_i able
      rw [Bool.and_eq_true] at able
      have other : d ≠ c := by
        intro own
        have early := early own
        have able := able.2
        subst own
        unfold resumable at able
        rcases asleep with ⟨state, wake⟩ | state | state
        · simp only [state, wake, decide_eq_true_eq] at able
          omega
        · simp [state] at able
        · simp [state] at able
      unfold enterCoro
      dsimp only
      refine ⟨Or.inl ?_, ?_⟩
      · rw [switchTo_coros fun is => other (enterCoro_ctx armed d c is).symm]
        simp [Thread.setCoro, Function.update_of_ne other.symm]
      · rw [switchTo_switches, List.count_cons_of_ne other]
    · exact ⟨Or.inl ⟨rfl, rfl⟩, rfl⟩

theorem siglongjmp_coros (t : Thread) : (siglongjmp t).coros = t.coros ∧
    (siglongjmp t).gScheduler = t.gScheduler ∧ (siglongjmp t).switches = t.switches := by
  unfold siglongjmp
  split <;> exact ⟨rfl, rfl, rfl⟩

/-- A change of d's record that keeps its context, and the swap behind it. -/
theorem armed_leave (armed : Armed t) (d : CoroId) (coro : Coroutine)
    (ctx : coro.ctx = (t.coros d).ctx) : Armed (swapToScheduler (t.setCoro d coro) d) :=
  armed_swapToScheduler (armed_setCoro armed d coro fun x is => armed.entry d x (ctx ▸ is)) d

theorem armed_coroReturn (armed : Armed t) (d : CoroId) : Armed (coroReturn t d) := by
  have set := armed_setCoro armed d { t.coros d with state := .done } (armed.entry d)
  have cleared : Armed { t.setCoro d { t.coros d with state := .done } with gCurrent := none } :=
    ⟨set.entry, set.scheduler⟩
  exact armed_swapToScheduler cleared d

/-- The end of a coroutine, be it the sleeper itself. -/
theorem spares_coroReturn (armed : Armed t) (d : CoroId) : Spares c t (coroReturn t d) := by
  have set := spares_setCoro t d { t.coros d with state := .done } (fun _ => Or.inl rfl) (c := c)
  have done := armed_setCoro armed d { t.coros d with state := .done } (armed.entry d)
  have cleared : Armed { t.setCoro d { t.coros d with state := .done } with gCurrent := none } :=
    ⟨done.entry, done.scheduler⟩
  have ended : Spares c t { t.setCoro d { t.coros d with state := .done } with gCurrent := none } :=
    ⟨set.coro, set.switches⟩
  exact ended.trans (spares_swapToScheduler cleared d)

theorem armed_step {action : Action} (armed : Armed t) (stepped : Coro.step t action = some t') :
    Armed t' := by
  cases action with
  | resume d env =>
    cases stepped
    exact armed_resume armed d env
  | yield now =>
    cases stepped
    unfold loomCoroYield
    split
    · exact armed
    · split
      · exact armed
      · exact armed_leave armed _ _ rfl
  | sleepUntil deadline registered =>
    cases stepped
    unfold loomCoroSleepUntil
    split
    · exact ⟨armed.entry, armed.scheduler⟩
    · split
      · exact ⟨armed.entry, armed.scheduler⟩
      · exact armed_leave armed _ _ rfl
  | fail err =>
    cases stepped
    unfold loomCoroFail
    split
    · exact armed
    · rename_i d _
      have set := armed_setCoro armed d
        { t.coros d with exitCode := err, exitFailed := true, state := .error }
        (armed.entry d)
      obtain ⟨coros, scheduler, -⟩ := siglongjmp_coros { t.setCoro d
        { t.coros d with exitCode := err, exitFailed := true, state := .error } with
        gCurrent := none }
      exact ⟨fun e x is => set.entry e x (coros ▸ is), fun x is => set.scheduler x (scheduler ▸ is)⟩
  | terminate d =>
    cases stepped
    have set := armed_setCoro armed d { t.coros d with state := .done } (armed.entry d)
    unfold loomCoroTerminate
    split
    · exact ⟨armed.entry, armed.scheduler⟩
    · split
      · exact ⟨armed.entry, armed.scheduler⟩
      · dsimp only
        split
        · exact armed_coroReturn armed d
        · exact ⟨set.entry, set.scheduler⟩
  | ret =>
    simp only [Coro.step] at stepped
    split at stepped
    · cases stepped
    · cases stepped
      exact armed_coroReturn armed _

/-- A coroutine that runs, and so is not the sleeper, gives up the processor. -/
theorem spares_leave (armed : Armed t) (coro : Coroutine) (ctx : coro.ctx = (t.coros d).ctx)
    (other : d ≠ c) : Spares c t (swapToScheduler (t.setCoro d coro) d) := by
  have set := armed_setCoro armed d coro fun x is => armed.entry d x (ctx ▸ is)
  exact (spares_setCoro t d coro fun own => absurd own other).trans (spares_swapToScheduler set d)

theorem spares_step {action : Action} (armed : Armed t) (asleep : Asleep c deadline t)
    (early : ∀ d env, action = .resume d env → d = c → env.nowNs < deadline)
    (stepped : Coro.step t action = some t') : Spares c t t' := by
  have same : Spares c t t := ⟨Or.inl ⟨rfl, rfl⟩, rfl⟩
  cases action with
  | resume d env =>
    cases stepped
    exact spares_resume armed asleep d env (early d env rfl)
  | yield now =>
    cases stepped
    unfold loomCoroYield
    split
    · exact same
    · split
      · exact same
      · rename_i running
        exact spares_leave armed _ rfl (ne_of_running asleep (not_not.mp running))
  | sleepUntil deadline registered =>
    cases stepped
    unfold loomCoroSleepUntil
    split
    · exact ⟨Or.inl ⟨rfl, rfl⟩, rfl⟩
    · split
      · exact ⟨Or.inl ⟨rfl, rfl⟩, rfl⟩
      · rename_i running
        exact spares_leave armed _ rfl (ne_of_running asleep (not_not.mp running))
  | fail err =>
    cases stepped
    unfold loomCoroFail
    split
    · exact same
    · rename_i d _
      have set := spares_setCoro t d
        { t.coros d with exitCode := err, exitFailed := true, state := .error }
        (fun _ => Or.inr rfl) (c := c)
      obtain ⟨coros, -, switches⟩ := siglongjmp_coros { t.setCoro d
        { t.coros d with exitCode := err, exitFailed := true, state := .error } with
        gCurrent := none }
      refine ⟨?_, ?_⟩
      · rw [coros]
        exact set.coro
      · rw [switches]
        exact set.switches
  | terminate d =>
    cases stepped
    have set := spares_setCoro t d { t.coros d with state := .done } (fun _ => Or.inl rfl) (c := c)
    unfold loomCoroTerminate
    split
    · exact ⟨Or.inl ⟨rfl, rfl⟩, rfl⟩
    · split
      · exact ⟨Or.inl ⟨rfl, rfl⟩, rfl⟩
      · dsimp only
        split
        · exact spares_coroReturn armed d
        · exact ⟨set.coro, set.switches⟩
  | ret =>
    simp only [Coro.step] at stepped
    split at stepped
    · cases stepped
    · cases stepped
      exact spares_coroReturn armed _

theorem Started.armed (started : Started t) : Armed t := by
  obtain ⟨self, coros, unarmed, reached⟩ := started
  refine Reachable.invariant armed_step ⟨fun e x is => ?_, fun x clash => by cases clash⟩ reached
  have is : (coros e).ctx = .entry x := is
  rw [unarmed e] at is
  cases is

/-- c is asleep, and resumes have switched to it k times. -/
structure Unwoken (c : CoroId) (deadline : Int) (k : Nat) (t : Thread) : Prop where
  asleep : Asleep c deadline t
  armed : Armed t
  count : t.switches.count c = k

/-- The caller of loom_coro_sleep sleeps, or has failed to register and ended. -/
theorem unwoken_sleep (armed : Armed t) (current : t.gCurrent = some c)
    (running : (t.coros c).state = .running) (registered : CoroResult) :
    Unwoken c deadline (t.switches.count c) (loomCoroSleepUntil t deadline registered) := by
  let coro := { t.coros c with
    state := if (t.coros c).sleepReg = true ∧ registered ≠ CoroResult.ok then .error else .sleeping
    wakeDeadlineNs := deadline }
  have slept : loomCoroSleepUntil t deadline registered = swapToScheduler (t.setCoro c coro) c := by
    simp [loomCoroSleepUntil, current, running, coro]
  have set := armed_setCoro armed c coro (armed.entry c)
  have spares := @spares_swapToScheduler (t.setCoro c coro) c set c
  have asleep : Asleep c deadline (t.setCoro c coro) := by
    unfold Asleep
    rw [setCoro_coros, Function.update_self]
    by_cases failed : (t.coros c).sleepReg = true ∧ registered ≠ .ok
    · simp [coro, failed]
    · simp [coro, failed]
  rw [slept]
  exact ⟨spares.asleep asleep, armed_swapToScheduler set c, spares.switches⟩

theorem Unwoken.step {action : Action} {k : Nat} {limit : Int} (unwoken : Unwoken c limit k t)
    (small : limit < 2 ^ 63) (early : Early c limit t action)
    (stepped : Coro.step t action = some t') : Unwoken c limit k t' := by
  have spares := spares_step unwoken.armed unwoken.asleep (fun d env is own => by
    subst is
    obtain ⟨clock, reading, before⟩ := early own
    rw [reading, nowNs_of_small (by omega)]
    exact before) stepped
  exact ⟨spares.asleep unwoken.asleep, armed_step unwoken.armed stepped,
    spares.switches.trans unwoken.count⟩

theorem due_of_drained {now : Int} {calloc : Nat → Bool} {rounds : Nat} {heap : TimerHeap} {e : Entry}
    (handed : e ∈ (drainDue now calloc rounds heap).1) : e.deadlineNs ≤ now := by
  induction rounds generalizing heap with
  | zero => cases handed
  | succ rounds ih =>
    unfold drainDue at handed
    split at handed
    · rename_i due
      split at handed
      · cases handed
      · rename_i first rest popped
        split at handed
        · rcases List.mem_cons.mp handed with rfl | later
          · rw [(TimerHeap.entries_popDue popped).2.1]
            exact due.2
          · exact ih later
        · cases handed
    · cases handed

theorem sleepsFully_of_small {ts : Timespec} {durationNs : Int} (positive : 0 ≤ durationNs)
    (small : ts.ns + durationNs < 2 ^ 63) : SleepsFully ts durationNs := by
  have deadline := sleepDeadline_of_small positive small
  refine ⟨deadline, ?_, ?_⟩
  · intro t c registered started current running actions early
    have slept : loomCoroSleep t ts durationNs registered =
        loomCoroSleepUntil t (ts.ns + durationNs) registered := by
      rw [loomCoroSleep, if_neg (by omega), deadline]
    rw [slept] at early ⊢
    exact always_of_meets (fun unwoken early stepped => unwoken.step small early stepped)
      Unwoken.count (unwoken_sleep started.armed current running registered) early
  · intro heap calloc rounds clock before e handed same
    have due := due_of_drained handed
    rw [same, deadline, nowNs_of_small (by omega)] at due
    omega

/-- A sleep never ends early if and only if its end is an int64_t. -/
theorem sleep_never_ends_early (ts : Timespec) (durationNs : Int) (positive : 0 ≤ durationNs) :
    SleepsFully ts durationNs ↔ ts.ns + durationNs < 2 ^ 63 := by
  refine ⟨fun fully => ?_, sleepsFully_of_small positive⟩
  rw [← fully.exact]
  exact sleepDeadline_lt ts durationNs

theorem sleep_never_ends_early_one_second : SleepsFully ⟨5, 7, by decide, by decide⟩ 1000000000 :=
  (sleep_never_ends_early ⟨5, 7, by decide, by decide⟩ 1000000000 (by decide)).mpr (by decide)

/-- INT64_MAX nanoseconds from one nanosecond on: the deadline is INT64_MIN, and the next look
of the timer thread at the clock finds it due. -/
theorem longest_sleep_due_at_once :
    sleepDeadline ⟨0, 1, by decide, by decide⟩ (2 ^ 63 - 1) = -2 ^ 63 ∧
      ¬SleepsFully ⟨0, 1, by decide, by decide⟩ (2 ^ 63 - 1) := by
  have wrapped : sleepDeadline ⟨0, 1, by decide, by decide⟩ (2 ^ 63 - 1) = -2 ^ 63 := by decide
  refine ⟨wrapped, fun fully => ?_⟩
  exact absurd (wrapped.symm.trans fully.exact) (by decide)

end Loomworks.Sleep

import Loomworks.PoolControl

/- Sleeping workers and their ready coroutines. -/
namespace Loomworks.Pool

open Transition

/-- A worker that sleeps on work_sem although its ready FIFO has a coroutine has
a token coming: one is in the semaphore, or a thread is about to post one. -/
def WakeupPending (s : ThreadPool) : Prop :=
  ∀ w, s.coroReady w ≠ [] → s.workers w = .waiting → 0 < s.workSem ∨ 0 < s.posts

/-- No worker takes the last token, with no other coming, while another sleeps on a filled ready
FIFO. -/
def OwnerFirst (s : ThreadPool) : Label → Prop
  | .wake v => s.workSem = 1 → s.posts = 0 →
      ∀ w < s.maxWorkerCount, w ≠ v → s.workers w = .waiting → s.coroReady w = []
  | _ => True

instance (s : ThreadPool) : (label : Label) → Decidable (OwnerFirst s label)
  | .wake v =>
    inferInstanceAs (Decidable (s.workSem = 1 → s.posts = 0 →
      ∀ w < s.maxWorkerCount, w ≠ v → s.workers w = .waiting → s.coroReady w = []))
  | .submit .. | .submitCoroutine .. | .pass .. | .finish .. | .create .. | .checkReady ..
  | .bodyEnds .. | .leave .. | .post | .timerFire .. | .cancel .. | .cancelById ..
  | .cancelAll | .resize .. | .repost | .join .. => .isTrue trivial

def Control.Pending (c : Control) : Prop :=
  ∀ w, c.coroReady w ≠ [] → c.workers w = .waiting → 0 < c.workSem ∨ 0 < c.posts

/-- A turn keeps the promise, unless it takes the last token from another worker. -/
theorem Control.Pending.turn {woken : Option Nat} {c c' : Control} (pending : c.Pending)
    (turn : Turn woken c c')
    (owner : ∀ v, woken = some v → c.workSem = 1 → c.posts = 0 →
      ∀ w, w ≠ v → c.workers w = .waiting → c.coroReady w = []) : c'.Pending := by
  have moved : ∀ {w x : Nat} {pc : WorkerPc}, pc ≠ .waiting →
      Function.update c.workers w pc x = .waiting → x ≠ w ∧ c.workers x = .waiting := by
    intro w x pc awake waiting
    by_cases same : x = w
    · rw [same, Function.update_self] at waiting
      exact absurd waiting awake
    · rw [Function.update_of_ne same] at waiting
      exact ⟨same, waiting⟩
  intro x filled waiting
  cases turn with
  | quiet more =>
    rcases pending x filled waiting with token | post
    · exact Or.inl token
    · exact Or.inr (Nat.lt_of_lt_of_le post more)
  | @works _ w pc list timerHeap here runs =>
    have awake : pc ≠ .waiting := by
      intro wrong
      rw [wrong] at runs
      cases runs
    obtain ⟨other, before⟩ := moved awake waiting
    have filled : Function.update c.coroReady w list x ≠ [] := filled
    rw [Function.update_of_ne other] at filled
    exact pending x filled before
  | @waits _ w here empty =>
    have waiting : Function.update c.workers w .waiting x = .waiting := waiting
    by_cases same : x = w
    · exact absurd (same ▸ empty) filled
    · rw [Function.update_of_ne same] at waiting
      exact pending x filled waiting
  | displaced | joined => exact pending x filled (moved (by decide) waiting).2
  | left | pushed => exact Or.inr (Nat.succ_pos c.posts)
  | @wakes _ w here token =>
    obtain ⟨other, before⟩ := moved (by decide) waiting
    by_cases last : c.workSem = 1 ∧ c.posts = 0
    · exact absurd (owner w rfl last.1 last.2 x other before) filled
    · show 0 < c.workSem - 1 ∨ 0 < c.posts
      omega
  | posted | reposted => exact Or.inl (Nat.succ_pos c.workSem)

/-- In a run without resizes in which no worker takes the last token while another sleeps
on a filled FIFO, no ready coroutine is left without a wake-up. -/
theorem no_lost_wakeup (config : Config) (labels : List Label)
    (fixed : ∀ label ∈ labels, label.resizes = false)
    (owner : Meets step OwnerFirst (poolInit config) labels) :
    Always step WakeupPending (poolInit config) labels := by
  have scope : Meets step (fun _ label => label.resizes = false) (poolInit config) labels :=
    meets_of_forall (fun label member _ => fixed label member) _
  refine @always_of_meets _ _ step (fun s => Staffed config s.control ∧ s.control.Pending) _ _
    ?_ ?_ _ _ ⟨staffed_poolInit config, ?_⟩ (scope.and owner)
  · intro s s' label invariant condition stepped
    obtain ⟨staffed, pending⟩ := invariant
    have turn := turn_step stepped condition.1
    refine ⟨staffed.turn turn, pending.turn turn ?_⟩
    intro v woken last unposted w other waiting
    have inside : w < s.maxWorkerCount := by
      have limit : s.maxWorkerCount = config.workerCount := staffed.limit
      rw [limit]
      exact staffed.inside w (by rw [waiting]; decide)
    cases label with
    | wake u =>
      cases woken
      exact condition.2 last unposted w inside other waiting
    | _ => cases woken
  · intro s invariant
    exact invariant.2
  · exact fun w filled => absurd rfl filled

/-- A coroutine sleeps, its timer fires and its own worker takes the token. -/
theorem no_lost_wakeup_of_owner_wakes :
    Always step WakeupPending (poolInit { workerCount := 2, queueCapacity := 3 })
      [.submitCoroutine 70 false true, .pass 0 true, .create 0 (some 99), .bodyEnds 0 .sleeps true,
        .pass 0 true, .pass 1 true, .post, .wake 1, .pass 1 true, .timerFire 0 .ready, .post,
        .wake 0, .pass 0 true] := by
  apply no_lost_wakeup
  · decide
  · apply meets_of_decide
    decide +kernel

/-- A coroutine sleeps on worker 0 and both workers are blocked. The timer makes
it ready and posts; worker 1 takes the token, finds nothing to do and sleeps
again: worker 0 stays blocked with a ready coroutine and no token is left. -/
theorem wakeup_taken_by_other_worker :
    ∃ labels final, exec step (poolInit { workerCount := 2, queueCapacity := 3 }) labels = some final ∧
      (∀ label ∈ labels, label.resizes = false) ∧ final.coroReady 0 = [2] ∧
      final.workers 0 = .waiting ∧ final.workers 1 = .waiting ∧ final.workSem = 0 ∧
      final.posts = 0 ∧ ¬ WakeupPending final := by
  let labels : List Label := [.submitCoroutine 70 false true, .pass 0 true, .create 0 (some 99),
    .bodyEnds 0 .sleeps true, .pass 0 true, .pass 1 true, .post, .wake 1, .pass 1 true,
    .timerFire 0 .ready, .post, .wake 1, .pass 1 true]
  have run : ((exec step (poolInit { workerCount := 2, queueCapacity := 3 }) labels).map fun s =>
      (s.coroReady 0, s.workers 0, s.workers 1, s.workSem, s.posts)) =
      some ([2], .waiting, .waiting, 0, 0) := by
    decide +kernel
  obtain ⟨final, reached, shape⟩ := Option.map_eq_some_iff.mp run
  simp only [Prod.mk.injEq] at shape
  obtain ⟨ready, owner, other, tokens, posts⟩ := shape
  refine ⟨labels, final, reached, by decide, ready, owner, other, tokens, posts, ?_⟩
  intro pending
  have coming := pending 0 (by rw [ready]; decide) owner
  omega

end Loomworks.Pool

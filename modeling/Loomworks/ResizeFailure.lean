import Loomworks.PoolResize

/- What a loom_pool_resize that returns an error leaves behind. Its section under
the lock may have enlarged arrays and started workers; they see worker_count as it
was, leave again and are joined before the call returns. -/
namespace Loomworks.Pool

open Transition

namespace ThreadPool

def threadAlive (s : ThreadPool) (w : Nat) : Bool := s.workers w != .absent

/-- The flag stands from the worker's exit to the join. -/
def threadCleanExit (s : ThreadPool) (w : Nat) : Bool := s.workers w == .exited

/-- No worker that an earlier resize has displaced is still there. -/
def Quiet (s : ThreadPool) : Prop :=
  ∀ w, s.workers w ≠ .leaving ∧ s.workers w ≠ .exited ∧ (s.workerCount ≤ w → s.workers w = .absent)

variable {s s' : ThreadPool} {count w : Nat} {env : ResizeEnv}

end ThreadPool

/-- The workers below worker_count are those of the pool s, and stay. -/
structure Manned (s : ThreadPool) (c : Control) : Prop where
  count : c.workerCount = s.workerCount
  stays : ∀ w < s.workerCount, c.workers w ≠ .leaving ∧ c.workers w ≠ .exited
  alive : ∀ w < s.workerCount, c.workers w = .absent ↔ s.workers w = .absent

namespace Manned

variable {s : ThreadPool} {c c' : Control} {w : Nat} {pc : WorkerPc}

/-- One worker goes on and stays, or is none of them. -/
theorem reassign (manned : Manned s c) (count : c'.workerCount = c.workerCount)
    (workers : c'.workers = Function.update c.workers w pc)
    (moves : s.workerCount ≤ w ∨
      c.workers w ≠ .absent ∧ pc ≠ .absent ∧ pc ≠ .leaving ∧ pc ≠ .exited) : Manned s c' := by
  refine ⟨count.trans manned.count, ?_, ?_⟩
  · intro v inside
    rw [workers]
    by_cases same : v = w
    · subst same
      rw [Function.update_self]
      exact (moves.resolve_left (by omega)).2.2
    · rw [Function.update_of_ne same]
      exact manned.stays v inside
  · intro v inside
    rw [workers]
    by_cases same : v = w
    · subst same
      obtain ⟨before, after, -⟩ := moves.resolve_left (by omega)
      rw [Function.update_self, ← manned.alive v inside]
      exact iff_of_false after before
    · rw [Function.update_of_ne same]
      exact manned.alive v inside

theorem turn {woken : Option Nat} (manned : Manned s c) (turn : Turn woken c c') : Manned s c' := by
  cases turn with
  | quiet | posted | pushed | reposted => exact ⟨manned.count, manned.stays, manned.alive⟩
  | @works _ w pc _ _ here runs =>
    refine manned.reassign rfl rfl (Or.inr ⟨?_, ?_, ?_, ?_⟩)
    · intro absent
      rw [absent] at here
      cases here
    all_goals rintro rfl; cases runs
  | @waits _ _ here | @wakes _ _ here =>
    exact manned.reassign rfl rfl (Or.inr (by rw [here]; decide))
  | @displaced _ w here beyond =>
    exact manned.reassign rfl rfl (Or.inl (manned.count ▸ beyond))
  | @left _ w _ here =>
    refine manned.reassign rfl rfl (Or.inl (Nat.le_of_not_lt fun inside => ?_))
    exact (manned.stays w inside).1 here
  | @joined _ w here =>
    refine manned.reassign rfl rfl (Or.inl (Nat.le_of_not_lt fun inside => ?_))
    exact (manned.stays w inside).2 here

end Manned

/-- The deques are there, or not, as in the pool s. -/
structure Undone (s : ThreadPool) (later : ThreadPool) : Prop where
  tracked : ∃ live, later.Tracked live
  manned : Manned s later.control
  mode : later.deques.isSome = s.deques.isSome

theorem Undone.step {s later next : ThreadPool} {label : Label} (undone : Undone s later)
    (fixed : label.resizes = false) (stepped : step later label = some next) : Undone s next := by
  obtain ⟨live, tracked⟩ := undone.tracked
  refine ⟨tracked.step stepped, undone.manned.turn (turn_step stepped fixed), ?_⟩
  have shuffled : next.queues.deques.isSome = later.queues.deques.isSome := by
    rcases shuffles_step tracked.shaped fixed stepped with ⟨_, _, moved⟩ | moved | ⟨task, moved⟩
    · exact moved.mode
    · exact moved.mode
    · exact moved.mode
  exact shuffled.trans undone.mode

/-- With the workers it started joined, the call has left the threads as they were. -/
structure Returned (s s' : ThreadPool) : Prop where
  workerCount : s'.workerCount = s.workerCount
  mode : s'.deques.isSome = s.deques.isSome
  alive : ∀ w, s'.threadAlive w = s.threadAlive w
  clean : ∀ w, s'.threadCleanExit w = s.threadCleanExit w

theorem Undone.returned {s later : ThreadPool} (undone : Undone s later) (quiet : s.Quiet)
    (joined : later.joining = false) : Returned s later := by
  obtain ⟨⟨live, tracked⟩, manned, mode⟩ := undone
  have count : later.workerCount = s.workerCount := manned.count
  have vacant : ∀ w, s.workerCount ≤ w → later.workers w = .absent := by
    intro w beyond
    by_cases inside : w < later.maxWorkerCount
    · have none := List.any_eq_false.mp joined w (List.mem_range.mpr inside)
      simpa [count, beyond] using none
    · exact tracked.shaped.vacant w (Nat.le_of_not_lt inside)
  have same : ∀ w, (later.workers w = .absent ↔ s.workers w = .absent) ∧
      later.workers w ≠ .exited := by
    intro w
    by_cases inside : w < s.workerCount
    · exact ⟨manned.alive w inside, (manned.stays w inside).2⟩
    · have beyond := Nat.le_of_not_lt inside
      rw [vacant w beyond, (quiet w).2.2 beyond]
      exact ⟨Iff.rfl, nofun⟩
  refine ⟨count, mode, fun w => ?_, fun w => ?_⟩
  · simp only [ThreadPool.threadAlive, bne, Bool.not_inj_iff]
    exact Bool.eq_iff_iff.mpr (by simpa using (same w).1)
  · simp [ThreadPool.threadCleanExit, (same w).2, (quiet w).2.1]

end Loomworks.Pool

import Loomworks.NodeCacheSafety

/- The owner switch of a node cache while other threads destroy pools (src/thread_pool.c:
tls_resolve_owner, pool_reg_lookup and pool_destroy_internal). The registry lock covers the lookup
only, so the lookup and the push that uses its answer are two steps; so are the two halves of a
destruction. The other calls are steps of their own. -/
namespace Loomworks.Pool.NodeOwner

open Transition
open NodeCache (Node Tls Kept unregister_spec)

/-- A thread in tls_resolve_owner for the pool at target, with the pool that the lookup of the id
old gave it and the nodes it took out of its cache. -/
structure Handing where
  target : Nat
  owner : Nat
  old : Nat
  batch : List Node
  deriving DecidableEq, Repr

/-- dying are the pools that are unregistered and not freed yet. -/
structure State where
  base : NodeCache.State := {}
  handing : List (Nat × Handing) := []
  dying : List Nat := []

inductive Label where
  | call (label : NodeCache.Label)
  | lookup (t h : Nat)
  | push (t : Nat)
  | unregister (h : Nat)
  | free (h : Nat)
  deriving DecidableEq, Repr

namespace State

def away (s : State) (t : Nat) : Bool := s.handing.any fun entry => entry.1 = t

/-- task_create and task_destroy for the pool at h find the cache theirs, or nobody's. -/
def settled (s : State) (t h : Nat) : Bool :=
  (s.base.tls t).owner = 0 ∨ (s.base.tls t).owner = (s.base.pools h).id

/-- The calls that make no lookup. -/
def direct (s : State) : NodeCache.Label → Bool
  | .create .. => true
  | .destroy _ => false
  | .taskCreate t h _ => !s.away t && s.settled t h
  | .taskDestroy t h _ => !s.away t && s.settled t h
  | .tlsFlush t _ => !s.away t

/-- tls_resolve_owner up to the push. -/
def lookup (s : State) (t h : Nat) : State :=
  let c := s.base.tls t
  match s.base.poolRegLookup c.owner with
  | some owner =>
    { s with
      base := s.base.setTls t c.clear
      handing := (t, ⟨h, owner, c.owner, c.batch⟩) :: s.handing }
  | none => { s with base := s.base.setTls t { c.clear with owner := (s.base.pools h).id } }

/-- The rest of tls_resolve_owner. -/
def push (s : State) (t : Nat) (w : Handing) : State :=
  let base := if w.batch = [] then s.base else s.base.pushTo w.owner w.batch
  { s with
    base := base.setTls t { base.tls t with owner := (base.pools w.target).id }
    handing := s.handing.erase (t, w) }

/-- The first half of pool_destroy_internal. -/
def unregister (s : State) (h : Nat) : State :=
  { s with
    base := { s.base with registry := NodeCache.State.unregister h s.base.registry }
    dying := h :: s.dying }

/-- The second half, to the end of the pool. -/
def free (s : State) (h : Nat) : State :=
  { s with
    base := { s.base with
      handles := s.base.handles.erase h
      tasks := s.base.tasks.filter fun task => task.1 ≠ h }
    dying := s.dying.erase h }

end State

def step (s : State) : Label → Option State
  | .call label =>
    if s.direct label then (NodeCache.step s.base label).map fun base => { s with base } else none
  | .lookup t h =>
    if s.away t = false ∧ h ∈ s.base.handles ∧ s.settled t h = false then some (s.lookup t h) else none
  | .push t => (s.handing.find? fun entry => entry.1 = t).map fun entry => s.push t entry.2
  | .unregister h => if h ∈ s.base.handles ∧ h ∉ s.dying then some (s.unregister h) else none
  | .free h => if h ∈ s.dying then some (s.free h) else none

/-- The pool that a thread is about to push nodes to exists and is the one it looked up. -/
def Alive (s : State) : Prop :=
  ∀ entry ∈ s.handing, entry.2.batch ≠ [] →
    entry.2.owner ∈ s.base.handles ∧ (s.base.pools entry.2.owner).id = entry.2.old

/-- No pool is freed while a thread that found it in the registry has still to push to it. -/
def Unclaimed (s : State) : Label → Prop
  | .free h => h ∈ s.dying → ∀ entry ∈ s.handing, entry.2.batch ≠ [] → entry.2.owner ≠ h
  | _ => True

/-- The registry names live pools that nobody has begun to destroy. -/
structure Listed (s : State) : Prop where
  registry : ∀ entry ∈ s.base.registry,
    entry.2 ∈ s.base.handles ∧ entry.2 ∉ s.dying ∧ (s.base.pools entry.2).id = entry.1
  listed : (s.base.registry.map Prod.snd).Nodup
  distinct : s.base.handles.Nodup
  dying : ∀ h ∈ s.dying, h ∈ s.base.handles
  once : s.dying.Nodup

variable {s s' : State}

theorem Listed.kept (inv : Listed s) (kept : Kept s.base s'.base) (same : s'.dying = s.dying) :
    Listed s' := by
  refine ⟨?_, ?_, ?_, ?_, ?_⟩
  · intro entry member
    rw [kept.registry] at member
    rw [kept.handles, (kept.pools _).id, same]
    exact inv.registry entry member
  · rw [kept.registry]
    exact inv.listed
  · rw [kept.handles]
    exact inv.distinct
  · rw [kept.handles, same]
    exact inv.dying
  · rw [same]
    exact inv.once

theorem Alive.kept {base : NodeCache.State} (alive : Alive s) (kept : Kept s.base base) :
    Alive { s with base } := by
  intro entry member some
  rw [kept.handles, (kept.pools _).id]
  exact alive entry member some

/-- A pool made at a free address is none of those anybody knows. -/
theorem poolCreate_spec (s : NodeCache.State) (h region : Nat) (arrays : Bool) :
    (s.poolCreate h region arrays).handles = h :: s.handles ∧
    (∀ k, k ≠ h → (s.poolCreate h region arrays).pools k = s.pools k) ∧
    ((s.poolCreate h region arrays).registry = s.registry ∨
      (s.poolCreate h region arrays).registry =
        s.registry ++ [(((s.poolCreate h region arrays).pools h).id, h)]) := by
  refine ⟨rfl, fun k other => Function.update_of_ne other _ _, ?_⟩
  by_cases room : s.registry.length < NodeCache.poolRegistryCap
  · refine Or.inr ?_
    simp only [NodeCache.State.poolCreate, room, if_true, Function.update_self,
      (NodeCache.poolInit_spec _ _ _).1]
  · refine Or.inl ?_
    simp only [NodeCache.State.poolCreate, room, if_false]

theorem Listed.create (inv : Listed s) {h region : Nat} {arrays : Bool} (new : h ∉ s.base.handles) :
    Listed { s with base := s.base.poolCreate h region arrays } := by
  obtain ⟨handles, others, registry⟩ := poolCreate_spec s.base h region arrays
  have old : ∀ entry ∈ s.base.registry, entry.2 ∈ h :: s.base.handles ∧ entry.2 ∉ s.dying ∧
      ((s.base.poolCreate h region arrays).pools entry.2).id = entry.1 := by
    intro entry member
    obtain ⟨live, kept, named⟩ := inv.registry entry member
    rw [others _ fun same => new (same ▸ live)]
    exact ⟨List.mem_cons_of_mem _ live, kept, named⟩
  refine ⟨?_, ?_, List.nodup_cons.mpr ⟨new, inv.distinct⟩, ?_, inv.once⟩
  · intro entry member
    rw [handles]
    rcases registry with same | added
    · rw [same] at member
      exact old entry member
    · rw [added] at member
      rcases List.mem_append.mp member with before | last
      · exact old entry before
      · obtain rfl := List.mem_singleton.mp last
        exact ⟨List.mem_cons_self .., fun dying => new (inv.dying h dying), rfl⟩
  · rcases registry with same | added
    · rw [same]
      exact inv.listed
    · rw [added, List.map_append]
      refine List.Nodup.append inv.listed (List.nodup_singleton _) ?_
      intro k before last
      obtain ⟨entry, member, rfl⟩ := List.mem_map.mp before
      have live := (inv.registry entry member).1
      rw [List.mem_singleton.mp last] at live
      exact new live
  · intro k dying
    exact List.mem_cons_of_mem _ (inv.dying k dying)

theorem Alive.create (alive : Alive s) {h region : Nat} {arrays : Bool} (new : h ∉ s.base.handles) :
    Alive { s with base := s.base.poolCreate h region arrays } := by
  obtain ⟨handles, others, -⟩ := poolCreate_spec s.base h region arrays
  intro entry member some
  obtain ⟨live, named⟩ := alive entry member some
  rw [handles, others _ fun same => new (same ▸ live)]
  exact ⟨List.mem_cons_of_mem _ live, named⟩

theorem Listed.found (inv : Listed s) {id owner : Nat} (found : s.base.poolRegLookup id = some owner) :
    owner ∈ s.base.handles ∧ (s.base.pools owner).id = id := by
  obtain ⟨entry, here, rfl⟩ := Option.map_eq_some_iff.mp found
  have named := List.find?_some here
  obtain ⟨live, -, same⟩ := inv.registry entry (List.mem_of_find?_eq_some here)
  exact ⟨live, same.trans (of_decide_eq_true named)⟩

theorem Listed.lookup (inv : Listed s) (t h : Nat) : Listed (s.lookup t h) := by
  unfold State.lookup
  dsimp only
  split
  · exact inv.kept (Kept.setTls _ _ _) rfl
  · exact inv.kept (Kept.setTls _ _ _) rfl

theorem Alive.lookup (alive : Alive s) (inv : Listed s) (t h : Nat) : Alive (s.lookup t h) := by
  unfold State.lookup
  dsimp only
  split
  · rename_i owner found
    intro entry member some
    rcases List.mem_cons.mp member with rfl | old
    · exact inv.found found
    · exact alive entry old some
  · exact alive.kept (Kept.setTls _ _ _)

/-- The push and the new owner id leave the pools where they are. -/
theorem push_kept (s : State) (t : Nat) (w : Handing) : Kept s.base (s.push t w).base := by
  unfold State.push
  dsimp only
  split
  · exact Kept.setTls _ _ _
  · exact (Kept.pushTo _ _ _).trans (Kept.setTls _ _ _)

theorem Listed.unregister (inv : Listed s) {h : Nat} (live : h ∈ s.base.handles) (first : h ∉ s.dying) :
    Listed (s.unregister h) := by
  have left := unregister_spec inv.listed h
  refine ⟨?_, left.2, inv.distinct, ?_, List.nodup_cons.mpr ⟨first, inv.once⟩⟩
  · intro entry member
    obtain ⟨old, other⟩ := left.1 entry member
    obtain ⟨here, kept, named⟩ := inv.registry entry old
    refine ⟨here, ?_, named⟩
    intro dying
    rcases List.mem_cons.mp dying with same | before
    · exact other same
    · exact kept before
  · intro k dying
    rcases List.mem_cons.mp dying with rfl | before
    · exact live
    · exact inv.dying k before

theorem Listed.free (inv : Listed s) {h : Nat} (dying : h ∈ s.dying) : Listed (s.free h) := by
  have remains : ∀ k, k ∈ s.base.handles.erase h ↔ k ≠ h ∧ k ∈ s.base.handles := by
    intro k
    exact inv.distinct.mem_erase_iff
  refine ⟨?_, inv.listed, inv.distinct.erase h, ?_, inv.once.erase h⟩
  · intro entry member
    obtain ⟨live, kept, named⟩ := inv.registry entry member
    refine ⟨(remains _).mpr ⟨?_, live⟩, fun still => kept (List.mem_of_mem_erase still), named⟩
    intro same
    exact kept (same ▸ dying)
  · intro k still
    obtain ⟨other, before⟩ := inv.once.mem_erase_iff.mp still
    exact (remains k).mpr ⟨other, inv.dying k before⟩

/-- A pool that is freed is nobody's any more. -/
theorem alive_free_iff (inv : Listed s) (alive : Alive s) {h : Nat} :
    Alive (s.free h) ↔ ∀ entry ∈ s.handing, entry.2.batch ≠ [] → entry.2.owner ≠ h := by
  constructor
  · intro after entry member some
    exact (inv.distinct.mem_erase_iff.mp (after entry member some).1).1
  · intro unclaimed entry member some
    obtain ⟨live, named⟩ := alive entry member some
    exact ⟨inv.distinct.mem_erase_iff.mpr ⟨unclaimed entry member some, live⟩, named⟩

/-- A call that makes no lookup creates a pool or leaves the pools alone. -/
theorem call_cases {label : NodeCache.Label} {base : NodeCache.State} (direct : s.direct label = true)
    (taken : NodeCache.step s.base label = some base) :
    (∃ h region arrays, h ∉ s.base.handles ∧ base = s.base.poolCreate h region arrays) ∨ Kept s.base base := by
  rcases NodeCache.step_kept taken with ⟨h, region, arrays, rfl⟩ | ⟨h, rfl⟩ | kept
  · simp only [NodeCache.step, Option.ite_none_right_eq_some, Option.some.injEq] at taken
    exact Or.inl ⟨h, region, arrays, taken.1, taken.2.symm⟩
  · cases direct
  · exact Or.inr kept

theorem Listed.step {label : Label} (inv : Listed s) (after : step s label = some s') : Listed s' := by
  cases label <;> simp only [NodeOwner.step, Option.ite_none_right_eq_some, Option.some.injEq,
    Option.map_eq_some_iff] at after
  case call label =>
    obtain ⟨direct, base, taken, rfl⟩ := after
    rcases call_cases direct taken with ⟨h, region, arrays, new, rfl⟩ | kept
    · exact inv.create new
    · exact inv.kept kept rfl
  case lookup t h =>
    obtain ⟨-, rfl⟩ := after
    exact inv.lookup t h
  case push t =>
    obtain ⟨⟨u, w⟩, -, rfl⟩ := after
    exact inv.kept (push_kept s t w) rfl
  case unregister h =>
    obtain ⟨⟨live, first⟩, rfl⟩ := after
    exact inv.unregister live first
  case free h =>
    obtain ⟨dying, rfl⟩ := after
    exact inv.free dying

theorem Alive.step {label : Label} (alive : Alive s) (inv : Listed s) (unclaimed : Unclaimed s label)
    (after : step s label = some s') : Alive s' := by
  cases label <;> simp only [NodeOwner.step, Option.ite_none_right_eq_some, Option.some.injEq,
    Option.map_eq_some_iff] at after
  case call label =>
    obtain ⟨direct, base, taken, rfl⟩ := after
    rcases call_cases direct taken with ⟨h, region, arrays, new, rfl⟩ | kept
    · exact alive.create new
    · exact alive.kept kept
  case lookup t h =>
    obtain ⟨-, rfl⟩ := after
    exact alive.lookup inv t h
  case push t =>
    obtain ⟨⟨u, w⟩, -, rfl⟩ := after
    intro entry member some
    exact alive.kept (push_kept s t w) entry (List.mem_of_mem_erase member) some
  case unregister h =>
    obtain ⟨-, rfl⟩ := after
    exact alive
  case free h =>
    obtain ⟨dying, rfl⟩ := after
    exact (alive_free_iff inv alive).mpr (unclaimed dying)

/-- Exactly as long as no pool is freed between a lookup of it and the push that follows, every
push goes to a live pool. -/
theorem owner_alive_iff_unclaimed (labels : List Label) :
    Always step Alive {} labels ↔ Meets step Unclaimed {} labels := by
  have start : Listed {} ∧ Alive {} := by
    refine ⟨⟨?_, List.nodup_nil, List.nodup_nil, ?_, List.nodup_nil⟩, ?_⟩
    · intro entry member
      cases member
    · intro h dying
      cases dying
    · intro entry member
      cases member
  constructor
  · intro always
    apply @meets_of_always _ _ _ (fun s => Listed s ∧ Alive s) Alive (fun _ _ => True)
    · rintro s s' label ⟨inv, alive⟩ - unclaimed after
      exact ⟨inv.step after, alive.step inv unclaimed after⟩
    · rintro s label ⟨inv, alive⟩ - next
      cases label with
      | free h =>
        intro dying
        exact (alive_free_iff inv alive).mp (next _ (if_pos dying))
      | call | lookup | push | unregister => trivial
    · exact start
    · exact meets_of_forall (fun _ _ _ => trivial) _
    · exact always
  · intro unclaimed
    apply @always_of_meets _ _ _ (fun s => Listed s ∧ Alive s) Alive _ _ _ _ labels start unclaimed
    · rintro s s' label ⟨inv, alive⟩ unclaimed after
      exact ⟨inv.step after, alive.step inv unclaimed after⟩
    · rintro s ⟨-, alive⟩
      exact alive

/-- Thread 0 has a cached node of pool 0 and turns to pool 1; pool 0 is destroyed between its
lookup and its push. -/
def lateFree : List Label :=
  [.call (.create 0 10 true), .call (.create 1 11 true), .call (.taskCreate 0 0 none),
    .call (.taskDestroy 0 0 (.slot 10 0)), .lookup 0 1, .unregister 0, .free 0]

theorem push_after_free : ∃ s,
    exec step {} lateFree = some s ∧ s.handing = [(0, ⟨1, 0, 1, [.slot 10 0]⟩)] ∧ s.base.handles = [1] ∧
    (step s (.push 0)).isSome = true ∧ ¬ Alive s := by
  have run : ((exec step {} lateFree).map fun s => (s.handing, s.base.handles, (step s (.push 0)).isSome)) =
      some ([(0, ⟨1, 0, 1, [.slot 10 0]⟩)], [1], true) := by decide +kernel
  obtain ⟨s, run, shape⟩ := Option.map_eq_some_iff.mp run
  simp only [Prod.mk.injEq] at shape
  obtain ⟨handing, handles, enabled⟩ := shape
  refine ⟨s, run, handing, handles, enabled, ?_⟩
  intro alive
  have live := (alive (0, ⟨1, 0, 1, [.slot 10 0]⟩) (by rw [handing]; exact List.mem_singleton.mpr rfl)
    (List.cons_ne_nil _ _)).1
  rw [handles] at live
  exact absurd (List.mem_singleton.mp live) (by decide)

/-- What pool_reg_lookup finds is, while the registry is locked, the pool of that id, and nobody has
begun to destroy it. -/
theorem lookup_finds_live_pool (labels : List Label) :
    Always step (fun s => ∀ id owner, s.base.poolRegLookup id = some owner →
      owner ∈ s.base.handles ∧ owner ∉ s.dying ∧ (s.base.pools owner).id = id) {} labels := by
  apply always_of_invariant Listed.step _ labels (by constructor <;> simp)
  intro s inv id owner found
  obtain ⟨live, same⟩ := inv.found found
  obtain ⟨entry, here, rfl⟩ := Option.map_eq_some_iff.mp found
  exact ⟨live, (inv.registry entry (List.mem_of_find?_eq_some here)).2.1, same⟩

end Loomworks.Pool.NodeOwner

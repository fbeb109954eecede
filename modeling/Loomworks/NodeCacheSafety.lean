import Loomworks.NodeCache
import Loomworks.NodeStackSafety

/- Which pool the cached nodes belong to. -/
namespace Loomworks.Pool.NodeCache

open Links Threads Transition
open NodeStack (Head freeEnd)
open Function (update update_eq_self update_of_ne update_self)

/-- The free list stays inside the node array. -/
structure Bounded (p : PoolNodes) : Prop where
  head : p.head.slot = freeEnd ∨ p.head.slot < p.cap
  next : ∀ i, p.next i = freeEnd ∨ p.next i < p.cap

/-- The same pool, with another free list. -/
structure SameArray (p p' : PoolNodes) : Prop where
  id : p'.id = p.id
  region : p'.region = p.region
  cap : p'.cap = p.cap
  bounded : Bounded p → Bounded p'

theorem SameArray.refl (p : PoolNodes) : SameArray p p := ⟨rfl, rfl, rfl, fun bounded => bounded⟩

theorem SameArray.nodeFromPool {p p' : PoolNodes} (same : SameArray p p') (node : Node) :
    nodeFromPool p' node = nodeFromPool p node := by
  cases node with
  | slot region index => rw [NodeCache.nodeFromPool, NodeCache.nodeFromPool, same.cap, same.region]
  | heap n => rfl

theorem walk_bounded {next : Nat → Nat} {cap n first : Nat}
    (links : ∀ i, next i = freeEnd ∨ next i < cap) (start : first = freeEnd ∨ first < cap) :
    ∀ x ∈ walk next freeEnd first n, x < cap := by
  induction n generalizing first with
  | zero => simp [walk]
  | succ n ih =>
    intro x member
    rw [walk] at member
    split at member
    · cases member
    · rename_i inside
      rcases List.mem_cons.mp member with rfl | later
      · exact start.resolve_left inside
      · exact ih (links first) x later

theorem link_bounded {next : Nat → Nat} {cap old : Nat} {slots : List Nat}
    (links : ∀ i, next i = freeEnd ∨ next i < cap) (tail : old = freeEnd ∨ old < cap)
    (inside : ∀ x ∈ slots, x < cap) : ∀ i, link next old slots i = freeEnd ∨ link next old slots i < cap := by
  have write : ∀ (table : Nat → Nat) (x y : Nat), (∀ i, table i = freeEnd ∨ table i < cap) →
      (y = freeEnd ∨ y < cap) →
      ∀ i, update table x y i = freeEnd ∨ update table x y i < cap := by
    intro table x y before value
    exact forall_update (fun z => z = freeEnd ∨ z < cap) (fun j _ => before j) value
  fun_induction link next old slots with
  | case1 next => exact links
  | case2 next x => exact write next x old links tail
  | case3 next x y rest ih =>
    have later : ∀ z ∈ y :: rest, z < cap := fun z member => inside z (List.mem_cons_of_mem _ member)
    exact ih (write next x y links (Or.inr (later y (List.mem_cons_self ..)))) later

/-- The slots are linked already. -/
theorem link_of_path {next : Nat → Nat} {first old : Nat} {slots : List Nat}
    (path : Path next first slots old) : link next old slots = next := by
  induction slots generalizing first with
  | nil => rfl
  | cons x rest ih =>
    cases rest with
    | nil =>
      rw [link, ← path_nil.mp path.2]
      exact update_eq_self x next
    | cons y rest =>
      rw [link, ← path.2.1, update_eq_self, path.2.1]
      exact ih path.2

/-- The free list of a pool, access by access. -/
structure Agrees (p : PoolNodes) (s : NodeStack.State) : Prop where
  cap : s.cap = p.cap
  head : s.head = p.head
  next : s.next = p.next

/-- An exchange that succeeds has the effect of the whole call. -/
def Exchanges (p : PoolNodes) (s : NodeStack.State) : NodeStack.Label → Prop
  | .step i _ => match (s.callers i).pc with
    | .popSwap want head n successor => s.head = head → nodeStackBatchPop p want =
        ({ p with head := head.swap successor }, (follow s.next head.slot n).map (.slot p.region))
    | .pushSwap slots head => s.head = head → nodeStackBatchPush p (slots.map (.slot p.region)) =
        ({ p with next := s.next, head := head.swap (slots.headD freeEnd) }, true)
    | _ => True
  | _ => True

section Exchange

variable {p : PoolNodes} {s : NodeStack.State} {c slots : List Nat} {i want n successor : Nat}

theorem pop_exchange (inv : NodeStack.Inv s c) (quick : s.updates < (s.callers i).since + 2 ^ 32)
    (agrees : Agrees p s) (here : (s.callers i).pc = .popSwap want s.head n successor) :
    nodeStackBatchPop p want = ({ p with head := s.head.swap successor },
      (follow s.next s.head.slot n).map (.slot p.region)) := by
  have own := inv.callers i
  unfold NodeStack.CallerOk at own
  rw [here] at own
  obtain ⟨looked, positive, bound, found⟩ := own
  obtain ⟨all, path⟩ := found (inv.fresh looked quick rfl)
  have whole := inv.path
  have first : s.head.slot ∈ c := by
    cases c with
    | nil =>
      rw [List.length_nil] at all
      omega
    | cons x rest =>
      rw [whole.1]
      exact List.mem_cons_self
  have inside := (inv.shares.total _).mpr (Or.inl first)
  have other : s.head.slot ≠ freeEnd := fun marker => inv.marker (marker ▸ first)
  have taken : walk s.next freeEnd s.head.slot want = c.take n := by
    rw [whole.walk inv.marker, all, ← List.take_eq_take_min]
  have nonempty : c.take n ≠ [] := by
    intro empty
    have length := List.length_take_of_le (show n ≤ c.length by omega)
    rw [empty, List.length_nil] at length
    omega
  rw [whole.follow (by omega)]
  rw [← List.take_append_drop n c] at whole
  obtain ⟨middle, front, back⟩ := path_append.mp whole
  have last : s.next ((c.take n).getLastD freeEnd) = successor :=
    (front.next_getLastD nonempty freeEnd).trans (back.first_eq path)
  rw [agrees.cap] at inside
  rw [agrees.head] at taken other ⊢
  rw [agrees.next] at taken last
  rw [nodeStackBatchPop, if_neg (by omega), taken]
  dsimp only
  rw [last]

theorem push_exchange (inv : NodeStack.Inv s c) (agrees : Agrees p s)
    (here : (s.callers i).pc = .pushSwap slots s.head) :
    nodeStackBatchPush p (slots.map (.slot p.region)) =
      ({ p with next := s.next, head := s.head.swap (slots.headD freeEnd) }, true) := by
  have own := inv.callers i
  unfold NodeStack.CallerOk at own
  rw [here] at own
  obtain ⟨mine, path⟩ := own
  have inside : ∀ x ∈ slots, x < p.cap := by
    intro x member
    rw [← agrees.cap]
    exact (inv.shares.total x).mpr (Or.inr ⟨i, mine.2.2 x member⟩)
  obtain ⟨x, member⟩ := List.exists_mem_of_ne_nil slots mine.1
  have present : p.cap ≠ 0 := Nat.ne_of_gt (Nat.zero_lt_of_lt (inside x member))
  have index : (slots.map (Node.slot p.region)).map Node.index = slots := by
    rw [List.map_map]
    exact List.map_id slots
  have all : (slots.map (.slot p.region)).all (nodeFromPool p) = true := by
    simpa [nodeFromPool, present] using inside
  have linked : link p.next p.head.slot slots = s.next := by
    rw [← agrees.next, ← agrees.head]
    exact link_of_path path
  rw [nodeStackBatchPush, if_neg (by simpa using mine.1), if_neg present, if_pos all, index]
  dsimp only
  rw [linked, agrees.head]

/-- In every interleaving an exchange changes the free list as its whole call would change it then:
the links that a push writes before it are those that the call writes. -/
theorem exchanges_are_calls (cap : UInt32) (labels : List NodeStack.Label)
    (quick : Meets NodeStack.step NodeStack.Quick (NodeStack.start cap) labels) :
    Meets NodeStack.step (fun s label => ∀ p, Agrees p s → Exchanges p s label) (NodeStack.start cap)
      labels := by
  have keep : ∀ {s s' : NodeStack.State} {label : NodeStack.Label}, (∃ c, NodeStack.Inv s c) →
      NodeStack.Quick s label → NodeStack.step s label = some s' → ∃ c, NodeStack.Inv s' c := by
    rintro s s' label ⟨c, inv⟩ quick taken
    exact inv.answers quick taken
  refine quick.of_invariant keep ?_ ⟨_, NodeStack.inv_start cap⟩
  rintro s label ⟨c, inv⟩ quick p agrees
  unfold Exchanges
  split
  · split
    · rename_i here
      rintro rfl
      exact pop_exchange inv quick agrees here
    · rename_i here
      rintro rfl
      exact push_exchange inv agrees here
    · trivial
  · trivial

end Exchange

theorem nodeStackBatchPop_spec (p : PoolNodes) (want : Nat) :
    SameArray p (nodeStackBatchPop p want).1 ∧
      (Bounded p → ∀ node ∈ (nodeStackBatchPop p want).2, nodeFromPool p node = true) ∧
      (nodeStackBatchPop p want).2.length ≤ want := by
  unfold nodeStackBatchPop
  split
  · exact ⟨SameArray.refl p, by simp, Nat.zero_le _⟩
  · rename_i some
    dsimp only
    refine ⟨⟨rfl, rfl, rfl, fun bounded => ⟨bounded.next _, bounded.next⟩⟩, ?_, ?_⟩
    · intro bounded node member
      obtain ⟨x, inside, rfl⟩ := List.mem_map.mp member
      have below := walk_bounded bounded.next bounded.head x inside
      have array : p.cap ≠ 0 := fun none => some (Or.inl none)
      simp [nodeFromPool, array, below]
    · rw [List.length_map]
      exact length_walk_le

theorem nodeStackBatchPush_same (p : PoolNodes) (nodes : List Node) :
    SameArray p (nodeStackBatchPush p nodes).1 := by
  unfold nodeStackBatchPush
  split
  · exact SameArray.refl p
  · split
    · exact SameArray.refl p
    · split
      · rename_i own
        have inside : ∀ x ∈ nodes.map Node.index, x < p.cap := by
          intro x member
          obtain ⟨node, there, rfl⟩ := List.mem_map.mp member
          have mine := List.all_eq_true.mp own node there
          cases node with
          | slot region index =>
            simp only [nodeFromPool, Bool.and_eq_true, decide_eq_true_eq] at mine
            exact mine.2
          | heap n => cases mine
        refine ⟨rfl, rfl, rfl, fun bounded => ⟨?_, link_bounded bounded.next bounded.head inside⟩⟩
        show (nodes.map Node.index).headD freeEnd = freeEnd ∨ (nodes.map Node.index).headD freeEnd < p.cap
        cases slots : nodes.map Node.index with
        | nil => exact Or.inl rfl
        | cons x rest => exact Or.inr (inside x (by rw [slots]; exact List.mem_cons_self ..))
      · exact SameArray.refl p

/-- Every node of a cache lies in the array of the pool whose id owns the cache. -/
def Owned (homes : Nat → Option (Nat × Nat)) (c : Tls) : Prop :=
  ∀ i node, c.nodes i = some node →
    ∃ region cap index, homes c.owner = some (region, cap) ∧ node = .slot region index ∧ index < cap

namespace Owned

variable {homes : Nat → Option (Nat × Nat)} {c : Tls}

theorem clear (homes : Nat → Option (Nat × Nat)) (c : Tls) (owner : Nat) :
    Owned homes { c.clear with owner } := by
  intro i node none
  cases none

theorem take (owned : Owned homes c) (i next : Nat) : Owned homes { c.set i none with next } := by
  intro j node here
  by_cases same : j = i
  · simp [Tls.set, same] at here
  · exact owned j node (by simpa [Tls.set, same] using here)

theorem put (owned : Owned homes c) {region cap index : Nat} (home : homes c.owner = some (region, cap))
    (inside : index < cap) (i next : Nat) :
    Owned homes { c.set i (some (.slot region index)) with next } := by
  intro j node here
  by_cases same : j = i
  · have mine : Node.slot region index = node := by simpa [Tls.set, same] using here
    exact ⟨region, cap, index, home, mine.symm, inside⟩
  · exact owned j node (by simpa [Tls.set, same] using here)

/-- The cache of a thread without an owner is empty, so anyone may own it. -/
theorem adopt (owned : Owned homes c) (nobody : homes c.owner = none) (owner : Nat) :
    Owned homes { c with owner } := by
  intro i node here
  obtain ⟨region, cap, index, home, -⟩ := owned i node here
  rw [nobody] at home
  cases home

end Owned

/-- The pool at h has its array where homes says, if it has an id. -/
structure Good (s : State) : Prop where
  home : ∀ h ∈ s.handles, (s.pools h).id ≠ 0 →
    s.homes (s.pools h).id = some ((s.pools h).region, (s.pools h).cap)
  positive : 0 < s.nextId
  fresh : ∀ id, s.homes id ≠ none → id ≠ 0 ∧ id < s.nextId
  unique : ∀ h ∈ s.handles, ∀ other ∈ s.handles, (s.pools h).id = (s.pools other).id →
    (s.pools h).id ≠ 0 → h = other
  distinct : s.handles.Nodup
  bounded : ∀ h ∈ s.handles, Bounded (s.pools h)
  registry : ∀ entry ∈ s.registry, entry.2 ∈ s.handles ∧ (s.pools entry.2).id = entry.1 ∧ entry.1 ≠ 0
  listed : (s.registry.map Prod.snd).Nodup
  cached : ∀ t, Owned s.homes (s.tls t)
  created : ∀ task ∈ s.tasks, task.1 ∈ s.handles ∧
    (nodeFromPool (s.pools task.1) task.2 = true ∨ ∃ n, task.2 = .heap n)

/-- What calls other than create and destroy leave alone. -/
structure Kept (s s' : State) : Prop where
  handles : s'.handles = s.handles
  registry : s'.registry = s.registry
  nextId : s'.nextId = s.nextId
  homes : s'.homes = s.homes
  pools : ∀ h, SameArray (s.pools h) (s'.pools h)

variable {s s' : State} {t h : Nat}

theorem Kept.refl (s : State) : Kept s s := ⟨rfl, rfl, rfl, rfl, fun _ => SameArray.refl _⟩

theorem SameArray.trans {p q r : PoolNodes} (first : SameArray p q) (second : SameArray q r) : SameArray p r :=
  ⟨second.id.trans first.id, second.region.trans first.region, second.cap.trans first.cap,
    fun bounded => second.bounded (first.bounded bounded)⟩

theorem Kept.trans {s₁ s₂ s₃ : State} (first : Kept s₁ s₂) (second : Kept s₂ s₃) : Kept s₁ s₃ :=
  ⟨second.handles.trans first.handles, second.registry.trans first.registry,
    second.nextId.trans first.nextId, second.homes.trans first.homes,
    fun h => (first.pools h).trans (second.pools h)⟩

theorem Kept.setPool {p : PoolNodes} (same : SameArray (s.pools h) p) : Kept s (s.setPool h p) := by
  refine ⟨rfl, rfl, rfl, rfl, fun k => ?_⟩
  show SameArray (s.pools k) (update s.pools h p k)
  by_cases here : k = h
  · rw [here, update_self]
    exact same
  · rw [update_of_ne here]
    exact SameArray.refl _

theorem Kept.pushTo (s : State) (h : Nat) (nodes : List Node) : Kept s (s.pushTo h nodes) :=
  Kept.setPool (nodeStackBatchPush_same _ _)

/-- The pools are as they were; the caches and the tasks are accounted for. -/
theorem Good.kept (good : Good s) (kept : Kept s s') (cached : ∀ t, Owned s.homes (s'.tls t))
    (created : ∀ task ∈ s'.tasks, task.1 ∈ s.handles ∧
      (nodeFromPool (s.pools task.1) task.2 = true ∨ ∃ n, task.2 = .heap n)) : Good s' := by
  refine ⟨?_, kept.nextId ▸ good.positive, ?_, ?_, ?_, ?_, ?_, ?_, ?_, ?_⟩
  · intro h live named
    rw [kept.handles] at live
    have same := kept.pools h
    rw [same.id] at named
    rw [kept.homes, same.id, same.region, same.cap]
    exact good.home h live named
  · rw [kept.homes, kept.nextId]
    exact good.fresh
  · intro h live other alive equal named
    rw [kept.handles] at live alive
    rw [(kept.pools h).id, (kept.pools other).id] at equal
    rw [(kept.pools h).id] at named
    exact good.unique h live other alive equal named
  · rw [kept.handles]
    exact good.distinct
  · intro h live
    rw [kept.handles] at live
    exact (kept.pools h).bounded (good.bounded h live)
  · intro entry member
    rw [kept.registry] at member
    rw [kept.handles, (kept.pools entry.2).id]
    exact good.registry entry member
  · rw [kept.registry]
    exact good.listed
  · rw [kept.homes]
    exact cached
  · intro task member
    rw [kept.handles, (kept.pools task.1).nodeFromPool]
    exact created task member

theorem Kept.setTls (s : State) (t : Nat) (c : Tls) : Kept s (s.setTls t c) :=
  ⟨rfl, rfl, rfl, rfl, fun _ => SameArray.refl _⟩

/-- What the owner switch can do. -/
inductive Resolved (s : State) (t h : Nat) : State → Prop
  | same (owner : (s.tls t).owner = (s.pools h).id) : Resolved s t h s
  | adopted (nobody : (s.tls t).owner = 0) :
      Resolved s t h (s.setTls t { s.tls t with owner := (s.pools h).id })
  | handed (owner) :
      Resolved s t h ((s.pushTo owner (s.tls t).batch).setTls t
        { (s.tls t).clear with owner := (s.pools h).id })
  | discarded : Resolved s t h (s.setTls t { (s.tls t).clear with owner := (s.pools h).id })

theorem switch_resolved (s : State) (t h : Nat) : Resolved s t h (s.switch t h) := by
  unfold State.switch
  split
  · rename_i owner
    exact .same owner
  · rename_i other
    unfold State.tlsResolveOwner
    dsimp only
    split
    · rename_i unowned
      exact .adopted (unowned.resolve_right other)
    · cases s.poolRegLookup (s.tls t).owner with
      | none => exact .discarded
      | some owner =>
        dsimp only
        split
        · exact .discarded
        · exact .handed owner

theorem Resolved.kept (resolved : Resolved s t h s') : Kept s s' := by
  cases resolved with
  | same owner => exact Kept.refl s
  | adopted | discarded => exact Kept.setTls _ _ _
  | handed owner => exact (Kept.pushTo s owner _).trans (Kept.setTls _ _ _)

/-- Thread t's cache now belongs to the pool at h. -/
structure Switched (s s' : State) (t h : Nat) : Prop where
  kept : Kept s s'
  tasks : s'.tasks = s.tasks
  others : ∀ u, u ≠ t → s'.tls u = s.tls u
  owner : (s'.tls t).owner = (s.pools h).id
  owned : Owned s.homes (s'.tls t)

theorem Good.nobody (good : Good s) : s.homes 0 = none := by
  by_contra some
  exact (good.fresh 0 some).1 rfl

theorem Good.switch (good : Good s) (t h : Nat) : Switched s (s.switch t h) t h := by
  have resolved := switch_resolved s t h
  have kept := resolved.kept
  generalize s.switch t h = s' at resolved kept ⊢
  refine ⟨kept, ?_, ?_, ?_, ?_⟩
  · cases resolved <;> rfl
  · intro u other
    cases resolved with
    | same => rfl
    | adopted | handed | discarded => exact update_of_ne other _ _
  · cases resolved with
    | same owner => exact owner
    | adopted | handed | discarded => rw [State.setTls_tls]
  · have owned := good.cached t
    cases resolved with
    | same => exact owned
    | adopted nobody =>
      rw [State.setTls_tls]
      apply owned.adopt
      rw [nobody]
      exact good.nobody
    | handed | discarded =>
      rw [State.setTls_tls]
      exact Owned.clear _ _ _

/-- A node in the cache of thread t is one of the pool at h. -/
theorem Good.cached_from (good : Good s) (live : h ∈ s.handles) {c : Tls} (owned : Owned s.homes c)
    (owner : c.owner = (s.pools h).id) {i : Nat} {node : Node} (here : c.nodes i = some node) :
    nodeFromPool (s.pools h) node = true := by
  obtain ⟨region, cap, index, home, rfl, inside⟩ := owned i node here
  rw [owner] at home
  have named : (s.pools h).id ≠ 0 := by
    intro zero
    rw [zero, good.nobody] at home
    cases home
  rw [good.home h live named] at home
  cases home
  have array : (s.pools h).cap ≠ 0 := by omega
  simp [nodeFromPool, array, inside]

/-- A cache has one slot, so a refill leaves nothing over. -/
theorem refill_nil {p p' : PoolNodes} {c : Tls} {node : Node} {rest : List Node}
    (popped : nodeStackBatchPop p c.room = (p', node :: rest)) : rest = [] := by
  have bound := (nodeStackBatchPop_spec p c.room).2.2
  have room : c.room ≤ 1 := List.countP_le_length
  rw [popped, List.length_cons] at bound
  exact List.eq_nil_of_length_eq_zero (by omega)

/-- What task_create can do after its owner switch. -/
inductive Created (s : State) (t h : Nat) : State → Prop
  | cached {i node next} (here : (s.tls t).nodes i = some node) :
      Created s t h ((s.setTls t { (s.tls t).set i none with next }).hands h node)
  | refilled {want p node} (popped : nodeStackBatchPop (s.pools h) want = (p, [node])) :
      Created s t h (((s.setPool h p).setTls t { s.tls t with owner := p.id }).hands h node)
  | allocated (n) : Created s t h (s.hands h (.heap n))
  | refused : Created s t h s

theorem taskCreate_created (s : State) (t h : Nat) (block : Option Nat) :
    Created (s.switch t h) t h (s.taskCreate t h block) := by
  unfold State.taskCreate
  dsimp only
  split
  · rename_i i found
    have full := List.find?_some found
    obtain ⟨node, here⟩ := Option.isSome_iff_exists.mp full
    rw [here]
    exact .cached here
  · split
    · rename_i p node rest popped
      obtain rfl := refill_nil popped
      exact .refilled popped
    · split
      · exact .allocated _
      · exact .refused

/-- What task_destroy can do with a node of the pool after its owner switch. -/
inductive Stashed (s : State) (t h : Nat) (node : Node) : State → Prop
  | cached {i next} : Stashed s t h node (s.setTls t { (s.tls t).set i (some node) with next })
  | flushed : Stashed s t h node ((s.pushTo h ((s.tls t).batch ++ [node])).setTls t (s.tls t).clear)

/-- The task is the caller's no more. -/
def dropTask (s : State) (h : Nat) (node : Node) : State := { s with tasks := s.tasks.erase (h, node) }

theorem taskDestroy_stashed (s : State) (t h : Nat) (node : Node) :
    (nodeFromPool (s.pools h) node = true ∧
      Stashed ((dropTask s h node).switch t h) t h node (s.taskDestroy t h node)) ∨
    s.taskDestroy t h node = dropTask s h node := by
  unfold State.taskDestroy
  dsimp only
  split
  · rename_i own
    refine Or.inl ⟨own, ?_⟩
    split
    · exact .cached
    · exact .flushed
  · exact Or.inr rfl

theorem Kept.hands (s : State) (h : Nat) (node : Node) : Kept s (s.hands h node) :=
  ⟨rfl, rfl, rfl, rfl, fun _ => SameArray.refl _⟩

theorem Kept.dropTask (s : State) (h : Nat) (node : Node) : Kept s (dropTask s h node) :=
  ⟨rfl, rfl, rfl, rfl, fun _ => SameArray.refl _⟩

theorem Created.kept (created : Created s t h s') : Kept s s' := by
  cases created with
  | cached here => exact (Kept.setTls _ _ _).trans (Kept.hands _ _ _)
  | @refilled want p node popped =>
    have same := (nodeStackBatchPop_spec (s.pools h) want).1
    rw [popped] at same
    exact ((Kept.setPool same).trans (Kept.setTls _ _ _)).trans (Kept.hands _ _ _)
  | allocated n => exact Kept.hands _ _ _
  | refused => exact Kept.refl _

theorem Stashed.kept {node : Node} (stashed : Stashed s t h node s') : Kept s s' := by
  cases stashed with
  | cached => exact Kept.setTls _ _ _
  | flushed => exact (Kept.pushTo _ _ _).trans (Kept.setTls _ _ _)

/-- What a call does after its owner switch. -/
theorem Good.after (good : Good s) (live : h ∈ s.handles) {middle : State} (switched : Switched s middle t h)
    (kept : Kept middle s') (others : ∀ u, u ≠ t → s'.tls u = middle.tls u)
    (owned : Owned s.homes (s'.tls t))
    (tasks : ∀ task ∈ s'.tasks, task ∈ s.tasks ∨
      task.1 = h ∧ (nodeFromPool (s.pools h) task.2 = true ∨ ∃ n, task.2 = .heap n)) : Good s' := by
  refine good.kept (switched.kept.trans kept) ?_ ?_
  · intro u
    by_cases same : u = t
    · rw [same]
      exact owned
    · rw [others u same, switched.others u same]
      exact good.cached u
  · intro task member
    rcases tasks task member with old | ⟨rfl, new⟩
    · exact good.created task old
    · exact ⟨live, new⟩

theorem Good.taskCreate (good : Good s) (live : h ∈ s.handles) (t : Nat) (block : Option Nat) :
    Good (s.taskCreate t h block) := by
  have switched := good.switch t h
  have owned := switched.owned
  have created := taskCreate_created s t h block
  have handed : ∀ {tasks : List (Nat × Node)} {node : Node}, tasks = (s.switch t h).tasks →
      (nodeFromPool (s.pools h) node = true ∨ ∃ n, node = .heap n) → ∀ task ∈ (h, node) :: tasks,
      task ∈ s.tasks ∨ task.1 = h ∧ (nodeFromPool (s.pools h) task.2 = true ∨ ∃ n, task.2 = .heap n) := by
    intro tasks node same new task member
    rw [same, switched.tasks] at member
    rcases List.mem_cons.mp member with rfl | old
    · exact Or.inr ⟨rfl, new⟩
    · exact Or.inl old
  have kept := created.kept
  generalize s.taskCreate t h block = s' at created kept ⊢
  cases created with
  | cached here =>
    refine good.after live switched kept (fun u other => update_of_ne other _ _) ?_ ?_
    · show Owned s.homes ((State.setTls _ t _).tls t)
      rw [State.setTls_tls]
      exact owned.take _ _
    · exact handed rfl (Or.inl (good.cached_from live owned switched.owner here))
  | @refilled want p node popped =>
    have spec := nodeStackBatchPop_spec ((s.switch t h).pools h) want
    rw [popped] at spec
    refine good.after live switched kept (fun u other => update_of_ne other _ _) ?_ ?_
    · show Owned s.homes ((State.setTls _ t _).tls t)
      rw [State.setTls_tls]
      have same : p.id = ((s.switch t h).tls t).owner := by
        rw [spec.1.id, (switched.kept.pools h).id, switched.owner]
      rw [same]
      exact owned
    · refine handed rfl (Or.inl ?_)
      have bounded := (switched.kept.pools h).bounded (good.bounded h live)
      rw [← (switched.kept.pools h).nodeFromPool]
      exact spec.2.1 bounded node (List.mem_cons_self ..)
  | allocated n =>
    exact good.after live switched kept (fun _ _ => rfl) owned (handed rfl (Or.inr ⟨_, rfl⟩))
  | refused =>
    refine good.after live switched kept (fun _ _ => rfl) owned ?_
    intro task member
    rw [switched.tasks] at member
    exact Or.inl member

/-- No node of a pool without an id is put in a cache. -/
def Named (s : State) : Label → Prop
  | .taskDestroy _ h node => nodeFromPool (s.pools h) node = true → (s.pools h).id ≠ 0
  | _ => True

theorem Good.dropTask (good : Good s) (h : Nat) (node : Node) : Good (dropTask s h node) := by
  refine good.kept (Kept.dropTask s h node) good.cached ?_
  intro task member
  exact good.created task (List.mem_of_mem_erase member)

theorem Good.taskDestroy (good : Good s) (live : h ∈ s.handles) (t : Nat) {node : Node}
    (named : nodeFromPool (s.pools h) node = true → (s.pools h).id ≠ 0) :
    Good (s.taskDestroy t h node) := by
  have fewer := good.dropTask h node
  rcases taskDestroy_stashed s t h node with ⟨own, stashed⟩ | same
  · have switched := fewer.switch t h
    have kept := stashed.kept
    have tasks : (s.taskDestroy t h node).tasks = (NodeCache.dropTask s h node).tasks := by
      rw [← switched.tasks]
      generalize s.taskDestroy t h node = s' at stashed
      cases stashed <;> rfl
    generalize s.taskDestroy t h node = s' at stashed kept tasks ⊢
    refine fewer.after live switched kept ?_ ?_ fun task member => Or.inl (tasks ▸ member)
    · intro u other
      cases stashed <;> exact update_of_ne other _ _
    · cases stashed with
      | cached =>
        rw [State.setTls_tls]
        cases node with
        | slot region index =>
          have home := good.home h live (named own)
          simp only [nodeFromPool, Bool.and_eq_true, decide_eq_true_eq] at own
          refine switched.owned.put ?_ own.2 _ _
          rw [switched.owner, own.1.2]
          exact home
        | heap n => cases own
      | flushed =>
        rw [State.setTls_tls]
        exact Owned.clear _ _ _
  · rw [same]
    exact fewer

/-- tls_flush_to_pool empties the cache, with or without a push. -/
theorem tlsFlush_cases (s : State) (t h : Nat) : ∃ middle,
    Kept s middle ∧ middle.tls = s.tls ∧ middle.tasks = s.tasks ∧
      s.tlsFlushToPool t h = middle.setTls t { (s.tls t).clear with owner := 0 } := by
  unfold State.tlsFlushToPool
  dsimp only
  split
  · exact ⟨s, Kept.refl s, rfl, rfl, rfl⟩
  · exact ⟨_, Kept.pushTo s h _, rfl, rfl, rfl⟩

theorem Good.tlsFlush (good : Good s) (t h : Nat) : Good (s.tlsFlushToPool t h) := by
  obtain ⟨middle, kept, tls, tasks, same⟩ := tlsFlush_cases s t h
  rw [same]
  refine good.kept (kept.trans (Kept.setTls _ _ _)) ?_ ?_
  · intro u
    by_cases mine : u = t
    · rw [mine, State.setTls_tls]
      exact Owned.clear _ _ _
    · have other : (middle.setTls t { (s.tls t).clear with owner := 0 }).tls u = middle.tls u :=
        update_of_ne mine _ _
      rw [other, tls]
      exact good.cached u
  · intro task member
    have old : task ∈ middle.tasks := member
    rw [tasks] at old
    exact good.created task old

/-- Every call but create and destroy leaves the pools and the registry alone. -/
theorem step_kept {label : Label} (after : step s label = some s') :
    (∃ h region arrays, label = .create h region arrays) ∨ (∃ h, label = .destroy h) ∨ Kept s s' := by
  cases label <;> simp only [NodeCache.step, Option.ite_none_right_eq_some, Option.some.injEq] at after
  case create h region arrays => exact Or.inl ⟨h, region, arrays, rfl⟩
  case destroy h => exact Or.inr (Or.inl ⟨h, rfl⟩)
  case taskCreate t h block =>
    obtain ⟨-, rfl⟩ := after
    exact Or.inr (Or.inr ((switch_resolved s t h).kept.trans (taskCreate_created s t h block).kept))
  case taskDestroy t h node =>
    obtain ⟨-, rfl⟩ := after
    refine Or.inr (Or.inr ?_)
    rcases taskDestroy_stashed s t h node with ⟨-, stashed⟩ | same
    · exact ((Kept.dropTask s h node).trans (switch_resolved _ t h).kept).trans stashed.kept
    · rw [same]
      exact Kept.dropTask s h node
  case tlsFlush t h =>
    obtain ⟨-, rfl⟩ := after
    obtain ⟨middle, kept, -, -, same⟩ := tlsFlush_cases s t h
    rw [same]
    exact Or.inr (Or.inr (kept.trans (Kept.setTls _ _ _)))

/-- The registry is what is left and the entry taken out, in some order. -/
theorem unregister_perm {registry : List (Nat × Nat)} {i : Nat}
    (found : registry.findIdx? (fun entry => entry.2 = h) = some i) :
    ∃ id, ((id, h) :: State.unregister h registry).Perm registry := by
  obtain ⟨inside, here, -⟩ := List.findIdx?_eq_some_iff_getElem.mp found
  have mine : registry[i].2 = h := of_decide_eq_true here
  obtain ⟨front, last, rfl⟩ : ∃ front last, registry = front ++ [last] := by
    refine ⟨registry.dropLast, registry.getLast ?_, (List.dropLast_concat_getLast ?_).symm⟩ <;>
      exact List.ne_nil_of_length_pos (by omega)
  refine ⟨(front ++ [last])[i].1, ?_⟩
  have entry : ((front ++ [last])[i].1, h) = (front ++ [last])[i] := by rw [← mine]
  rw [entry]
  simp only [State.unregister, found, List.getLast?_append, List.getLast?_singleton, Option.some_or]
  by_cases early : i < front.length
  · rw [List.getElem_append_left early, List.set_append_left _ _ early, List.dropLast_concat]
    calc
      front[i] :: front.set i last |>.Perm (front[i] :: last :: front.eraseIdx i) :=
          (List.set_perm_cons_eraseIdx early last).cons _
      _ |>.Perm (last :: front[i] :: front.eraseIdx i) := List.Perm.swap _ _ _
      _ |>.Perm (last :: front) := (List.getElem_cons_eraseIdx_perm early).cons _
      _ |>.Perm (front ++ [last]) := (List.perm_append_singleton _ _).symm
  · have final : i = front.length := by
      rw [List.length_append, List.length_singleton] at inside
      omega
    subst final
    simp only [List.getElem_concat_length, List.set_append_right _ _ (Nat.le_refl _), Nat.sub_self,
      List.set_cons_zero, List.dropLast_concat]
    exact (List.perm_append_singleton _ _).symm

/-- What is left of the registry is about other pools. -/
theorem unregister_spec {registry : List (Nat × Nat)} (listed : (registry.map Prod.snd).Nodup) (h : Nat) :
    (∀ entry ∈ State.unregister h registry, entry ∈ registry ∧ entry.2 ≠ h) ∧
      ((State.unregister h registry).map Prod.snd).Nodup := by
  cases found : registry.findIdx? (fun entry => entry.2 = h) with
  | none =>
    have same : State.unregister h registry = registry := by simp only [State.unregister, found]
    rw [same]
    refine ⟨fun entry member => ⟨member, ?_⟩, listed⟩
    simpa using List.findIdx?_eq_none_iff.mp found entry member
  | some i =>
    obtain ⟨id, perm⟩ := unregister_perm found
    have parts := (perm.map Prod.snd).nodup_iff.mpr listed
    rw [List.map_cons, List.nodup_cons] at parts
    refine ⟨fun entry member => ⟨perm.subset (List.mem_cons_of_mem _ member), ?_⟩, parts.2⟩
    intro same
    exact parts.1 (List.mem_map.mpr ⟨entry, member, same⟩)

theorem Good.destroy (good : Good s) (h : Nat) : Good (s.poolDestroy h) := by
  have left := unregister_spec good.listed h
  have remains : ∀ k, k ∈ s.handles.erase h ↔ k ≠ h ∧ k ∈ s.handles := by
    intro k
    exact good.distinct.mem_erase_iff
  refine ⟨?_, good.positive, good.fresh, ?_, ?_, ?_, ?_, left.2, good.cached, ?_⟩
  · intro k live
    exact good.home k ((remains k).mp live).2
  · intro k live other alive
    exact good.unique k ((remains k).mp live).2 other ((remains other).mp alive).2
  · exact good.distinct.erase _
  · intro k live
    exact good.bounded k ((remains k).mp live).2
  · intro entry member
    obtain ⟨old, other⟩ := left.1 entry member
    obtain ⟨live, named⟩ := good.registry entry old
    exact ⟨(remains _).mpr ⟨other, live⟩, named⟩
  · intro task member
    obtain ⟨old, other⟩ := List.mem_filter.mp member
    obtain ⟨live, own⟩ := good.created task old
    exact ⟨(remains _).mpr ⟨of_decide_eq_true other, live⟩, own⟩

theorem poolInit_spec (id region : Nat) (arrays : Bool) :
    (poolInit id region arrays).id = id ∧ (poolInit id region arrays).region = region ∧
      Bounded (poolInit id region arrays) := by
  cases arrays with
  | false => exact ⟨rfl, rfl, Or.inl rfl, fun _ => Or.inl rfl⟩
  | true =>
    refine ⟨rfl, rfl, Or.inr (show 0 < nodePoolCap by decide), fun i => ?_⟩
    show (if i + 1 < nodePoolCap then i + 1 else freeEnd) = freeEnd ∨
      (if i + 1 < nodePoolCap then i + 1 else freeEnd) < nodePoolCap
    split
    · exact Or.inr (by assumption)
    · exact Or.inl rfl

/-- A pool is made at a free address; its id is new, or it has none. -/
theorem Good.added (good : Good s) (new : h ∉ s.handles) {p : PoolNodes} (bounded : Bounded p)
    {registry : List (Nat × Nat)} {homes : Nat → Option (Nat × Nat)}
    (entry : p.id = 0 ∧ registry = s.registry ∧ homes = s.homes ∨
      p.id = s.nextId ∧ registry = s.registry ++ [(p.id, h)] ∧
        homes = update s.homes p.id (some (p.region, p.cap))) :
    Good { s with
      pools := update s.pools h p, handles := h :: s.handles, registry
      nextId := s.nextId + 1, homes } := by
  have other : ∀ k ∈ s.handles, update s.pools h p k = s.pools k := by
    intro k live
    refine update_of_ne ?_ _ _
    rintro rfl
    exact new live
  -- an id with a home is older than the one given out now
  have older : ∀ id, s.homes id ≠ none → homes id = s.homes id := by
    intro id known
    rcases entry with ⟨-, -, rfl⟩ | ⟨named, -, rfl⟩
    · rfl
    · refine update_of_ne ?_ _ _
      have below := (good.fresh id known).2
      omega
  have positive := good.positive
  have aged : ∀ k ∈ s.handles, (s.pools k).id ≠ 0 → (s.pools k).id ≠ p.id := by
    intro k live named same
    have known : s.homes (s.pools k).id ≠ none := by
      rw [good.home k live named]
      exact Option.some_ne_none _
    have below := (good.fresh _ known).2
    rcases entry with ⟨zero, -⟩ | ⟨latest, -⟩
    · exact named (same.trans zero)
    · omega
  refine ⟨?_, Nat.succ_pos _, ?_, ?_, ?_, ?_, ?_, ?_, ?_, ?_⟩
  · intro k live named
    rcases List.mem_cons.mp live with rfl | live
    · simp only [update_self] at named ⊢
      rcases entry with ⟨zero, -⟩ | ⟨-, -, rfl⟩
      · exact absurd zero named
      · exact update_self _ _ _
    · simp only [other k live] at named ⊢
      rw [older _ (by rw [good.home k live named]; exact Option.some_ne_none _)]
      exact good.home k live named
  · intro id known
    change homes id ≠ none at known
    change id ≠ 0 ∧ id < s.nextId + 1
    rcases entry with ⟨-, -, rfl⟩ | ⟨latest, -, rfl⟩
    · have old := good.fresh id known
      exact ⟨old.1, Nat.lt_succ_of_lt old.2⟩
    · by_cases same : id = p.id
      · omega
      · rw [update_of_ne same] at known
        have old := good.fresh id known
        exact ⟨old.1, Nat.lt_succ_of_lt old.2⟩
  · intro k live k' alive equal named
    rcases List.mem_cons.mp live with first | old
    · rcases List.mem_cons.mp alive with second | young
      · exact first.trans second.symm
      · simp only [first, update_self, other k' young] at equal named
        exact absurd equal.symm (aged k' young (equal ▸ named))
    · rcases List.mem_cons.mp alive with second | young
      · simp only [second, update_self, other k old] at equal named
        exact absurd equal (aged k old named)
      · simp only [other k old, other k' young] at equal named
        exact good.unique k old k' young equal named
  · exact List.nodup_cons.mpr ⟨new, good.distinct⟩
  · intro k live
    rcases List.mem_cons.mp live with rfl | live
    · simp only [update_self]
      exact bounded
    · simp only [other k live]
      exact good.bounded k live
  · intro item member
    have old : ∀ item ∈ s.registry, item.2 ∈ h :: s.handles ∧
        (update s.pools h p item.2).id = item.1 ∧ item.1 ≠ 0 := by
      intro item member
      obtain ⟨live, named⟩ := good.registry item member
      rw [other _ live]
      exact ⟨List.mem_cons_of_mem _ live, named⟩
    rcases entry with ⟨-, rfl, -⟩ | ⟨latest, rfl, -⟩
    · exact old item member
    · rcases List.mem_append.mp member with before | last
      · exact old item before
      · obtain rfl := List.mem_singleton.mp last
        refine ⟨List.mem_cons_self .., ?_, by omega⟩
        simp only [update_self]
  · rcases entry with ⟨-, rfl, -⟩ | ⟨-, rfl, -⟩
    · exact good.listed
    · rw [List.map_append, List.map_cons, List.map_nil]
      refine List.Nodup.append good.listed (List.nodup_singleton _) ?_
      intro k before last
      obtain ⟨item, member, rfl⟩ := List.mem_map.mp before
      have live := (good.registry item member).1
      rw [List.mem_singleton.mp last] at live
      exact new live
  · intro t i node here
    obtain ⟨region, cap, index, home, inside⟩ := good.cached t i node here
    refine ⟨region, cap, index, ?_, inside⟩
    show homes (s.tls t).owner = some (region, cap)
    rw [older _ (by rw [home]; exact Option.some_ne_none _)]
    exact home
  · intro task member
    obtain ⟨live, own⟩ := good.created task member
    refine ⟨List.mem_cons_of_mem _ live, ?_⟩
    simp only [other _ live]
    exact own

theorem Good.create (good : Good s) (region : Nat) (arrays : Bool) (new : h ∉ s.handles) :
    Good (s.poolCreate h region arrays) := by
  by_cases registered : s.registry.length < poolRegistryCap
  · have spec := poolInit_spec s.nextId region arrays
    have made := good.added new spec.2.2 (Or.inr ⟨spec.1, rfl, rfl⟩)
    rw [spec.1, spec.2.1] at made
    simpa [State.poolCreate, registered, poolInit] using made
  · have spec := poolInit_spec 0 region arrays
    have made := good.added new spec.2.2 (Or.inl ⟨spec.1, rfl, rfl⟩)
    simpa [State.poolCreate, registered, poolInit] using made

theorem Good.start : Good {} := by
  refine ⟨?_, Nat.one_pos, ?_, ?_, List.nodup_nil, ?_, ?_, List.nodup_nil, ?_, ?_⟩
  · intro h live
    cases live
  · intro id known
    exact absurd rfl known
  · intro h live
    cases live
  · intro h live
    cases live
  · intro entry member
    cases member
  · intro t i node here
    cases here
  · intro task member
    cases member

theorem Good.step {label : Label} (good : Good s) (named : Named s label)
    (after : step s label = some s') : Good s' := by
  cases label <;> simp only [NodeCache.step, Option.ite_none_right_eq_some, Option.some.injEq] at after
  case create h region arrays =>
    obtain ⟨new, rfl⟩ := after
    exact good.create region arrays new
  case destroy h =>
    obtain ⟨-, rfl⟩ := after
    exact good.destroy h
  case taskCreate t h block =>
    obtain ⟨live, rfl⟩ := after
    exact good.taskCreate live t block
  case taskDestroy t h node =>
    obtain ⟨⟨live, -⟩, rfl⟩ := after
    exact good.taskDestroy live t named
  case tlsFlush t h =>
    obtain ⟨-, rfl⟩ := after
    exact good.tlsFlush t h

/-- A cached node belongs to the pool whose id owns the cache, and a created task is in a node of
its own pool or in a block of its own. homes tells the truth about the pools that exist. -/
structure Separate (s : State) : Prop where
  home : ∀ h ∈ s.handles, (s.pools h).id ≠ 0 →
    s.homes (s.pools h).id = some ((s.pools h).region, (s.pools h).cap)
  unique : ∀ h ∈ s.handles, ∀ other ∈ s.handles, (s.pools h).id = (s.pools other).id →
    (s.pools h).id ≠ 0 → h = other
  cached : ∀ t, Owned s.homes (s.tls t)
  created : ∀ task ∈ s.tasks, nodeFromPool (s.pools task.1) task.2 = true ∨ ∃ n, task.2 = .heap n

theorem Good.separate (good : Good s) : Separate s :=
  ⟨good.home, good.unique, good.cached, fun task member => (good.created task member).2⟩

/-- Nodes stay with their pools in every sequence of calls that caches no node of a pool the
registry had no room for. -/
theorem nodes_stay_with_their_pool (labels : List Label) (named : Meets step Named {} labels) :
    Always step Separate {} labels :=
  always_of_meets Good.step Good.separate Good.start named

instance (s : State) : (label : Label) → Decidable (Named s label)
  | .create .. | .destroy _ | .taskCreate .. | .tlsFlush .. => .isTrue trivial
  | .taskDestroy _ h node =>
    inferInstanceAs (Decidable (nodeFromPool (s.pools h) node = true → (s.pools h).id ≠ 0))

/-- A thread goes from pool 0 to pool 1 with a cached node, and again after pool 0 is gone. -/
def betweenPools : List Label :=
  [.create 0 10 true, .create 1 11 true, .taskCreate 0 0 none, .taskDestroy 0 0 (.slot 10 0),
    .taskCreate 0 1 none, .taskCreate 0 0 none, .taskDestroy 0 0 (.slot 10 0), .destroy 0, .taskCreate 0 1 none]

theorem nodes_stay_between_pools : ∃ s,
    exec step {} betweenPools = some s ∧ s.tasks = [(1, .slot 11 1), (1, .slot 11 0)] ∧ Separate s := by
  have named : Meets step Named {} betweenPools := by
    apply meets_of_decide
    decide +kernel
  have run : (exec step {} betweenPools).map State.tasks = some [(1, .slot 11 1), (1, .slot 11 0)] := by
    decide +kernel
  obtain ⟨s, run, tasks⟩ := Option.map_eq_some_iff.mp run
  exact ⟨s, run, tasks, (nodes_stay_with_their_pool betweenPools named).final run⟩

/-- n pools are made, one after the other. -/
def crowd (n : Nat) : List Label := (List.range n).map fun i => .create i i false

/-- The state they leave. -/
def crowded (n : Nat) : State where
  pools i := if i < n then poolInit (i + 1) i false else {}
  handles := (List.range n).reverse
  registry := (List.range n).map fun i => (i + 1, i)
  nextId := n + 1
  homes id := if 0 < id ∧ id ≤ n then some (id - 1, 0) else none

theorem crowded_poolCreate {n : Nat} (room : n < poolRegistryCap) :
    (crowded n).poolCreate n n false = crowded (n + 1) := by
  have registered : ((List.range n).map fun i => (i + 1, i)).length < poolRegistryCap := by
    rw [List.length_map, List.length_range]
    exact room
  simp only [State.poolCreate, crowded, registered, if_true, State.mk.injEq, List.range_succ,
    List.map_append, List.reverse_append, List.map_cons, List.map_nil, List.reverse_singleton,
    List.singleton_append, true_and]
  refine ⟨?_, ?_⟩
  · funext i
    by_cases last : i = n
    · simp [last]
    · have bound : i < n + 1 ↔ i < n := by omega
      simp only [update_of_ne last, bound]
  · funext id
    by_cases last : id = n + 1
    · simp [last, poolInit]
    · have bound : id ≤ n + 1 ↔ id ≤ n := by omega
      simp only [update_of_ne last, bound]

theorem exec_crowd {n : Nat} (room : n ≤ poolRegistryCap) : exec step {} (crowd n) = some (crowded n) := by
  induction n with
  | zero =>
    have nobody : ∀ id, ¬ (0 < id ∧ id = 0) := by omega
    have empty : crowded 0 = {} := by simp [crowded, nobody]
    rw [empty]
    rfl
  | succ n ih =>
    rw [crowd, List.range_succ, List.map_append]
    refine exec_append.mpr ⟨crowded n, ih (by omega), ?_⟩
    have new : n ∉ (crowded n).handles := by simp [crowded]
    simp [exec, step, new, crowded_poolCreate room]

/-- The last two pools have no id: a node of the first is handed to a task of the second. -/
theorem node_crosses_unregistered_pools : ∃ s,
    exec step {} (crowd 256 ++ [.create 256 256 true, .create 257 257 true, .taskCreate 0 256 none,
      .taskDestroy 0 256 (.slot 256 0), .taskCreate 0 257 none]) = some s ∧
    s.tasks = [(257, .slot 256 0)] ∧ (s.pools 257).region = 257 ∧ ¬ Separate s := by
  have run : ((exec step (crowded 256) [.create 256 256 true, .create 257 257 true, .taskCreate 0 256 none,
      .taskDestroy 0 256 (.slot 256 0), .taskCreate 0 257 none]).map
        fun s => (s.tasks, (s.pools 257).region)) = some ([(257, .slot 256 0)], 257) := by
    decide +kernel
  obtain ⟨s, run, shape⟩ := Option.map_eq_some_iff.mp run
  simp only [Prod.mk.injEq] at shape
  obtain ⟨tasks, region⟩ := shape
  refine ⟨s, ?_, tasks, region, ?_⟩
  · exact exec_append.mpr ⟨crowded 256, exec_crowd (show 256 ≤ poolRegistryCap from Nat.le_refl _), run⟩
  · intro separate
    have own := separate.created (257, .slot 256 0) (by rw [tasks]; exact List.mem_singleton.mpr rfl)
    simp [nodeFromPool, region] at own

end Loomworks.Pool.NodeCache

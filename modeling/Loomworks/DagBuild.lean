import Loomworks.Future

/- The build phase of a task DAG (src/dag.c): the fields that only
loom_dag_add_node and loom_dag_add_edge write. They hold dag->lock throughout,
so each call is one step. Successors are named by node id. -/
namespace Loomworks.Dag

abbrev NodeId := Nat

/-- The build-phase fields of struct loom_dag_node; fn = none is the marker of
an id that was never added. -/
structure GraphNode where
  fn : Option Nat := none
  userData : Nat := 0
  priority : Nat := 0
  inDegree : Nat := 0
  succs : List NodeId := []
  succsCap : Nat := 0
  deriving DecidableEq, Repr

/-- allocated says that the node array exists, frozen that the DAG was submitted
or destroyed. -/
structure Graph where
  nodeCapacity : Nat
  allocated : Bool := false
  nodes : NodeId → GraphNode := fun _ => {}
  frozen : Bool := false
  addedCount : Nat := 0

def Graph.isAdded (g : Graph) (n : NodeId) : Bool := (g.nodes n).fn.isSome

def Graph.setNode (g : Graph) (n : NodeId) (node : GraphNode) : Graph :=
  { g with nodes := Function.update g.nodes n node }

/-- node_capacity is a uint32_t; the call rejects 0. -/
def loomDagCreate (nodeCapacity : UInt32) : Graph := { nodeCapacity := nodeCapacity.toNat }

/-- callocOk is the outcome of the lazy allocation of the node array. -/
def loomDagAddNode (g : Graph) (nodeId : NodeId) (fn : Option Nat) (userData priority : Nat)
    (callocOk : Bool) : Graph × LoomResult :=
  if fn = none then (g, .errInvalid)
  else if g.nodeCapacity ≤ nodeId then (g, .errInvalid)
  else if g.frozen then (g, .errInvalid)
  else if g.allocated = false ∧ callocOk = false then (g, .errAlloc)
  else
    let g := { g with allocated := true }
    if g.isAdded nodeId then (g, .errInvalid)
    else
      ({ g.setNode nodeId { fn := fn, userData := userData, priority := priority } with
        addedCount := g.addedCount + 1 }, .ok)

/-- callocOk and reallocOk are the outcomes of the two allocations. -/
def loomDagAddEdge (g : Graph) (source target : NodeId) (callocOk reallocOk : Bool) :
    Graph × LoomResult :=
  if g.nodeCapacity ≤ source ∨ g.nodeCapacity ≤ target then (g, .errInvalid)
  else if g.frozen then (g, .errInvalid)
  else if g.allocated = false ∧ callocOk = false then (g, .errAlloc)
  else
    let g := { g with allocated := true }
    let f := g.nodes source
    if g.isAdded source = false ∨ g.isAdded target = false then (g, .errInvalid)
    else if source = target then (g, .errInvalid)
    else if target ∈ f.succs then (g, .errInvalid)
    else if f.succs.length = f.succsCap ∧ reallocOk = false then (g, .errAlloc)
    else
      let cap := if f.succs.length = f.succsCap then
        (if f.succsCap = 0 then 4 else f.succsCap * 2) else f.succsCap
      let g := g.setNode source { f with succs := f.succs ++ [target], succsCap := cap }
      let t := g.nodes target
      (g.setNode target { t with inDegree := t.inDegree + 1 }, .ok)

inductive BuildOp where
  | addNode (nodeId : NodeId) (fn : Option Nat) (userData priority : Nat) (callocOk : Bool)
  | addEdge (source target : NodeId) (callocOk reallocOk : Bool)
  deriving DecidableEq, Repr

def applyOp (g : Graph) : BuildOp → Graph × LoomResult
  | .addNode nodeId fn userData priority callocOk =>
    loomDagAddNode g nodeId fn userData priority callocOk
  | .addEdge source target callocOk reallocOk => loomDagAddEdge g source target callocOk reallocOk

/-- The graph after any sequence of build calls, whatever they returned. -/
def build (nodeCapacity : UInt32) (ops : List BuildOp) : Graph :=
  ops.foldl (fun g op => (applyOp g op).1) (loomDagCreate nodeCapacity)

def Graph.Edge (g : Graph) (source target : NodeId) : Prop := target ∈ (g.nodes source).succs

def Graph.Acyclic (g : Graph) : Prop := ∀ n, ¬ Relation.TransGen g.Edge n n

instance (g : Graph) (source target : NodeId) : Decidable (g.Edge source target) :=
  inferInstanceAs (Decidable (target ∈ (g.nodes source).succs))

/-- The nodes that list n as a successor. -/
def Graph.preds (g : Graph) (n : NodeId) : Finset NodeId :=
  (Finset.range g.nodeCapacity).filter fun m => g.Edge m n

def Graph.addedNodes (g : Graph) : Finset NodeId :=
  (Finset.range g.nodeCapacity).filter fun n => g.isAdded n = true

/-- What the build phase maintains. -/
structure Built (g : Graph) : Prop where
  width : g.nodeCapacity < 2 ^ 32
  inside : ∀ n, g.isAdded n = true → n < g.nodeCapacity
  source : ∀ {m n}, g.Edge m n → g.isAdded m = true
  target : ∀ {m n}, g.Edge m n → g.isAdded n = true
  irreflexive : ∀ n, ¬ g.Edge n n
  once : ∀ n, (g.nodes n).succs.Nodup
  degree : ∀ n, (g.nodes n).inDegree = (g.preds n).card
  counted : g.addedCount = g.addedNodes.card

namespace Built

variable {g : Graph}

theorem mem_preds (built : Built g) {m n : NodeId} : m ∈ g.preds n ↔ g.Edge m n := by
  simp only [Graph.preds, Finset.mem_filter, Finset.mem_range, and_iff_right_iff_imp]
  intro edge
  exact built.inside m (built.source edge)

theorem mem_addedNodes (built : Built g) {n : NodeId} :
    n ∈ g.addedNodes ↔ g.isAdded n = true := by
  simp only [Graph.addedNodes, Finset.mem_filter, Finset.mem_range, and_iff_right_iff_imp]
  exact built.inside n

theorem inDegree_pos (built : Built g) {m n : NodeId} (edge : g.Edge m n) :
    0 < (g.nodes n).inDegree := by
  rw [built.degree]
  exact Finset.card_pos.mpr ⟨m, built.mem_preds.mpr edge⟩

end Built

theorem acyclic_of_increasing {g : Graph} (increasing : ∀ {m n}, g.Edge m n → m < n) :
    g.Acyclic := by
  intro n loop
  have below : ∀ {m n}, Relation.TransGen g.Edge m n → m < n := by
    intro m n path
    induction path with
    | single edge => exact increasing edge
    | tail _ edge ih => exact ih.trans (increasing edge)
  exact Nat.lt_irrefl n (below loop)

theorem built_create (nodeCapacity : UInt32) : Built (loomDagCreate nodeCapacity) := by
  refine ⟨nodeCapacity.toNat_lt, ?_, ?_, ?_, ?_, ?_, ?_, ?_⟩ <;>
    simp [loomDagCreate, Graph.isAdded, Graph.Edge, Graph.preds, Graph.addedNodes]

/-- Allocating the node array leaves the graph as it is. -/
theorem Built.allocate {g : Graph} (built : Built g) : Built { g with allocated := true } where
  width := built.width
  inside := built.inside
  source := built.source
  target := built.target
  irreflexive := built.irreflexive
  once := built.once
  degree := built.degree
  counted := built.counted

private theorem isAdded_setNode (g : Graph) (n m : NodeId) (node : GraphNode) :
    (g.setNode n node).isAdded m = if m = n then node.fn.isSome else g.isAdded m := by
  by_cases same : m = n <;> simp [Graph.isAdded, Graph.setNode, same]

private theorem edge_setNode (g : Graph) (n source target : NodeId) (node : GraphNode) :
    (g.setNode n node).Edge source target ↔
      if source = n then target ∈ node.succs else g.Edge source target := by
  by_cases same : source = n <;> simp [Graph.Edge, Graph.setNode, same]

/-- A fresh node has no edges, and no edge led to its id. -/
theorem Built.addNode {g : Graph} (built : Built g) {nodeId : NodeId} {node : GraphNode}
    (inside : nodeId < g.nodeCapacity) (absent : g.isAdded nodeId = false)
    (added : node.fn.isSome = true) (alone : node.succs = []) (degree : node.inDegree = 0) :
    Built { g.setNode nodeId node with addedCount := g.addedCount + 1 } := by
  have edges : ∀ m n, (g.setNode nodeId node).Edge m n ↔ g.Edge m n := by
    intro m n
    rw [edge_setNode]
    by_cases same : m = nodeId
    · subst same
      have none : ¬ g.Edge m n := fun edge => by simp [built.source edge] at absent
      simp [alone, none]
    · simp [same]
  have members : ∀ n, (g.setNode nodeId node).isAdded n = true ↔
      n = nodeId ∨ g.isAdded n = true := by
    intro n
    rw [isAdded_setNode]
    by_cases same : n = nodeId <;> simp [same, added]
  have predsSame : ∀ n, (g.setNode nodeId node).preds n = g.preds n := by
    intro n
    exact Finset.filter_congr fun m _ => edges m n
  constructor
  · exact built.width
  · intro n member
    rcases (members n).mp member with rfl | member
    · exact inside
    · exact built.inside n member
  · intro m n edge
    exact (members m).mpr (Or.inr (built.source ((edges m n).mp edge)))
  · intro m n edge
    exact (members n).mpr (Or.inr (built.target ((edges m n).mp edge)))
  · intro n edge
    exact built.irreflexive n ((edges n n).mp edge)
  · intro n
    by_cases same : n = nodeId
    · simp [Graph.setNode, same, alone]
    · simpa [Graph.setNode, same] using built.once n
  · intro n
    change ((g.setNode nodeId node).nodes n).inDegree = ((g.setNode nodeId node).preds n).card
    rw [predsSame]
    by_cases same : n = nodeId
    · subst same
      have none : g.preds n = ∅ := by
        refine Finset.eq_empty_of_forall_notMem fun m member => ?_
        simp [built.target (built.mem_preds.mp member)] at absent
      simp [Graph.setNode, none, degree]
    · simpa [Graph.setNode, same] using built.degree n
  · have grown : (g.setNode nodeId node).addedNodes = insert nodeId g.addedNodes := by
      ext n
      simp only [Graph.addedNodes, Finset.mem_filter, Finset.mem_range, Finset.mem_insert]
      rw [members]
      constructor
      · rintro ⟨bound, rfl | member⟩
        · exact Or.inl rfl
        · exact Or.inr ⟨bound, member⟩
      · rintro (rfl | ⟨bound, member⟩)
        · exact ⟨inside, Or.inl rfl⟩
        · exact ⟨bound, Or.inr member⟩
    have fresh : nodeId ∉ g.addedNodes := by simp [built.mem_addedNodes, absent]
    change g.addedCount + 1 = (g.setNode nodeId node).addedNodes.card
    rw [grown, Finset.card_insert_of_notMem fresh, built.counted]

/-- The graph with the edge source → target appended. -/
def Graph.withEdge (g : Graph) (source target : NodeId) (cap : Nat) : Graph :=
  let f := g.nodes source
  let g := g.setNode source { f with succs := f.succs ++ [target], succsCap := cap }
  let t := g.nodes target
  g.setNode target { t with inDegree := t.inDegree + 1 }

section withEdge

variable {g : Graph} {source target : NodeId} {cap : Nat}

private theorem isAdded_withEdge (n : NodeId) :
    (g.withEdge source target cap).isAdded n = g.isAdded n := by
  unfold Graph.withEdge
  by_cases atTarget : n = target <;> by_cases atSource : n = source <;>
    simp [Graph.isAdded, Graph.setNode, Function.update_apply, atTarget, atSource]
  all_goals split <;> simp_all

private theorem succs_withEdge (n : NodeId) :
    ((g.withEdge source target cap).nodes n).succs =
      if n = source then (g.nodes n).succs ++ [target] else (g.nodes n).succs := by
  unfold Graph.withEdge
  by_cases atSource : n = source
  · subst atSource
    by_cases atTarget : n = target <;> simp [Graph.setNode, Function.update_apply, atTarget]
  · by_cases atTarget : n = target
    · subst atTarget
      simp [Graph.setNode, atSource]
    · simp [Graph.setNode, atSource, atTarget]

private theorem inDegree_withEdge (n : NodeId) :
    ((g.withEdge source target cap).nodes n).inDegree =
      if n = target then (g.nodes n).inDegree + 1 else (g.nodes n).inDegree := by
  unfold Graph.withEdge
  by_cases atTarget : n = target
  · subst atTarget
    by_cases atSource : n = source <;> simp [Graph.setNode, atSource]
  · by_cases atSource : n = source
    · subst atSource
      simp [Graph.setNode, Function.update_apply, atTarget]
    · simp [Graph.setNode, atSource, atTarget]

private theorem edge_withEdge (m n : NodeId) :
    (g.withEdge source target cap).Edge m n ↔ g.Edge m n ∨ (m = source ∧ n = target) := by
  unfold Graph.Edge
  rw [succs_withEdge]
  by_cases atSource : m = source <;> simp [atSource]

theorem Built.withEdge (built : Built g) (sourceAdded : g.isAdded source = true)
    (targetAdded : g.isAdded target = true) (distinct : source ≠ target)
    (fresh : ¬ g.Edge source target) : Built (g.withEdge source target cap) := by
  constructor
  · exact built.width
  · intro n member
    exact built.inside n (by rwa [isAdded_withEdge] at member)
  · intro m n edge
    rw [isAdded_withEdge]
    rcases (edge_withEdge m n).mp edge with edge | ⟨rfl, rfl⟩
    · exact built.source edge
    · exact sourceAdded
  · intro m n edge
    rw [isAdded_withEdge]
    rcases (edge_withEdge m n).mp edge with edge | ⟨rfl, rfl⟩
    · exact built.target edge
    · exact targetAdded
  · intro n edge
    rcases (edge_withEdge n n).mp edge with edge | ⟨first, second⟩
    · exact built.irreflexive n edge
    · exact distinct (first.symm.trans second)
  · intro n
    rw [succs_withEdge]
    split
    · rename_i atSource
      subst atSource
      exact List.Nodup.append (built.once n) (by simp) (by simpa [Graph.Edge] using fresh)
    · exact built.once n
  · intro n
    rw [inDegree_withEdge]
    by_cases atTarget : n = target
    · subst atTarget
      have grown : (g.withEdge source n cap).preds n = insert source (g.preds n) := by
        ext m
        change m ∈ (Finset.range g.nodeCapacity).filter _ ↔ _
        simp only [Graph.preds, Finset.mem_filter, Finset.mem_range, Finset.mem_insert,
          edge_withEdge, and_true]
        constructor
        · rintro ⟨bound, edge | rfl⟩
          · exact Or.inr ⟨bound, edge⟩
          · exact Or.inl rfl
        · rintro (rfl | ⟨bound, edge⟩)
          · exact ⟨built.inside m sourceAdded, Or.inr rfl⟩
          · exact ⟨bound, Or.inl edge⟩
      have absent : source ∉ g.preds n := by simpa [built.mem_preds] using fresh
      rw [grown, Finset.card_insert_of_notMem absent, if_pos rfl, built.degree]
    · have same : (g.withEdge source target cap).preds n = g.preds n := by
        refine Finset.filter_congr fun m _ => ?_
        simp [edge_withEdge, atTarget]
      rw [same, if_neg atTarget, built.degree]
  · have same : (g.withEdge source target cap).addedNodes = g.addedNodes := by
      refine Finset.filter_congr fun m _ => ?_
      rw [isAdded_withEdge]
    change g.addedCount = _
    rw [same, built.counted]

end withEdge

theorem built_addNode {g : Graph} (built : Built g) (nodeId : NodeId) (fn : Option Nat)
    (userData priority : Nat) (callocOk : Bool) :
    Built (loomDagAddNode g nodeId fn userData priority callocOk).1 := by
  unfold loomDagAddNode
  simp only
  split_ifs with noFn outside frozen noMemory duplicate
  any_goals exact built
  · exact built.allocate
  · refine built.allocate.addNode (by simpa using outside) (by simpa using duplicate) ?_ rfl rfl
    cases fn <;> simp_all

private theorem built_ite {x y : Graph × LoomResult} {c : Prop} [Decidable c]
    (yes : c → Built x.1) (no : ¬c → Built y.1) : Built (if c then x else y).1 := by
  split
  · exact yes ‹_›
  · exact no ‹_›

theorem built_addEdge {g : Graph} (built : Built g) (source target : NodeId)
    (callocOk reallocOk : Bool) : Built (loomDagAddEdge g source target callocOk reallocOk).1 := by
  have known := built.allocate
  unfold loomDagAddEdge
  refine built_ite (fun _ => built) fun _ => built_ite (fun _ => built) fun _ =>
    built_ite (fun _ => built) fun _ => built_ite (fun _ => known) fun unknown =>
    built_ite (fun _ => known) fun selfEdge => built_ite (fun _ => known) fun duplicate =>
    built_ite (fun _ => known) fun _ => ?_
  simp only [not_or, Bool.not_eq_false] at unknown
  exact known.withEdge unknown.1 unknown.2 selfEdge duplicate

/-- Every sequence of build calls, with valid or invalid arguments and any
allocation failures, leaves a well-formed graph. -/
theorem built_build (nodeCapacity : UInt32) (ops : List BuildOp) : Built (build nodeCapacity ops) := by
  have run : ∀ g, Built g → Built (ops.foldl (fun g op => (applyOp g op).1) g) := by
    induction ops with
    | nil => exact fun g built => built
    | cons op rest ih =>
      intro g built
      refine ih _ ?_
      cases op with
      | addNode nodeId fn userData priority callocOk => exact built_addNode built ..
      | addEdge source target callocOk reallocOk => exact built_addEdge built ..
  exact run _ (built_create nodeCapacity)

/-- A result that is an error comes with the graph as it was, but for the allocation. -/
def Refuses (g : Graph) (x : Graph × LoomResult) : Prop :=
  x.2 ≠ .ok → x.1 = { g with allocated := x.1.allocated }

theorem Refuses.ite {g : Graph} {x y : Graph × LoomResult} {c : Prop} [Decidable c]
    (yes : Refuses g x) (no : Refuses g y) : Refuses g (if c then x else y) := by
  split
  · exact yes
  · exact no

/-- A build call that returns an error may have allocated the empty node array. -/
theorem applyOp_error (g : Graph) (op : BuildOp) (error : (applyOp g op).2 ≠ .ok) :
    (applyOp g op).1 = { g with allocated := (applyOp g op).1.allocated } := by
  have refuses : Refuses g (applyOp g op) := by
    cases op with
    | addNode nodeId fn userData priority callocOk =>
      unfold applyOp loomDagAddNode
      repeat' apply Refuses.ite
      all_goals first | exact fun _ => rfl | exact fun error => absurd rfl error
    | addEdge source target callocOk reallocOk =>
      unfold applyOp loomDagAddEdge
      repeat' apply Refuses.ite
      all_goals first | exact fun _ => rfl | exact fun error => absurd rfl error
  exact refuses error

/-- What the build phase guarantees after every sequence of calls: the degrees match
the successor lists, no successor is listed twice or by itself, edges connect added
nodes, the count is right, and a call that fails changes none of it. -/
theorem build_invariant (nodeCapacity : UInt32) (ops : List BuildOp) :
    let g := build nodeCapacity ops
    (∀ n, (g.nodes n).inDegree = (g.preds n).card) ∧
      (∀ m n, m ∈ g.preds n ↔ n ∈ (g.nodes m).succs) ∧
      (∀ n, (g.nodes n).succs.Nodup ∧ n ∉ (g.nodes n).succs) ∧
      (∀ m n, n ∈ (g.nodes m).succs → g.isAdded m = true ∧ g.isAdded n = true) ∧
      g.addedCount = g.addedNodes.card ∧ (∀ n, n ∈ g.addedNodes ↔ g.isAdded n = true) ∧
      ∀ op, (applyOp g op).2 ≠ .ok →
        (applyOp g op).1.nodes = g.nodes ∧ (applyOp g op).1.addedCount = g.addedCount := by
  intro g
  have built : Built g := built_build nodeCapacity ops
  refine ⟨built.degree, fun m n => built.mem_preds, ?_, ?_, built.counted, ?_, ?_⟩
  · exact fun n => ⟨built.once n, built.irreflexive n⟩
  · exact fun m n edge => ⟨built.source edge, built.target edge⟩
  · exact fun n => built.mem_addedNodes
  · intro op error
    rw [applyOp_error g op error]
    exact ⟨rfl, rfl⟩

end Loomworks.Dag

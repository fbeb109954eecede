import Loomworks.DagBuild

/- The cycle check of loom_dag_submit: Kahn's algorithm over a private copy of
the in-degrees. -/
namespace Loomworks.Dag

/-- queue holds queue[0..qt), so qt is its length. -/
structure Kahn where
  indeg : NodeId → Nat
  queue : List NodeId
  qh : Nat := 0
  bounded : Bool := true

/-- Decrement of a uint32_t. -/
def decr32 (x : Nat) : Nat := (x + (2 ^ 32 - 1)) % 2 ^ 32

def Graph.added (g : Graph) : Nat := g.addedNodes.card

def Graph.isRoot (g : Graph) (n : NodeId) : Bool := g.isAdded n && (g.nodes n).inDegree == 0

def kahnInit (g : Graph) : Kahn where
  indeg n := if g.isAdded n then (g.nodes n).inDegree else 0
  queue := (List.range g.nodeCapacity).filter g.isRoot

/-- The inner loop over the successors still to visit. -/
def kahnSuccs (added : Nat) : List NodeId → Kahn → Kahn
  | [], k => k
  | sid :: rest, k =>
    let left := decr32 (k.indeg sid)
    let k := { k with indeg := Function.update k.indeg sid left }
    if left ≠ 0 then kahnSuccs added rest k
    else if added ≤ k.queue.length then { k with bounded := false }
    else kahnSuccs added rest { k with queue := k.queue ++ [sid] }

def kahnRound (g : Graph) (k : Kahn) : Kahn :=
  match k.queue[k.qh]? with
  | none => k
  | some id => kahnSuccs g.added (g.nodes id).succs { k with qh := k.qh + 1 }

/-- The while loop; each round takes an id from the queue, which holds at most
added of them. -/
def kahnLoop (g : Graph) : Nat → Kahn → Kahn
  | 0, k => k
  | fuel + 1, k =>
    if k.qh < k.queue.length ∧ k.bounded = true then kahnLoop g fuel (kahnRound g k) else k

def hasCycle (g : Graph) : Bool :=
  let k := kahnLoop g g.added (kahnInit g)
  !k.bounded || k.queue.length != g.added

/-- The edges of a finite acyclic graph are well founded. -/
theorem Graph.Acyclic.wellFounded {g : Graph} (acyclic : g.Acyclic) (built : Built g) :
    WellFounded g.Edge := by
  let inner : Fin g.nodeCapacity → Fin g.nodeCapacity → Prop :=
    fun m n => Relation.TransGen g.Edge m n
  have trans : IsTrans _ inner := ⟨fun _ _ _ first second => first.trans second⟩
  have irrefl : Std.Irrefl inner := ⟨fun n loop => acyclic n loop⟩
  have finite : WellFounded inner := Finite.wellFounded_of_trans_of_irrefl inner
  have inside : ∀ n : Fin g.nodeCapacity, Acc g.Edge n := by
    intro n
    induction n using finite.induction with
    | _ n ih =>
      refine Acc.intro _ fun m edge => ?_
      have bound := built.inside m (built.source edge)
      exact ih ⟨m, bound⟩ (Relation.TransGen.single edge)
  refine ⟨fun n => Acc.intro _ fun m edge => ?_⟩
  exact inside ⟨m, built.inside m (built.source edge)⟩

theorem decr32_succ {x : Nat} (positive : 0 < x) (fits : x < 2 ^ 32) : decr32 x = x - 1 := by
  unfold decr32
  omega

/-- The queue lists, once each, the added ids whose copy is 0. -/
structure QueueExact (g : Graph) (k : Kahn) : Prop where
  once : k.queue.Nodup
  members : ∀ n ∈ k.queue, g.isAdded n = true
  zero : ∀ n, g.isAdded n = true → (n ∈ k.queue ↔ k.indeg n = 0)
  bounded : k.bounded = true

/-- Between two rounds an id's copy counts its predecessors not yet taken from
the queue. -/
structure KahnInvariant (g : Graph) (k : Kahn) : Prop extends QueueExact g k where
  remaining : ∀ n, g.isAdded n = true →
    k.indeg n = (g.preds n \ (k.queue.take k.qh).toFinset).card
  head : k.qh ≤ k.queue.length

theorem kahnInvariant_init {g : Graph} (built : Built g) : KahnInvariant g (kahnInit g) := by
  have copy : ∀ n, g.isAdded n = true → (kahnInit g).indeg n = (g.nodes n).inDegree := by
    intro n added
    simp [kahnInit, added]
  refine ⟨⟨List.nodup_range.filter _, ?_, ?_, rfl⟩, ?_, by simp [kahnInit]⟩
  · intro n member
    simp only [kahnInit, List.mem_filter, Graph.isRoot, Bool.and_eq_true] at member
    exact member.2.1
  · intro n added
    have bound := built.inside n added
    rw [copy n added]
    simp [kahnInit, Graph.isRoot, added, bound]
  · intro n added
    rw [copy n added, built.degree]
    simp [kahnInit]

theorem QueueExact.length_le {g : Graph} {k : Kahn} (valid : QueueExact g k) (built : Built g) :
    k.queue.length ≤ g.added := by
  rw [← List.toFinset_card_of_nodup valid.once]
  refine Finset.card_le_card fun n member => ?_
  exact built.mem_addedNodes.mpr (valid.members n (List.mem_toFinset.mp member))

/-- An id whose copy just reached 0 still finds room. -/
theorem QueueExact.push {g : Graph} {k : Kahn} (valid : QueueExact g k) (built : Built g)
    {sid : NodeId} (added : g.isAdded sid = true) (last : k.indeg sid = 1) :
    k.queue.length < g.added ∧
      QueueExact g { k with
        indeg := Function.update k.indeg sid 0, queue := k.queue ++ [sid] } := by
  have fresh : sid ∉ k.queue := by
    intro member
    have none := (valid.zero sid added).mp member
    omega
  have grown : QueueExact g { k with
      indeg := Function.update k.indeg sid 0, queue := k.queue ++ [sid] } := by
    refine ⟨List.Nodup.append valid.once (by simp) (by simpa using fresh), ?_, ?_, valid.bounded⟩
    · intro n member
      rcases List.mem_append.mp member with member | member
      · exact valid.members n member
      · rwa [List.mem_singleton.mp member]
    · intro n nAdded
      by_cases same : n = sid
      · simp [same]
      · simp [same, valid.zero n nAdded]
  have bound := grown.length_le built
  rw [List.length_append, List.length_singleton] at bound
  exact ⟨bound, grown⟩

theorem QueueExact.decrement {g : Graph} {k : Kahn} (valid : QueueExact g k) {sid : NodeId}
    (added : g.isAdded sid = true) (more : 1 < k.indeg sid) :
    QueueExact g { k with indeg := Function.update k.indeg sid (k.indeg sid - 1) } := by
  refine ⟨valid.once, valid.members, ?_, valid.bounded⟩
  intro n nAdded
  by_cases same : n = sid
  · subst same
    have unqueued := mt (valid.zero n added).mp (by omega)
    simp only [unqueued, Function.update_self, false_iff]
    omega
  · simp [same, valid.zero n nAdded]

/-- One pass over the successors of an id decrements each of their copies once
and queues those that reach 0. -/
theorem kahnSuccs_spec {g : Graph} (built : Built g) {rest : List NodeId} {k : Kahn}
    (distinct : rest.Nodup)
    (targets : ∀ n ∈ rest, g.isAdded n = true ∧ 0 < k.indeg n ∧ k.indeg n < 2 ^ 32)
    (valid : QueueExact g k) :
    let after := kahnSuccs g.added rest k
    QueueExact g after ∧ after.qh = k.qh ∧ k.queue <+: after.queue ∧
      ∀ n, after.indeg n = if n ∈ rest then k.indeg n - 1 else k.indeg n := by
  induction rest generalizing k with
  | nil => exact ⟨valid, rfl, List.prefix_refl _, by simp [kahnSuccs]⟩
  | cons sid rest ih =>
    obtain ⟨sidAdded, sidPos, sidSmall⟩ := targets sid (by simp)
    obtain ⟨sidFresh, distinct⟩ := List.nodup_cons.mp distinct
    let lowered := Function.update k.indeg sid (k.indeg sid - 1)
    have other : ∀ n, n ≠ sid → lowered n = k.indeg n :=
      fun n ne => Function.update_of_ne ne _ _
    have tailTargets : ∀ n ∈ rest,
        g.isAdded n = true ∧ 0 < lowered n ∧ lowered n < 2 ^ 32 := by
      intro n member
      rw [other n fun same => sidFresh (same ▸ member)]
      exact targets n (by simp [member])
    have total : ∀ n, (if n ∈ rest then lowered n - 1 else lowered n) =
        if n ∈ sid :: rest then k.indeg n - 1 else k.indeg n := by
      intro n
      by_cases same : n = sid
      · subst same
        simp [sidFresh, lowered]
      · simp [other n same, same]
    simp only [kahnSuccs, decr32_succ sidPos sidSmall]
    by_cases done : k.indeg sid - 1 = 0
    · obtain ⟨room, pushed⟩ := valid.push built sidAdded (by omega)
      rw [if_neg (not_not.mpr done), if_neg (by omega)]
      rw [← done] at pushed
      obtain ⟨final, same, grown, counts⟩ := ih
        (k := { k with indeg := lowered, queue := k.queue ++ [sid] })
        distinct tailTargets pushed
      refine ⟨final, same, (List.prefix_append _ _).trans grown, ?_⟩
      intro n
      rw [← total]
      exact counts n
    · rw [if_pos done]
      obtain ⟨final, same, grown, counts⟩ := ih (k := { k with indeg := lowered })
        distinct tailTargets (valid.decrement sidAdded (by omega))
      refine ⟨final, same, grown, ?_⟩
      intro n
      rw [← total]
      exact counts n

/-- The id at the head of the queue was not taken before. -/
theorem KahnInvariant.untaken {g : Graph} {k : Kahn} (inv : KahnInvariant g k) {id : NodeId}
    (here : k.queue[k.qh]? = some id) : id ∉ (k.queue.take k.qh).toFinset := by
  have distinct := inv.once.sublist (List.take_sublist (k.qh + 1) k.queue)
  rw [List.take_add_one, here] at distinct
  have apart := (List.nodup_append.mp distinct).2.2
  intro member
  exact apart id (List.mem_toFinset.mp member) id (by simp) rfl

theorem KahnInvariant.targets {g : Graph} {k : Kahn} (inv : KahnInvariant g k) (built : Built g)
    {id : NodeId} (here : k.queue[k.qh]? = some id) {n : NodeId} (edge : n ∈ (g.nodes id).succs) :
    g.isAdded n = true ∧ 0 < k.indeg n ∧ k.indeg n < 2 ^ 32 := by
  have added := built.target (m := id) edge
  rw [inv.remaining n added]
  refine ⟨added, ?_, ?_⟩
  · exact Finset.card_pos.mpr
      ⟨id, Finset.mem_sdiff.mpr ⟨built.mem_preds.mpr edge, inv.untaken here⟩⟩
  · calc (g.preds n \ (k.queue.take k.qh).toFinset).card
        ≤ (g.preds n).card := Finset.card_le_card Finset.sdiff_subset
      _ ≤ (Finset.range g.nodeCapacity).card := Finset.card_le_card (Finset.filter_subset _ _)
      _ = g.nodeCapacity := Finset.card_range _
      _ < 2 ^ 32 := built.width

theorem KahnInvariant.round {g : Graph} {k : Kahn} (inv : KahnInvariant g k) (built : Built g)
    (more : k.qh < k.queue.length) :
    KahnInvariant g (kahnRound g k) ∧ (kahnRound g k).qh = k.qh + 1 ∧
      k.queue <+: (kahnRound g k).queue := by
  let id := k.queue[k.qh]
  have here : k.queue[k.qh]? = some id := List.getElem?_eq_getElem more
  have taken : (k.queue.take (k.qh + 1)).toFinset = insert id (k.queue.take k.qh).toFinset := by
    rw [List.take_add_one, here]
    ext n
    simp [or_comm]
  have untaken := inv.untaken here
  have targets := fun n edge => inv.targets built here (n := n) edge
  obtain ⟨final, same, grown, counts⟩ := kahnSuccs_spec built
    (k := { k with qh := k.qh + 1 }) (built.once id) targets
    ⟨inv.once, inv.members, inv.zero, inv.bounded⟩
  have round : kahnRound g k =
      kahnSuccs g.added (g.nodes id).succs { k with qh := k.qh + 1 } := by
    simp only [kahnRound, here]
  rw [← round] at final same grown counts
  refine ⟨⟨final, ?_, ?_⟩, same, grown⟩
  · intro n added
    have front : (kahnRound g k).queue.take (k.qh + 1) = k.queue.take (k.qh + 1) := by
      obtain ⟨pushed, whole⟩ := grown
      rw [← whole]
      exact List.take_append_of_le_length more
    rw [counts n, same, front, taken, Finset.sdiff_insert]
    by_cases edge : n ∈ (g.nodes id).succs
    · rw [if_pos edge, Finset.card_erase_of_mem
        (Finset.mem_sdiff.mpr ⟨built.mem_preds.mpr edge, untaken⟩), ← inv.remaining n added]
    · have outside : id ∉ g.preds n \ (k.queue.take k.qh).toFinset := by
        intro member
        exact edge (built.mem_preds.mp (Finset.mem_sdiff.mp member).1)
      rw [if_neg edge, Finset.erase_eq_of_notMem outside, ← inv.remaining n added]
  · have length : k.queue.length ≤ (kahnRound g k).queue.length := grown.length_le
    change (kahnRound g k).qh = k.qh + 1 at same
    omega

/-- With a round for each added id the loop ends because the queue is used up. -/
theorem kahnLoop_spec {g : Graph} (built : Built g) (fuel : Nat) {k : Kahn}
    (inv : KahnInvariant g k) (enough : g.added ≤ k.qh + fuel) :
    KahnInvariant g (kahnLoop g fuel k) ∧
      (kahnLoop g fuel k).qh = (kahnLoop g fuel k).queue.length := by
  induction fuel generalizing k with
  | zero =>
    have length := inv.length_le built
    have head := inv.head
    exact ⟨inv, by simp only [kahnLoop]; omega⟩
  | succ fuel ih =>
    unfold kahnLoop
    split
    · rename_i more
      obtain ⟨next, advanced, -⟩ := inv.round built more.1
      exact ih next (by omega)
    · rename_i done
      have head := inv.head
      have spent : ¬ k.qh < k.queue.length := fun more => done ⟨more, inv.bounded⟩
      exact ⟨inv, by omega⟩

/-- The cycle check accepts every acyclic graph. -/
theorem hasCycle_of_acyclic {g : Graph} (built : Built g) (acyclic : g.Acyclic) :
    hasCycle g = false := by
  obtain ⟨inv, used⟩ := kahnLoop_spec built g.added (kahnInvariant_init built) (by omega)
  let k := kahnLoop g g.added (kahnInit g)
  have everyone : ∀ n, g.isAdded n = true → n ∈ k.queue := by
    intro n
    induction n using (acyclic.wellFounded built).induction with
    | _ n ih =>
      intro added
      have none : g.preds n \ (k.queue.take k.qh).toFinset = ∅ := by
        refine Finset.sdiff_eq_empty_iff_subset.mpr fun m member => ?_
        have edge := built.mem_preds.mp member
        rw [used, List.take_length, List.mem_toFinset]
        exact ih m edge (built.source edge)
      rw [inv.zero n added, inv.remaining n added, none, Finset.card_empty]
  have full : g.added ≤ k.queue.length := by
    rw [← List.toFinset_card_of_nodup inv.once]
    refine Finset.card_le_card fun n member => ?_
    exact List.mem_toFinset.mpr (everyone n (built.mem_addedNodes.mp member))
  have length : k.queue.length = g.added := Nat.le_antisymm (inv.length_le built) full
  have bounded : k.bounded = true := inv.bounded
  change (!k.bounded || k.queue.length != g.added) = false
  simp [bounded, length]

/-- Along the queue every id stands behind its predecessors. -/
def Sorted (g : Graph) (k : Kahn) : Prop :=
  ∀ i n, k.queue[i]? = some n → ∀ m, g.Edge m n → m ∈ k.queue.take i

theorem Sorted.round {g : Graph} {k : Kahn} (sorted : Sorted g k) (inv : KahnInvariant g k)
    (built : Built g) (more : k.qh < k.queue.length) : Sorted g (kahnRound g k) := by
  obtain ⟨next, advanced, pushed, whole⟩ := inv.round built more
  intro i n here m edge
  by_cases old : i < k.queue.length
  · rw [← whole] at here ⊢
    rw [List.getElem?_append_left old] at here
    rw [List.take_append_of_le_length (by omega)]
    exact sorted i n here m edge
  · -- queued in this round: what its copy counted has been taken
    have member := List.mem_of_getElem? here
    have added := next.members n member
    have none := (next.zero n added).mp member
    rw [next.remaining n added, Finset.card_eq_zero, Finset.sdiff_eq_empty_iff_subset] at none
    have taken := none (built.mem_preds.mpr edge)
    rw [List.mem_toFinset, advanced] at taken
    exact (List.take_subset_take_left _ (by omega)) taken

theorem kahnLoop_invariant {g : Graph} (built : Built g) (fuel : Nat) {k : Kahn}
    (inv : KahnInvariant g k) (sorted : Sorted g k) :
    KahnInvariant g (kahnLoop g fuel k) ∧ Sorted g (kahnLoop g fuel k) := by
  induction fuel generalizing k with
  | zero => exact ⟨inv, sorted⟩
  | succ fuel ih =>
    unfold kahnLoop
    split
    · rename_i more
      exact ih (inv.round built more.1).1 (sorted.round inv built more.1)
    · exact ⟨inv, sorted⟩

theorem sorted_init {g : Graph} (built : Built g) : Sorted g (kahnInit g) := by
  intro i n here m edge
  have member := List.mem_of_getElem? here
  simp only [kahnInit, List.mem_filter, Graph.isRoot, Bool.and_eq_true, beq_iff_eq] at member
  have positive := built.inDegree_pos edge
  omega

theorem Sorted.path {g : Graph} {k : Kahn} (sorted : Sorted g k) {m n : NodeId}
    (path : Relation.TransGen g.Edge m n) {i : Nat} (here : k.queue[i]? = some n) :
    ∃ j < i, k.queue[j]? = some m := by
  have back : ∀ {m n : NodeId} {i : Nat}, g.Edge m n → k.queue[i]? = some n → ∃ j < i, k.queue[j]? = some m := by
    intro m n i edge here
    obtain ⟨j, at_⟩ := List.mem_iff_getElem?.mp (sorted i n here m edge)
    rw [List.getElem?_take] at at_
    split at at_
    · exact ⟨j, by assumption, at_⟩
    · cases at_
  induction path generalizing i with
  | single edge => exact back edge here
  | tail _ edge ih =>
    obtain ⟨j, below, there⟩ := back edge here
    obtain ⟨j', lower, first⟩ := ih there
    exact ⟨j', by omega, first⟩

/-- A graph that passes the check has no cycle. -/
theorem acyclic_of_hasCycle {g : Graph} (built : Built g) (passed : hasCycle g = false) :
    g.Acyclic := by
  obtain ⟨inv, sorted⟩ :=
    kahnLoop_invariant built g.added (kahnInvariant_init built) (sorted_init built)
  let k := kahnLoop g g.added (kahnInit g)
  have full : k.queue.length = g.added := by
    simp only [hasCycle, Bool.or_eq_false_iff, bne_eq_false_iff_eq] at passed
    exact passed.2
  have everyone : k.queue.toFinset = g.addedNodes := by
    refine Finset.eq_of_subset_of_card_le (fun n member => ?_) ?_
    · exact built.mem_addedNodes.mpr (inv.members n (List.mem_toFinset.mp member))
    · rw [List.toFinset_card_of_nodup inv.once]
      exact full.ge
  intro n loop
  have added : g.isAdded n = true := by
    obtain ⟨m, -, edge⟩ := Relation.TransGen.tail'_iff.mp loop
    exact built.target edge
  have queued : n ∈ k.queue := by
    rw [← List.mem_toFinset, everyone]
    exact built.mem_addedNodes.mpr added
  obtain ⟨i, here⟩ := List.mem_iff_getElem?.mp queued
  obtain ⟨j, below, there⟩ := sorted.path loop here
  obtain ⟨insideJ, first⟩ := List.getElem?_eq_some_iff.mp there
  obtain ⟨insideI, second⟩ := List.getElem?_eq_some_iff.mp here
  have same := inv.once.getElem_inj_iff.mp (first.trans second.symm)
  omega

/-- No copy is decremented below 0: when the inner loop comes to a successor, its
copy is positive. -/
theorem KahnInvariant.decrements {g : Graph} {k : Kahn} (inv : KahnInvariant g k) (built : Built g)
    {id sid : NodeId} {done rest : List NodeId} (here : k.queue[k.qh]? = some id)
    (shape : (g.nodes id).succs = done ++ sid :: rest) :
    0 < (kahnSuccs g.added done { k with qh := k.qh + 1 }).indeg sid := by
  have distinct := built.once id
  rw [shape, List.nodup_append] at distinct
  have visited : ∀ n ∈ done, n ∈ (g.nodes id).succs := by simp +contextual [shape]
  obtain ⟨-, -, -, counts⟩ := kahnSuccs_spec built (k := { k with qh := k.qh + 1 }) distinct.1
    (fun n member => inv.targets built here (visited n member))
    ⟨inv.once, inv.members, inv.zero, inv.bounded⟩
  have fresh : sid ∉ done := fun member => distinct.2.2 sid member sid (by simp) rfl
  rw [counts, if_neg fresh]
  exact (inv.targets built here (by simp [shape])).2.1

/-- Over every graph that build calls can make: the check reports a cycle exactly
when there is one, it is over after at most as many rounds as there are nodes, no id
is queued twice, the queue never outgrows the nodes, and no copy goes below 0. -/
theorem cycle_detection_exact (nodeCapacity : UInt32) (ops : List BuildOp) :
    let g := build nodeCapacity ops
    (hasCycle g = true ↔ ∃ n, Relation.TransGen g.Edge n n) ∧
      (kahnLoop g g.added (kahnInit g)).qh = (kahnLoop g g.added (kahnInit g)).queue.length ∧
      ∀ rounds, let k := kahnLoop g rounds (kahnInit g)
        k.queue.Nodup ∧ k.queue.length ≤ g.addedCount ∧ k.bounded = true ∧
          ∀ id done sid rest, k.queue[k.qh]? = some id → (g.nodes id).succs = done ++ sid :: rest →
            0 < (kahnSuccs g.added done { k with qh := k.qh + 1 }).indeg sid := by
  intro g
  have built : Built g := built_build nodeCapacity ops
  refine ⟨?_, ?_, ?_⟩
  · constructor
    · intro found
      by_contra none
      have acyclic : g.Acyclic := fun n loop => none ⟨n, loop⟩
      rw [hasCycle_of_acyclic built acyclic] at found
      cases found
    · rintro ⟨n, loop⟩
      by_contra missed
      exact acyclic_of_hasCycle built (by simpa using missed) n loop
  · exact (kahnLoop_spec built g.added (kahnInvariant_init built) (by omega)).2
  · intro rounds k
    obtain ⟨inv, -⟩ :=
      kahnLoop_invariant built rounds (kahnInvariant_init built) (sorted_init built)
    have length := inv.length_le built
    refine ⟨inv.once, ?_, inv.bounded, ?_⟩
    · rw [built.counted]
      exact length
    · intro id done sid rest here shape
      exact inv.decrements built here shape

end Loomworks.Dag

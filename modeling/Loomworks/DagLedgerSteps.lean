import Loomworks.DagLedger

/- Every step of the engine keeps the books. -/
namespace Loomworks.Dag

open Tally

section Advance

variable {g : Graph} {e e' : Engine} {k started : Nat} {r r' : Runner} {m : NodeId}

private theorem tally_advance (weight : Runner → Nat) (here : e.runners[k]? = some r)
    (runners : e'.runners = (e.runners ++ List.replicate started (Runner.mk m .queued)).set k r') :
    tally weight e'.runners + weight r =
      tally weight e.runners + started * weight (Runner.mk m .queued) + weight r' := by
  have inside : (e.runners ++ List.replicate started (Runner.mk m .queued))[k]? = some r := by
    rw [List.getElem?_append_left (List.getElem?_eq_some_iff.mp here).1, here]
  rw [runners, tally_set weight r' inside, tally_append, tally_replicate]

private theorem reached_advance (here : e.runners[k]? = some r)
    (runners : e'.runners = (e.runners ++ List.replicate started (Runner.mk m .queued)).set k r')
    (n : NodeId) :
    reached g n e'.runners + (if r.Reached g n then 1 else 0) =
      reached g n e.runners + (if r'.Reached g n then 1 else 0) := by
  have moved := tally_advance (fun r => if r.Reached g n then 1 else 0) here runners
  have fresh : ¬ Runner.Reached g n (Runner.mk m .queued) := by simp [Runner.Reached, RunnerPc.progress]
  rw [if_neg fresh] at moved
  unfold reached
  omega

/-- A step of runner k that counts no successor down. -/
theorem Ledger.advance (started : Nat) (m : NodeId) (r' : Runner) (ledger : Ledger g e) (here : e.runners[k]? = some r)
    (submitter : e'.submitter = e.submitter)
    (runners : e'.runners = (e.runners ++ List.replicate started (Runner.mk m .queued)).set k r')
    (node : r'.node = r.node) (progress : r'.pc.progress = r.pc.progress)
    (pendings : ∀ n, (e'.run n).pendingPreds = (e.run n).pendingPreds)
    (released : ∀ n, r'.pendingOn g n + (if m = n then started else 0) +
      tally (Event.refusedOn n) e'.log = r.pendingOn g n + tally (Event.refusedOn n) e.log)
    (flight : e'.inFlight + (r.active + r.releaseWeight ReleasePc.inFlight : Nat) =
      e.inFlight + (r'.active + r'.releaseWeight ReleasePc.inFlight + started : Nat))
    (total : e'.releasedTotal + r'.releaseWeight ReleasePc.unrecorded +
      tally Event.isRefused e.log = e.releasedTotal + r.releaseWeight ReleasePc.unrecorded +
        started + tally Event.isRefused e'.log) : Ledger g e' := by
  have member : r ∈ e.runners := List.mem_of_getElem? here
  have counted : ∀ n, reached g n e'.runners = reached g n e.runners := by
    intro n
    have moved := reached_advance (g := g) here runners n
    have same : r'.Reached g n ↔ r.Reached g n := by simp [Runner.Reached, node, progress]
    rw [if_congr same rfl rfl] at moved
    omega
  constructor
  · intro unseeded
    rw [submitter] at unseeded
    rw [ledger.unseeded unseeded] at member
    simp at member
  · intro seeded n added
    rw [submitter] at seeded
    rw [pendings, counted]
    exact ledger.countdown seeded n added
  · intro n
    rw [attempted_congr (e := e) (by simp [submitter]) (counted n), ← ledger.released n, submitter]
    have movedPending := tally_advance (Runner.pendingOn g n) here runners
    have movedNode := tally_advance (Runner.ofNode n) here runners
    have freshPending : Runner.pendingOn g n (Runner.mk m .queued) = 0 := by
      simp [Runner.pendingOn, Runner.target]
    have freshNode : started * Runner.ofNode n (Runner.mk m .queued) = if m = n then started else 0 := by
      by_cases same : m = n <;> simp [Runner.ofNode, same]
    have sameNode : Runner.ofNode n r' = Runner.ofNode n r := by simp [Runner.ofNode, node]
    have balance := released n
    rw [freshPending] at movedPending
    omega
  · have movedActive := tally_advance Runner.active here runners
    have movedRelease := tally_advance (Runner.releaseWeight ReleasePc.inFlight) here runners
    have freshActive : Runner.active (Runner.mk m .queued) = 1 := rfl
    have freshRelease : Runner.releaseWeight ReleasePc.inFlight (Runner.mk m .queued) = 0 := rfl
    have books := ledger.flight
    rw [freshActive] at movedActive
    rw [freshRelease] at movedRelease
    rw [submitter]
    omega
  · have moved := tally_advance (Runner.releaseWeight ReleasePc.unrecorded) here runners
    have fresh : Runner.releaseWeight ReleasePc.unrecorded (Runner.mk m .queued) = 0 := rfl
    have length : e'.runners.length = e.runners.length + started := by simp [runners]
    have books := ledger.total
    rw [fresh] at moved
    rw [submitter, length]
    omega
  · intro x inside
    rw [runners] at inside
    rcases List.mem_or_eq_of_mem_set inside with old | new
    · rcases List.mem_append.mp old with old | fresh
      · exact ledger.indices x old
      · rw [List.eq_of_mem_replicate fresh]
        exact Nat.zero_le _
    · rw [new, node, progress]
      exact ledger.indices r member
  · rw [submitter]
    exact ledger.capacity
  · rw [submitter]
    exact ledger.root

/-- The runner neither releases a successor nor has finished. -/
def RunnerPc.quiet : RunnerPc → Bool
  | .releasing _ _ | .finished _ => false
  | _ => true

private theorem quiet_weights {x : Runner} (quiet : x.pc.quiet = true) :
    (∀ n, x.pendingOn g n = 0) ∧ (∀ w, x.releaseWeight w = 0) ∧ x.active = 1 := by
  obtain ⟨node, pc⟩ := x
  cases pc <;> simp_all [RunnerPc.quiet, Runner.pendingOn, Runner.target, Runner.releaseWeight,
    Runner.active]

/-- A step of runner k that only moves its control state and logs a user event. -/
theorem Ledger.quiet_step (ledger : Ledger g e) (here : e.runners[k]? = some r) {pc : RunnerPc}
    (runners : e'.runners = e.runners.set k { r with pc := pc })
    (submitter : e'.submitter = e.submitter)
    (log : ∀ n, tally (Event.refusedOn n) e'.log = tally (Event.refusedOn n) e.log)
    (refusals : tally Event.isRefused e'.log = tally Event.isRefused e.log)
    (inFlight : e'.inFlight = e.inFlight) (total : e'.releasedTotal = e.releasedTotal)
    (pendings : ∀ n, (e'.run n).pendingPreds = (e.run n).pendingPreds)
    (progress : pc.progress = r.pc.progress)
    (before : r.pc.quiet = true) (after : pc.quiet = true) : Ledger g e' := by
  obtain ⟨pendingBefore, releaseBefore, activeBefore⟩ := quiet_weights (g := g) before
  obtain ⟨pendingAfter, releaseAfter, activeAfter⟩ :=
    quiet_weights (g := g) (x := { r with pc := pc }) after
  refine ledger.advance 0 0 (Runner.mk r.node pc) here submitter
    (by simpa using runners) rfl progress pendings ?_ ?_ ?_
  · intro n
    rw [pendingBefore, pendingAfter, log]
    simp
  · rw [releaseBefore, releaseAfter, activeBefore, activeAfter, inFlight]
  · rw [releaseBefore, releaseAfter, total, refusals]

/-- The countdown of a successor: the runner that takes it to 0 begins its
release. -/
theorem Ledger.countdown_step (ledger : Ledger g e) (built : Built g)
    (here : e.runners[k]? = some r) {i : Nat} (pc : r.pc = .countdown i) {succ : NodeId}
    (edge : (g.nodes r.node).succs[i]? = some succ) (submitter : e'.submitter = e.submitter)
    (log : e'.log = e.log) (inFlight : e'.inFlight = e.inFlight)
    (total : e'.releasedTotal = e.releasedTotal)
    (pendings : ∀ n, (e'.run n).pendingPreds =
      (e.run n).pendingPreds - if n = succ then 1 else 0)
    (runners : e'.runners = e.runners.set k { r with
      pc := if (e.run succ).pendingPreds = 1 then .releasing i .start else .loop (i + 1) }) :
    Ledger g e' := by
  have member : r ∈ e.runners := List.mem_of_getElem? here
  have seeded : e.submitter.seeded = true := by
    by_contra unseeded
    rw [ledger.unseeded (by simpa using unseeded)] at member
    simp at member
  have isEdge : g.Edge r.node succ := List.mem_of_getElem? edge
  have added := built.target isEdge
  have degree := built.inDegree_pos isEdge
  let r' : Runner := { r with
    pc := if (e.run succ).pendingPreds = 1 then .releasing i .start else .loop (i + 1) }
  have progress : r'.pc.progress = i + 1 := by
    change RunnerPc.progress (if _ then _ else _) = i + 1
    split <;> rfl
  have padded : e'.runners =
      (e.runners ++ List.replicate 0 (Runner.mk 0 .queued)).set k r' := by simpa using runners
  have fresh : succ ∉ (g.nodes r.node).succs.take i := by
    have once := (built.once r.node).sublist (List.take_sublist (i + 1) _)
    rw [List.take_add_one, edge] at once
    intro early
    exact (List.nodup_append.mp once).2.2 succ early succ (by simp) rfl
  have counted : ∀ n, reached g n e'.runners =
      reached g n e.runners + if n = succ then 1 else 0 := by
    intro n
    have moved := reached_advance (g := g) here padded n
    have before : r.Reached g n ↔ n ∈ (g.nodes r.node).succs.take i := by
      simp [Runner.Reached, pc, RunnerPc.progress]
    have after : r'.Reached g n ↔ n ∈ (g.nodes r.node).succs.take i ∨ n = succ := by
      unfold Runner.Reached
      rw [progress, show r'.node = r.node from rfl, List.take_add_one, edge]
      simp
    rw [if_congr before rfl rfl, if_congr after rfl rfl] at moved
    by_cases same : n = succ
    · subst same
      simp only [fresh, if_false, false_or, if_true] at moved ⊢
      omega
    · simp only [same, or_false, if_false] at moved ⊢
      omega
  have distinct : (e'.runners.map Runner.node).Nodup := by
    have same : e'.runners.map Runner.node = e.runners.map Runner.node := by
      rw [runners, List.map_set]
      exact set_eq_self (by simp [here])
    rw [same]
    exact ledger.distinct
  have room := reached_le built distinct succ
  have live := ledger.countdown seeded succ added
  rw [counted succ, if_pos rfl] at room
  have weights : ∀ n, r'.pendingOn g n =
      if (e.run succ).pendingPreds = 1 ∧ n = succ then 1 else 0 := by
    intro n
    by_cases last : (e.run succ).pendingPreds = 1
    · by_cases same : n = succ
      · subst same
        simp [r', last, Runner.pendingOn, Runner.target, edge, Runner.releaseWeight,
          ReleasePc.pending]
      · simp [r', last, Runner.pendingOn, Runner.target, edge, same, Ne.symm same]
    · simp [r', last, Runner.pendingOn, Runner.target]
  have quiet := quiet_weights (g := g) (x := r) (by rw [pc]; rfl)
  have release : ∀ w, w ReleasePc.start = 0 → r'.releaseWeight w = 0 := by
    intro w zero
    by_cases last : (e.run succ).pendingPreds = 1
    · simp [r', Runner.releaseWeight, last, zero]
    · simp [r', Runner.releaseWeight, last]
  have active : r'.active = 1 := by
    by_cases last : (e.run succ).pendingPreds = 1
    · simp [r', Runner.active, last]
    · simp [r', Runner.active, last]
  constructor
  · intro unseeded
    rw [submitter, seeded] at unseeded
    cases unseeded
  · intro _ n nAdded
    have before := ledger.countdown seeded n nAdded
    rw [pendings, counted]
    split_ifs <;> omega
  · intro n
    have movedPending := tally_advance (Runner.pendingOn g n) here padded
    have movedNode := tally_advance (Runner.ofNode n) here padded
    have sameNode : Runner.ofNode n r' = Runner.ofNode n r := rfl
    have books := ledger.released n
    rw [weights, quiet.1] at movedPending
    rw [submitter, log]
    by_cases same : n = succ
    · subst same
      have before : attempted g e n = 0 := by
        unfold attempted
        rw [if_neg (by simp [added]), if_neg (by omega), if_neg (by omega)]
      by_cases last : (e.run n).pendingPreds = 1
      · have after : attempted g e' n = 1 := by
          unfold attempted
          rw [if_neg (by simp [added]), if_neg (by omega), counted, if_pos rfl,
            if_pos (by omega)]
        simp only [last, and_self, if_true] at movedPending
        omega
      · have after : attempted g e' n = 0 := by
          unfold attempted
          rw [if_neg (by simp [added]), if_neg (by omega), counted, if_pos rfl,
            if_neg (by omega)]
        simp only [last, false_and, if_false] at movedPending
        omega
    · have unmoved : attempted g e' n = attempted g e n :=
        attempted_congr (by simp [submitter]) (by rw [counted, if_neg same, Nat.add_zero])
      simp only [same, and_false, if_false] at movedPending
      omega
  · have movedActive := tally_advance Runner.active here padded
    have movedRelease := tally_advance (Runner.releaseWeight ReleasePc.inFlight) here padded
    have books := ledger.flight
    rw [active, quiet.2.2] at movedActive
    rw [release _ rfl, quiet.2.1] at movedRelease
    rw [inFlight, submitter]
    omega
  · have moved := tally_advance (Runner.releaseWeight ReleasePc.unrecorded) here padded
    have length : e'.runners.length = e.runners.length := by simp [runners]
    have books := ledger.total
    rw [release _ rfl, quiet.2.1] at moved
    rw [total, submitter, log, length]
    omega
  · intro x inside
    rw [runners] at inside
    rcases List.mem_or_eq_of_mem_set inside with old | new
    · exact ledger.indices x old
    · rw [new]
      change r'.pc.progress ≤ (g.nodes r.node).succs.length
      rw [progress]
      exact (List.getElem?_eq_some_iff.mp edge).1
  · rw [submitter]
    exact ledger.capacity
  · rw [submitter]
    exact ledger.root

end Advance

section Submitter

variable {g : Graph} {e e' : Engine}

/-- A step of the submitter outside dag_release_node that passes no root. -/
theorem Ledger.submitter_moves (ledger : Ledger g e) {pc : SubmitPc}
    (submitter : e'.submitter = pc) (runners : e'.runners = e.runners) (log : e'.log = e.log)
    (inFlight : e'.inFlight = e.inFlight) (total : e'.releasedTotal = e.releasedTotal)
    (pendings : ∀ n, (e'.run n).pendingPreds = (e.run n).pendingPreds)
    (seeded : pc.seeded = e.submitter.seeded)
    (passed : ∀ n, g.isRoot n = true → (n < pc.passed ↔ n < e.submitter.passed))
    (before : ∀ i release, e.submitter ≠ .releasing i release)
    (after : ∀ i release, pc ≠ .releasing i release) : Ledger g e' := by
  have weightless : ∀ {x : SubmitPc}, (∀ i release, x ≠ .releasing i release) →
      (∀ n, x.pendingOn n = 0) ∧ ∀ w, x.releaseWeight w = 0 := by
    intro x idle
    cases x <;> simp_all [SubmitPc.pendingOn, SubmitPc.releaseWeight]
  obtain ⟨pendingBefore, releaseBefore⟩ := weightless before
  obtain ⟨pendingAfter, releaseAfter⟩ := weightless after
  subst submitter
  constructor
  · rw [seeded, runners]
    exact ledger.unseeded
  · rw [seeded, runners]
    intro isSeeded n added
    rw [pendings]
    exact ledger.countdown isSeeded n added
  · intro n
    rw [attempted_congr (e := e) (passed n) (by rw [runners]), ← ledger.released n, runners, log,
      pendingBefore, pendingAfter]
  · rw [inFlight, runners, releaseAfter, ledger.flight, releaseBefore]
  · have books := ledger.total
    rw [releaseBefore] at books
    rw [total, runners, log, releaseAfter]
    exact books
  · rw [runners]
    exact ledger.indices
  · rw [seeded]
    exact ledger.capacity
  · intro i release same
    exact absurd same (after i release)

/-- The root loop reaches a root and begins its release. -/
theorem Ledger.root_begins (ledger : Ledger g e) {i : Nat} (pc : e.submitter = .roots i)
    (root : g.isRoot i = true) : Ledger g { e with submitter := .releasing i .start } := by
  have seeded : e.submitter.seeded = true := by rw [pc]; rfl
  have isRoot := root
  simp only [Graph.isRoot, Bool.and_eq_true, beq_iff_eq] at isRoot
  constructor
  · intro unseeded
    cases unseeded
  · intro _ n added
    exact ledger.countdown seeded n added
  · intro n
    have books := ledger.released n
    simp only [pc, SubmitPc.pendingOn] at books
    by_cases same : n = i
    · subst same
      have before : attempted g e n = 0 := by
        unfold attempted
        rw [if_neg (by simp [isRoot.1]), if_pos isRoot.2, pc, if_neg (by simp [SubmitPc.passed])]
      have after : attempted g { e with submitter := .releasing n .start } n = 1 := by
        unfold attempted
        rw [if_neg (by simp [isRoot.1]), if_pos isRoot.2, if_pos (by simp [SubmitPc.passed])]
      simp only [SubmitPc.pendingOn, if_true, ReleasePc.pending]
      omega
    · have unmoved : attempted g { e with submitter := .releasing i .start } n =
          attempted g e n := by
        refine attempted_congr (fun _ => ?_) rfl
        rw [pc]
        exact ⟨fun below => Nat.lt_of_le_of_ne (Nat.le_of_lt_succ below) same, Nat.lt_succ_of_lt⟩
      simp only [SubmitPc.pendingOn, if_neg (Ne.symm same)]
      omega
  · have books := ledger.flight
    rw [pc] at books
    exact books
  · have books := ledger.total
    rw [pc] at books
    exact books
  · exact ledger.indices
  · exact fun _ => ledger.capacity seeded
  · intro j release same
    cases same
    exact root

theorem Ledger.root_releases (ledger : Ledger g e) {i started : Nat} {release : ReleasePc}
    {after : Engine × After} (pc : e.submitter = .releasing i release)
    (books : ReleaseBooks i release e after started) :
    Ledger g { after.1 with submitter := rootNext i after.2 } := by
  have seeded : e.submitter.seeded = true := by rw [pc]; rfl
  have nextSeeded : (rootNext i after.2).seeded = true := by
    unfold rootNext
    split <;> simp [SubmitPc.seeded]
  have passed : (rootNext i after.2).passed = i + 1 := by
    unfold rootNext
    split <;> rfl
  have weight : ∀ w, (rootNext i after.2).releaseWeight w = after.2.weight w := by
    intro w
    unfold rootNext
    split <;> simp_all [SubmitPc.releaseWeight, After.weight]
  have pendingOn : ∀ n, (rootNext i after.2).pendingOn n =
      if i = n then after.2.weight ReleasePc.pending else 0 := by
    intro n
    unfold rootNext
    split <;> simp_all [SubmitPc.pendingOn, After.weight]
  have tallies : ∀ w : Runner → Nat, tally w after.1.runners =
      tally w e.runners + started * w (Runner.mk i .queued) := by
    intro w
    rw [books.runners, tally_append, tally_replicate]
  have counted : ∀ n, reached g n after.1.runners = reached g n e.runners := by
    intro n
    have fresh : ¬ Runner.Reached g n (Runner.mk i .queued) := by
      simp [Runner.Reached, RunnerPc.progress]
    unfold reached
    rw [tallies, if_neg fresh, Nat.mul_zero, Nat.add_zero]
  constructor
  · intro unseeded
    rw [nextSeeded] at unseeded
    cases unseeded
  · intro _ n added
    simp only
    rw [books.pendingPreds, counted]
    exact ledger.countdown seeded n added
  · intro n
    have unmoved : attempted g { after.1 with submitter := rootNext i after.2 } n =
        attempted g e n := by
      refine attempted_congr (fun _ => ?_) (counted n)
      change n < (rootNext i after.2).passed ↔ _
      rw [passed, pc]
      rfl
    have before := ledger.released n
    simp only [unmoved, tallies, pendingOn]
    rw [pc] at before
    have fresh : Runner.pendingOn g n (Runner.mk i .queued) = 0 := by
      simp [Runner.pendingOn, Runner.target]
    have freshNode : Runner.ofNode n (Runner.mk i .queued) = if i = n then 1 else 0 := rfl
    rw [fresh, freshNode]
    by_cases same : i = n
    · subst same
      have balance := books.pending
      simp only [SubmitPc.pendingOn, if_true] at before ⊢
      omega
    · have balance := books.others n (Ne.symm same)
      simp only [SubmitPc.pendingOn, if_neg same] at before ⊢
      omega
  · have before := ledger.flight
    have balance := books.inFlight
    have freshActive : Runner.active (Runner.mk i .queued) = 1 := rfl
    have freshRelease : Runner.releaseWeight ReleasePc.inFlight (Runner.mk i .queued) = 0 := rfl
    simp only [tallies, weight, freshActive, freshRelease]
    simp only [pc, SubmitPc.releaseWeight] at before
    omega
  · have before := ledger.total
    have balance := books.total
    have length : after.1.runners.length = e.runners.length + started := by simp [books.runners]
    have fresh : Runner.releaseWeight ReleasePc.unrecorded (Runner.mk i .queued) = 0 := rfl
    simp only [tallies, weight, length, fresh]
    simp only [pc, SubmitPc.releaseWeight] at before
    omega
  · intro r member
    simp only [books.runners] at member
    rcases List.mem_append.mp member with old | fresh
    · exact ledger.indices r old
    · rw [List.eq_of_mem_replicate fresh]
      exact Nat.zero_le _
  · exact fun _ => ledger.capacity seeded
  · intro j pc' same
    have here := ledger.root i release pc
    change rootNext i after.2 = _ at same
    rw [same] at passed
    change j + 1 = i + 1 at passed
    rw [show j = i by omega]
    exact here

end Submitter

private theorem setRun_pendingPreds {e : Engine} {n : NodeId} {node : NodeRun}
    (same : node.pendingPreds = (e.run n).pendingPreds) (m : NodeId) :
    ((e.setRun n node).run m).pendingPreds = (e.run m).pendingPreds := by
  by_cases here : m = n
  · subst here
    simpa [Engine.setRun] using same
  · simp [Engine.setRun, here]

/-- A dag_release_node step made by runner k for its successor i. -/
theorem Ledger.runner_releases {g : Graph} {e : Engine} (ledger : Ledger g e) {k started i : Nat}
    {r : Runner} (here : e.runners[k]? = some r) {release : ReleasePc}
    (pc : r.pc = .releasing i release) {succ : NodeId}
    (edge : (g.nodes r.node).succs[i]? = some succ) {after : Engine × After}
    (books : ReleaseBooks succ release e after started) :
    Ledger g (after.1.setRunner k { r with pc := succNext i after.2 }) := by
  have weight : ∀ w,
      Runner.releaseWeight w { r with pc := succNext i after.2 } = after.2.weight w := by
    intro w
    cases after.2 <;> rfl
  have progress : (succNext i after.2).progress = i + 1 := by
    cases after.2 <;> rfl
  have active : Runner.active { r with pc := succNext i after.2 } = 1 := by
    cases after.2 <;> rfl
  have pendingOn : ∀ n, Runner.pendingOn g n { r with pc := succNext i after.2 } =
      if succ = n then after.2.weight ReleasePc.pending else 0 := by
    intro n
    cases after.2 <;> simp [Runner.pendingOn, Runner.target, edge, Runner.releaseWeight,
      After.weight, succNext]
  have pendingBefore : ∀ n, Runner.pendingOn g n r = if succ = n then release.pending else 0 := by
    intro n
    simp [Runner.pendingOn, Runner.target, pc, edge, Runner.releaseWeight]
  have releaseBefore : ∀ w, Runner.releaseWeight w r = w release := by
    intro w
    simp [Runner.releaseWeight, pc]
  have activeBefore : r.active = 1 := by simp [Runner.active, pc]
  refine ledger.advance started succ (Runner.mk r.node (succNext i after.2)) here
    books.submitter (by simp [Engine.setRunner, books.runners]) rfl (by rw [progress, pc]; rfl)
    books.pendingPreds ?_ ?_ ?_
  · intro n
    rw [pendingOn, pendingBefore]
    by_cases same : succ = n
    · subst same
      simp only [if_true]
      exact books.pending
    · simp only [if_neg same, Nat.zero_add]
      exact books.others n (Ne.symm same)
  · have balance := books.inFlight
    rw [weight, releaseBefore, active, activeBefore]
    change after.1.inFlight + _ = _
    omega
  · have balance := books.total
    rw [weight, releaseBefore]
    exact balance

theorem Ledger.runner_step {g : Graph} (built : Built g) {e e' : Engine} (ledger : Ledger g e)
    {k : Nat} {r : Runner} {env : Env} (here : e.runners[k]? = some r)
    (taken : dagRunnerFn g e k r env = some e') : Ledger g e' := by
  unfold dagRunnerFn at taken
  split at taken
  · rename_i pc
    split at taken <;> cases taken
    · exact ledger.quiet_step here rfl rfl (fun _ => by simp [Engine.setRunner, Event.refusedOn])
        (by simp [Engine.setRunner, Event.isRefused]) rfl rfl (fun _ => rfl) (by rw [pc]; rfl)
        (by rw [pc]; rfl) rfl
    · exact ledger.quiet_step here rfl rfl (fun _ => rfl) rfl rfl rfl (fun _ => rfl)
        (by rw [pc]; rfl) (by rw [pc]; rfl) rfl
  · rename_i pc
    cases taken
    exact ledger.quiet_step here rfl rfl (fun _ => by simp [Engine.setRunner, Event.refusedOn])
      (by simp [Engine.setRunner, Event.isRefused]) rfl rfl (fun _ => rfl) (by rw [pc]; rfl)
      (by rw [pc]; rfl) rfl
  · rename_i status pc
    cases taken
    exact ledger.quiet_step here rfl rfl (fun _ => rfl) rfl rfl rfl (setRun_pendingPreds rfl)
      (by rw [pc]; rfl) (by rw [pc]; rfl) rfl
  · rename_i i pc
    split at taken <;> cases taken <;>
      exact ledger.quiet_step here rfl rfl (fun _ => rfl) rfl rfl rfl (fun _ => rfl)
        (by rw [pc]; rfl) (by rw [pc]; rfl) rfl
  · rename_i i pc
    obtain ⟨succ, edge, same⟩ := Option.map_eq_some_iff.mp taken
    subst same
    refine ledger.countdown_step built here pc edge ?_ ?_ ?_ ?_ ?_ ?_
    any_goals (simp only [Engine.setRunner]; split <;> rfl)
    · intro n
      have lowered : ∀ x : Engine, x.run = (e.setRun succ { e.run succ with
          pendingPreds := (e.run succ).pendingPreds - 1 }).run →
          (x.run n).pendingPreds = (e.run n).pendingPreds - if n = succ then 1 else 0 := by
        intro x same
        rw [same]
        by_cases atSucc : n = succ
        · subst atSucc
          simp [Engine.setRun]
        · simp [Engine.setRun, atSucc]
      exact lowered _ (by simp only [Engine.setRunner]; split <;> rfl)
  · rename_i i release pc
    obtain ⟨succ, edge, same⟩ := Option.map_eq_some_iff.mp taken
    obtain ⟨started, books⟩ := dagReleaseNode_books e succ env release
    subst same
    exact ledger.runner_releases here pc edge books
  · rename_i i pc
    cases taken
    refine ledger.advance 0 0 (Runner.mk r.node (.finished i)) here
      (by simp [Engine.setRunner]) (by simp [Engine.setRunner]) rfl (by rw [pc]; rfl)
      (by simp [Engine.setRunner]) ?_ ?_ ?_
    · intro n
      simp [Engine.setRunner, Runner.pendingOn, Runner.target, pc]
    · simp [Engine.setRunner, Runner.active, Runner.releaseWeight, pc]
    · simp [Engine.setRunner, Runner.releaseWeight, pc]
  · cases taken

private theorem capacity_pos_of_added {g : Graph} (present : g.added ≠ 0) : 0 < g.nodeCapacity := by
  by_contra zero
  have none : g.nodeCapacity = 0 := by omega
  exact present (by simp [Graph.added, Graph.addedNodes, none])

theorem Ledger.prologue {g : Graph} {e : Engine} (ledger : Ledger g e) (pc : e.submitter = .idle)
    (env : Env) : Ledger g (submitPrologue g e env) := by
  have quiet : e.runners = [] := ledger.unseeded (by rw [pc]; rfl)
  have moves : ∀ next : SubmitPc, next.seeded = false → next.passed = 0 →
      (∀ i release, next ≠ .releasing i release) → Ledger g { e with submitter := next } := by
    intro next unseeded start idle
    refine ledger.submitter_moves rfl rfl rfl rfl rfl (fun _ => rfl) ?_ ?_ ?_ idle
    · rw [unseeded, pc]
      rfl
    · intro n _
      rw [start, pc]
      rfl
    · simp [pc]
  unfold submitPrologue
  split_ifs with destroyed empty noMemory cyclic
  · exact moves _ rfl rfl (by simp)
  · exact (moves (.freezing .empty) rfl rfl (by simp)).congr rfl rfl rfl rfl rfl fun _ => rfl
  · exact moves _ rfl rfl (by simp)
  · exact moves _ rfl rfl (by simp)
  · constructor
    · intro _
      exact quiet
    · intro _ n added
      simp [added, quiet, reached]
    · intro n
      have books := ledger.released n
      rw [pc] at books
      exact books.trans (attempted_congr (by simp [pc, SubmitPc.passed]) rfl)
    · have books := ledger.flight
      rw [pc] at books
      exact books
    · have books := ledger.total
      rw [pc] at books
      exact books
    · exact ledger.indices
    · intro _
      exact capacity_pos_of_added empty
    · intro i release same
      cases same

theorem Ledger.submit_step {g : Graph} {e e' : Engine} (ledger : Ledger g e) {env : Env}
    (taken : loomDagSubmit g e env = some e') : Ledger g e' := by
  unfold loomDagSubmit at taken
  split at taken
  · rename_i pc
    cases taken
    exact ledger.prologue pc env
  · rename_i verdict pc
    cases taken
    refine ledger.submitter_moves rfl rfl rfl rfl rfl (fun _ => rfl) ?_ ?_ (by simp [pc]) ?_
    · rw [pc]
      cases verdict <;> rfl
    · intro n _
      rw [pc]
      cases verdict <;> rfl
    · intro i release
      cases verdict <;> simp
  · rename_i rc pc
    cases taken
    exact ledger.submitter_moves rfl rfl rfl rfl rfl (fun _ => rfl) (by rw [pc]; rfl)
      (by intro n _; rw [pc]; rfl) (by simp [pc]) (by simp)
  · rename_i rc pc
    cases taken
    exact ledger.submitter_moves rfl (by simp) (by simp) (by simp) (by simp) (by simp)
      (by rw [pc]; rfl) (by intro n _; rw [pc]; rfl) (by simp [pc]) (by simp)
  · rename_i i pc
    have seeded : e.submitter.seeded = true := by rw [pc]; rfl
    split_ifs at taken with inside root <;> cases taken
    · exact ledger.root_begins pc root
    · refine ledger.submitter_moves rfl rfl rfl rfl rfl (fun _ => rfl) (by rw [pc]; rfl) ?_
        (by simp [pc]) (by simp)
      intro n nRoot
      rw [pc]
      have other : n ≠ i := fun same => root (same ▸ nRoot)
      exact ⟨fun below => Nat.lt_of_le_of_ne (Nat.le_of_lt_succ below) other, Nat.lt_succ_of_lt⟩
    · have positive := ledger.capacity seeded
      refine ledger.submitter_moves rfl rfl rfl rfl rfl (fun _ => rfl) ?_ ?_ (by simp [pc])
        (by simp)
      · rw [seeded]
        exact decide_eq_true (by omega)
      · intro n _
        rw [pc]
        rfl
  · rename_i i release pc
    obtain ⟨started, books⟩ := dagReleaseNode_books e i env release
    cases taken
    exact ledger.root_releases pc books
  · cases taken

theorem Ledger.joiner_step {g : Graph} {e e' : Engine} (ledger : Ledger g e) {k : Nat}
    {j : Joiner} {env : Env} (taken : dagWaitInternal e k j env = some e') : Ledger g e' := by
  unfold dagWaitInternal at taken
  split at taken
  case h_4 =>
    split at taken <;> cases taken
    exact ledger.congr rfl rfl rfl rfl rfl fun _ => rfl
  all_goals cases taken
  all_goals exact ledger.congr rfl rfl rfl rfl rfl fun _ => rfl

theorem Ledger.taken {g : Graph} (built : Built g) {e e' : Engine} {label : Label}
    (ledger : Ledger g e) (taken : step g e label = some e') : Ledger g e' := by
  cases label with
  | submitter env => exact ledger.submit_step taken
  | runner k env =>
    obtain ⟨r, here, taken⟩ := Option.bind_eq_some_iff.mp taken
    exact ledger.runner_step built here taken
  | join kind =>
    cases taken
    exact ledger.congr rfl rfl rfl rfl rfl fun _ => rfl
  | joiner k env =>
    obtain ⟨j, here, taken⟩ := Option.bind_eq_some_iff.mp taken
    exact ledger.joiner_step taken

end Loomworks.Dag

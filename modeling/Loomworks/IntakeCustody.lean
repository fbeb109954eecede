import Loomworks.IntakeRing
import Loomworks.PoolCustody

/- Every step of the submit machine as moves of the custody machine. -/
namespace Loomworks.Pool.Intake

open Custody SeqRing

/-- What a client has of the task it has created. -/
def CallPc.holds : CallPc → Option (Nat × Stage)
  | .addLen t | .spill t => some (t, .fresh)
  | .loadTail t | .loadSeq t _ | .casTail t _ | .subLen t => some (t, .counted)
  | .storeTask t _ | .insert t _ => some (t, .claimed)
  | _ => none

/-- Only a call for a thread task gets here. -/
def CallPc.plain : CallPc → Bool
  | .capacity | .waitSpace | .blocked _ | .create => true
  | _ => false

/-- The thread task a worker runs. -/
def WorkerPc.task : WorkerPc → Option Nat
  | .running t => some t
  | _ => none

/-- The coroutine task a worker is busy with. -/
def WorkerPc.coroutine : WorkerPc → Option Nat
  | .dispatching t | .ready t | .inBody t _ => some t
  | _ => none

namespace State

def custody (s : State) (live : Finset Nat) : Custody :=
  s.pool.custody (fun c => (s.clients c).pc.holds) (fun w => (s.workers w).task) s.returned live

/-- A coroutine task on its way between the workers, the FIFOs and the timer heap. -/
def Token (s : State) (t : Nat) : Prop :=
  s.pool.Parked t ∨ ∃ w, (s.workers w).coroutine = some t

end State

/-- What holds in every run. A node that an old index entry names has had a tenant since, and an
unfinished task is the tenant of its node. -/
structure Kept (named : Prop) (s : State) (live : Finset Nat) : Prop where
  ringed : Ringed s
  good : Good named (s.custody live)
  index : Holds s.pool.dataOf s.pool.index live
  stale : ∀ t, s.pool.index.Stale t → 1 < t ∧ t ≤ s.pool.nextTaskId
  housed : ∀ t, 1 < t → t ≤ s.pool.nextTaskId → t ≤ s.tenant (s.node t) ∧
    s.tenant (s.node t) ≤ s.pool.nextTaskId ∧ (s.pool.ended t = none → s.tenant (s.node t) = t)
  tokens : ∀ t, s.Token t → (s.pool.tasks t).isCoro = true ∧ t ≤ s.pool.nextTaskId
  plain : ∀ c, (s.clients c).pc.plain = true → (s.clients c).request.isCoro = false

/-- A step is a run of moves. -/
def Advances (named : Prop) (s : State) (live : Finset Nat) (s' : State) : Prop :=
  ∃ live', Custody.Moves named (s.custody live) (s'.custody live') ∧ Kept named s' live'

variable {named : Prop} {s s' : State} {live live' : Finset Nat} {c w : Nat}

theorem custody_client (s : State) (c : Nat) (client : Client) (live : Finset Nat) :
    State.custody { s with clients := Function.update s.clients c client } live =
      (s.custody live).setHolds c client.pc.holds := by
  refine Custody.ext ?_ rfl rfl rfl rfl rfl rfl rfl
  funext d
  show (Function.update s.clients c client d).pc.holds = _
  by_cases own : d = c
  · rw [own, Function.update_self, setHolds_self]
  · rw [Function.update_of_ne own, setHolds_of_ne _ _ own]
    rfl

theorem custody_setPc (s : State) (c : Nat) (pc : CallPc) (live : Finset Nat) :
    (s.setPc c pc).custody live = (s.custody live).setHolds c pc.holds :=
  custody_client s c _ live

theorem custody_returns (s : State) (c : Nat) (result : LoomResult) (live : Finset Nat) :
    (s.returns c result).custody live = (s.custody live).setHolds c none :=
  custody_client s c _ live

theorem custody_worker (s : State) (w : Nat) (pc : WorkerPc) (live : Finset Nat) :
    (s.setWorker w pc).custody live = (s.custody live).setRunning w pc.task := by
  refine Custody.ext rfl rfl rfl ?_ rfl rfl rfl rfl
  funext v
  show (Function.update s.workers w pc v).task = _
  by_cases own : v = w
  · rw [own, Function.update_self, setRunning_self]
  · rw [Function.update_of_ne own, setRunning_of_ne _ _ own]
    rfl

theorem unflagged_task (request : Request) : request.task.cancelled = false := by
  unfold Request.task
  split <;> rfl

theorem custody_taskCreate (s : State) (request : Request) (n : Nat) (live : Finset Nat) :
    (s.taskCreate request n).custody live =
      Custody.setFacts { s.custody live with next := s.pool.nextTaskId + 1 } (s.pool.nextTaskId + 1)
        ((s.pool.facts s.returned (s.pool.nextTaskId + 1)).create request.task.isCoro
          request.task.isFuture) :=
  s.pool.custody_taskCreate (unflagged_task request)

theorem token_setWorker {pc : WorkerPc} {t : Nat} (token : (s.setWorker w pc).Token t) :
    s.Token t ∨ pc.coroutine = some t := by
  rcases token with parked | ⟨v, busy⟩
  · exact Or.inl (Or.inl parked)
  · by_cases own : v = w
    · rw [own, setWorker_self] at busy
      exact Or.inr busy
    · rw [setWorker_of_ne s pc own] at busy
      exact Or.inl (Or.inr ⟨v, busy⟩)

theorem plain_client (plain : ∀ c, (s.clients c).pc.plain = true → (s.clients c).request.isCoro = false)
    {client : Client} (own : client.pc.plain = true → client.request.isCoro = false) (d : Nat)
    (here : (Function.update s.clients c client d).pc.plain = true) :
    (Function.update s.clients c client d).request.isCoro = false := by
  by_cases same : d = c
  · rw [same, Function.update_self] at here ⊢
    exact own here
  · rw [Function.update_of_ne same] at here ⊢
    exact plain d here

theorem holds_route (request : Request) : (s.route request).holds = none := by
  unfold State.route
  split <;> rfl

theorem holds_walk {ok : Bool} {pc pc' : CallPc} (walk : Walk s c ok pc pc') : pc'.holds = pc.holds := by
  cases walk with
  | unbounded _ _ _ | room _ | slips _ | leaves _ _ _ => exact holds_route _
  | coroutine _ _ | bounded _ _ _ | crowded _ | blocks _ _ | quits _ | waits _ _ _ | loadTail | free _
  | taken | retry => rfl

theorem plain_walk {ok : Bool} {pc pc' : CallPc} (walk : Walk s c ok pc pc')
    (before : pc.plain = true → (s.clients c).request.isCoro = false) (after : pc'.plain = true) :
    (s.clients c).request.isCoro = false := by
  cases walk with
  | unbounded _ kind _ | bounded _ kind _ => exact kind
  | room _ | slips _ | leaves _ _ _ | crowded _ | blocks _ _ | waits _ _ _ => exact before rfl
  | coroutine _ _ | quits _ | loadTail | free _ | taken | retry => cases after

theorem holds_of_empty {pc : CallPc} (here : pc.empty = true) : pc.holds = none := by
  cases pc with
  | check | capacity | gaveUp | lane | create => rfl
  | _ => cases here

/-- A task that a client has in the ring and not in the index is not published. -/
theorem unpublished_of_claimed {t : Nat} (ringed : Ringed s)
    (held : (s.clients c).pc.holds = some (t, .claimed)) :
    ∃ pos, s.history.claimed[pos]? = some t ∧ s.history.published pos = false ∧ s.pool.ringSize ≠ 0 := by
  have nonzero : s.pool.ringSize ≠ 0 := by
    intro zero
    have away := (ringed.dry zero).2 c
    cases pc : (s.clients c).pc with
    | storeTask _ _ | insert _ _ =>
      rw [pc] at away
      cases away
    | _ =>
      rw [pc] at held
      cases held
  have sound := (ringed.sound nonzero).producers c
  change RingQueue.ProducerOk s.ring s.history (s.clients c).pc.producer at sound
  cases pc : (s.clients c).pc with
  | storeTask x pos =>
    rw [pc] at held sound
    cases held
    exact ⟨pos, sound.1, sound.2, nonzero⟩
  | insert x pos =>
    rw [pc] at held sound
    cases held
    exact ⟨pos, sound.1, sound.2.1, nonzero⟩
  | _ =>
    rw [pc] at held
    cases held

theorem afterEnd_eq (s : State) (w : Nat) :
    ∃ pc : WorkerPc, s.afterEnd w = s.setWorker w pc ∧ pc.task = none ∧ pc.coroutine = none := by
  unfold State.afterEnd
  split
  · exact ⟨.looping, rfl, rfl, rfl⟩
  · exact ⟨.signalling, rfl, rfl, rfl⟩

namespace Kept

/-- Nobody is about to index a task that a pass has found. -/
theorem settled {t : Nat} (kept : Kept named s live) (seen : t ∈ s.seen.pooled) (c : Nat) :
    (s.clients c).pc.holds ≠ some (t, .claimed) := by
  intro held
  obtain ⟨pos, claimed, unpublished, nonzero⟩ := unpublished_of_claimed kept.ringed held
  have valid := kept.ringed.valid nonzero
  obtain ⟨k, bound, shape, front⟩ := kept.ringed.visible_eq
  have late : s.ring.head ≤ pos := by
    by_contra early
    rw [valid.taken pos (by omega)] at unpublished
    cases unpublished
  have listed : s.pool.ring[pos - s.ring.head]? = some t := by
    rw [kept.ringed.listed, List.getElem?_drop, Nat.add_sub_cancel' late]
    exact claimed
  have nodup : (s.pool.ring ++ s.pool.dequeTasks).Nodup := kept.good.apart.nodup .pooled
  obtain ⟨ringNodup, -, disjoint⟩ := List.nodup_append.mp nodup
  change t ∈ s.visible ++ s.pool.dequeTasks at seen
  rcases List.mem_append.mp seen with visible | stolen
  · -- the worker sees another position of the same task
    rw [shape] at visible
    obtain ⟨j, inside, here⟩ := List.mem_take_iff_getElem.mp visible
    have again : s.pool.ring[j]? = some t := by
      rw [List.getElem?_eq_getElem (by omega), here]
    have same : j = pos - s.ring.head := by
      apply (List.getElem?_inj (by omega) ringNodup).mp
      rw [again, listed]
    have published := front j (by omega)
    rw [same, Nat.add_sub_cancel' late, unpublished] at published
    cases published
  · exact disjoint t (List.mem_of_getElem? listed) t stolen rfl

theorem advance (kept : Kept named s live) (ringed : Ringed s')
    (moves : Custody.Moves named (s.custody live) (s'.custody live'))
    (index : Holds s'.pool.dataOf s'.pool.index live')
    (stale : ∀ t, s'.pool.index.Stale t → s.pool.index.Stale t ∨ 1 < t ∧ t ≤ s.pool.nextTaskId)
    (next : s'.pool.nextTaskId = s.pool.nextTaskId) (node : s'.node = s.node)
    (tenant : s'.tenant = s.tenant)
    (tokens : ∀ t, s'.Token t → s.Token t ∨ (s.pool.tasks t).isCoro = true ∧ t ≤ s.pool.nextTaskId)
    (plain : ∀ c, (s'.clients c).pc.plain = true → (s'.clients c).request.isCoro = false) :
    Advances named s live s' := by
  have lasting := moves.lasting
  refine ⟨live', moves, ringed, kept.good.moves moves, index, ?_, ?_, ?_, plain⟩
  · intro t old
    rw [next]
    exact (stale t old).elim (kept.stale t) id
  · intro t low high
    rw [next] at high ⊢
    rw [node, tenant]
    obtain ⟨after, before, own⟩ := kept.housed t low high
    exact ⟨after, before, fun none_ => own (lasting.ended t high none_)⟩
  · intro t token
    have before := (tokens t token).elim (kept.tokens t) id
    rw [next]
    exact ⟨(lasting.kind t before.2).trans before.1, before.2⟩

theorem grow (kept : Kept named s live) {n : Nat} (vacant : s.free n = true) (ringed : Ringed s')
    (moves : Custody.Moves named (s.custody live) (s'.custody live))
    (index : s'.pool.index = s.pool.index)
    (data : ∀ t ≤ s.pool.nextTaskId, s'.pool.dataOf t = s.pool.dataOf t)
    (next : s'.pool.nextTaskId = s.pool.nextTaskId + 1)
    (node : s'.node = Function.update s.node (s.pool.nextTaskId + 1) n)
    (tenant : s'.tenant = Function.update s.tenant n (s.pool.nextTaskId + 1))
    (tokens : ∀ t, s'.Token t → s.Token t)
    (plain : ∀ c, (s'.clients c).pc.plain = true → (s'.clients c).request.isCoro = false) :
    Advances named s live s' := by
  have lasting := moves.lasting
  refine ⟨live, moves, ringed, kept.good.moves moves, ?_, ?_, ?_, ?_, plain⟩
  · rw [index]
    exact kept.index.congr fun t listed => data t (kept.good.bound (kept.good.live t listed)).2
  · intro t old
    rw [index] at old
    have bound := kept.stale t old
    omega
  · intro t low high
    rw [next] at high ⊢
    rw [node, tenant]
    by_cases new : t = s.pool.nextTaskId + 1
    · rw [new, Function.update_self, Function.update_self]
      exact ⟨Nat.le_refl _, Nat.le_refl _, fun _ => rfl⟩
    · rw [Function.update_of_ne new]
      have old : t ≤ s.pool.nextTaskId := by omega
      obtain ⟨after, before, own⟩ := kept.housed t low old
      by_cases same : s.node t = n
      · rw [same, Function.update_self]
        refine ⟨by omega, Nat.le_refl _, fun none_ => ?_⟩
        -- the tenant of a free node has ended
        have pending := lasting.ended t old none_
        have tenant := own pending
        rw [same] at tenant
        unfold State.free at vacant
        have pending : s.pool.ended t = none := pending
        rw [tenant, pending, Bool.or_eq_true] at vacant
        rcases vacant with zero | ended
        · have zero : t = 0 := of_decide_eq_true zero
          omega
        · cases ended
      · rw [Function.update_of_ne same]
        exact ⟨after, by omega, fun none_ => own (lasting.ended t old none_)⟩
  · intro t token
    have before := kept.tokens t (tokens t token)
    rw [next]
    exact ⟨(lasting.kind t before.2).trans before.1, by omega⟩

theorem called {ok : Bool} {n : Nat} (kept : Kept named s live) (called : Called s c ok n s') :
    Advances named s live s' := by
  have ringed := kept.ringed.called called
  have create : ∀ {task : Task} (t : Nat), t ≤ s.pool.nextTaskId →
      (s.pool.taskCreate task).dataOf t = s.pool.dataOf t := by
    intro task t old
    show (Function.update s.pool.tasks _ _ t).userData = _
    rw [Function.update_of_ne (by omega)]
    rfl
  -- a client that has the same of its task, in a pool that is the same for the tasks
  have stays : ∀ {u : State} {pc : CallPc}, u.custody live = s.custody live →
      pc.holds = (s.clients c).pc.holds →
      Custody.Moves named (s.custody live) ((u.setPc c pc).custody live) := by
    intro u pc same holds
    rw [custody_setPc, same, setHolds_eq_self (by rw [holds]; rfl)]
  have returns : ∀ {u : State} {result : LoomResult}, u.custody live = s.custody live →
      (s.clients c).pc.holds = none →
      Custody.Moves named (s.custody live) ((u.returns c result).custody live) := by
    intro u result same holds
    rw [custody_returns, same, setHolds_eq_self holds]
  have holding : ∀ {pc : CallPc}, (s.clients c).pc = pc → (s.custody live).holds c = pc.holds :=
    fun here => congrArg CallPc.holds here
  cases called with
  | walks walk =>
    exact kept.advance ringed (stays rfl (holds_walk walk)) kept.index (fun _ => Or.inl) rfl rfl rfl
      (fun _ => Or.inl) (plain_client kept.plain (plain_walk walk (kept.plain c)))
  | gives here failed =>
    exact kept.advance ringed (returns rfl (holds_of_empty here)) kept.index (fun _ => Or.inl) rfl rfl rfl
      (fun _ => Or.inl) (plain_client kept.plain nofun)
  | lane here open_ space vacant =>
    refine kept.grow vacant ringed (.single ?_) rfl create rfl rfl rfl (fun _ => id)
      (plain_client kept.plain nofun)
    have created := custody_taskCreate s (s.clients c).request n live
    rw [custody_returns, setHolds_eq_self (show (s.clients c).pc.holds = none by rw [here]; rfl)]
    show Custody.Move named _ { (s.taskCreate (s.clients c).request n).custody live with
      lanes := laneTasks _, queueLen := s.pool.queueLen + 1 }
    rw [created]
    exact Custody.Move.createLane _ _ (laneTasks_append _ _ _)
  | creates here vacant =>
    refine kept.grow vacant ringed (.single ?_) rfl create rfl rfl rfl (fun _ => id)
      (plain_client kept.plain nofun)
    have plain := kept.plain c (by rw [here]; rfl)
    have kind : (s.clients c).request.task.isCoro = false := by
      unfold Request.task
      rw [plain]
      rfl
    rw [custody_setPc, custody_taskCreate, kind]
    exact Custody.Move.create _ (holding here)
  | addLen here =>
    refine kept.advance ringed (.single ?_) kept.index (fun _ => Or.inl) rfl rfl rfl
      (fun _ => Or.inl) (plain_client kept.plain nofun)
    rw [custody_setPc]
    exact Custody.Move.count (holding here)
  | subLen here =>
    refine kept.advance ringed (.single ?_) kept.index (fun _ => Or.inl) rfl rfl rfl
      (fun _ => Or.inl) (plain_client kept.plain nofun)
    rw [custody_setPc]
    exact Custody.Move.uncount (holding here)
  | @spillRefused t result here failed =>
    refine kept.advance ringed (.single ?_) kept.index (fun _ => Or.inl) rfl rfl rfl
      (fun _ => Or.inl) (plain_client kept.plain nofun)
    have destroyed : State.custody { s with pool := s.pool.taskDestroy t .failed } live =
        (s.custody live).setFacts t { s.pool.facts s.returned t with ended := some .failed } := by
      rw [← ThreadPool.facts_taskDestroy]
      exact (ThreadPool.Beside.taskDestroy s.pool t .failed).custody
    rw [custody_returns, destroyed]
    exact Custody.Move.refuse (holding here)
  | spills here open_ space =>
    refine kept.advance ringed (.single ?_) kept.index (fun _ => Or.inl) rfl rfl rfl
      (fun _ => Or.inl) (plain_client kept.plain nofun)
    rw [custody_setPc]
    exact Custody.Move.spill (holding here) (laneTasks_append _ _ _)
  | posts here =>
    exact kept.advance ringed (returns rfl (holding here)) kept.index (fun _ => Or.inl) rfl rfl rfl
      (fun _ => Or.inl) (plain_client kept.plain nofun)
  | @claims t here =>
    refine kept.advance ringed (.single ?_) kept.index (fun _ => Or.inl) rfl rfl rfl
      (fun _ => Or.inl) (plain_client kept.plain nofun)
    rw [custody_setPc]
    have joined : ((s.pool.ring ++ [t]) ++ s.pool.dequeTasks).Perm (t :: s.pool.pooled) := by
      rw [List.append_assoc]
      exact List.perm_middle
    exact Custody.Move.claim (holding here) joined
  | stores here | publishes here | counts here =>
    exact kept.advance ringed (stays rfl (by rw [here]; rfl)) kept.index (fun _ => Or.inl) rfl rfl rfl
      (fun _ => Or.inl) (plain_client kept.plain nofun)
  | @inserts t pos here =>
    have held : (s.custody live).holds c = some (t, .claimed) := holding here
    obtain ⟨at_, fresh, -⟩ := kept.good.claims held
    have low := (kept.good.bound at_).1
    obtain ⟨live', index, grown⟩ := kept.index.insert (by omega) fresh
    refine kept.advance ringed (.single ?_) index
      (fun _ stale => Or.inl (stale_insert (by omega) stale)) rfl rfl rfl (fun _ => Or.inl)
      (plain_client kept.plain nofun)
    rw [custody_setPc]
    exact Custody.Move.index held (grown.imp_right And.left)

theorem rests (kept : Kept named s live) : Advances named s live s := ⟨live, .refl, kept⟩

end Kept

theorem Advances.trans {s'' : State} (first : Advances named s live s')
    (second : ∀ {live}, Kept named s' live → Advances named s' live s'') : Advances named s live s'' := by
  obtain ⟨live', moves, kept⟩ := first
  obtain ⟨live'', later, kept'⟩ := second kept
  exact ⟨live'', moves.trans later, kept'⟩

namespace Kept

theorem signalled (kept : Kept named s live) (signalled : Signalled s c s') : Advances named s live s' := by
  have ringed := kept.ringed.signalled signalled
  cases signalled with
  | unbounded _ | nobody _ => exact kept.rests
  | wakes here =>
    have same : (s.setPc c (.blocked true)).custody live = s.custody live := by
      rw [custody_setPc]
      exact setHolds_eq_self (show (s.clients c).pc.holds = none by rw [here]; rfl)
    refine kept.advance ringed ?_ kept.index (fun _ => Or.inl) rfl rfl rfl (fun _ => Or.inl)
      (plain_client kept.plain fun _ => kept.plain c (by rw [here]; rfl))
    rw [same]

theorem boundary_lane {t : Nat} {lanes : Nat → List Nat} (kept : Kept named s live)
    (free : (s.workers w).task = none) (left : (laneTasks s.pool.lanes).Perm (t :: laneTasks lanes))
    (boundary : Boundary { s with pool := { s.pool with lanes, queueLen := s.pool.queueLen - 1 } } w t
      false c s') : Advances named s live s' := by
  let pool : ThreadPool := { s.pool with lanes, queueLen := s.pool.queueLen - 1 }
  have ringed : Ringed { s with pool } := kept.ringed.keep rfl rfl rfl rfl rfl rfl rfl
  have at_ := kept.good.place_lane left
  have known := (kept.good.bound at_).2
  have absent : t ∉ live := kept.good.not_live (by rw [at_]; exact nofun)
  have index : Holds pool.dataOf pool.index live := kept.index
  have idle : (s.custody live).running w = none := free
  cases boundary with
  | skips flagged signalled =>
    have beside : ThreadPool.Beside t pool ((pool.markFutureCancelled t).taskDestroy t .cancelled) :=
      (ThreadPool.Beside.markFutureCancelled pool t).trans (ThreadPool.Beside.taskDestroy _ t _)
    have skipped : Advances named s live
        { s with pool := (pool.markFutureCancelled t).taskDestroy t .cancelled } := by
      refine kept.advance (ringed.ofFrame _ (ThreadPool.Settles.markFutureCancelled pool t).frame)
        (.single ?_) (beside.holds absent index) ?_ beside.next rfl rfl ?_ kept.plain
      · show Custody.Move named _ (ThreadPool.custody _ _ _ _ _)
        rw [beside.custody]
        cases kind : (s.pool.tasks t).isCoro with
        | false =>
          rw [ThreadPool.facts_skip]
          exact Custody.Move.skipLane left flagged kind
        | true => exact Custody.Move.leaveLane left kind (beside.kind.trans kind) beside.ended
      · intro x stale
        rw [beside.index] at stale
        exact Or.inl stale
      · exact fun x token => Or.inl (token.imp_left (beside.parked x))
    exact skipped.trans fun later => later.signalled signalled
  | starts unflagged kind next =>
    have beside : ThreadPool.Beside t pool (pool.emit (.dispatched t)) := ThreadPool.Beside.emit _ rfl
    have started : Advances named s live
        ({ s with pool := pool.emit (.dispatched t) }.setWorker w (.dispatching t)) := by
      refine kept.advance ((ringed.ofFrame (pool.emit (.dispatched t)) rfl).keep rfl rfl rfl rfl rfl rfl rfl)
        (.single ?_) (beside.holds absent index) (fun _ => Or.inl) rfl rfl rfl ?_
        kept.plain
      · rw [custody_worker, setRunning_eq_self (show (s.workers w).task = none from free)]
        show Custody.Move named _ ((pool.emit (.dispatched t)).custody _ _ _ _)
        rw [beside.custody]
        exact Custody.Move.leaveLane left kind (beside.kind.trans kind) beside.ended
      · intro x token
        rcases token_setWorker token with before | busy
        · exact Or.inl before
        · cases busy
          exact Or.inr ⟨kind, known⟩
    rw [next]
    exact started
  | runs unflagged kind signalled =>
    have beside : ThreadPool.Beside t pool ((pool.taskDestroy t .dispatched).emit (.dispatched t)) :=
      (ThreadPool.Beside.taskDestroy pool t _).trans (ThreadPool.Beside.emit _ rfl)
    have ran : Advances named s live
        ({ s with pool := (pool.taskDestroy t .dispatched).emit (.dispatched t) }.setWorker w
          (.running t)) := by
      refine kept.advance ((ringed.ofFrame ((pool.taskDestroy t .dispatched).emit (.dispatched t))
        rfl).keep rfl rfl rfl rfl rfl rfl rfl) (.single ?_)
        (beside.holds absent index) (fun _ => Or.inl) rfl rfl rfl ?_ kept.plain
      · rw [custody_worker]
        show Custody.Move named _ (Custody.setRunning (ThreadPool.custody _ _ _ _ _) w (some t))
        rw [beside.custody, ThreadPool.facts_run]
        exact Custody.Move.runLane left unflagged kind idle
      · intro x token
        rcases token_setWorker token with before | busy
        · exact Or.inl before
        · cases busy
    exact ran.trans fun later => later.signalled signalled

theorem boundary_ring {t n : Nat} {deques : Option (Nat → List Nat)} {dequeTotal : Int}
    (kept : Kept named s live) (free : (s.workers w).task = none) (ringed : Ringed
      (s.taken { s.pool with deques, dequeTotal } n)) (seen : t ∈ s.seen.pooled)
    (left : s.pool.pooled.Perm (t :: ThreadPool.pooled
      { s.pool with ring := s.pool.ring.drop n, deques, dequeTotal }))
    (boundary : Boundary (s.taken { s.pool with deques, dequeTotal } n) w t true c s') :
    Advances named s live s' := by
  let pool : ThreadPool := { s.pool with
    ring := s.pool.ring.drop n, deques, dequeTotal, index := cancelIndexRemove s.pool.index t }
  have at_ := kept.good.place_pooled left
  obtain ⟨low, known⟩ := kept.good.bound at_
  have plain : (s.pool.tasks t).isCoro = false := kept.good.plain at_ nofun
  have settled := kept.settled seen
  have index : Holds pool.dataOf pool.index (live.erase t) := kept.index.remove (by omega)
  have absent := Finset.notMem_erase t live
  have stale : ∀ x, pool.index.Stale x → s.pool.index.Stale x ∨ 1 < x ∧ x ≤ s.pool.nextTaskId := by
    intro x old
    rcases kept.index.stale_remove (by omega) old with before | rfl
    · exact Or.inl before
    · exact Or.inr ⟨low, known⟩
  have idle : (s.custody live).running w = none := free
  cases boundary with
  | skips flagged signalled =>
    have beside : ThreadPool.Beside t pool ((pool.markFutureCancelled t).taskDestroy t .cancelled) :=
      (ThreadPool.Beside.markFutureCancelled pool t).trans (ThreadPool.Beside.taskDestroy _ t _)
    have skipped : Advances named s live { s.taken { s.pool with deques, dequeTotal } n with
        pool := (pool.markFutureCancelled t).taskDestroy t .cancelled } := by
      refine kept.advance (ringed.ofFrame _ (ThreadPool.Settles.markFutureCancelled pool t).frame)
        (.single ?_) (beside.holds absent index) ?_ beside.next rfl rfl ?_ kept.plain
      · show Custody.Move named _ (((pool.markFutureCancelled t).taskDestroy t .cancelled).custody _ _ _ _)
        rw [beside.custody, ThreadPool.facts_skip]
        exact Custody.Move.skip left flagged settled
      · intro x old
        rw [beside.index] at old
        exact stale x old
      · exact fun x token => Or.inl (token.imp_left (beside.parked x))
    exact skipped.trans fun later => later.signalled signalled
  | starts unflagged kind next => cases plain.symm.trans kind
  | runs unflagged kind signalled =>
    let lowered : ThreadPool := { pool with queueLen := s.pool.queueLen - 1 }
    have beside : ThreadPool.Beside t lowered ((lowered.taskDestroy t .dispatched).emit (.dispatched t)) :=
      (ThreadPool.Beside.taskDestroy lowered t _).trans (ThreadPool.Beside.emit _ rfl)
    have ran : Advances named s live
        ({ s.taken { s.pool with deques, dequeTotal } n with
          pool := (lowered.taskDestroy t .dispatched).emit (.dispatched t) }.setWorker w (.running t)) := by
      refine kept.advance ((ringed.ofFrame ((lowered.taskDestroy t .dispatched).emit (.dispatched t))
        rfl).keep rfl rfl rfl rfl rfl rfl rfl) (.single ?_)
        (beside.holds absent index) stale rfl rfl rfl ?_ kept.plain
      · rw [custody_worker]
        show Custody.Move named _ (Custody.setRunning
          (((lowered.taskDestroy t .dispatched).emit (.dispatched t)).custody _ _ _ _) w (some t))
        rw [beside.custody, ThreadPool.facts_run]
        exact Custody.Move.run left unflagged settled idle
      · intro x token
        rcases token_setWorker token with before | busy
        · exact Or.inl before
        · cases busy
    exact ran.trans fun later => later.signalled signalled

theorem works {pool : ThreadPool} {pc : WorkerPc} (kept : Kept named s live)
    (frame : pool.settings = s.pool.settings) (ring : pool.ring = s.pool.ring)
    (next : pool.nextTaskId = s.pool.nextTaskId) (same : pool.index = s.pool.index)
    (moves : Custody.Moves named (s.custody live) (State.custody { s with pool } live))
    (index : Holds pool.dataOf s.pool.index live) (free : (s.workers w).task = none)
    (quiet : pc.task = none) (parked : ∀ t, pool.Parked t → s.Token t)
    (busy : ∀ t, pc.coroutine = some t → s.Token t) :
    Advances named s live ({ s with pool }.setWorker w pc) := by
  refine @advance named s _ live live kept (kept.ringed.keep rfl rfl rfl rfl rfl frame ring) ?_ ?_ ?_ next rfl
    rfl ?_ kept.plain
  · rw [custody_worker, quiet, setRunning_eq_self (show (s.workers w).task = none from free)]
    exact moves
  · show Holds pool.dataOf pool.index live
    rw [same]
    exact index
  · intro x stale
    change pool.index.Stale x at stale
    rw [same] at stale
    exact Or.inl stale
  · intro x token
    left
    rcases token_setWorker token with (held | worked) | own
    · exact parked x held
    · exact Or.inr worked
    · exact busy x own

/-- Something happens to a coroutine task that a worker has. -/
theorem works_beside {pool : ThreadPool} {pc : WorkerPc} {t : Nat} (kept : Kept named s live)
    (own : (s.workers w).coroutine = some t) (beside : ThreadPool.Beside t s.pool pool)
    (frame : pool.frame = s.pool.frame) (quiet : pc.task = none)
    (busy : ∀ x, pc.coroutine = some x → x = t) :
    Advances named s live ({ s with pool }.setWorker w pc) := by
  have token : s.Token t := Or.inr ⟨w, own⟩
  obtain ⟨kind, known⟩ := kept.tokens t token
  have index := beside.holds (ThreadPool.notMem_of_coro kept.good kind) kept.index
  rw [beside.index] at index
  have free : (s.workers w).task = none := by
    cases pc : s.workers w with
    | running _ =>
      rw [pc] at own
      cases own
    | _ => rfl
  refine kept.works (ThreadPool.settings_of_frame frame) (congrArg ThreadPool.Frame.ring frame) beside.next
    beside.index (.single ?_) index free quiet
    (fun x parked => Or.inl (beside.parked x parked)) ?_
  · show Custody.Move named _ (pool.custody _ _ _ _)
    rw [beside.custody]
    exact Custody.Move.aside known kind (beside.kind.trans kind) beside.ended
  · intro x own
    rw [busy x own]
    exact token

theorem passed {cas : Bool} (kept : Kept named s live) (inside : w < s.pool.workerCount)
    (looping : s.workers w = .looping) (passed : Passed s w cas c s') : Advances named s live s' := by
  have free : (s.workers w).task = none := by
    rw [looping]
    rfl
  cases passed with
  | @takes t rest list next =>
    subst next
    have ready : ∀ x, x ∈ t :: rest → s.Token x := by
      intro x member
      rw [← list] at member
      exact Or.inl (Or.inl ⟨w, member⟩)
    refine kept.works rfl rfl rfl rfl .refl kept.index free rfl ?_ ?_
    · rintro x (⟨v, member⟩ | asleep)
      · by_cases own : v = w
        · change x ∈ Function.update s.pool.coroReady w rest v at member
          rw [own, Function.update_self] at member
          exact ready x (List.mem_cons_of_mem t member)
        · change x ∈ Function.update s.pool.coroReady w rest v at member
          rw [Function.update_of_ne own] at member
          exact Or.inl (Or.inl ⟨v, member⟩)
      · exact Or.inl (Or.inr asleep)
    · rintro x ⟨⟩
      exact ready t List.mem_cons_self
  | exits dry drained next | idles dry undrained nothing next =>
    subst next
    exact kept.works rfl rfl rfl rfl .refl kept.index free rfl (fun _ => Or.inl) nofun
  | fetches dry undrained found boundary =>
    have drawn := drawn_of_fetch kept.ringed inside found
    have ringed := kept.ringed.drawn drawn
    generalize (s.fetch w cas).1 = s₁ at drawn boundary ringed
    cases drawn with
    | lane left => exact kept.boundary_lane free left boundary
    | ring short ready seen left total => exact kept.boundary_ring free ringed seen left boundary

theorem create {handle : Option Nat} (kept : Kept named s live) (created : s.create w handle = some s') :
    Advances named s live s' := by
  unfold State.create at created
  split at created
  · rename_i t here
    cases created
    obtain ⟨pc, ended, quiet, idle⟩ := afterEnd_eq { s with pool := s.pool.taskDestroy t .failed } w
    rw [ended]
    exact kept.works_beside (by rw [here]; rfl) (ThreadPool.Beside.taskDestroy s.pool t .failed) rfl quiet
      fun x own => absurd (idle.symm.trans own) nofun
  · rename_i t coro here
    cases created
    refine kept.works_beside (t := t) (by rw [here]; rfl) (ThreadPool.Beside.setTask s.pool rfl) rfl rfl ?_
    rintro x ⟨⟩
    rfl
  · cases created

theorem checkReady (kept : Kept named s live) (checked : s.checkReady w = some s') :
    Advances named s live s' := by
  unfold State.checkReady at checked
  split at checked
  · rename_i t here
    split at checked
    · cases checked
      exact kept.works_beside (by rw [here]; rfl) (ThreadPool.Beside.terminate s.pool t)
        (ThreadPool.Settles.resolveCancelled s.pool t).frame rfl nofun
    · cases checked
      refine kept.works_beside (t := t) (by rw [here]; rfl) (ThreadPool.Beside.emit _ rfl) rfl rfl ?_
      rintro x ⟨⟩
      rfl
  · cases checked

theorem bodyEnds {behaviour : Behaviour} {alloc : Bool} (kept : Kept named s live)
    (ended : s.bodyEnds w behaviour alloc = some s') : Advances named s live s' := by
  unfold State.bodyEnds at ended
  split at ended
  · rename_i t first here
    have own : (s.workers w).coroutine = some t := by
      rw [here]
      rfl
    have free : (s.workers w).task = none := by
      rw [here]
      rfl
    have token : s.Token t := Or.inr ⟨w, own⟩
    generalize ends : (if first then s.pool.afterFirst w t behaviour.crc behaviour.state alloc
        else s.pool.afterResume w t behaviour.crc behaviour.state) = pool at ended
    obtain ⟨frame, outcome⟩ : pool.frame = s.pool.frame ∧ (ThreadPool.Beside t s.pool pool ∨
        pool = s.pool.pushReady w t ∨ pool = s.pool.timerPush ⟨t, w⟩) := by
      rw [← ends]
      split
      · exact ⟨(ThreadPool.frame_afterFirst s.pool w t _ _ _).1,
          ThreadPool.Beside.afterFirst s.pool w t _ _ _⟩
      · exact ⟨(ThreadPool.frame_afterResume s.pool w t _ _).1,
          ThreadPool.Beside.afterResume s.pool w t _ _⟩
    have next : ∃ pc : WorkerPc, s' = { s with pool }.setWorker w pc ∧ pc.task = none ∧
        pc.coroutine = none := by
      cases ended
      split
      · exact ⟨.looping, rfl, rfl, rfl⟩
      · exact afterEnd_eq _ w
    obtain ⟨pc, rfl, quiet, idle⟩ := next
    have busy : ∀ {x : Nat} {p : Prop}, pc.coroutine = some x → p :=
      fun own => absurd (idle.symm.trans own) nofun
    rcases outcome with beside | rfl | rfl
    · exact kept.works_beside own beside frame quiet fun _ => busy
    · refine kept.works rfl rfl rfl rfl .refl kept.index free quiet ?_ fun _ => busy
      intro x parked
      rcases ThreadPool.parked_pushReady parked with before | rfl
      · exact Or.inl before
      · exact token
    · refine kept.works rfl rfl rfl rfl .refl kept.index free quiet ?_ fun _ => busy
      intro x parked
      rcases ThreadPool.parked_timerPush parked with before | rfl
      · exact Or.inl before
      · exact token
  · cases ended

theorem timerFire {i : Nat} {alloc : TimerAlloc} {pool : ThreadPool} (kept : Kept named s live)
    (fired : s.pool.timerFire i alloc = some pool) : Advances named s live { s with pool } := by
  have ringed := kept.ringed.ofFrame pool (ThreadPool.frame_timerFire fired).1
  unfold ThreadPool.timerFire at fired
  split at fired
  · cases fired
  · rename_i entry here
    have listed : entry ∈ s.pool.timerHeap := List.mem_of_getElem? here
    have fewer : ∀ x, ThreadPool.Parked { s.pool with timerHeap := s.pool.timerHeap.eraseIdx i } x →
        s.pool.Parked x := by
      rintro x (ready | ⟨other, member, same⟩)
      · exact Or.inl ready
      · exact Or.inr ⟨other, List.mem_of_mem_eraseIdx member, same⟩
    have advance : ∀ {pool : ThreadPool}, Ringed { s with pool } → pool.custody = s.pool.custody →
        pool.index = s.pool.index → pool.dataOf = s.pool.dataOf → pool.nextTaskId = s.pool.nextTaskId →
        (∀ x, pool.Parked x → s.pool.Parked x) → Advances named s live { s with pool } := by
      intro pool ringed custody index data next parked
      refine @Kept.advance named s _ live live kept ringed ?_ ?_ ?_ next rfl rfl
        (fun x token => Or.inl (token.imp_left (parked x))) kept.plain
      · unfold State.custody
        rw [custody]
      · show Holds pool.dataOf pool.index live
        rw [data, index]
        exact kept.index
      · intro x stale
        change pool.index.Stale x at stale
        rw [index] at stale
        exact Or.inl stale
    cases alloc with
    | ready =>
      dsimp only at fired
      split at fired
      · cases fired
        refine advance ringed rfl rfl rfl rfl ?_
        intro x parked
        rcases ThreadPool.parked_pushReady parked with before | rfl
        · exact fewer x before
        · exact Or.inr ⟨entry, listed, rfl⟩
      · cases fired
        exact advance ringed rfl rfl rfl rfl fewer
    | rearmed =>
      cases fired
      refine advance ringed rfl rfl rfl rfl ?_
      intro x parked
      rcases ThreadPool.parked_timerPush parked with before | rfl
      · exact fewer x before
      · exact Or.inr ⟨entry, listed, rfl⟩
    | dropped =>
      cases fired
      exact advance ringed rfl rfl rfl rfl fewer

theorem finish {result : Nat} (kept : Kept named s live) (finished : s.finish w result = some s') :
    Advances named s live s' := by
  unfold State.finish at finished
  split at finished
  · rename_i t here
    have parked : ∀ x, ThreadPool.Parked (if (s.pool.tasks t).isFuture then
        s.pool.setFuture t { s.pool.futures t with result, hasResult := true, ready := true }
        else s.pool) x → s.pool.Parked x := by
      intro x
      split <;> exact id
    have frame : ThreadPool.frame (if (s.pool.tasks t).isFuture then
        s.pool.setFuture t { s.pool.futures t with result, hasResult := true, ready := true }
        else s.pool) = s.pool.frame := by
      split <;> rfl
    have index : ThreadPool.index (if (s.pool.tasks t).isFuture then
        s.pool.setFuture t { s.pool.futures t with result, hasResult := true, ready := true }
        else s.pool) = s.pool.index := by
      split <;> rfl
    have data : ThreadPool.dataOf (if (s.pool.tasks t).isFuture then
        s.pool.setFuture t { s.pool.futures t with result, hasResult := true, ready := true }
        else s.pool) = s.pool.dataOf := by
      split <;> rfl
    have custody : ∀ held running, ThreadPool.custody (if (s.pool.tasks t).isFuture then
        s.pool.setFuture t { s.pool.futures t with result, hasResult := true, ready := true }
        else s.pool) held running (Function.update s.returned t (result :: s.returned t)) live =
        (s.pool.custody held running s.returned live).setFacts t ((s.pool.facts s.returned t).finish result) :=
      fun held running => s.pool.custody_finish t result
    cases finished
    generalize (if (s.pool.tasks t).isFuture then
        s.pool.setFuture t { s.pool.futures t with result, hasResult := true, ready := true }
        else s.pool) = pool at *
    refine @advance named s _ live live kept ?_ (.single ?_) ?_ ?_
      (congrArg ThreadPool.Frame.nextTaskId frame) rfl rfl ?_ kept.plain
    · exact (kept.ringed.ofFrame pool frame).keep rfl rfl rfl rfl rfl rfl rfl
    · rw [custody_worker]
      show Custody.Move named _ (Custody.setRunning (pool.custody _ _ _ live) w none)
      rw [custody]
      exact Custody.Move.finish result (congrArg WorkerPc.task here)
    · show Holds pool.dataOf pool.index live
      rw [data, index]
      exact kept.index
    · intro x stale
      change pool.index.Stale x at stale
      rw [index] at stale
      exact Or.inl stale
    · intro x token
      rcases token_setWorker token with (held | worked) | busy
      · exact Or.inl (Or.inl (parked x held))
      · exact Or.inl (Or.inr worked)
      · cases busy
  · cases finished

/-- A call under the lock that only touches the pool. -/
theorem calls {pool : ThreadPool} (kept : Kept named s live) (frame : pool.frame = s.pool.frame)
    (calls : ThreadPool.Calls named (fun c => (s.clients c).pc.holds) (fun w => (s.workers w).task) s.returned
      s.pool live pool live') : Advances named s live { s with pool } :=
  kept.advance (kept.ringed.ofFrame pool frame) calls.moves calls.holds
    (fun x stale => Or.inl (calls.stale x stale)) (congrArg ThreadPool.Frame.nextTaskId frame) rfl rfl
    (fun x token => Or.inl (token.imp_left (calls.parked x))) kept.plain

/-- A task of the index has not ended, so it still has its node. -/
theorem tenant_of_live {t : Nat} (kept : Kept named s live) (listed : t ∈ live) :
    s.tenant (s.node t) = t := by
  have at_ := kept.good.live t listed
  obtain ⟨low, high⟩ := kept.good.bound at_
  have waits : s.pool.ended t = none :=
    ((kept.good.fair_at at_).ended (kept.good.plain at_ nofun)).mpr rfl
  exact (kept.housed t low high).2.2 waits

/-- named: the call is made with the id of a task. -/
theorem cancelById (kept : Kept named s live) {id : Nat} (alloc : Bool) (allowed : named → id ≠ 0) :
    Advances named s live (s.loomPoolCancelById id alloc).1 := by
  have claims : ∀ {t : Nat}, t ∈ live → (s.pool.tasks t).cancelled = false →
      ∃ final, (s.pool.flag t).claim t = some final ∧ Advances named s live { s with pool := final } := by
    intro t listed unflagged
    obtain ⟨final, claimed, calls⟩ := ThreadPool.calls_claim kept.good kept.index listed unflagged
    have frame := (ThreadPool.Settles.claim claimed).frame
    exact ⟨final, claimed, kept.calls frame calls⟩
  unfold State.loomPoolCancelById
  split
  · rename_i old found
    dsimp only
    split
    · exact kept.rests
    · rename_i unflagged
      have unflagged := Bool.eq_false_iff.mpr unflagged
      by_cases listed : s.tenant (s.node old) ∈ live
      · obtain ⟨final, claimed, advances⟩ := claims listed unflagged
        simp only [claimed]
        exact advances
      · rcases kept.index.find_some found with ⟨-, member⟩ | ⟨zero, stale⟩
        · rw [kept.tenant_of_live member] at listed
          exact absurd member listed
        · -- a tombstone names the node, and the task that has it now is flagged
          have unnamed : ¬named := fun name => allowed name zero
          obtain ⟨low, high⟩ := kept.stale old stale
          have after := (kept.housed old low high).1
          have lost : (s.pool.flag (s.tenant (s.node old))).claim (s.tenant (s.node old)) = none := by
            have missed := kept.index.claim_dead (by omega) listed
            exact if_neg (by simpa [ThreadPool.flag, ThreadPool.setTask] using missed)
          simp only [lost]
          have beside := ThreadPool.Beside.flag s.pool (s.tenant (s.node old))
          refine @advance named s _ live live kept (kept.ringed.ofFrame _ rfl)
            (.single ?_) (beside.holds listed kept.index) (fun _ => Or.inl) rfl rfl rfl
            (fun _ => Or.inl) kept.plain
          show Custody.Move named _ ((s.pool.flag (s.tenant (s.node old))).custody _ _ _ live)
          rw [beside.custody, ThreadPool.facts_flag]
          exact Custody.Move.stray unnamed
  · split
    · rename_i entry asleep
      have listed := List.mem_of_find?_eq_some asleep
      obtain ⟨kind, known⟩ := kept.tokens entry.task (Or.inl (Or.inr ⟨entry, listed, rfl⟩))
      refine kept.calls ?_ (ThreadPool.calls_rouse kept.good kept.index listed List.eraseP_subset _ known kind
        alloc)
      split <;> exact (ThreadPool.Settles.cancelAsleep _ _).frame
    · split
      · rename_i final cancelled
        exact kept.calls (ThreadPool.Sheds.cancelLane cancelled).frame
          (ThreadPool.calls_cancelLane kept.good kept.index cancelled)
      · exact kept.rests

theorem cancels {after : State} (kept : Kept named s live) (advances : Advances named s live after) :
    Advances named s live (s.cancels after) := by
  unfold State.cancels
  split
  · exact kept.rests
  · exact advances

end Kept

/-- A cancel by id names a task. -/
def Named : Label → Prop
  | .cancelById id _ => id ≠ 0
  | _ => True

instance : DecidablePred Named := fun label =>
  match label with
  | .cancelById id _ => inferInstanceAs (Decidable (id ≠ 0))
  | .submit .. | .call .. | .pass .. | .settle _ | .wake _ | .finish .. | .create .. | .checkReady _
  | .bodyEnds .. | .signal .. | .timerFire .. | .post | .cancel _ | .cancelAll | .shutdown | .join =>
    inferInstanceAs (Decidable True)

namespace Kept

theorem step {label : Label} (kept : Kept named s live) (allowed : named → Named label)
    (after : Intake.step s label = some s') : Advances named s live s' := by
  have ringed := kept.ringed.step after
  cases label with
  | submit c request =>
    simp only [Intake.step, Option.ite_none_right_eq_some, Option.some.injEq] at after
    obtain ⟨⟨inside, idle⟩, rfl⟩ := after
    refine kept.advance ringed ?_ kept.index (fun _ => Or.inl) rfl rfl rfl (fun _ => Or.inl)
      (plain_client kept.plain fun clash => by cases clash)
    rw [custody_client]
    show Custody.Moves named _ ((s.custody live).setHolds c none)
    rw [setHolds_eq_self (show (s.clients c).pc.holds = none by rw [idle]; rfl)]
  | call c ok n => exact kept.called (called_of_call after)
  | pass w cas c =>
    obtain ⟨inside, looping, passed⟩ := passed_of_pass kept.ringed.counts after
    exact kept.passed inside looping passed
  | settle w =>
    simp only [Intake.step, Option.ite_none_right_eq_some, Option.some.injEq] at after
    obtain ⟨here, rfl⟩ := after
    refine kept.works rfl rfl rfl rfl .refl kept.index (by rw [here]; rfl) ?_
      (fun _ => Or.inl) ?_
    · split <;> rfl
    · intro t clash
      split at clash <;> cases clash
  | wake w =>
    simp only [Intake.step, Option.ite_none_right_eq_some, Option.some.injEq] at after
    obtain ⟨⟨here, -⟩, rfl⟩ := after
    exact kept.works rfl rfl rfl rfl .refl kept.index (by rw [here]; rfl) rfl
      (fun _ => Or.inl) fun t clash => by cases clash
  | finish w result => exact kept.finish after
  | create w handle => exact kept.create after
  | checkReady w => exact kept.checkReady after
  | bodyEnds w behaviour alloc => exact kept.bodyEnds after
  | signal w c =>
    simp only [Intake.step, Option.ite_none_right_eq_some] at after
    obtain ⟨here, signalled⟩ := after
    have looping : Advances named s live (s.setWorker w .looping) :=
      kept.works rfl rfl rfl rfl .refl kept.index (by rw [here]; rfl) rfl
        (fun _ => Or.inl) fun t clash => by cases clash
    exact looping.trans fun later => later.signalled (signalled_of_signal signalled)
  | timerFire i alloc =>
    simp only [Intake.step, Option.map_eq_some_iff] at after
    obtain ⟨pool, fired, rfl⟩ := after
    exact kept.timerFire fired
  | post | join =>
    simp only [Intake.step, Option.ite_none_right_eq_some, Option.some.injEq] at after
    obtain ⟨-, rfl⟩ := after
    exact kept.advance ringed .refl kept.index (fun _ => Or.inl) rfl rfl rfl
      (fun _ => Or.inl) kept.plain
  | cancel data =>
    cases after
    obtain ⟨live', calls⟩ := ThreadPool.calls_cancel kept.good kept.index
      (fun x parked => kept.tokens x (Or.inl parked)) data
    exact kept.cancels (kept.calls (ThreadPool.Sheds.cancel s.pool data).frame calls)
  | cancelById id alloc =>
    cases after
    exact kept.cancels (kept.cancelById alloc allowed)
  | cancelAll =>
    cases after
    obtain ⟨live', calls⟩ := ThreadPool.calls_cancelAll kept.good kept.index
    exact kept.cancels (kept.calls (ThreadPool.Sheds.cancelAll s.pool).frame calls)
  | shutdown =>
    simp only [Intake.step] at after
    split at after
    · cases after
      exact kept.rests
    · cases after
      exact kept.advance ringed .refl kept.index (fun _ => Or.inl) rfl rfl rfl
        (fun _ => Or.inl) kept.plain

theorem start (config : Config) (processors clients : Nat) :
    Kept named (Intake.start config processors clients) ∅ where
  ringed := Ringed.start config processors clients
  good := by
    apply Good.start
    · intro site
      cases site with
      | client c counted => rfl
      | pooled => exact pooled_poolInit _
      | lane => exact lanes_poolInit (settings config processors)
      | running w => rfl
    · rfl
    · rfl
    · exact fun _ => rfl
    · rfl
    · exact fun _ => ⟨rfl, rfl, rfl⟩
  index := (tracked_poolInit (settings config processors)).holds
  stale := by
    rintro t ⟨h, -, -, named⟩
    cases named
  housed := by
    intro t low high
    change t ≤ 1 at high
    omega
  tokens := by
    rintro t ((⟨w, ready⟩ | ⟨entry, asleep, -⟩) | ⟨w, busy⟩)
    · cases ready
    · cases asleep
    · cases busy
  plain := fun _ => nofun

end Kept

end Loomworks.Pool.Intake

import Loomworks.IntakeSteps
import Loomworks.PoolQueues
import Loomworks.RingSafety
import Loomworks.RingSizing

/- The ring of the submit machine is the ring of the queue module: a client in ring_try_enqueue is
a producer, and a pass that takes a batch is a whole call of ring_bulk_try_dequeue. -/
namespace Loomworks.Pool

namespace ThreadPool

variable {s s' : ThreadPool} {w t : Nat}

theorem ring_fetchTask (s : ThreadPool) (w : Nat) (cas : Bool) :
    ∃ n, (s.fetchTask w cas).1.ring = s.ring.drop n := by
  have lane : ∀ {maxPriority : Nat} {t : Nat} {s₁ s' : ThreadPool},
      s₁.takeLane maxPriority = some (t, s') → s'.ring = s₁.ring := by
    intro maxPriority t s₁ s' taken
    unfold takeLane at taken
    split at taken
    · cases taken
    · cases taken
      rfl
  have elsewhere : (s.fetchElsewhere w).1.ring = s.ring := by
    unfold fetchElsewhere
    split
    · rename_i found
      obtain ⟨v, -, stolen⟩ := List.exists_of_findSome?_eq_some found
      unfold dequeSteal at stolen
      split at stolen
      · cases stolen
      · cases stolen
        rfl
    · split
      · rfl
      · split
        · rename_i taken
          exact lane taken
        · rfl
  unfold fetchTask
  split
  · rename_i urgent
    split at urgent
    · exact ⟨0, lane urgent⟩
    · cases urgent
  · split
    · rename_i mode
      split
      · rename_i popped
        unfold dequePop at popped
        split at popped
        · cases popped
        · cases popped
          exact ⟨0, rfl⟩
      · rename_i missed
        have empty : s.deque w = [] := by
          unfold dequePop at missed
          split at missed
          · assumption
          · cases missed
        obtain ⟨deques, shape⟩ := Option.isSome_iff_exists.mp mode
        rw [deque_of_some shape] at empty
        have step2 : (if s.ringSize ≠ 0 then s.fetchRing w cas else (s, none)) = (s, none) ∨
            ∃ t rest total, (if s.ringSize ≠ 0 then s.fetchRing w cas else (s, none)) =
              ({ s with
                ring := s.ring.drop bulkDequeue
                deques := some (Function.update deques w rest)
                dequeTotal := total }, some (t, true)) := by
          split
          · rcases fetchRing_cases cas shape empty with ⟨same, -⟩ | ⟨t, rest, -, same⟩
            · exact Or.inl same
            · exact Or.inr ⟨t, rest, _, same⟩
          · exact Or.inl rfl
        rcases step2 with same | ⟨t, rest, total, same⟩
        · rw [same]
          exact ⟨0, elsewhere⟩
        · rw [same]
          exact ⟨bulkDequeue, rfl⟩
    · split
      · exact ⟨0, rfl⟩
      · split
        · rename_i taken
          exact ⟨0, lane taken⟩
        · exact ⟨0, rfl⟩

end ThreadPool

namespace Intake

open SeqRing

/-- Where a client is in ring_try_enqueue; the insert into the index comes before the publish. -/
def CallPc.producer : CallPc → RingQueue.ProducerPc
  | .loadTail t => .loadTail t
  | .loadSeq t tail => .loadSeq t tail
  | .casTail t tail => .casTail t tail
  | .storeTask t pos => .storeTask t pos
  | .insert t pos | .publish t pos => .publish t pos
  | _ => .idle

/-- The task has its position in the ring and is not in ring_count. -/
def CallPc.uncounted : CallPc → List Nat
  | .storeTask t _ | .insert t _ | .publish t _ | .addCount t => [t]
  | _ => []

/-- The call goes to the ring. -/
def CallPc.onRing : CallPc → Bool
  | .create | .addLen _ | .loadTail _ | .loadSeq .. | .casTail .. | .storeTask .. | .insert ..
  | .publish .. | .addCount _ | .subLen _ => true
  | _ => false

namespace State

/-- The ring with the clients as its producers. -/
def queue (s : State) : RingQueue.State where
  ring := s.ring
  history := s.history
  producers := fun c => (s.clients c).pc.producer
  batches := [(s.history.claimed.take s.ring.head).map some]

def uncounted (s : State) : List Nat := Bins.all s.clientCount fun c => (s.clients c).pc.uncounted

end State

/-- What holds of the ring in every state. -/
structure Ringed (s : State) : Prop where
  idle : ∀ c, s.clientCount ≤ c → (s.clients c).pc = .idle
  counts : s.pool.workerCount ≤ s.pool.maxWorkerCount
  size : s.ring.size = s.pool.ringSize
  sound : s.pool.ringSize ≠ 0 → RingQueue.Sound s.queue
  dry : s.pool.ringSize = 0 → s.history.claimed = [] ∧ ∀ c, (s.clients c).pc.onRing = false
  released : ∀ p < s.ring.head, s.history.released p = true
  listed : s.pool.ring = s.history.claimed.drop s.ring.head
  count : s.ringCount + s.uncounted.length = s.pool.ring.length

variable {s s' : State} {c w : Nat}

theorem queue_client (s : State) (c : Nat) (client : Client) :
    State.queue { s with clients := Function.update s.clients c client } =
      s.queue.setProducer c client.pc.producer := by
  show RingQueue.State.mk _ _ _ (fun i => (Function.update s.clients c client i).pc.producer) _ _ _ =
    RingQueue.State.mk _ _ _ (Function.update s.queue.producers c client.pc.producer) _ _ _
  congr 1
  funext i
  by_cases own : i = c
  · subst own
    rw [Function.update_self, Function.update_self]
  · rw [Function.update_of_ne own, Function.update_of_ne own]
    rfl

theorem length_uncounted (inside : c < s.clientCount) (client : Client) :
    (State.uncounted { s with clients := Function.update s.clients c client }).length +
      (s.clients c).pc.uncounted.length = s.uncounted.length + client.pc.uncounted.length := by
  have lists : (fun i => (Function.update s.clients c client i).pc.uncounted) =
      Function.update (fun i => (s.clients i).pc.uncounted) c client.pc.uncounted := by
    funext i
    by_cases own : i = c
    · subst own
      rw [Function.update_self, Function.update_self]
    · rw [Function.update_of_ne own, Function.update_of_ne own]
  have exchanged := (@Bins.all_update _ s.clientCount c (fun i => (s.clients i).pc.uncounted) inside
    client.pc.uncounted).length_eq
  rw [List.length_append, List.length_append] at exchanged
  unfold State.uncounted
  show (Bins.all s.clientCount fun i => (Function.update s.clients c client i).pc.uncounted).length + _ = _
  rw [lists]
  exact exchanged

namespace Ringed

theorem inside_of_client {pc : CallPc} (ringed : Ringed s) (here : (s.clients c).pc = pc)
    (busy : pc ≠ .idle) : c < s.clientCount := by
  by_contra outside
  exact busy (here.symm.trans (ringed.idle c (Nat.not_lt.mp outside)))

theorem client (ringed : Ringed s) (inside : c < s.clientCount) (client : Client)
    {pool : ThreadPool} {ring : SeqRing.Ring Nat} {history : History Nat} {ringCount : Int}
    {node tenant : Nat → Nat} {accepted : List Nat} (settings : pool.settings = s.pool.settings) (size : ring.size = s.ring.size)
    (sound : s.pool.ringSize ≠ 0 → RingQueue.Sound
      ({ s.queue with ring, history }.setProducer c client.pc.producer))
    (head : ring.head = s.ring.head) (front : ∀ p, s.history.released p = true → history.released p = true)
    (dry : s.pool.ringSize = 0 → history.claimed = [] ∧ client.pc.onRing = false)
    (claimed : history.claimed.take ring.head = s.history.claimed.take s.ring.head)
    (listed : pool.ring = history.claimed.drop ring.head)
    (count : ringCount + s.uncounted.length + client.pc.uncounted.length =
      pool.ring.length + (s.clients c).pc.uncounted.length) :
    Ringed { s with
      pool, ring, history, ringCount, node, tenant, accepted
      clients := Function.update s.clients c client } := by
  obtain ⟨workerCount, maxWorkerCount, ringSize⟩ := ThreadPool.sizes_of_settings settings
  exact {
    idle := by
      intro i outside
      have other : i ≠ c := by
        rintro rfl
        exact absurd inside (Nat.not_lt.mpr outside)
      show (Function.update s.clients c client i).pc = _
      rw [Function.update_of_ne other]
      exact ringed.idle i outside
    counts := by
      show pool.workerCount ≤ pool.maxWorkerCount
      rw [workerCount, maxWorkerCount]
      exact ringed.counts
    size := by
      show ring.size = pool.ringSize
      rw [size, ringSize]
      exact ringed.size
    sound := by
      intro nonzero
      have sound := sound (ringSize ▸ nonzero)
      have same := queue_client { s with pool, ring, history, ringCount } c client
      have batches : State.queue { s with pool, ring, history, ringCount } =
          { s.queue with ring, history } := by
        show RingQueue.State.mk _ _ _ _ _ _ [(history.claimed.take ring.head).map some] = _
        rw [claimed]
        rfl
      rw [batches] at same
      exact same ▸ sound
    dry := by
      intro zero
      have zero : s.pool.ringSize = 0 := ringSize ▸ zero
      refine ⟨(dry zero).1, ?_⟩
      intro i
      show (Function.update s.clients c client i).pc.onRing = false
      by_cases own : i = c
      · rw [own, Function.update_self]
        exact (dry zero).2
      · rw [Function.update_of_ne own]
        exact (ringed.dry zero).2 i
    released := by
      intro p before
      have before : p < ring.head := before
      rw [head] at before
      exact front p (ringed.released p before)
    listed := listed
    count := by
      have lengths := length_uncounted inside client
      show ringCount + (State.uncounted { s with clients := Function.update s.clients c client }).length =
        pool.ring.length
      omega }

/-- A client moves away from the ring, or towards it. -/
theorem aside (ringed : Ringed s) (inside : c < s.clientCount) (client : Client)
    {pool : ThreadPool} {node tenant : Nat → Nat} {accepted : List Nat}
    (settings : pool.settings = s.pool.settings) (ring : pool.ring = s.pool.ring)
    (quiet : client.pc.producer = .idle ∨ ∃ t, client.pc.producer = .loadTail t)
    (dry : s.pool.ringSize = 0 → client.pc.onRing = false)
    (before : (s.clients c).pc.uncounted = []) (after : client.pc.uncounted = []) :
    Ringed { s with
      pool, node, tenant, accepted, clients := Function.update s.clients c client } := by
  have sound : s.pool.ringSize ≠ 0 →
      RingQueue.Sound (s.queue.setProducer c client.pc.producer) := by
    intro nonzero
    apply (ringed.sound nonzero).setProducer
    · rcases quiet with same | ⟨t, same⟩ <;> rw [same] <;> trivial
    · rcases quiet with same | ⟨t, same⟩ <;> rw [same] <;> exact fun _ none => none.elim
  have count := ringed.count
  refine ringed.client inside client settings rfl sound rfl (fun _ done => done)
    (fun zero => ⟨(ringed.dry zero).1, dry zero⟩) rfl (ring.trans ringed.listed) ?_
  rw [before, after, ring]
  omega

/-- A call that has nothing to do with the ring goes on, or returns. -/
theorem turns {pc : CallPc} (ringed : Ringed s) (here : (s.clients c).pc = pc) (client : Client)
    {pool : ThreadPool} {node tenant : Nat → Nat} {accepted : List Nat} (busy : pc ≠ .idle)
    (before : pc.uncounted = []) (settings : pool.settings = s.pool.settings)
    (ring : pool.ring = s.pool.ring) (off : client.pc.producer = .idle) (dry : client.pc.onRing = false)
    (after : client.pc.uncounted = []) :
    Ringed { s with
      pool, node, tenant, accepted, clients := Function.update s.clients c client } :=
  ringed.aside (ringed.inside_of_client here busy) client settings ring (Or.inl off) (fun _ => dry)
    (by rw [here]; exact before) after

theorem onRing_route (nonzero : s.pool.ringSize = 0) (request : Request) :
    (s.route request).onRing = false := by
  unfold State.route
  rw [if_neg fun path => path.2.1 nonzero]
  rfl

theorem producer_route (request : Request) : (s.route request).producer = .idle := by
  unfold State.route
  split <;> rfl

theorem uncounted_route (request : Request) : (s.route request).uncounted = [] := by
  unfold State.route
  split <;> rfl

theorem walk {ok : Bool} {pc : CallPc} (ringed : Ringed s) (walk : Walk s c ok (s.clients c).pc pc) :
    Ringed (s.setPc c pc) := by
  generalize here : (s.clients c).pc = from_ at walk
  have inside : from_ ≠ .idle → c < s.clientCount := fun busy =>
    ringed.inside_of_client here busy
  have plain : ∀ next : CallPc, from_ ≠ .idle → from_.uncounted = [] →
      (next.producer = .idle ∨ ∃ t, next.producer = .loadTail t) → next.uncounted = [] →
      (s.pool.ringSize = 0 → next.onRing = false) → Ringed (s.setPc c next) := by
    intro next busy before quiet after dry
    exact ringed.aside (inside busy) { s.clients c with pc := next } rfl rfl quiet dry
      (by rw [here]; exact before) after
  have routed : from_ ≠ .idle → from_.uncounted = [] →
      Ringed (s.setPc c (s.route (s.clients c).request)) := fun busy before =>
    plain _ busy before (Or.inl (producer_route _)) (uncounted_route _) fun zero => onRing_route zero _
  -- a step inside ring_try_enqueue that leaves the ring as it is
  have within : ∀ next : CallPc, from_ ≠ .idle → from_.uncounted = [] → from_.onRing = true →
      next.uncounted = [] →
      (∀ sound : RingQueue.Sound s.queue, RingQueue.ProducerOk s.ring s.history next.producer ∧
        ∀ p, ¬next.producer.owns p) → Ringed (s.setPc c next) := by
    intro next busy before path after own
    have count := ringed.count
    refine ringed.client (inside busy) { s.clients c with pc := next } rfl rfl ?_ rfl
      (fun _ done => done) ?_ rfl ringed.listed ?_
    · intro nonzero
      have sound := ringed.sound nonzero
      exact sound.setProducer (own sound).1 fun p mine => absurd mine ((own sound).2 p)
    · intro zero
      have off := (ringed.dry zero).2 c
      rw [here, path] at off
      cases off
    · rw [here, before, after]
      omega
  cases walk with
  | coroutine _ _ | bounded _ _ _ | crowded _ | blocks _ _ | quits _ | waits _ _ _ =>
    exact plain _ nofun rfl (Or.inl rfl) rfl fun _ => rfl
  | unbounded _ _ _ | room _ | slips _ | leaves _ _ _ => exact routed nofun rfl
  | loadTail | retry =>
    exact within _ nofun rfl rfl rfl fun _ => ⟨Nat.le_refl _, fun _ => not_false⟩
  | free read =>
    rename_i t tail
    refine within _ nofun rfl rfl rfl fun sound => ⟨⟨?_, ?_⟩, fun _ => not_false⟩
    · have own := sound.producers c
      have shape : s.queue.producers c = .loadSeq t tail := congrArg CallPc.producer here
      rw [shape] at own
      exact own
    · intro same
      rw [← same] at read
      exact sound.valid.free_of_seq read
  | taken => exact within _ nofun rfl rfl rfl fun _ => ⟨trivial, fun _ => not_false⟩

theorem nonzero {pc : CallPc} (ringed : Ringed s) (here : (s.clients c).pc = pc)
    (path : pc.onRing = true) : s.pool.ringSize ≠ 0 := by
  intro zero
  have off := (ringed.dry zero).2 c
  rw [here, path] at off
  cases off

theorem claims {t : Nat} (ringed : Ringed s) (here : (s.clients c).pc = .casTail t s.ring.tail) :
    Ringed ({ s with
      ring := s.ring.claim
      history := s.history.claim t
      pool := { s.pool with ring := s.pool.ring ++ [t] } }.setPc c (.storeTask t s.ring.tail)) := by
  have inside := ringed.inside_of_client here (by simp)
  have nonzero := ringed.nonzero here rfl
  have sound := ringed.sound nonzero
  have own := sound.producers c
  have shape : s.queue.producers c = .casTail t s.ring.tail := congrArg CallPc.producer here
  rw [shape] at own
  have free := own.2 rfl
  have size : s.history.claimed.length = s.ring.tail := sound.valid.count
  have low : s.ring.head ≤ s.ring.tail := sound.valid.low
  have low : s.ring.head ≤ s.history.claimed.length := by omega
  have count := ringed.count
  refine ringed.client inside { s.clients c with pc := .storeTask t s.ring.tail } rfl rfl
    (fun _ => sound.claims free.1 free.2 t) rfl (fun _ done => done)
    (fun zero => absurd zero nonzero) ?_ ?_ ?_
  · exact List.take_append_of_le_length low
  · show s.pool.ring ++ [t] = (s.history.claimed ++ [t]).drop s.ring.head
    rw [List.drop_append_of_le_length low, ringed.listed]
  · rw [here, List.length_append]
    simp only [CallPc.uncounted, List.length_cons, List.length_nil]
    omega

theorem stores {t pos : Nat} (ringed : Ringed s) (here : (s.clients c).pc = .storeTask t pos) :
    Ringed ({ s with ring := s.ring.fill pos t }.setPc c (.insert t pos)) := by
  have inside := ringed.inside_of_client here (by simp)
  have nonzero := ringed.nonzero here rfl
  have shape : s.queue.producers c = .storeTask t pos := congrArg CallPc.producer here
  have count := ringed.count
  refine ringed.client inside { s.clients c with pc := .insert t pos } rfl rfl
    (fun _ => (ringed.sound nonzero).fills shape) rfl (fun _ done => done)
    (fun zero => absurd zero nonzero) rfl ringed.listed ?_
  rw [here]
  simp only [CallPc.uncounted, List.length_cons, List.length_nil]
  omega

theorem inserts {t pos : Nat} {index : CancelIndex} (ringed : Ringed s)
    (here : (s.clients c).pc = .insert t pos) :
    Ringed ({ s with pool := { s.pool with index } }.setPc c (.publish t pos)) := by
  have inside := ringed.inside_of_client here (by simp)
  have nonzero := ringed.nonzero here rfl
  have sound := ringed.sound nonzero
  have own := sound.producers c
  have shape : s.queue.producers c = .publish t pos := congrArg CallPc.producer here
  rw [shape] at own
  have count := ringed.count
  refine ringed.client inside { s.clients c with pc := .publish t pos } rfl rfl
    (fun _ => sound.setProducer own ?_) rfl (fun _ done => done)
    (fun zero => absurd zero nonzero) rfl ringed.listed ?_
  · intro p mine
    rw [shape]
    exact mine
  · rw [here]
    simp only [CallPc.uncounted, List.length_cons, List.length_nil]
    omega

theorem publishes {t pos : Nat} (ringed : Ringed s) (here : (s.clients c).pc = .publish t pos) :
    Ringed ({ s with
      ring := s.ring.publish pos, history := s.history.publish pos }.setPc c (.addCount t)) := by
  have inside := ringed.inside_of_client here (by simp)
  have nonzero := ringed.nonzero here rfl
  have shape : s.queue.producers c = .publish t pos := congrArg CallPc.producer here
  have published := (ringed.sound nonzero).publishes shape
  have sound : RingQueue.Sound ({ s.queue with
      ring := s.ring.publish pos, history := s.history.publish pos }.setProducer c .idle) := by
    -- the producer is done once it has published
    have done : RingQueue.Sound (RingQueue.State.setProducer _ c .idle) :=
      published.setProducer trivial fun _ none => none.elim
    have twice : ({ s.queue with
        ring := s.ring.publish pos, history := s.history.publish pos }.setProducer c
          (.addCount t pos)).setProducer c .idle = { s.queue with
        ring := s.ring.publish pos, history := s.history.publish pos }.setProducer c .idle := by
      unfold RingQueue.State.setProducer
      simp only [Function.update_idem]
    exact twice ▸ done
  have count := ringed.count
  refine ringed.client inside { s.clients c with pc := .addCount t } rfl rfl (fun _ => sound) rfl
    (fun _ done => done) (fun zero => absurd zero nonzero) rfl ringed.listed ?_
  rw [here]
  simp only [CallPc.uncounted, List.length_cons, List.length_nil]
  omega

theorem addCount {t : Nat} (ringed : Ringed s) (here : (s.clients c).pc = .addCount t) :
    Ringed ({ s with ringCount := s.ringCount + 1 }.setPc c (.post t)) := by
  have inside := ringed.inside_of_client here (by simp)
  have nonzero := ringed.nonzero here rfl
  have count := ringed.count
  refine ringed.client inside { s.clients c with pc := .post t } rfl rfl
    (fun _ => (ringed.sound nonzero).setProducer trivial fun _ none => none.elim) rfl
    (fun _ done => done) (fun zero => absurd zero nonzero) rfl ringed.listed ?_
  rw [here]
  simp only [CallPc.uncounted, List.length_cons, List.length_nil]
  omega

theorem called {ok : Bool} {n : Nat} (ringed : Ringed s) (called : Called s c ok n s') : Ringed s' := by
  cases called with
  | walks walk => exact ringed.walk walk
  | gives here failed =>
    have busy : (s.clients c).pc ≠ .idle := fun idle => by rw [idle] at here; cases here
    have before : (s.clients c).pc.uncounted = [] := by
      cases place : (s.clients c).pc <;> first | rfl | (rw [place] at here; cases here)
    exact ringed.aside (ringed.inside_of_client rfl busy) { s.clients c with pc := .idle, result := _ } rfl rfl
      (Or.inl rfl) (fun _ => rfl) before rfl
  | lane here | posts here =>
    exact ringed.turns here { s.clients c with pc := .idle, result := .ok } (by simp) rfl rfl rfl rfl rfl rfl
  | creates here vacant =>
    have inside := ringed.inside_of_client here (by simp)
    have nonzero := ringed.nonzero here rfl
    exact ringed.aside inside { s.clients c with pc := .addLen _ } rfl rfl (Or.inl rfl)
      (fun zero => absurd zero nonzero) (by rw [here]; rfl) rfl
  | addLen here =>
    have inside := ringed.inside_of_client here (by simp)
    have nonzero := ringed.nonzero here rfl
    exact ringed.aside inside { s.clients c with pc := .loadTail _ } rfl rfl (Or.inr ⟨_, rfl⟩)
      (fun zero => absurd zero nonzero) (by rw [here]; rfl) rfl
  | subLen here =>
    exact ringed.turns here { s.clients c with pc := .spill _ } (by simp) rfl rfl rfl rfl rfl rfl
  | spillRefused here failed =>
    exact ringed.turns here { s.clients c with pc := .idle, result := _ } (by simp) rfl rfl rfl rfl rfl rfl
  | spills here open_ space =>
    exact ringed.turns here { s.clients c with pc := .post _ } (by simp) rfl rfl rfl rfl rfl rfl
  | claims here => exact ringed.claims here
  | stores here => exact ringed.stores here
  | inserts here => exact ringed.inserts here
  | publishes here => exact ringed.publishes here
  | counts here => exact ringed.addCount here

theorem valid (ringed : Ringed s) (nonzero : s.pool.ringSize ≠ 0) : Valid s.ring s.history :=
  (ringed.sound nonzero).valid

/-- A worker sees the published tasks at the front of the ring. -/
theorem visible_eq (ringed : Ringed s) : ∃ k ≤ s.pool.ring.length,
    s.visible = s.pool.ring.take k ∧ ∀ j < k, s.history.published (s.ring.head + j) = true := by
  by_cases zero : s.pool.ringSize = 0
  · refine ⟨0, Nat.zero_le _, ?_, fun j below => absurd below (Nat.not_lt_zero j)⟩
    unfold State.visible
    rw [ringed.size, zero]
    rfl
  · have valid := ringed.valid zero
    obtain ⟨k, -, shape, front, -⟩ := valid.run_eq s.ring.size (Nat.le_refl s.ring.head)
    rw [← ringed.listed] at shape
    refine ⟨min k s.pool.ring.length, Nat.min_le_right _ _, ?_, fun j below => front j (by omega)⟩
    unfold State.visible
    rw [shape]
    rcases Nat.le_total k s.pool.ring.length with short | long
    · rw [Nat.min_eq_left short]
    · rw [Nat.min_eq_right long, List.take_of_length_le long, List.take_length]

/-- Positions that were taken are given back by the pass that took them. -/
theorem taken (ringed : Ringed s) {pool : ThreadPool} {n : Nat}
    (settings : pool.settings = s.pool.settings) (short : n ≤ s.pool.ring.length)
    (ready : ∀ j < n, s.history.published (s.ring.head + j) = true) : Ringed (s.taken pool n) := by
  obtain ⟨workerCount, maxWorkerCount, ringSize⟩ := ThreadPool.sizes_of_settings settings
  have size : (s.taken pool n).ring.size = s.ring.size := Ring.size_releaseRun _ _ _
  have claimed : (s.taken pool n).history.claimed = s.history.claimed := History.claimed_releaseRun _ _ _
  by_cases zero : s.pool.ringSize = 0
  · have bare : s.pool.ring = [] := by rw [ringed.listed, (ringed.dry zero).1, List.drop_nil]
    have none_ : n = 0 := by
      rw [bare] at short
      exact Nat.le_zero.mp short
    subst none_
    rw [taken_zero]
    exact {
      idle := ringed.idle
      counts := by
        show pool.workerCount ≤ pool.maxWorkerCount
        rw [workerCount, maxWorkerCount]
        exact ringed.counts
      size := ringed.size.trans ringSize.symm
      sound := fun nonzero => absurd (ringSize.trans zero) nonzero
      dry := fun _ => ringed.dry zero
      released := ringed.released
      listed := ringed.listed
      count := ringed.count }
  · have sound := ringed.sound zero
    have valid := sound.valid.take ready
    have fresh : ∀ q, s.ring.head ≤ q → s.history.released q = false := by
      intro q later
      apply eq_false_of_ne_true
      intro done
      have before := sound.valid.freed q done
      exact absurd before (Nat.not_lt.mpr later)
    obtain ⟨after, head, released⟩ := valid.releaseRun (p := s.ring.head) n (Nat.le_refl _)
      fun q low _ => fresh q low
    have head : (s.taken pool n).ring.head = s.ring.head + n := head
    have tail : (s.taken pool n).ring.tail = s.ring.tail := Ring.tail_releaseRun _ _ _
    have slot : (s.taken pool n).ring.slot = s.ring.slot := Ring.slot_releaseRun _ _ _
    have published : (s.taken pool n).history.published = s.history.published :=
      History.published_releaseRun _ _ _
    have listed : (s.taken pool n).pool.ring =
        (s.taken pool n).history.claimed.drop (s.taken pool n).ring.head := by
      show s.pool.ring.drop n = _
      rw [claimed, head, ringed.listed, List.drop_drop]
    exact {
      idle := ringed.idle
      counts := by
        show pool.workerCount ≤ pool.maxWorkerCount
        rw [workerCount, maxWorkerCount]
        exact ringed.counts
      size := by
        show _ = pool.ringSize
        rw [size, ringSize]
        exact ringed.size
      sound := by
        intro _
        have evolves : RingQueue.Evolves s.ring s.history (s.taken pool n).ring (s.taken pool n).history := by
          refine ⟨size, ?_, ?_, ?_, ?_, ?_⟩
          · rw [head]
            omega
          · rw [tail]
          · intro p _
            rw [claimed]
          · intro p done
            rw [published]
            exact done
          · exact fun p done => (released p).mpr (Or.inl done)
        have slots : ∀ p, (s.taken pool n).ring.slot ((s.taken pool n).ring.cell p) =
            s.ring.slot (s.ring.cell p) := by
          intro p
          unfold Ring.cell
          rw [slot, size]
        have moved : RingQueue.Sound ({ s.queue with
            ring := (s.taken pool n).ring
            history := (s.taken pool n).history
            batches := [(s.history.claimed.take (s.taken pool n).ring.head).map some] }.setConsumer 0
              .idle) :=
          sound.consumerMoves after evolves claimed published slots (fun _ _ _ held => held.elim) trivial
            (fun _ held => held.elim) List.flatten_singleton
        exact ⟨moved.valid, moved.producers, fun _ => trivial, moved.owners, fun _ _ _ held => held.elim,
          List.flatten_singleton, moved.accepted, moved.once, moved.answered⟩
      dry := fun none_ => absurd (ringSize.symm.trans none_) zero
      released := by
        intro p before
        refine (released p).mpr ?_
        rw [head] at before
        rcases Nat.lt_or_ge p s.ring.head with old | new
        · exact Or.inl (ringed.released p old)
        · exact Or.inr ⟨new, before⟩
      listed := listed
      count := by
        have count := ringed.count
        show s.ringCount - n + s.uncounted.length = (s.pool.ring.drop n).length
        rw [List.length_drop]
        omega }

theorem keep (ringed : Ringed s) (clients : s'.clients = s.clients)
    (clientCount : s'.clientCount = s.clientCount) (ring : s'.ring = s.ring)
    (history : s'.history = s.history) (ringCount : s'.ringCount = s.ringCount)
    (settings : s'.pool.settings = s.pool.settings) (list : s'.pool.ring = s.pool.ring) : Ringed s' := by
  obtain ⟨workerCount, maxWorkerCount, ringSize⟩ := ThreadPool.sizes_of_settings settings
  have queue : s'.queue = s.queue := by
    unfold State.queue
    rw [ring, history, clients]
  have uncounted : s'.uncounted = s.uncounted := by
    unfold State.uncounted
    rw [clients, clientCount]
  exact {
    idle := by rw [clients, clientCount]; exact ringed.idle
    counts := by rw [workerCount, maxWorkerCount]; exact ringed.counts
    size := by rw [ring, ringSize]; exact ringed.size
    sound := by rw [queue, ringSize]; exact ringed.sound
    dry := by rw [history, clients, ringSize]; exact ringed.dry
    released := by rw [ring, history]; exact ringed.released
    listed := by rw [ring, history, list]; exact ringed.listed
    count := by rw [ringCount, uncounted, list]; exact ringed.count }

theorem ofFrame (ringed : Ringed s) (pool : ThreadPool) (frame : pool.frame = s.pool.frame) :
    Ringed { s with pool } :=
  ringed.keep rfl rfl rfl rfl rfl (ThreadPool.settings_of_frame frame)
    (congrArg ThreadPool.Frame.ring frame)

theorem signalled (ringed : Ringed s) (signalled : Signalled s c s') : Ringed s' := by
  cases signalled with
  | unbounded | nobody => exact ringed
  | wakes here =>
    exact ringed.turns here { s.clients c with pc := .blocked true } (by simp) rfl rfl rfl rfl rfl rfl

end Ringed

/-- What a pass that finds a task takes it from. -/
inductive Drawn (s : State) : State → Nat → Bool → Prop
  | lane {t : Nat} {lanes : Nat → List Nat}
      (left : (laneTasks s.pool.lanes).Perm (t :: laneTasks lanes)) :
      Drawn s { s with pool := { s.pool with lanes, queueLen := s.pool.queueLen - 1 } } t false
  | ring {t n : Nat} {deques : Option (Nat → List Nat)} {dequeTotal : Int}
      (short : n ≤ s.pool.ring.length) (ready : ∀ j < n, s.history.published (s.ring.head + j) = true)
      (seen : t ∈ s.seen.pooled)
      (left : s.pool.pooled.Perm (t :: ThreadPool.pooled
        { s.pool with ring := s.pool.ring.drop n, deques, dequeTotal }))
      (total : dequeTotal - (ThreadPool.dequeTasks { s.pool with deques }).length =
        s.pool.dequeTotal - s.pool.dequeTasks.length) :
      Drawn s (s.taken { s.pool with deques, dequeTotal } n) t true

theorem drawn_of_fetch {cas fromRing : Bool} {t : Nat} (ringed : Ringed s)
    (inside : w < s.pool.workerCount) (found : (s.fetch w cas).2 = some (t, fromRing)) :
    Drawn s (s.fetch w cas).1 t fromRing := by
  have fetched := fetched_seen cas ringed.counts (Nat.lt_of_lt_of_le inside ringed.counts)
  obtain ⟨n, suffix⟩ := ThreadPool.ring_fetchTask s.seen w cas
  obtain ⟨k, bound, shape, front⟩ := ringed.visible_eq
  have shuffled := @ThreadPool.shuffles_fetchTask s.seen w ringed.counts inside cas
  have length : s.visible.length = k := by
    rw [shape, List.length_take, Nat.min_eq_left bound]
  change (s.seen.fetchTask w cas).2 = some (t, fromRing) at found
  change Drawn s (s.taken (s.seen.fetchTask w cas).1
    (s.visible.length - (s.seen.fetchTask w cas).1.ring.length)) t fromRing
  generalize s.seen.fetchTask w cas = result at fetched found suffix shuffled
  cases fetched with
  | nothing => cases found
  | lane left =>
    cases found
    show Drawn s (s.taken _ (s.visible.length - s.visible.length)) t false
    rw [Nat.sub_self, taken_zero]
    exact Drawn.lane left
  | @ring t ring deques dequeTotal left fits =>
    cases found
    have suffix : ring = s.visible.drop n := suffix
    show Drawn s (s.taken { s.pool with deques, dequeTotal } (s.visible.length - ring.length)) t true
    have taken : s.visible.length - ring.length = min n k := by
      rw [suffix, List.length_drop, length]
      omega
    have rest : s.pool.ring.drop (min n k) = ring ++ s.pool.ring.drop k := by
      rw [suffix, shape]
      rcases Nat.le_total n k with low | high
      · rw [Nat.min_eq_left low]
        nth_rewrite 1 [← List.take_append_drop k s.pool.ring]
        rw [List.drop_append_of_le_length (by rw [List.length_take]; omega)]
      · have gone : (s.pool.ring.take k).drop n = [] :=
          List.drop_eq_nil_of_le (by rw [List.length_take]; omega)
        rw [Nat.min_eq_right high, gone, List.nil_append]
    rw [taken]
    refine Drawn.ring (by omega) (fun j below => front j (by omega)) ?_ ?_ shuffled.total
    · exact left.mem_iff.mpr List.mem_cons_self
    · -- the unpublished positions stay behind the ones that were taken
      apply List.perm_iff_count.mpr
      intro x
      have before := List.perm_iff_count.mp left x
      have whole : s.pool.ring.count x = s.visible.count x + (s.pool.ring.drop k).count x := by
        rw [shape, ← List.count_append, List.take_append_drop]
      have same : ThreadPool.dequeTasks { s.seen with ring, deques, dequeTotal } =
          ThreadPool.dequeTasks { s.pool with
            ring := s.pool.ring.drop (min n k), deques, dequeTotal } := rfl
      have seen : s.seen.dequeTasks = s.pool.dequeTasks := rfl
      have front : s.seen.ring = s.visible := rfl
      unfold ThreadPool.pooled at before ⊢
      rw [same, seen, front] at before
      simp only [List.count_append, List.count_cons, rest] at before ⊢
      omega

theorem frame_unindexed (pool : ThreadPool) (t : Nat) (fromRing : Bool) :
    (unindexed pool t fromRing).frame = pool.frame := by
  unfold unindexed
  split <;> rfl

/-- The limit on queue_capacity limits the ring, too. -/
theorem ringSize_le (config : Config) (processors : Nat) :
    (settings config processors).ringSize ≤ 2 ^ 21 := by
  have limit := settings_queueCapacity config processors
  unfold Config.ringSize
  split
  · split
    · decide
    · exact (nextPow2_bounds _ 21).2 (by omega)
  · exact Nat.zero_le _

theorem two_le_ringSize (config : Config) (nonzero : config.ringSize ≠ 0) : 2 ≤ config.ringSize := by
  unfold Config.ringSize at nonzero ⊢
  split
  · split
    · decide
    · rename_i bounded
      have positive : config.queueCapacity.toNat ≠ 0 := by
        intro zero
        exact bounded (UInt32.toNat_inj.mp zero)
      have large := (nextPow2_bounds config.queueCapacity 0).1
      omega
  · rename_i missing
    exact absurd (if_neg missing) nonzero

theorem settings_drawn {s₁ : State} {t : Nat} {fromRing : Bool} (drawn : Drawn s s₁ t fromRing) :
    s₁.pool.settings = s.pool.settings := by
  cases drawn with
  | lane left => rfl
  | ring short ready seen left total => rfl

theorem dequeTasks_calm {pool pool' : ThreadPool} (calm : ThreadPool.Steady pool pool') :
    pool'.dequeTasks = pool.dequeTasks := by
  have limit : pool'.maxWorkerCount = pool.maxWorkerCount :=
    congrArg ThreadPool.Settings.maxWorkerCount calm.settings
  have deque : pool'.deque = pool.deque := by
    funext w
    unfold ThreadPool.deque
    rw [calm.deques]
  unfold ThreadPool.dequeTasks
  rw [limit, deque]

theorem calm_boundary {t : Nat} {fromRing : Bool} (boundary : Boundary s w t fromRing c s') :
    ThreadPool.Steady s.pool s'.pool := by
  have unindexed := ThreadPool.calm_of_frame (frame_unindexed s.pool t fromRing)
  cases boundary with
  | skips flagged signalled =>
    refine unindexed.trans (ThreadPool.Steady.trans ?_ (calm_signalled signalled))
    exact ThreadPool.calm_of_frame (ThreadPool.Settles.markFutureCancelled _ t).frame
  | starts live kind next =>
    rw [next]
    exact unindexed.trans (ThreadPool.calm_of_frame rfl)
  | runs live kind signalled =>
    refine unindexed.trans (ThreadPool.Steady.trans ?_ (calm_signalled signalled))
    exact ThreadPool.calm_of_frame rfl

theorem settings_taken {label : Label} (ringed : Ringed s) (taken : Taken s s' label) :
    s'.pool.settings = s.pool.settings := by
  cases taken with
  | calls called => cases called <;> rfl
  | passes inside looping passed =>
    cases passed with
    | takes list next | exits dry drained next | idles dry undrained nothing next =>
      rw [next]
      rfl
    | fetches dry undrained found boundary =>
      exact (calm_boundary boundary).settings.trans (settings_drawn (drawn_of_fetch ringed inside found))
  | minor minor => exact minor.steady.settings

namespace Ringed

theorem drawn {s₁ : State} {t : Nat} {fromRing : Bool} (ringed : Ringed s)
    (drawn : Drawn s s₁ t fromRing) : Ringed s₁ := by
  cases drawn with
  | lane left => exact ringed.keep rfl rfl rfl rfl rfl rfl rfl
  | ring short ready seen left total => exact ringed.taken rfl short ready

theorem boundary {t : Nat} {fromRing : Bool} (ringed : Ringed s)
    (boundary : Boundary s w t fromRing c s') : Ringed s' := by
  have frame := frame_unindexed s.pool t fromRing
  cases boundary with
  | skips flagged signalled =>
    refine Ringed.signalled (ringed.ofFrame _ ?_) signalled
    exact (ThreadPool.Settles.markFutureCancelled _ t).frame.trans frame
  | starts live kind next =>
    subst next
    exact (ringed.ofFrame (unindexed s.pool t fromRing) frame).keep rfl rfl rfl rfl rfl rfl rfl
  | runs live kind signalled =>
    refine Ringed.signalled ?_ signalled
    exact (ringed.ofFrame (unindexed s.pool t fromRing) frame).keep rfl rfl rfl rfl rfl rfl rfl

theorem passed {cas : Bool} (ringed : Ringed s) (inside : w < s.pool.workerCount)
    (passed : Passed s w cas c s') : Ringed s' := by
  cases passed with
  | takes list next | exits dry drained next | idles dry undrained nothing next =>
    subst next
    exact ringed.keep rfl rfl rfl rfl rfl rfl rfl
  | fetches dry undrained found boundary =>
    exact (ringed.drawn (drawn_of_fetch ringed inside found)).boundary boundary

theorem ofTaken {label : Label} (ringed : Ringed s) (taken : Taken s s' label) : Ringed s' := by
  cases taken with
  | calls called => exact ringed.called called
  | passes inside looping passed => exact ringed.passed inside passed
  | minor minor =>
    cases minor with
    | @submits c request inside idle =>
      exact ringed.aside inside { s.clients c with pc := .check, request } rfl rfl (Or.inl rfl)
        (fun _ => rfl) (by rw [idle]; rfl) rfl
    | settles _ _ | wakes _ | posts | stays | shuts _ | joins _ _ =>
      exact ringed.keep rfl rfl rfl rfl rfl rfl rfl
    | works _ _ frame _ => exact (ringed.ofFrame _ frame).keep rfl rfl rfl rfl rfl rfl rfl
    | signals here signalled =>
      refine Ringed.signalled ?_ signalled
      exact ringed.keep rfl rfl rfl rfl rfl rfl rfl
    | fires fired => exact ringed.ofFrame _ (ThreadPool.frame_timerFire fired).1
    | cancels _ frame _ => exact ringed.ofFrame _ frame

theorem step {label : Label} (ringed : Ringed s) (after : Intake.step s label = some s') : Ringed s' :=
  ringed.ofTaken (taken_of_step ringed.counts after)

theorem start (config : Config) (processors clients : Nat) :
    Ringed (Intake.start config processors clients) where
  idle := fun _ _ => rfl
  counts := Nat.le_refl _
  size := rfl
  sound := by
    intro nonzero
    have large := two_le_ringSize (settings config processors) nonzero
    exact ⟨valid_empty large, fun _ => trivial, fun _ => trivial, fun _ _ _ none => none.elim,
      fun _ _ _ none => none.elim, rfl, fun _ none => absurd none List.not_mem_nil, List.nodup_nil,
      fun _ none => absurd none List.not_mem_nil⟩
  dry := fun _ => ⟨rfl, fun _ => rfl⟩
  released := fun p before => absurd before (Nat.not_lt_zero p)
  listed := rfl
  count := by
    have none_ : (Intake.start config processors clients).uncounted = [] := Bins.all_eq_nil fun _ _ => rfl
    rw [none_]
    rfl

end Ringed

end Intake

end Loomworks.Pool

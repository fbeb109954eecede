import Loomworks.RingQueue
import Loomworks.Threads

/- What holds of the ring in every state any interleaving of producers and
consumers reaches. -/
namespace Loomworks.Pool.RingQueue

open SeqRing Threads Transition

/-- Positions a call of ring_try_enqueue has claimed and not yet answered for. -/
def ProducerPc.owns : ProducerPc → Nat → Prop
  | .storeTask _ pos, p => p = pos
  | .publish _ pos, p => p = pos
  | .addCount _ pos, p => p = pos
  | _, _ => False

/-- Positions a call of ring_bulk_try_dequeue has taken and not yet released. -/
def ConsumerPc.frees : ConsumerPc → Nat → Prop
  | .release want out k, p => want + k ≤ p ∧ p < want + out.length
  | _, _ => False

def ProducerOk (r : SeqRing.Ring Nat) (h : History Nat) : ProducerPc → Prop
  | .loadSeq _ tail => tail ≤ r.tail
  | .casTail _ tail =>
    tail ≤ r.tail ∧ (r.tail = tail → r.tail < r.head + r.size ∧ Reusable r h r.tail)
  | .storeTask task pos => h.claimed[pos]? = some task ∧ h.published pos = false
  | .publish task pos =>
    h.claimed[pos]? = some task ∧ h.published pos = false ∧ r.slot (r.cell pos) = some task
  | .addCount task pos => h.claimed[pos]? = some task ∧ h.published pos = true
  | _ => True

/-- What was read from a head is worth something only while the head stands. -/
def Reads (r : SeqRing.Ring Nat) (h : History Nat) (head : Nat) (out : List (Option Nat)) : Prop :=
  head ≤ r.head ∧ (r.head = head →
    ∀ j < out.length, h.published (head + j) = true ∧ out[j]? = some h.claimed[head + j]?)

def ConsumerOk (r : SeqRing.Ring Nat) (h : History Nat) : ConsumerPc → Prop
  | .loadSeq _ head out => Reads r h head out
  | .loadTask _ head out =>
    Reads r h head out ∧ (r.head = head → h.published (head + out.length) = true)
  | .casHead head out => Reads r h head out ∧ out ≠ []
  | .release want out k =>
    k < out.length ∧
      ∀ p, want + k ≤ p → p < want + out.length → p < r.head ∧ h.released p = false
  | _ => True

structure Sound (s : State) : Prop where
  valid : Valid s.ring s.history
  producers : ∀ i, ProducerOk s.ring s.history (s.producers i)
  consumers : ∀ i, ConsumerOk s.ring s.history (s.consumers i)
  owners : Exclusive ProducerPc.owns s.producers
  releasers : Exclusive ConsumerPc.frees s.consumers
  flow : s.batches.flatten = (s.history.claimed.take s.ring.head).map some
  accepted : ∀ a ∈ s.accepted,
    s.history.claimed[a.2]? = some a.1 ∧ s.history.published a.2 = true
  once : (s.accepted.map Prod.snd).Nodup
  answered : ∀ a ∈ s.accepted, ∀ i, ¬(s.producers i).owns a.2

/-- How the ring and its history can change under a call's feet. -/
structure Evolves (r : SeqRing.Ring Nat) (h : History Nat) (r' : SeqRing.Ring Nat) (h' : History Nat) :
    Prop where
  size : r'.size = r.size
  head : r.head ≤ r'.head
  tail : r.tail ≤ r'.tail
  claimed : ∀ p < r.tail, h'.claimed[p]? = h.claimed[p]?
  published : ∀ p, h.published p = true → h'.published p = true
  released : ∀ p, h.released p = true → h'.released p = true

variable {r r' : SeqRing.Ring Nat} {h h' : History Nat}

theorem Evolves.refl (r : SeqRing.Ring Nat) (h : History Nat) : Evolves r h r h :=
  ⟨rfl, Nat.le_refl _, Nat.le_refl _, fun _ _ => rfl, fun _ done => done, fun _ done => done⟩

theorem Evolves.reusable (evolves : Evolves r h r' h') {p : Nat} (reusable : Reusable r h p) :
    Reusable r' h' p := by
  rcases reusable with small | released
  · left
    rw [evolves.size]
    exact small
  · right
    rw [evolves.size]
    exact evolves.released _ released

theorem lt_tail_of_claimed (valid : Valid r h) {p task : Nat} (claimed : h.claimed[p]? = some task) :
    p < r.tail := by
  have inside := (List.getElem?_eq_some_iff.mp claimed).1
  rw [valid.count] at inside
  exact inside

theorem ProducerOk.owned_lt_tail (valid : Valid r h) {pc : ProducerPc} (ok : ProducerOk r h pc)
    {p : Nat} (owned : pc.owns p) : p < r.tail := by
  cases pc with
  | storeTask | publish | addCount =>
    rw [owned]
    exact lt_tail_of_claimed valid ok.1
  | _ => exact absurd owned not_false

theorem ConsumerOk.freed_lt_head {pc : ConsumerPc} (ok : ConsumerOk r h pc) {p : Nat}
    (held : pc.frees p) : p < r.head := by
  cases pc with
  | release want out k => exact (ok.2 p held.1 held.2).1
  | _ => exact absurd held not_false

/-- A producer keeps its facts while the others leave its position alone. -/
theorem ProducerOk.evolve (valid : Valid r h) (evolves : Evolves r h r' h') {pc : ProducerPc}
    (ok : ProducerOk r h pc)
    (alone : ∀ p, pc.owns p → h'.published p = h.published p ∧
      (h.published p = false → r'.slot (r'.cell p) = r.slot (r.cell p))) : ProducerOk r' h' pc := by
  have head := evolves.head
  have tail := evolves.tail
  cases pc with
  | loadSeq task old => exact Nat.le_trans ok tail
  | casTail task old =>
    refine ⟨Nat.le_trans ok.1 tail, fun same => ?_⟩
    have early := ok.1
    have still : r.tail = r'.tail := by omega
    have free := ok.2 (by omega)
    rw [← still, evolves.size]
    exact ⟨by omega, evolves.reusable free.2⟩
  | storeTask _ pos | addCount _ pos =>
    rw [ProducerOk, evolves.claimed pos (lt_tail_of_claimed valid ok.1), (alone pos rfl).1]
    exact ok
  | publish task pos =>
    rw [ProducerOk, evolves.claimed pos (lt_tail_of_claimed valid ok.1), (alone pos rfl).1,
      (alone pos rfl).2 ok.2.1]
    exact ok
  | _ => trivial

theorem Reads.evolve (valid : Valid r h) (evolves : Evolves r h r' h') {head : Nat}
    {out : List (Option Nat)} (reads : Reads r h head out) : Reads r' h' head out := by
  have later := evolves.head
  refine ⟨Nat.le_trans reads.1 later, fun same j inside => ?_⟩
  have early := reads.1
  have found := reads.2 (by omega) j inside
  rw [evolves.claimed _ (valid.written _ found.1)]
  exact ⟨evolves.published _ found.1, found.2⟩

theorem ConsumerOk.evolve (valid : Valid r h) (evolves : Evolves r h r' h') {pc : ConsumerPc}
    (ok : ConsumerOk r h pc) (alone : ∀ p, pc.frees p → h'.released p = h.released p) :
    ConsumerOk r' h' pc := by
  have later := evolves.head
  cases pc with
  | loadSeq max head out => exact Reads.evolve valid evolves ok
  | loadTask max head out =>
    refine ⟨ok.1.evolve valid evolves, fun same => ?_⟩
    have early := ok.1.1
    exact evolves.published _ (ok.2 (by omega))
  | casHead head out => exact ⟨ok.1.evolve valid evolves, ok.2⟩
  | release want out k =>
    refine ⟨ok.1, fun p low high => ?_⟩
    rw [alone p ⟨low, high⟩]
    have held := ok.2 p low high
    exact ⟨by omega, held.2⟩
  | _ => trivial

variable {s : State} {i : Nat}

/-- A producer moves: everyone else keeps what they know. -/
theorem Sound.producerMoves (sound : Sound s) {pc : ProducerPc} (valid : Valid r h)
    (evolves : Evolves s.ring s.history r h) (head : r.head = s.ring.head)
    (released : h.released = s.history.released)
    (alone : ∀ j, j ≠ i → ∀ p, (s.producers j).owns p →
      h.published p = s.history.published p ∧
        (s.history.published p = false → r.slot (r.cell p) = s.ring.slot (s.ring.cell p)))
    (own : ProducerOk r h pc)
    (new : ∀ p, pc.owns p → (s.producers i).owns p ∨ s.ring.tail ≤ p) :
    Sound ({ s with ring := r, history := h }.setProducer i pc) := by
  have early : ∀ a ∈ s.accepted, a.2 < s.ring.tail := fun a member =>
    lt_tail_of_claimed sound.valid (sound.accepted a member).1
  refine ⟨valid, ?_, ?_, ?_, sound.releasers, ?_, ?_, sound.once, ?_⟩
  · apply forall_update (ProducerOk r h) _ own
    intro j differs
    exact (sound.producers j).evolve sound.valid evolves (alone j differs)
  · intro j
    apply (sound.consumers j).evolve sound.valid evolves
    intro p _
    rw [released]
  · apply sound.owners.update
    intro p mine
    refine (new p mine).imp id fun fresh j theirs => ?_
    have before := (sound.producers j).owned_lt_tail sound.valid theirs
    omega
  · show s.batches.flatten = (h.claimed.take r.head).map some
    rw [sound.flow, head]
    congr 1
    apply List.ext_getElem?
    intro p
    have low := sound.valid.low
    by_cases inside : p < s.ring.head
    · rw [List.getElem?_take_of_lt inside, List.getElem?_take_of_lt inside,
        evolves.claimed p (by omega)]
    · rw [List.getElem?_take_eq_none (by omega), List.getElem?_take_eq_none (by omega)]
  · intro a member
    have known := sound.accepted a member
    exact ⟨(evolves.claimed a.2 (early a member)).trans known.1, evolves.published a.2 known.2⟩
  · intro a member
    apply forall_update (fun pc => ¬ProducerPc.owns pc a.2)
    · intro j _
      exact sound.answered a member j
    · intro mine
      rcases new a.2 mine with before | fresh
      · exact sound.answered a member i before
      · have before := early a member
        omega

/-- A consumer moves: everyone else keeps what they know. -/
theorem Sound.consumerMoves (sound : Sound s) {pc : ConsumerPc} {batches : List (List (Option Nat))}
    (valid : Valid r h) (evolves : Evolves s.ring s.history r h)
    (claimed : h.claimed = s.history.claimed) (published : h.published = s.history.published)
    (slots : ∀ p, r.slot (r.cell p) = s.ring.slot (s.ring.cell p))
    (alone : ∀ j, j ≠ i → ∀ p, (s.consumers j).frees p → h.released p = s.history.released p)
    (own : ConsumerOk r h pc)
    (new : ∀ p, pc.frees p → (s.consumers i).frees p ∨ s.ring.head ≤ p)
    (flow : batches.flatten = (s.history.claimed.take r.head).map some) :
    Sound ({ s with ring := r, history := h, batches := batches }.setConsumer i pc) := by
  refine ⟨valid, ?_, ?_, sound.owners, ?_, ?_, ?_, sound.once, sound.answered⟩
  · intro j
    apply (sound.producers j).evolve sound.valid evolves
    intro p _
    exact ⟨congrFun published p, fun _ => slots p⟩
  · apply forall_update (ConsumerOk r h) _ own
    intro j differs
    exact (sound.consumers j).evolve sound.valid evolves (alone j differs)
  · apply sound.releasers.update
    intro p mine
    refine (new p mine).imp id fun fresh j theirs => ?_
    have before := (sound.consumers j).freed_lt_head theirs
    omega
  · show batches.flatten = (h.claimed.take r.head).map some
    rw [claimed]
    exact flow
  · intro a member
    show h.claimed[a.2]? = some a.1 ∧ h.published a.2 = true
    rw [claimed, published]
    exact sound.accepted a member

theorem Sound.setProducer (sound : Sound s) {pc : ProducerPc} (own : ProducerOk s.ring s.history pc)
    (new : ∀ p, pc.owns p → (s.producers i).owns p) : Sound (s.setProducer i pc) :=
  sound.producerMoves sound.valid (Evolves.refl _ _) rfl rfl (fun _ _ _ _ => ⟨rfl, fun _ => rfl⟩) own
    fun p mine => Or.inl (new p mine)

theorem Sound.setConsumer (sound : Sound s) {pc : ConsumerPc} (own : ConsumerOk s.ring s.history pc)
    (new : ∀ p, ¬pc.frees p) : Sound (s.setConsumer i pc) :=
  sound.consumerMoves sound.valid (Evolves.refl _ _) rfl rfl (fun _ => rfl) (fun _ _ _ _ => rfl) own
    (fun p mine => absurd mine (new p)) sound.flow

theorem Sound.claims (sound : Sound s) (room : s.ring.tail < s.ring.head + s.ring.size)
    (reusable : Reusable s.ring s.history s.ring.tail) (task : Nat) :
    Sound ({ s with ring := s.ring.claim, history := s.history.claim task }.setProducer i
      (.storeTask task s.ring.tail)) := by
  have count := sound.valid.count
  have evolves : Evolves s.ring s.history s.ring.claim (s.history.claim task) := by
    refine ⟨rfl, Nat.le_refl _, Nat.le_succ _, ?_, fun _ done => done, fun _ done => done⟩
    intro p inside
    apply List.getElem?_append_left
    omega
  apply sound.producerMoves (sound.valid.claim room reusable task) evolves rfl rfl
  · intro j _ p _
    exact ⟨rfl, fun _ => rfl⟩
  · constructor
    · show (s.history.claimed ++ [task])[s.ring.tail]? = some task
      rw [← count, List.getElem?_concat_length]
    · by_contra published
      have before := sound.valid.written s.ring.tail (eq_true_of_ne_false published)
      omega
  · intro p mine
    right
    have same : p = s.ring.tail := mine
    omega

theorem Sound.fills (sound : Sound s) {task pos : Nat} (here : s.producers i = .storeTask task pos) :
    Sound ({ s with ring := s.ring.fill pos task }.setProducer i (.publish task pos)) := by
  have own := sound.producers i
  rw [here] at own
  obtain ⟨claimed, waiting⟩ := own
  have before := lt_tail_of_claimed sound.valid claimed
  have inside := sound.valid.claimed_inside before waiting
  apply sound.producerMoves (sound.valid.fill before waiting task)
    ⟨rfl, Nat.le_refl _, Nat.le_refl _, fun _ _ => rfl, fun _ done => done, fun _ done => done⟩ rfl rfl
  · intro j differs p theirs
    refine ⟨rfl, fun unpublished => ?_⟩
    have apart : p ≠ pos := by
      intro same
      apply differs
      apply sound.owners j i p theirs
      rw [here, same]
      rfl
    have early := (sound.producers j).owned_lt_tail sound.valid theirs
    exact Function.update_of_ne
      (Valid.cell_ne (sound.valid.claimed_inside early unpublished) inside apart) _ _
  · exact ⟨claimed, waiting, Function.update_self _ _ _⟩
  · intro p mine
    left
    rw [here]
    exact mine

theorem Sound.publishes (sound : Sound s) {task pos : Nat} (here : s.producers i = .publish task pos) :
    Sound ({ s with ring := s.ring.publish pos, history := s.history.publish pos }.setProducer i
      (.addCount task pos)) := by
  have own := sound.producers i
  rw [here] at own
  obtain ⟨claimed, waiting, written⟩ := own
  have before := lt_tail_of_claimed sound.valid claimed
  have evolves : Evolves s.ring s.history (s.ring.publish pos) (s.history.publish pos) := by
    refine ⟨rfl, Nat.le_refl _, Nat.le_refl _, fun _ _ => rfl, ?_, fun _ done => done⟩
    intro p done
    show Function.update s.history.published pos true p = true
    by_cases same : p = pos
    · rw [same, Function.update_self]
    · rw [Function.update_of_ne same]
      exact done
  apply sound.producerMoves (sound.valid.publish before waiting (written.trans claimed.symm)) evolves
    rfl rfl
  · intro j differs p theirs
    refine ⟨?_, fun _ => rfl⟩
    apply Function.update_of_ne
    intro same
    apply differs
    apply sound.owners j i p theirs
    rw [here, same]
    rfl
  · exact ⟨claimed, Function.update_self _ _ _⟩
  · intro p mine
    left
    rw [here]
    exact mine

theorem Sound.accepts (sound : Sound s) {task pos : Nat} {count : Int}
    (here : s.producers i = .addCount task pos) :
    Sound ({ s with ringCount := count, accepted := (task, pos) :: s.accepted }.setProducer i
      .idle) := by
  have own := sound.producers i
  rw [here] at own
  have mine : (s.producers i).owns pos := by
    rw [here]
    rfl
  have moved : Sound (s.setProducer i .idle) := sound.setProducer trivial fun p none => none.elim
  refine ⟨moved.valid, moved.producers, moved.consumers, moved.owners, moved.releasers, moved.flow,
    ?_, ?_, ?_⟩
  · intro a member
    rcases List.mem_cons.mp member with rfl | member
    · exact own
    · exact sound.accepted a member
  · apply List.nodup_cons.mpr
    refine ⟨?_, sound.once⟩
    intro member
    obtain ⟨a, old, same⟩ := List.mem_map.mp member
    apply sound.answered a old i
    rw [same]
    exact mine
  · intro a member
    rcases List.mem_cons.mp member with rfl | member
    · have nothing : ¬ProducerPc.idle.owns pos := not_false
      apply forall_update (fun pc => ¬ProducerPc.owns pc pos) _ nothing
      intro j differs theirs
      exact differs (sound.owners j i pos theirs mine)
    · exact moved.answered a member

theorem Sound.takes (sound : Sound s) {out : List (Option Nat)}
    (here : s.consumers i = .casHead s.ring.head out) :
    Sound ({ s with ring := s.ring.take out.length, batches := s.batches ++ [out] }.setConsumer i
      (.release s.ring.head out 0)) := by
  have own := sound.consumers i
  rw [here] at own
  have found := own.1.2 rfl
  have ready : ∀ j < out.length, s.history.published (s.ring.head + j) = true :=
    fun j inside => (found j inside).1
  have valid := sound.valid.take ready
  have bound : s.ring.head + out.length ≤ s.history.claimed.length := by
    rw [sound.valid.count]
    exact valid.low
  have batch : out = ((s.history.claimed.drop s.ring.head).take out.length).map some := by
    apply List.ext_getElem?
    intro j
    by_cases inside : j < out.length
    · rw [(found j inside).2, List.getElem?_map, List.getElem?_take_of_lt inside, List.getElem?_drop,
        List.getElem?_eq_getElem (by omega)]
      rfl
    · rw [List.getElem?_eq_none (by omega), List.getElem?_map,
        List.getElem?_take_eq_none (by omega)]
      rfl
  apply sound.consumerMoves valid
    ⟨rfl, Nat.le_add_right _ _, Nat.le_refl _, fun _ _ => rfl, fun _ done => done, fun _ done => done⟩
    rfl rfl (fun _ => rfl) (fun _ _ _ _ => rfl)
  · refine ⟨List.length_pos_of_ne_nil own.2, fun p low high => ⟨high, ?_⟩⟩
    by_contra released
    have before := sound.valid.freed p (eq_true_of_ne_false released)
    omega
  · intro p mine
    right
    exact mine.1
  · show (s.batches ++ [out]).flatten =
      (s.history.claimed.take (s.ring.head + out.length)).map some
    rw [List.flatten_append, List.flatten_singleton, sound.flow, List.take_add, List.map_append,
      ← batch]

theorem Sound.releases (sound : Sound s) {want k : Nat} {out : List (Option Nat)}
    (here : s.consumers i = .release want out k) :
    Sound ({ s with
      ring := s.ring.release (want + k), history := s.history.release (want + k) }.setConsumer i
        (if k + 1 < out.length then .release want out (k + 1) else .subCount out)) := by
  have own := sound.consumers i
  rw [here] at own
  obtain ⟨inside, held⟩ := own
  have first := held (want + k) (Nat.le_refl _) (by omega)
  have evolves : Evolves s.ring s.history (s.ring.release (want + k))
      (s.history.release (want + k)) := by
    refine ⟨rfl, Nat.le_refl _, Nat.le_refl _, fun _ _ => rfl, fun _ done => done, ?_⟩
    intro p done
    show Function.update s.history.released (want + k) true p = true
    by_cases same : p = want + k
    · rw [same, Function.update_self]
    · rw [Function.update_of_ne same]
      exact done
  apply sound.consumerMoves (sound.valid.release first.1 first.2) evolves rfl rfl (fun _ => rfl)
  · intro j differs p theirs
    apply Function.update_of_ne
    intro same
    apply differs
    apply sound.releasers j i p theirs
    rw [here]
    exact ⟨by omega, by omega⟩
  · split
    · rename_i more
      refine ⟨more, fun p low high => ?_⟩
      have rest := held p (by omega) high
      refine ⟨rest.1, ?_⟩
      show Function.update s.history.released (want + k) true p = false
      rw [Function.update_of_ne (by omega)]
      exact rest.2
    · trivial
  · intro p mine
    left
    rw [here]
    split at mine
    · exact ⟨by have low := mine.1; omega, mine.2⟩
    · exact mine.elim
  · exact sound.flow

theorem Reads.stop {head : Nat} {out : List (Option Nat)} (reads : Reads r h head out) :
    ConsumerOk r h (stop head out) := by
  unfold RingQueue.stop
  split
  · trivial
  · rename_i some
    exact ⟨reads, some⟩

theorem Reads.scan {max head : Nat} {out : List (Option Nat)} (reads : Reads r h head out) :
    ConsumerOk r h (scan max head out) := by
  unfold RingQueue.scan
  split
  · exact reads
  · exact reads.stop

theorem not_frees_stop (head : Nat) (out : List (Option Nat)) (p : Nat) : ¬(stop head out).frees p := by
  unfold stop
  split <;> exact not_false

theorem not_frees_scan (max head : Nat) (out : List (Option Nat)) (p : Nat) :
    ¬(scan max head out).frees p := by
  unfold scan
  split
  · exact not_false
  · exact not_frees_stop head out p

theorem Reads.concat (valid : Valid r h) {head : Nat} {out : List (Option Nat)}
    (reads : Reads r h head out) (ready : r.head = head → h.published (head + out.length) = true) :
    Reads r h head (out ++ [r.slot (r.cell (head + out.length))]) := by
  refine ⟨reads.1, fun same j inside => ?_⟩
  rw [List.length_append, List.length_singleton] at inside
  by_cases last : j = out.length
  · have published := ready same
    rw [last, List.getElem?_concat_length, valid.slots _ (by omega) published]
    exact ⟨published, rfl⟩
  · rw [List.getElem?_append_left (by omega)]
    exact reads.2 same j (by omega)

theorem Sound.produce (sound : Sound s) {spurious : Bool} {s' : State}
    (taken : produce s i spurious = some s') : Sound s' := by
  have own := sound.producers i
  unfold RingQueue.produce at taken
  split at taken
  · cases taken
  · cases taken
    exact sound.setProducer (Nat.le_refl _) fun _ none => none.elim
  · rename_i task tail here
    rw [here] at own
    split at taken
    · rename_i read
      cases taken
      have free : s.ring.tail = tail →
          s.ring.tail < s.ring.head + s.ring.size ∧ Reusable s.ring s.history s.ring.tail := by
        intro same
        rw [← same] at read
        exact sound.valid.free_of_seq read
      exact sound.setProducer ⟨own, free⟩ fun _ none => none.elim
    · cases taken
      exact sound.setProducer trivial fun _ none => none.elim
  · rename_i task tail here
    rw [here] at own
    split at taken
    · rename_i swapped
      cases taken
      have free := own.2 swapped.1
      rw [← swapped.1]
      exact sound.claims free.1 free.2 task
    · cases taken
      exact sound.setProducer (Nat.le_refl _) fun _ none => none.elim
  · rename_i task pos here
    cases taken
    exact sound.fills here
  · rename_i task pos here
    cases taken
    exact sound.publishes here
  · rename_i task pos here
    cases taken
    exact sound.accepts here

theorem Sound.consume (sound : Sound s) {spurious : Bool} {s' : State}
    (taken : consume s i spurious = some s') : Sound s' := by
  have own := sound.consumers i
  unfold RingQueue.consume at taken
  split at taken
  · cases taken
  · cases taken
    have reads : Reads s.ring s.history s.ring.head [] :=
      ⟨Nat.le_refl _, fun _ j inside => absurd inside (Nat.not_lt_zero j)⟩
    exact sound.setConsumer reads.scan (not_frees_scan _ _ _)
  · rename_i max head out here
    rw [here] at own
    dsimp only at taken
    split at taken
    · rename_i read
      cases taken
      have published : s.ring.head = head → s.history.published (head + out.length) = true := by
        intro same
        exact sound.valid.published_of_seq (by omega) read
      exact sound.setConsumer ⟨own, published⟩ fun _ => not_false
    · cases taken
      exact sound.setConsumer (Reads.stop own) (not_frees_stop _ _)
  · rename_i max head out here
    rw [here] at own
    cases taken
    exact sound.setConsumer (own.1.concat sound.valid own.2).scan (not_frees_scan _ _ _)
  · rename_i head out here
    split at taken
    · rename_i swapped
      cases taken
      rw [← swapped.1] at here ⊢
      exact sound.takes here
    · cases taken
      exact sound.setConsumer trivial fun _ => not_false
  · rename_i want out k here
    cases taken
    exact sound.releases here
  · cases taken
    have moved : Sound (s.setConsumer i .idle) := sound.setConsumer trivial fun _ => not_false
    exact ⟨moved.valid, moved.producers, moved.consumers, moved.owners, moved.releasers, moved.flow,
      moved.accepted, moved.once, moved.answered⟩

theorem Sound.step (sound : Sound s) {label : Label} {s' : State} (taken : step s label = some s') :
    Sound s' := by
  cases label with
  | ringTryEnqueue i task =>
    simp only [RingQueue.step] at taken
    split at taken
    · cases taken
      exact sound.setProducer trivial fun _ none => none.elim
    · cases taken
  | produce i spurious => exact sound.produce taken
  | ringBulkTryDequeue i max =>
    simp only [RingQueue.step] at taken
    split at taken
    · cases taken
      exact sound.setConsumer trivial fun _ => not_false
    · cases taken
  | consume i spurious => exact sound.consume taken

theorem sound_start (bits : Nat) : Sound (start bits) := by
  have large : 2 ≤ 2 ^ (bits + 1) := by
    have positive := Nat.two_pow_pos bits
    rw [Nat.pow_succ]
    omega
  exact ⟨valid_empty large, fun _ => trivial, fun _ => trivial, fun _ _ _ none => none.elim,
    fun _ _ _ none => none.elim, rfl, fun _ none => absurd none List.not_mem_nil, List.nodup_nil,
    fun _ none => absurd none List.not_mem_nil⟩

/-- The safety of the bounded ring. Position p is the p-th one claimed, whose task
is claimed[p]. -/
structure RingSafe (s : State) : Prop where
  /-- What consumers got is what was claimed, from the first position on, each once. -/
  ordered : s.batches.flatten = (s.history.claimed.take s.ring.head).map some
  /-- Accepted calls have positions of their own. -/
  once : (s.accepted.map Prod.snd).Nodup
  /-- An accepted task was handed out or is in its cell. -/
  kept : ∀ task pos, (task, pos) ∈ s.accepted → s.history.claimed[pos]? = some task ∧
    (pos < s.ring.head ∨ pos < s.ring.tail ∧ s.ring.seq (s.ring.cell pos) = pos + 1 ∧
      s.ring.slot (s.ring.cell pos) = some task)
  published : ∀ p < s.ring.head, s.history.published p = true
  /-- A producer writes only where the position before it was released. -/
  reused : ∀ i task pos, s.producers i = .storeTask task pos → Reusable s.ring s.history pos
  bounds : s.ring.head ≤ s.ring.tail ∧ s.ring.tail ≤ s.ring.head + s.ring.size

theorem Sound.safe (sound : Sound s) : RingSafe s := by
  have valid := sound.valid
  refine ⟨sound.flow, sound.once, ?_, valid.taken, ?_, valid.low, valid.high⟩
  · intro task pos member
    obtain ⟨claimed, published⟩ := sound.accepted (task, pos) member
    refine ⟨claimed, ?_⟩
    by_cases out : pos < s.ring.head
    · exact Or.inl out
    · have before := lt_tail_of_claimed valid claimed
      have high := valid.high
      refine Or.inr ⟨before, ?_, ?_⟩
      · rw [valid.seqs pos (by omega) (by omega), stamp, if_pos published]
      · rw [valid.slots pos (by omega) published]
        exact claimed
  · intro i task pos here
    have own := sound.producers i
    rw [here] at own
    exact valid.reused pos (lt_tail_of_claimed valid own.1)

/-- In every interleaving of any producers and consumers, for every ring size. -/
theorem ring_safe (bits : Nat) (labels : List Label) : Always step RingSafe (start bits) labels := by
  apply @always_of_invariant _ _ step Sound RingSafe
  · intro s s' label sound taken
    exact sound.step taken
  · intro s sound
    exact sound.safe
  · exact sound_start bits

end Loomworks.Pool.RingQueue

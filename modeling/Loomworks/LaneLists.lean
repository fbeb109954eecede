import Loomworks.Lanes
import Loomworks.Links
import Loomworks.Transition

/- The priority lanes as the source keeps them (src/thread_pool.c): the heads and tails
of 256 singly linked lists, the next pointers of the task nodes, and a bitmap of the
buckets that are not empty; address 0 is NULL. Every sequence of the operations on
them, all under pool->lock, is one on FIFO buckets. -/
namespace Loomworks.Pool.LaneLists

open Transition Links
open Function (update update_of_ne update_self)

/-- The fields of a task node that the lanes read; next is kept apart. -/
structure Node where
  taskId : Nat := 0
  userData : Nat := 0
  priority : UInt8 := 5
  cancelled : Bool := false
  deriving DecidableEq, Repr

/-- queueLen counts the share of queue_len that the lanes have. -/
structure State where
  nodes : Nat → Node := fun _ => {}
  next : Nat → Nat := fun _ => 0
  head : Nat → Nat := fun _ => 0
  tail : Nat → Nat := fun _ => 0
  bits : Nat → BitVec 64 := fun _ => 0
  queueLen : Int := 0

def bit (bits : Nat → BitVec 64) (b : Nat) : Bool := (bits (b / 64)).getLsbD (b % 64)

def setBit (bits : Nat → BitVec 64) (b : Nat) : Nat → BitVec 64 :=
  update bits (b / 64) (bits (b / 64) ||| (1#64 <<< (b % 64)))

def clearBit (bits : Nat → BitVec 64) (b : Nat) : Nat → BitVec 64 :=
  update bits (b / 64) (bits (b / 64) &&& ~~~(1#64 <<< (b % 64)))

/-- LOOMWORKS_NONEMPTY_WORDS. -/
def nonemptyWords : Nat := 4

/-- __builtin_ctzll of a word that is not 0. -/
def ctzll (word : BitVec 64) : Nat := ((List.range 64).find? word.getLsbD).getD 64

/-- The loop over the words that both lane_has_priority and the dequeue make. -/
def lowestBit (bits : Nat → BitVec 64) : Option Nat :=
  ((List.range nonemptyWords).find? fun w => bits w != 0).map fun w => w * 64 + ctzll (bits w)

def loomEnqueueUnlocked (s : State) (t : Nat) : State :=
  let b := (s.nodes t).priority.toNat
  let linked := if s.tail b ≠ 0 then update s.next (s.tail b) t else s.next
  { s with
    next := update linked t 0
    head := if s.tail b ≠ 0 then s.head else update s.head b t
    tail := update s.tail b t
    bits := setBit s.bits b
    queueLen := s.queueLen + 1 }

/-- The head of a bucket is taken off. -/
def takeHead (s : State) (b : Nat) : Nat × State :=
  let t := s.head b
  let first := s.next t
  (t, { s with
    next := update s.next t 0
    head := update s.head b first
    tail := if first = 0 then update s.tail b 0 else s.tail
    bits := if first = 0 then clearBit s.bits b else s.bits
    queueLen := s.queueLen - 1 })

def dequeueLowestPriorityUnlocked (s : State) (maxPriority : Nat) : Nat × State :=
  match lowestBit s.bits with
  | none => (0, s)
  | some b => if maxPriority < b then (0, s) else takeHead s b

def laneHasPriority (s : State) (maxPriority : Nat) : Bool :=
  match lowestBit s.bits with
  | some b => b ≤ maxPriority
  | none => false

/-- The inner loop of the cancel walks: the first match with the node before it. -/
def seek (found : Nat → Bool) (next : Nat → Nat) : Nat → Nat → Nat → Option (Nat × Nat)
  | 0, _, _ => none
  | fuel + 1, prev, cur =>
    if cur = 0 then none
    else if found cur then some (prev, cur)
    else seek found next fuel cur (next cur)

def unlink (s : State) (b prev cur : Nat) : State :=
  let head := if prev ≠ 0 then s.head else update s.head b (s.next cur)
  { s with
    next := if prev ≠ 0 then update s.next prev (s.next cur) else s.next
    head
    tail := if cur = s.tail b then update s.tail b prev else s.tail
    bits := if head b = 0 then clearBit s.bits b else s.bits
    queueLen := s.queueLen - 1 }

/-- The lane part of the two cancel calls; NULL when no bucket has a match. -/
def cancelWalk (s : State) (found : Nat → Bool) (fuel : Nat) : Nat × State :=
  match (List.range priorityBuckets).find? fun b =>
      (seek found s.next fuel 0 (s.head b)).isSome with
  | none => (0, s)
  | some b =>
    match seek found s.next fuel 0 (s.head b) with
    | none => (0, s)
    | some (prev, cur) => (cur, unlink s b prev cur)

def byData (s : State) (data t : Nat) : Bool :=
  (s.nodes t).userData == data && !(s.nodes t).cancelled

def byId (s : State) (taskId t : Nat) : Bool :=
  (s.nodes t).taskId == taskId && !(s.nodes t).cancelled

/-- The lane part of loom_pool_cancel_all, with the nodes it destroys in their order. -/
def cancelAllLanes (s : State) (fuel : Nat) : List Nat × State :=
  let drained := Bins.all priorityBuckets fun b => walk s.next 0 (s.head b) fuel
  (drained, { s with
    head := fun _ => 0
    tail := fun _ => 0
    bits := fun _ => 0
    queueLen := s.queueLen - drained.length })

/-- fuel bounds the rounds of a walk along one list. -/
inductive Op where
  | enqueue (t : Nat)
  | dequeue (maxPriority : Nat)
  | cancel (data fuel : Nat)
  | cancelById (taskId fuel : Nat)
  | cancelAll (fuel : Nat)
  /-- Other code writes the fields of a node. -/
  | write (t : Nat) (node : Node)
  deriving DecidableEq, Repr

/-- The tasks an operation has taken out of the lanes. -/
def apply (s : State) : Op → List Nat × State
  | .enqueue t => ([], loomEnqueueUnlocked s t)
  | .dequeue maxPriority =>
    let taken := dequeueLowestPriorityUnlocked s maxPriority
    (if taken.1 = 0 then [] else [taken.1], taken.2)
  | .cancel data fuel =>
    let taken := cancelWalk s (byData s data) fuel
    (if taken.1 = 0 then [] else [taken.1], taken.2)
  | .cancelById taskId fuel =>
    let taken := cancelWalk s (byId s taskId) fuel
    (if taken.1 = 0 then [] else [taken.1], taken.2)
  | .cancelAll fuel => cancelAllLanes s fuel
  | .write t node => ([], { s with nodes := update s.nodes t node })

/-- What an operation that takes at most one task out leaves of the buckets. -/
def taking (lanes : Nat → List Nat) : Option (Nat × (Nat → List Nat)) → List Nat × (Nat → List Nat)
  | some (t, rest) => ([t], rest)
  | none => ([], lanes)

/-- The stable priority queue this is to be, on the nodes as the state has them. -/
def spec (s : State) (lanes : Nat → List Nat) : Op → List Nat × (Nat → List Nat)
  | .enqueue t =>
    let b := (s.nodes t).priority.toNat
    ([], update lanes b (lanes b ++ [t]))
  | .dequeue maxPriority => taking lanes (dequeueLowestPriority lanes maxPriority)
  | .cancel data _ => taking lanes (unlinkFirst (byData s data) lanes)
  | .cancelById taskId _ => taking lanes (unlinkFirst (byId s taskId) lanes)
  | .cancelAll _ => (laneTasks lanes, fun _ => [])
  | .write _ _ => ([], lanes)

/-- The linked lists beside the buckets. -/
structure Beside where
  state : State := {}
  lanes : Nat → List Nat := fun _ => []

def step (p : Beside) (op : Op) : Option Beside :=
  some ⟨(apply p.state op).2, (spec p.state p.lanes op).2⟩

/-- A node is enqueued while it is in no lane, and the walks have rounds enough. -/
def Proper (p : Beside) : Op → Prop
  | .enqueue t => t ≠ 0 ∧ t ∉ laneTasks p.lanes
  | .cancel _ fuel | .cancelById _ fuel | .cancelAll fuel => (laneTasks p.lanes).length ≤ fuel
  | .dequeue _ | .write _ _ => True

instance (p : Beside) (op : Op) : Decidable (Proper p op) := by
  cases op <;> unfold Proper <;> infer_instance

/-- One bucket: its linked list, its tail pointer and its bit. -/
structure Bucket (s : State) (b : Nat) (list : List Nat) : Prop where
  path : Path s.next (s.head b) list 0
  tail : s.tail b = list.getLast?.getD 0
  bit : bit s.bits b = !list.isEmpty

/-- Every node is in one place of one bucket. -/
structure Sound (lanes : Nat → List Nat) : Prop where
  once : ∀ b < priorityBuckets, (lanes b).Nodup
  apart : ∀ b < priorityBuckets, ∀ c < priorityBuckets, ∀ t ∈ lanes b, t ∈ lanes c → b = c
  real : ∀ b < priorityBuckets, 0 ∉ lanes b

structure Represents (s : State) (lanes : Nat → List Nat) : Prop where
  bucket : ∀ b < priorityBuckets, Bucket s b (lanes b)
  sound : Sound lanes
  count : s.queueLen = (laneTasks lanes).length

/-- An operation takes out what the priority queue does and leaves lists, tails and bits
of its buckets; lane_has_priority says whether a dequeue finds a task, and one that does
not changes nothing. -/
def Refines (p : Beside) (op : Op) : Prop :=
  (apply p.state op).1 = (spec p.state p.lanes op).1 ∧
    Represents (apply p.state op).2 (spec p.state p.lanes op).2 ∧
    ∀ maxPriority, op = .dequeue maxPriority →
      (laneHasPriority p.state maxPriority = true ↔ (apply p.state op).1 ≠ []) ∧
      ((apply p.state op).1 = [] → (apply p.state op).2 = p.state)

variable {bits : Nat → BitVec 64} {s s' : State} {lanes lanes' : Nat → List Nat} {b c t : Nat}
  {list before after : List Nat}

/-- Two buckets are the same, have bits in one word, or have different words. -/
theorem bucket_cases (b c : Nat) : c = b ∧ c % 64 < 64 ∨
    c ≠ b ∧ c / 64 = b / 64 ∧ c % 64 ≠ b % 64 ∨ c ≠ b ∧ c / 64 ≠ b / 64 := by
  omega

theorem bit_setBit : bit (setBit bits b) c = (decide (c = b) || bit bits c) := by
  unfold bit setBit
  obtain ⟨rfl, bound⟩ | ⟨other, word, apart⟩ | ⟨other, word⟩ := bucket_cases b c
  · simp [bound]
  · simp [word, other]
    omega
  · simp [word, other]

theorem bit_clearBit : bit (clearBit bits b) c = (decide (c ≠ b) && bit bits c) := by
  unfold bit clearBit
  obtain ⟨rfl, bound⟩ | ⟨other, word, apart⟩ | ⟨other, word⟩ := bucket_cases b c
  · simp [bound]
  · simp [word, other]
    omega
  · simp [word, other]

/-- The lowest set bit of a word. -/
theorem ctzll_spec {word : BitVec 64} (nonzero : word ≠ 0) : ctzll word < 64 ∧
    word.getLsbD (ctzll word) = true ∧ ∀ j < ctzll word, word.getLsbD j = false := by
  unfold ctzll
  cases found : (List.range 64).find? word.getLsbD with
  | none =>
    refine absurd (BitVec.eq_of_getLsbD_eq fun j inside => ?_) nonzero
    simpa using List.find?_eq_none.mp found j (List.mem_range.mpr inside)
  | some k =>
    obtain ⟨set, inside, lower⟩ := List.find?_range_eq_some.mp found
    exact ⟨List.mem_range.mp inside, set, fun j below => by simpa using lower j below⟩

/-- The lowest bit is found where the lowest bucket is. -/
theorem lowestBit_eq (agree : ∀ b < priorityBuckets, bit bits b = !(lanes b).isEmpty) :
    lowestBit bits = lowestBucket lanes := by
  unfold lowestBit lowestBucket
  symm
  cases word : (List.range nonemptyWords).find? fun w => bits w != 0 with
  | none =>
    apply List.find?_eq_none.mpr
    intro b member
    have inside : b < 256 := List.mem_range.mp member
    have zero := List.find?_eq_none.mp word (b / 64) (List.mem_range.mpr (by
      unfold nonemptyWords
      omega))
    have clear : bit bits b = false := by
      unfold bit
      simp_all
    rw [← agree b inside, clear]
    exact Bool.false_ne_true
  | some w =>
    obtain ⟨nonzero, inside, lower⟩ := List.find?_range_eq_some.mp word
    obtain ⟨bound, set, below⟩ := ctzll_spec (by simpa using nonzero)
    have words : w < 4 := List.mem_range.mp inside
    have within : w * 64 + ctzll (bits w) < 256 := by omega
    have quotient : (w * 64 + ctzll (bits w)) / 64 = w := by omega
    have remainder : (w * 64 + ctzll (bits w)) % 64 = ctzll (bits w) := by omega
    apply List.find?_range_eq_some.mpr
    refine ⟨?_, List.mem_range.mpr within, ?_⟩
    · rw [← agree _ within, bit, quotient, remainder]
      exact set
    · intro j earlier
      have earlier : j < w * 64 + ctzll (bits w) := earlier
      have low : j < 256 := by omega
      rw [← agree j low, bit]
      by_cases same : j / 64 = w
      · rw [same, below (j % 64) (by omega)]
        rfl
      · have zero := lower (j / 64) (by omega)
        simp_all

theorem Bucket.frame (old : Bucket s b list) (head : s'.head b = s.head b)
    (tail : s'.tail b = s.tail b) (same : LaneLists.bit s'.bits b = LaneLists.bit s.bits b)
    (next : ∀ x ∈ list, s'.next x = s.next x) : Bucket s' b list := by
  refine ⟨?_, tail.trans old.tail, same.trans old.bit⟩
  rw [head]
  exact old.path.congr next

/-- The tail pointer is NULL or a node of the bucket. -/
theorem Bucket.tail_mem (old : Bucket s b list) (filled : list ≠ []) : s.tail b ∈ list := by
  rw [old.tail, List.getLast?_eq_some_getLast filled]
  exact List.getLast_mem filled

theorem first_eq_zero {next : Nat → Nat} {first : Nat} (path : Path next first list 0)
    (real : 0 ∉ list) : first = 0 ↔ list = [] := by
  cases list with
  | nil => simpa using path
  | cons x rest =>
    have head : first = x := path.1
    have nonzero : x ≠ 0 := fun zero => real (by simp [zero])
    simp [head, nonzero]

theorem Sound.shrink (sound : Sound lanes) (fewer : ∀ b, (lanes' b).Sublist (lanes b)) :
    Sound lanes' := by
  constructor
  · exact fun b inside => (sound.once b inside).sublist (fewer b)
  · intro b inside c bound t here there
    exact sound.apart b inside c bound t ((fewer b).subset here) ((fewer c).subset there)
  · exact fun b inside zero => sound.real b inside ((fewer b).subset zero)

theorem Sound.put (sound : Sound lanes) (real : t ≠ 0) (fresh : t ∉ laneTasks lanes) :
    Sound (update lanes b (lanes b ++ [t])) := by
  have absent : ∀ c < priorityBuckets, t ∉ lanes c :=
    fun c inside here => fresh (Bins.mem_all.mpr ⟨c, inside, here⟩)
  have member : ∀ c x, x ∈ update lanes b (lanes b ++ [t]) c →
      x ∈ lanes c ∨ x = t ∧ c = b := by
    intro c x here
    by_cases same : c = b
    · subst same
      simpa using here
    · rw [update_of_ne same] at here
      exact Or.inl here
  constructor
  · intro c inside
    by_cases same : c = b
    · subst same
      simp [List.nodup_append, sound.once c inside]
      exact fun x here same => absent c inside (same ▸ here)
    · rw [update_of_ne same]
      exact sound.once c inside
  · intro c inside d bound x here there
    rcases member c x here with first | ⟨same, atC⟩
    · rcases member d x there with second | ⟨same, -⟩
      · exact sound.apart c inside d bound x first second
      · exact absurd (same ▸ first) (absent c inside)
    · rcases member d x there with second | ⟨-, atD⟩
      · exact absurd (same ▸ second) (absent d bound)
      · exact atC.trans atD.symm
  · intro c inside zero
    rcases member c 0 zero with old | ⟨same, -⟩
    · exact sound.real c inside old
    · exact real same.symm

theorem Represents.enqueue (represents : Represents s lanes) (real : t ≠ 0)
    (fresh : t ∉ laneTasks lanes) (place : (s.nodes t).priority.toNat = b) :
    Represents (loomEnqueueUnlocked s t) (update lanes b (lanes b ++ [t])) := by
  have inside : b < priorityBuckets := place ▸ UInt8.toNat_lt _
  have absent : ∀ c < priorityBuckets, t ∉ lanes c :=
    fun c bound here => fresh (Bins.mem_all.mpr ⟨c, bound, here⟩)
  have own := represents.bucket b inside
  unfold loomEnqueueUnlocked
  simp only [place]
  refine ⟨?_, represents.sound.put real fresh, ?_⟩
  · intro c bound
    by_cases same : c = b
    · subst same
      rw [update_self]
      rcases List.eq_nil_or_concat' (lanes c) with empty | ⟨front, x, shape⟩
      · have none : s.tail c = 0 := by simpa [empty] using own.tail
        rw [empty]
        constructor <;> simp [none, bit_setBit]
      · have last : s.tail c = x := by simpa [shape] using own.tail
        have nonzero : x ≠ 0 := by
          intro zero
          exact represents.sound.real c bound (by simp [shape, zero])
        have once := represents.sound.once c bound
        have off := absent c bound
        have path := own.path
        rw [shape] at once off path ⊢
        obtain ⟨middle, first, rfl, -⟩ := path_append.mp path
        have apart : middle ∉ front := by
          intro here
          exact (List.nodup_append.mp once).2.2 _ here _ (by simp) rfl
        have longer := (first.snoc apart t).update off 0
        constructor
        · simp only [last, nonzero, ne_eq, not_false_eq_true, ↓reduceIte]
          exact path_append.mpr ⟨t, longer, rfl, by simp⟩
        · simp
        · simp [bit_setBit]
    · rw [update_of_ne same]
      apply (represents.bucket c bound).frame
      · split <;> simp [same]
      · simp [same]
      · simp [bit_setBit, same]
      · intro x here
        have new : x ≠ t := fun equal => absent c bound (equal ▸ here)
        simp only [update_of_ne new]
        split
        · rename_i filled
          have member : s.tail b ∈ lanes b := by
            apply own.tail_mem
            intro empty
            exact filled (by simpa [empty] using own.tail)
          apply update_of_ne
          intro equal
          exact same (represents.sound.apart c bound b inside x here (equal ▸ member))
        · rfl
  · have grown := (laneTasks_append (s.nodes t).priority lanes t).length_eq
    rw [place, List.length_cons] at grown
    simp [grown, represents.count]

/-- One task leaves its bucket; the rest of the work is on that bucket. -/
theorem Represents.take (represents : Represents s lanes) (inside : b < priorityBuckets)
    (shape : (lanes b).Perm (t :: list)) (fewer : list.Sublist (lanes b)) (own : Bucket s' b list)
    (others : ∀ c < priorityBuckets, c ≠ b → Bucket s' c (lanes c))
    (len : s'.queueLen = s.queueLen - 1) : Represents s' (update lanes b list) := by
  refine ⟨?_, represents.sound.shrink ?_, ?_⟩
  · intro c bound
    by_cases same : c = b
    · subst same
      rw [update_self]
      exact own
    · rw [update_of_ne same]
      exact others c bound same
  · intro c
    by_cases same : c = b
    · subst same
      rw [update_self]
      exact fewer
    · simp [same]
  · have shorter := (Bins.all_take inside shape).length_eq
    have count := represents.count
    simp only [laneTasks, List.length_cons] at shorter count ⊢
    omega

theorem Represents.takeHead (represents : Represents s lanes) (inside : b < priorityBuckets)
    (shape : lanes b = t :: list) : (LaneLists.takeHead s b).1 = t ∧
      Represents (LaneLists.takeHead s b).2 (update lanes b list) := by
  have own := represents.bucket b inside
  have once := represents.sound.once b inside
  have real := represents.sound.real b inside
  have apart := represents.sound.apart b inside
  rw [shape] at own once real apart
  obtain ⟨first, rest⟩ := own.path
  obtain ⟨off, -⟩ := List.nodup_cons.mp once
  have ending := first_eq_zero rest fun zero => real (List.mem_cons_of_mem t zero)
  unfold LaneLists.takeHead
  simp only [first]
  refine ⟨trivial, represents.take inside (List.Perm.of_eq shape) (by simp [shape]) ?_ ?_ rfl⟩
  · constructor
    · simpa using rest.update off 0
    · by_cases empty : list = []
      · simp [ending.mpr empty, empty]
      · obtain ⟨x, more, rfl⟩ := List.exists_cons_of_ne_nil empty
        simpa [ending, List.getLast?_cons] using own.tail
    · by_cases empty : list = []
      · simp [ending.mpr empty, empty, bit_clearBit]
      · have filled : list.isEmpty = false := by simpa using empty
        simpa [ending, empty, filled] using own.bit
  · intro c bound other
    apply (represents.bucket c bound).frame
    · simp [other]
    · simp only
      split <;> simp [other]
    · simp only
      split <;> simp [bit_clearBit, other]
    · intro x here
      apply update_of_ne
      intro equal
      exact other (apart c bound t List.mem_cons_self (equal ▸ here)).symm

theorem seek_none {found : Nat → Bool} {next : Nat → Nat} {fuel prev cur : Nat}
    (path : Path next cur list 0) (none : ∀ x ∈ list, found x = false) (enough : list.length ≤ fuel) :
    seek found next fuel prev cur = Option.none := by
  induction list generalizing fuel prev cur with
  | nil =>
    have zero : cur = 0 := path
    cases fuel <;> simp [seek, zero]
  | cons x rest ih =>
    obtain ⟨rfl, more⟩ := path
    cases fuel with
    | zero => rfl
    | succ fuel =>
      have later := @ih fuel cur (next cur) more (fun y here => none y (List.mem_cons_of_mem _ here))
        (by simpa using enough)
      simp [seek, none cur List.mem_cons_self, later]

theorem seek_some {found : Nat → Bool} {next : Nat → Nat} {fuel prev cur : Nat}
    (path : Path next cur (before ++ t :: after) 0) (real : 0 ∉ before ++ t :: after)
    (earlier : ∀ x ∈ before, found x = false) (hit : found t = true)
    (enough : (before ++ t :: after).length ≤ fuel) :
    seek found next fuel prev cur = some (before.getLast?.getD prev, t) := by
  induction before generalizing fuel prev cur with
  | nil =>
    obtain ⟨rfl, -⟩ := path
    have nonzero : cur ≠ 0 := fun zero => real (by simp [zero])
    cases fuel with
    | zero => simp at enough
    | succ fuel => simp [seek, nonzero, hit]
  | cons x before ih =>
    obtain ⟨rfl, more⟩ := path
    have nonzero : cur ≠ 0 := fun zero => real (by simp [zero])
    cases fuel with
    | zero => simp at enough
    | succ fuel =>
      have later := @ih fuel cur (next cur) more (fun zero => real (List.mem_cons_of_mem _ zero))
        (fun y here => earlier y (List.mem_cons_of_mem _ here)) (by simpa using enough)
      simp [seek, nonzero, earlier cur List.mem_cons_self, later, List.getLast?_cons]

theorem Represents.unlink (represents : Represents s lanes) (inside : b < priorityBuckets)
    (shape : lanes b = before ++ t :: after) :
    Represents (LaneLists.unlink s b (before.getLast?.getD 0) t)
      (update lanes b (before ++ after)) := by
  have own := represents.bucket b inside
  have once := represents.sound.once b inside
  have real := represents.sound.real b inside
  have apart := represents.sound.apart b inside
  rw [shape] at own once real apart
  have shorter : (before ++ after).Sublist (before ++ t :: after) :=
    (List.Sublist.refl before).append (List.sublist_cons_self t after)
  have path : Path (LaneLists.unlink s b (before.getLast?.getD 0) t).next
      ((LaneLists.unlink s b (before.getLast?.getD 0) t).head b) (before ++ after) 0 := by
    obtain ⟨middle, front, rfl, rest⟩ := path_append.mp own.path
    rcases List.eq_nil_or_concat' before with rfl | ⟨pre, prev, rfl⟩
    · simpa [LaneLists.unlink] using rest
    · have nonzero : prev ≠ 0 := fun zero => real (by simp [zero])
      obtain ⟨last, pre, rfl, -⟩ := path_append.mp front
      have fresh := List.nodup_append.mp once
      have offPre : last ∉ _ := fun here => (List.nodup_append.mp fresh.1).2.2 _ here _ (by simp) rfl
      have offAfter : last ∉ after := fun here => fresh.2.2 last (by simp) last (by simp [here]) rfl
      simp only [LaneLists.unlink, List.getLast?_append, List.getLast?_singleton, Option.some_or,
        Option.getD_some, nonzero, ne_eq, not_false_eq_true, ↓reduceIte]
      exact path_append.mpr ⟨_, pre.snoc offPre (s.next middle), rest.update offAfter _⟩
  have ending := first_eq_zero path fun zero => real (shorter.subset zero)
  apply represents.take inside (shape ▸ List.perm_middle) (shape ▸ shorter) _ _ rfl
  · refine ⟨path, ?_, ?_⟩
    · cases after with
      | nil =>
        have last : s.tail b = t := by simpa using own.tail
        simp [LaneLists.unlink, last]
      | cons x more =>
        have last : s.tail b = ((x :: more).getLast?).getD 0 := by
          rw [own.tail, List.getLast?_append_of_ne_nil _ (by simp), List.getLast?_cons_cons]
        have other : t ≠ s.tail b := by
          intro equal
          have member : s.tail b ∈ x :: more := by
            rw [last, List.getLast?_eq_some_getLast (by simp)]
            exact List.getLast_mem _
          exact (List.nodup_cons.mp (List.nodup_append.mp once).2.1).1 (equal ▸ member)
        simp only [LaneLists.unlink, other, ↓reduceIte]
        rw [last, List.getLast?_append_of_ne_nil _ (by simp)]
    · have set : LaneLists.bit s.bits b = true := by
        rw [own.bit]
        cases before <;> rfl
      by_cases empty : before ++ after = []
      · have zero := ending.mpr empty
        simp only [LaneLists.unlink] at zero ⊢
        simp [zero, empty, bit_clearBit]
      · have nonzero := mt ending.mp empty
        simp only [LaneLists.unlink] at nonzero ⊢
        simp only [nonzero, ↓reduceIte, set]
        simpa using empty
  · intro c bound other
    apply (represents.bucket c bound).frame
    · simp only [LaneLists.unlink]
      split <;> simp [other]
    · simp only [LaneLists.unlink]
      split <;> simp [other]
    · have kept : ∀ (p : Prop) [Decidable p],
          LaneLists.bit (if p then clearBit s.bits b else s.bits) c = LaneLists.bit s.bits c := by
        intro p _
        split <;> simp [bit_clearBit, other]
      exact kept _
    · intro x here
      simp only [LaneLists.unlink]
      split
      · rename_i nonzero
        apply update_of_ne
        intro equal
        have member : before.getLast?.getD 0 ∈ before := by
          cases last : before.getLast? with
          | none => simp [last] at nonzero
          | some prev => exact List.mem_of_getLast? last
        exact other (apart c bound x (by simp [equal, member]) here).symm
      · rfl

/-- A walk sees the same match as a search of the bucket. -/
theorem Represents.seek (represents : Represents s lanes) (found : Nat → Bool) {fuel : Nat}
    (enough : (laneTasks lanes).length ≤ fuel) (inside : b < priorityBuckets) :
    LaneLists.seek found s.next fuel 0 (s.head b) = none ∧ (lanes b).find? found = none ∨
      ∃ before t after, lanes b = before ++ t :: after ∧ (lanes b).find? found = some t ∧
        (lanes b).eraseP found = before ++ after ∧
        LaneLists.seek found s.next fuel 0 (s.head b) = some (before.getLast?.getD 0, t) := by
  have own := (represents.bucket b inside).path
  have room : (lanes b).length ≤ fuel := by
    have split := (@Bins.all_update _ _ _ lanes inside []).length_eq
    simp only [laneTasks, List.length_append, List.length_nil] at split enough
    omega
  cases search : (lanes b).find? found with
  | none =>
    refine Or.inl ⟨seek_none own ?_ room, rfl⟩
    simpa using List.find?_eq_none.mp search
  | some t =>
    obtain ⟨hit, before, after, shape, earlier⟩ := List.find?_eq_some_iff_append.mp search
    have missed : ∀ x ∈ before, found x = false := by simpa using earlier
    refine Or.inr ⟨before, t, after, shape, rfl, ?_, ?_⟩
    · rw [shape, List.eraseP_append_right _ (by simpa using earlier), List.eraseP_cons_of_pos hit]
    · have real := represents.sound.real b inside
      rw [shape] at own room real
      exact seek_some own real missed hit room

theorem Represents.cancelWalk (represents : Represents s lanes) {found : Nat → Bool} {fuel : Nat}
    (enough : (laneTasks lanes).length ≤ fuel) :
    (if (LaneLists.cancelWalk s found fuel).1 = 0 then []
        else [(LaneLists.cancelWalk s found fuel).1]) = (taking lanes (unlinkFirst found lanes)).1 ∧
      Represents (LaneLists.cancelWalk s found fuel).2 (taking lanes (unlinkFirst found lanes)).2 := by
  have buckets : ((List.range priorityBuckets).find? fun b =>
      (LaneLists.seek found s.next fuel 0 (s.head b)).isSome) =
      (List.range priorityBuckets).find? fun b => (lanes b).any found := by
    apply List.find?_congr
    intro b member
    have searched : (lanes b).any found = ((lanes b).find? found).isSome := by
      rw [Bool.eq_iff_iff]
      simp
    rw [searched]
    rcases represents.seek found enough (List.mem_range.mp member) with ⟨missed, absent⟩ |
      ⟨before, t, after, -, present, -, hit⟩
    · simp [missed, absent]
    · simp [hit, present]
  cases bucket : (List.range priorityBuckets).find? fun b => (lanes b).any found with
  | none =>
    have walked : LaneLists.cancelWalk s found fuel = (0, s) := by
      simp [LaneLists.cancelWalk, buckets, bucket]
    have searched : unlinkFirst found lanes = none := by simp [unlinkFirst, bucket]
    rw [walked, searched]
    exact ⟨rfl, represents⟩
  | some b =>
    have inside : b < priorityBuckets := by simpa using List.mem_of_find?_eq_some bucket
    rcases represents.seek found enough inside with ⟨missed, absent⟩ |
      ⟨before, t, after, shape, present, erased, hit⟩
    · have walked : LaneLists.cancelWalk s found fuel = (0, s) := by
        simp [LaneLists.cancelWalk, buckets, bucket, missed]
      have searched : unlinkFirst found lanes = none := by simp [unlinkFirst, bucket, absent]
      rw [walked, searched]
      exact ⟨rfl, represents⟩
    · have nonzero : t ≠ 0 := fun zero => represents.sound.real b inside (by simp [shape, zero])
      have walked : LaneLists.cancelWalk s found fuel =
          (t, LaneLists.unlink s b (before.getLast?.getD 0) t) := by
        simp [LaneLists.cancelWalk, buckets, bucket, hit]
      have searched : unlinkFirst found lanes =
          some (t, update lanes b (before ++ after)) := by
        simp [unlinkFirst, bucket, present, erased]
      rw [walked, searched]
      exact ⟨if_neg nonzero, represents.unlink inside shape⟩

theorem Represents.dequeue (represents : Represents s lanes) (maxPriority : Nat) :
    Refines ⟨s, lanes⟩ (.dequeue maxPriority) := by
  have lowest := lowestBit_eq fun b inside => (represents.bucket b inside).bit
  unfold Refines
  simp only [apply, spec, dequeueLowestPriorityUnlocked, dequeueLowestPriority, laneHasPriority, lowest]
  cases bucket : lowestBucket lanes with
  | none =>
    simp only [taking]
    exact ⟨rfl, represents, fun _ _ => ⟨by simp, fun _ => trivial⟩⟩
  | some b =>
    have filled : (lanes b).isEmpty = false := by simpa using List.find?_some bucket
    by_cases beyond : maxPriority < b
    · simp only [beyond, taking, ↓reduceIte]
      refine ⟨trivial, represents, ?_⟩
      rintro other same
      cases same
      simp [beyond]
    · cases shape : lanes b with
      | nil => simp [shape] at filled
      | cons t rest =>
        have inside := lowestBucket_lt bucket
        have nonzero : t ≠ 0 := fun zero => represents.sound.real b inside (by simp [shape, zero])
        obtain ⟨first, after⟩ := represents.takeHead inside shape
        simp only [beyond, shape, first, nonzero, taking, ↓reduceIte]
        refine ⟨trivial, after, ?_⟩
        rintro other same
        cases same
        simp
        omega

theorem Represents.cancelAll (represents : Represents s lanes) {fuel : Nat}
    (enough : (laneTasks lanes).length ≤ fuel) : (cancelAllLanes s fuel).1 = laneTasks lanes ∧
      Represents (cancelAllLanes s fuel).2 (fun _ => []) := by
  have drained : (cancelAllLanes s fuel).1 = laneTasks lanes := by
    apply Bins.all_congr
    intro b inside
    have split := (@Bins.all_update _ _ _ lanes inside []).length_eq
    simp only [laneTasks, List.length_append, List.length_nil] at split enough
    rw [(represents.bucket b inside).path.walk (represents.sound.real b inside)]
    exact List.take_of_length_le (by omega)
  refine ⟨drained, ?_, ?_, ?_⟩
  · intro b inside
    constructor <;> simp [cancelAllLanes, LaneLists.bit]
  · constructor <;> simp
  · have count := represents.count
    have length : ((cancelAllLanes s fuel).1.length : Int) = s.queueLen := by rw [drained, count]
    have empty : laneTasks (fun _ => []) = [] := Bins.all_eq_nil fun _ _ => rfl
    rw [empty]
    show s.queueLen - ((cancelAllLanes s fuel).1.length : Int) = 0
    omega

theorem Represents.refines {p : Beside} {op : Op} (represents : Represents p.state p.lanes)
    (proper : Proper p op) : Refines p op := by
  cases op with
  | enqueue t => exact ⟨rfl, represents.enqueue proper.1 proper.2 rfl, nofun⟩
  | dequeue maxPriority => exact represents.dequeue maxPriority
  | cancel data fuel | cancelById taskId fuel =>
    obtain ⟨taken, after⟩ := represents.cancelWalk proper
    exact ⟨taken, after, nofun⟩
  | cancelAll fuel =>
    obtain ⟨drained, after⟩ := represents.cancelAll proper
    exact ⟨drained, after, nofun⟩
  | write t node =>
    refine ⟨rfl, ⟨fun b inside => ?_, represents.sound, represents.count⟩, nofun⟩
    exact (represents.bucket b inside).frame rfl rfl rfl fun _ _ => rfl

/-- Along every sequence of lane operations, on nodes of any priority and whatever is
written into their fields meanwhile, the linked lists with their tails and bits are a
stable priority queue. -/
theorem lanes_are_priority_queue (ops : List Op) (proper : Meets step Proper {} ops) :
    Meets step Refines {} ops := by
  apply @Meets.of_invariant _ _ step (fun p => Represents p.state p.lanes) Proper Refines
  · intro p next op represents proper taken
    cases taken
    exact (represents.refines proper).2.1
  · intro p op represents proper
    exact represents.refines proper
  · refine ⟨?_, ?_, ?_⟩
    · intro b inside
      constructor <;> simp [LaneLists.bit]
    · constructor <;> simp
    · simp [laneTasks, Bins.all]
  · exact proper

/-- Three tasks in two buckets: the one in the middle is cancelled by its pointer, and
the oldest of the lower bucket is taken. -/
theorem lanes_are_priority_queue_two_buckets :
    Meets step Refines {} [.write 1 { taskId := 2, userData := 7, priority := 0 },
      .write 2 { taskId := 3, userData := 8, priority := 0 }, .write 3 { taskId := 4, priority := 200 },
      .enqueue 3, .enqueue 1, .enqueue 2, .cancel 8 3, .dequeue 199, .dequeue 199, .cancelById 4 1,
      .enqueue 1, .cancelAll 5] := by
  apply lanes_are_priority_queue
  apply meets_of_decide
  decide +kernel

end Loomworks.Pool.LaneLists

import Loomworks.NodeStack
import Loomworks.Threads

/- What holds of the free list in every interleaving of pops and pushes. -/
namespace Loomworks.Pool.NodeStack

open Links Threads Transition State
open Function (update update_of_ne update_self)

/-- Every slot is in the chain or with one caller. -/
structure Shares (cap : Nat) (c : List Nat) (held : Nat → List Nat) : Prop where
  chain : c.Nodup
  distinct : ∀ i, (held i).Nodup
  apart : ∀ i x, x ∈ held i → x ∉ c
  exclusive : ∀ i j x, x ∈ held i → x ∈ held j → i = j
  total : ∀ x, x < cap ↔ x ∈ c ∨ ∃ i, x ∈ held i

namespace Shares

variable {cap : Nat} {c slots : List Nat} {held : Nat → List Nat}

theorem pop (shares : Shares cap c held) (i n : Nat) :
    Shares cap (c.drop n) (update held i (c.take n ++ held i)) := by
  have parts : ∀ x, x ∈ c ↔ x ∈ c.take n ∨ x ∈ c.drop n := by
    intro x
    rw [← List.mem_append, List.take_append_drop]
  have split := shares.chain
  rw [← List.take_append_drop n c] at split
  obtain ⟨first, rest, disjoint⟩ := List.nodup_append'.mp split
  have mine : ∀ j x, x ∈ update held i (c.take n ++ held i) j ↔
      x ∈ held j ∨ j = i ∧ x ∈ c.take n := by
    intro j x
    by_cases same : j = i
    · subst same
      rw [update_self, List.mem_append]
      tauto
    · rw [update_of_ne same]
      tauto
  refine ⟨rest, ?_, ?_, ?_, ?_⟩
  · apply forall_update List.Nodup
    · intro j _
      exact shares.distinct j
    · refine List.nodup_append'.mpr ⟨first, shares.distinct i, ?_⟩
      intro x taken before
      exact shares.apart i x before ((parts x).mpr (Or.inl taken))
  · intro j x member later
    rcases (mine j x).mp member with before | ⟨-, taken⟩
    · exact shares.apart j x before ((parts x).mpr (Or.inr later))
    · exact disjoint taken later
  · intro j k x left right
    rcases (mine j x).mp left with before | ⟨rfl, taken⟩
    · rcases (mine k x).mp right with other | ⟨rfl, taken⟩
      · exact shares.exclusive j k x before other
      · exact absurd ((parts x).mpr (Or.inl taken)) (shares.apart j x before)
    · rcases (mine k x).mp right with other | ⟨same, -⟩
      · exact absurd ((parts x).mpr (Or.inl taken)) (shares.apart k x other)
      · exact same.symm
  · intro x
    rw [shares.total x, parts x]
    constructor
    · rintro ((taken | later) | ⟨j, before⟩)
      · exact Or.inr ⟨i, (mine i x).mpr (Or.inr ⟨rfl, taken⟩)⟩
      · exact Or.inl later
      · exact Or.inr ⟨j, (mine j x).mpr (Or.inl before)⟩
    · rintro (later | ⟨j, member⟩)
      · exact Or.inl (Or.inr later)
      · rcases (mine j x).mp member with before | ⟨-, taken⟩
        · exact Or.inr ⟨j, before⟩
        · exact Or.inl (Or.inl taken)

theorem push (shares : Shares cap c held) {i : Nat} (distinct : slots.Nodup)
    (mine : ∀ x ∈ slots, x ∈ held i) :
    Shares cap (slots ++ c) (update held i ((held i).filter fun x => x ∉ slots)) := by
  have keeps : ∀ j x, x ∈ update held i ((held i).filter fun x => x ∉ slots) j ↔
      x ∈ held j ∧ x ∉ slots := by
    intro j x
    by_cases same : j = i
    · subst same
      rw [update_self, List.mem_filter]
      simp
    · rw [update_of_ne same]
      constructor
      · intro before
        exact ⟨before, fun given => same (shares.exclusive j i x before (mine x given))⟩
      · exact And.left
  refine ⟨?_, ?_, ?_, ?_, ?_⟩
  · refine List.nodup_append'.mpr ⟨distinct, shares.chain, ?_⟩
    intro x given
    exact shares.apart i x (mine x given)
  · apply forall_update List.Nodup
    · intro j _
      exact shares.distinct j
    · exact (shares.distinct i).filter _
  · intro j x member
    obtain ⟨before, kept⟩ := (keeps j x).mp member
    rw [List.mem_append]
    rintro (given | old)
    · exact kept given
    · exact shares.apart j x before old
  · intro j k x left right
    exact shares.exclusive j k x ((keeps j x).mp left).1 ((keeps k x).mp right).1
  · intro x
    rw [shares.total x, List.mem_append]
    constructor
    · rintro (old | ⟨j, before⟩)
      · exact Or.inl (Or.inr old)
      · by_cases given : x ∈ slots
        · exact Or.inl (Or.inl given)
        · exact Or.inr ⟨j, (keeps j x).mpr ⟨before, given⟩⟩
    · rintro ((given | old) | ⟨j, member⟩)
      · exact Or.inr ⟨i, mine x given⟩
      · exact Or.inl old
      · exact Or.inr ⟨j, ((keeps j x).mp member).1⟩

theorem give (shares : Shares cap c held) {i j slot : Nat} (mine : slot ∈ held i) (other : i ≠ j) :
    Shares cap c
      (update (update held i ((held i).erase slot)) j (slot :: held j)) := by
  have holds : ∀ k x, x ∈ update (update held i ((held i).erase slot)) j
      (slot :: held j) k ↔ (x ≠ slot ∧ x ∈ held k) ∨ k = j ∧ x = slot := by
    intro k x
    by_cases second : k = j
    · subst second
      rw [update_self, List.mem_cons]
      constructor
      · rintro (rfl | before)
        · exact Or.inr ⟨rfl, rfl⟩
        · by_cases same : x = slot
          · exact Or.inr ⟨rfl, same⟩
          · exact Or.inl ⟨same, before⟩
      · rintro (⟨-, before⟩ | ⟨-, same⟩)
        · exact Or.inr before
        · exact Or.inl same
    · rw [update_of_ne second]
      by_cases first : k = i
      · subst first
        rw [update_self, (shares.distinct k).mem_erase_iff]
        simp [second]
      · rw [update_of_ne first]
        simp only [second, false_and, or_false]
        constructor
        · intro before
          refine ⟨?_, before⟩
          rintro rfl
          exact first (shares.exclusive k i x before mine)
        · exact And.right
  refine ⟨shares.chain, ?_, ?_, ?_, ?_⟩
  · apply forall_update List.Nodup
    · intro k _
      apply forall_update List.Nodup
      · intro l _
        exact shares.distinct l
      · exact (shares.distinct i).erase slot
    · refine List.nodup_cons.mpr ⟨?_, shares.distinct j⟩
      intro theirs
      exact other (shares.exclusive i j slot mine theirs)
  · intro k x member
    rcases (holds k x).mp member with ⟨-, before⟩ | ⟨-, rfl⟩
    · exact shares.apart k x before
    · exact shares.apart i x mine
  · intro k l x left right
    rcases (holds k x).mp left with ⟨differs, before⟩ | ⟨rfl, rfl⟩
    · rcases (holds l x).mp right with ⟨-, again⟩ | ⟨-, same⟩
      · exact shares.exclusive k l x before again
      · exact absurd same differs
    · rcases (holds l x).mp right with ⟨differs, -⟩ | ⟨same, -⟩
      · exact absurd rfl differs
      · exact same.symm
  · intro x
    rw [shares.total x]
    constructor
    · rintro (old | ⟨k, before⟩)
      · exact Or.inl old
      · by_cases same : x = slot
        · exact Or.inr ⟨j, (holds j x).mpr (Or.inr ⟨rfl, same⟩)⟩
        · exact Or.inr ⟨k, (holds k x).mpr (Or.inl ⟨same, before⟩)⟩
    · rintro (old | ⟨k, member⟩)
      · exact Or.inl old
      · rcases (holds k x).mp member with ⟨-, before⟩ | ⟨-, rfl⟩
        · exact Or.inr ⟨k, before⟩
        · exact Or.inr ⟨i, mine⟩

end Shares

/-- The caller pushes slots it holds. -/
def Mine (held slots : List Nat) : Prop := slots ≠ [] ∧ slots.Nodup ∧ ∀ x ∈ slots, x ∈ held

/-- The word a call works on is the one it read when seen updates had been made. -/
structure Looked (updates : Nat) (caller : Caller) (head : Head) : Prop where
  tag : head.tag = caller.seen % 2 ^ 32
  since : caller.since ≤ caller.seen
  seen : caller.seen ≤ updates

/-- What a pop has read is worth something only while no update comes in between; the cells of
the slots a caller holds are its own. -/
def CallerOk (next : Nat → Nat) (updates : Nat) (c held : List Nat) (caller : Caller) : Prop :=
  match caller.pc with
  | .idle => True
  | .popLoad want => 0 < want ∧ caller.since ≤ updates
  | .popWalk want head cur n =>
    Looked updates caller head ∧ 0 < n ∧ n < want ∧ (caller.seen = updates → (c)[n - 1]? = some cur)
  | .popSuccessor want head cur n =>
    Looked updates caller head ∧ 0 < n ∧ n ≤ want ∧
      (caller.seen = updates → (c)[n - 1]? = some cur ∧ n = min want c.length)
  | .popSwap want head n successor =>
    Looked updates caller head ∧ 0 < n ∧ n ≤ want ∧
      (caller.seen = updates → n = min want c.length ∧ Path next successor (c.drop n) freeEnd)
  | .popOut want det n out =>
    ∃ rest last, Path next det rest last ∧ rest.length = n ∧ 0 < n ∧ (out ++ rest).Nodup ∧
      (∀ x ∈ out ++ rest, x ∈ held) ∧ (out ++ rest).length ≤ want
  | .pushLink slots rest =>
    Mine held slots ∧ ∃ done, slots = done ++ rest ∧
      Path next (slots.headD freeEnd) done (rest.headD freeEnd)
  | .pushLoad slots | .pushStore slots _ =>
    Mine held slots ∧ Path next (slots.headD freeEnd) slots.dropLast (slots.getLastD freeEnd)
  | .pushSwap slots head => Mine held slots ∧ Path next (slots.headD freeEnd) slots head.slot

def OpPc.want : OpPc → Option Nat
  | .popLoad want | .popWalk want .. | .popSuccessor want .. | .popSwap want .. | .popOut want .. =>
    some want
  | _ => none

def OpPc.slots : OpPc → Option (List Nat)
  | .pushLink slots _ | .pushLoad slots | .pushStore slots _ | .pushSwap slots _ => some slots
  | _ => none

variable {s : State} {next next' : Nat → Nat} {updates updates' i : Nat} {c c' held held' : List Nat}
  {caller : Caller}

theorem Mine.mono {slots : List Nat} (mine : Mine held slots) (kept : ∀ x ∈ held, x ∈ held') :
    Mine held' slots :=
  ⟨mine.1, mine.2.1, fun x member => kept x (mine.2.2 x member)⟩

theorem Mine.concat {slots : List Nat} (mine : Mine held slots) :
    slots = slots.dropLast ++ [slots.getLastD freeEnd] := by
  rw [List.getLastD_eq_getLast?, List.getLast?_eq_some_getLast mine.1, Option.getD_some,
    List.dropLast_append_getLast]

theorem Looked.later {head : Head} (looked : Looked updates caller head) (later : updates ≤ updates') :
    Looked updates' caller head :=
  ⟨looked.tag, looked.since, Nat.le_trans looked.seen later⟩

/-- A caller's facts outlive what the others do. -/
theorem CallerOk.frame (ok : CallerOk next updates c held caller) (later : updates ≤ updates')
    (same : updates' = updates → c' = c ∧ ∀ x ∈ c, next' x = next x)
    (cells : ∀ x ∈ held, next' x = next x) (kept : ∀ x ∈ held, x ∈ held') :
    CallerOk next' updates' c' held' caller := by
  have still : ∀ {head : Head} {P Q : Prop}, Looked updates caller head →
      (updates' = updates → P → Q) → (caller.seen = updates → P) →
      caller.seen = updates' → Q := by
    intro head P Q looked step before now
    have seen := looked.seen
    exact step (by omega) (before (by omega))
  unfold CallerOk at ok ⊢
  split at ok
  · trivial
  · exact ⟨ok.1, Nat.le_trans ok.2 later⟩
  · obtain ⟨looked, positive, bound, found⟩ := ok
    refine ⟨looked.later later, positive, bound, still looked ?_ found⟩
    intro quiet here
    rw [(same quiet).1]
    exact here
  · obtain ⟨looked, positive, bound, found⟩ := ok
    refine ⟨looked.later later, positive, bound, still looked ?_ found⟩
    intro quiet here
    rw [(same quiet).1]
    exact here
  · obtain ⟨looked, positive, bound, found⟩ := ok
    refine ⟨looked.later later, positive, bound, still looked ?_ found⟩
    rintro quiet ⟨all, path⟩
    obtain ⟨chain, links⟩ := same quiet
    rw [chain]
    exact ⟨all, path.congr fun x member => links x (List.mem_of_mem_drop member)⟩
  · obtain ⟨rest, last, path, length, positive, distinct, mine, bound⟩ := ok
    refine ⟨rest, last, ?_, length, positive, distinct, fun x member => kept x (mine x member), bound⟩
    exact path.congr fun x member => cells x (mine x (List.mem_append_right _ member))
  · obtain ⟨mine, done, shape, path⟩ := ok
    refine ⟨mine.mono kept, done, shape, path.congr fun x member => cells x (mine.2.2 x ?_)⟩
    rw [shape]
    exact List.mem_append_left _ member
  · obtain ⟨mine, path⟩ := ok
    exact ⟨mine.mono kept,
      path.congr fun x member => cells x (mine.2.2 x (List.dropLast_subset _ member))⟩
  · obtain ⟨mine, path⟩ := ok
    exact ⟨mine.mono kept,
      path.congr fun x member => cells x (mine.2.2 x (List.dropLast_subset _ member))⟩
  · obtain ⟨mine, path⟩ := ok
    exact ⟨mine.mono kept, path.congr fun x member => cells x (mine.2.2 x member)⟩

theorem callerOk_advance {want cur n : Nat} {head : Head} (looked : Looked updates caller head)
    (positive : 0 < n) (bound : n ≤ want) (found : caller.seen = updates → (c)[n - 1]? = some cur) :
    CallerOk next updates c held { caller with pc := advance want head cur n } := by
  unfold advance
  split
  · rename_i more
    exact ⟨⟨looked.tag, looked.since, looked.seen⟩, positive, more, found⟩
  · refine ⟨⟨looked.tag, looked.since, looked.seen⟩, positive, bound, fun now => ⟨found now, ?_⟩⟩
    have inside := (List.getElem?_eq_some_iff.mp (found now)).1
    omega

/-- A push that has linked its slots up to y. -/
theorem callerOk_linking {slots done rest : List Nat} {y : Nat} (mine : Mine held slots)
    (shape : slots = done ++ y :: rest) (path : Path next (slots.headD freeEnd) done y)
    (pc : caller.pc = linking slots (y :: rest)) : CallerOk next updates c held caller := by
  unfold CallerOk
  rw [pc]
  cases rest with
  | nil =>
    refine ⟨mine, ?_⟩
    rw [shape] at path ⊢
    rw [List.dropLast_concat, List.getLastD_concat]
    exact path
  | cons z rest => exact ⟨mine, done, shape, path⟩

/-- The chain of the free list is c. -/
structure Inv (s : State) (c : List Nat) : Prop where
  path : Path s.next s.head.slot c freeEnd
  tag : s.head.tag = s.updates % 2 ^ 32
  small : s.cap ≤ freeEnd
  shares : Shares s.cap c s.held
  callers : ∀ i, CallerOk s.next s.updates c (s.held i) (s.callers i)

namespace Inv

theorem marker (inv : Inv s c) : freeEnd ∉ c := by
  intro member
  have inside := (inv.shares.total freeEnd).mpr (Or.inl member)
  have small := inv.small
  omega

theorem chain_eq (inv : Inv s c) : s.chain = c := by
  refine (inv.path.walk inv.marker).trans (List.take_of_length_le ?_)
  have subset : c ⊆ List.range s.cap := by
    intro x member
    exact List.mem_range.mpr ((inv.shares.total x).mpr (Or.inl member))
  have bound := (List.subperm_of_subset inv.shares.chain subset).length_le
  rw [List.length_range] at bound
  exact bound

theorem moves (inv : Inv s c) (own : CallerOk s.next s.updates c (s.held i) caller) :
    Inv { s with callers := update s.callers i caller } c := by
  refine ⟨inv.path, inv.tag, inv.small, inv.shares, fun j => ?_⟩
  show CallerOk s.next s.updates c (s.held j) (update s.callers i caller j)
  by_cases same : j = i
  · rw [same, update_self]
    exact own
  · rw [update_of_ne same]
    exact inv.callers j

theorem store (inv : Inv s c) {x y : Nat} (mine : x ∈ s.held i)
    (own : CallerOk (update s.next x y) s.updates c (s.held i) caller) :
    Inv { s with
      next := update s.next x y, callers := update s.callers i caller } c := by
  have off := inv.shares.apart i x mine
  refine ⟨inv.path.update off y, inv.tag, inv.small, inv.shares, fun j => ?_⟩
  show CallerOk (update s.next x y) s.updates c (s.held j)
    (update s.callers i caller j)
  by_cases same : j = i
  · rw [same, update_self]
    exact own
  · rw [update_of_ne same]
    refine (inv.callers j).frame (Nat.le_refl _) (fun _ => ⟨rfl, ?_⟩) ?_ fun _ member => member
    · intro z member
      exact update_of_ne (fun here => off (by rw [← here]; exact member)) _ _
    · intro z theirs
      apply update_of_ne
      rintro rfl
      exact same (inv.shares.exclusive j i z theirs mine)

/-- Caller i swaps the head: the slots change hands, and what others have read is void. -/
theorem swap (inv : Inv s c) {slot : Nat} {slots : List Nat}
    (path : Path s.next slot c' freeEnd)
    (shares : Shares s.cap c' (update s.held i slots))
    (own : CallerOk s.next (s.updates + 1) c' slots caller) :
    Inv { s with
      head := s.head.swap slot
      held := update s.held i slots
      updates := s.updates + 1
      callers := update s.callers i caller } c' := by
  refine ⟨path, ?_, inv.small, shares, fun j => ?_⟩
  · show (s.head.tag + 1) % 2 ^ 32 = (s.updates + 1) % 2 ^ 32
    rw [inv.tag, Nat.mod_add_mod]
  · show CallerOk s.next (s.updates + 1) c' (update s.held i slots j)
      (update s.callers i caller j)
    by_cases same : j = i
    · rw [same, update_self, update_self]
      exact own
    · rw [update_of_ne same, update_of_ne same]
      refine (inv.callers j).frame (Nat.le_succ _) (fun now => ?_) (fun _ _ => rfl) fun _ member => member
      exact absurd now (Nat.succ_ne_self _)

/-- The word is unchanged only if nothing happened since it was read. -/
theorem fresh (inv : Inv s c) {head : Head} (looked : Looked s.updates caller head)
    (quick : s.updates < caller.since + 2 ^ 32) (same : s.head = head) : caller.seen = s.updates := by
  have tag := inv.tag
  rw [same, looked.tag] at tag
  have since := looked.since
  have seen := looked.seen
  omega

/-- A pop that reads the head word sees the first slot of the chain, or END. -/
theorem inspects (inv : Inv s c) {want : Nat} (positive : 0 < want)
    (since : (s.callers i).since ≤ s.updates) : Inv (s.inspect i want) c := by
  unfold State.inspect
  split
  · exact inv.moves trivial
  · rename_i nonempty
    have first : (c)[0]? = some s.head.slot := by
      have path := inv.path
      cases c with
      | nil => exact absurd path nonempty
      | cons x rest => rw [List.getElem?_cons_zero, path.1]
    have looked : Looked s.updates { s.callers i with seen := s.updates } s.head :=
      ⟨inv.tag, since, Nat.le_refl _⟩
    exact inv.moves (callerOk_advance looked Nat.one_pos positive fun _ => first)

end Inv

/-- What a pop that returns has got. -/
structure Got (want : Nat) (c held out : List Nat) : Prop where
  empty : out = [] → c = []
  bound : out.length ≤ want
  distinct : out.Nodup
  mine : ∀ x ∈ out, x ∈ held

namespace Inv

theorem nil_of_marker (inv : Inv s c) (marker : s.head.slot = freeEnd) : c = [] := by
  have path := inv.path
  cases c with
  | nil => rfl
  | cons x rest =>
    have first : freeEnd = x := marker.symm.trans path.1
    exact absurd (first ▸ List.mem_cons_self ..) inv.marker

theorem inspects_got (inv : Inv s c) {want : Nat}
    (returned : ((s.inspect i want).callers i).pc = .idle) :
    Got want c ((s.inspect i want).held i) ((s.inspect i want).callers i).out := by
  unfold State.inspect at returned ⊢
  split
  · rename_i marker
    rw [State.popReturns_out]
    exact ⟨fun _ => inv.nil_of_marker marker, Nat.zero_le _, List.nodup_nil, by simp⟩
  · rename_i nonempty
    rw [if_neg nonempty, State.reads_pc] at returned
    unfold advance at returned
    split at returned <;> cases returned

theorem popStep (inv : Inv s c) {ok : Bool} {want : Nat} {s' : State}
    (quick : s.updates < (s.callers i).since + 2 ^ 32) (popping : (s.callers i).pc.want = some want)
    (taken : s.nodeStackBatchPop i ok (s.callers i).pc = some s') :
    ∃ c', Inv s' c' ∧ ((s'.callers i).pc = .idle → Got want c (s'.held i) (s'.callers i).out) := by
  have own := inv.callers i
  have goesOn : ∀ pc : OpPc, pc ≠ .idle →
      CallerOk s.next s.updates c (s.held i) { s.callers i with pc } →
      ∃ c', Inv (s.setPc i pc) c' ∧ (((s.setPc i pc).callers i).pc = .idle →
        Got want c ((s.setPc i pc).held i) ((s.setPc i pc).callers i).out) := by
    intro pc busy ok
    refine ⟨c, inv.moves ok, fun idle => absurd ?_ busy⟩
    rw [State.setPc_pc] at idle
    exact idle
  unfold CallerOk at own
  cases pc : (s.callers i).pc with
  | popLoad want' =>
    rw [pc] at own popping taken
    cases popping
    cases taken
    exact ⟨c, inv.inspects own.1 own.2, inv.inspects_got⟩
  | popWalk want' head cur n =>
    rw [pc] at own popping taken
    cases popping
    obtain ⟨looked, positive, bound, found⟩ := own
    simp only [State.nodeStackBatchPop] at taken
    split at taken <;> cases taken
    · rename_i marker
      refine goesOn _ (by simp) ⟨⟨looked.tag, looked.since, looked.seen⟩, positive, Nat.le_of_lt bound,
        fun now => ⟨found now, ?_⟩⟩
      rcases inv.path.next_eq (found now) with after | ⟨-, whole⟩
      · exact absurd (marker ▸ List.mem_of_getElem? after) inv.marker
      · omega
    · rename_i more
      refine goesOn _ ?_ (callerOk_advance looked (Nat.succ_pos n) bound ?_)
      · unfold advance
        split <;> simp
      · intro now
        rcases inv.path.next_eq (found now) with after | ⟨marker, -⟩
        · rw [Nat.sub_add_cancel positive] at after
          exact after
        · exact absurd marker more
  | popSuccessor want' head cur n =>
    rw [pc] at own popping taken
    cases popping
    obtain ⟨looked, positive, bound, found⟩ := own
    cases taken
    refine goesOn _ (by simp) ⟨⟨looked.tag, looked.since, looked.seen⟩, positive, bound, ?_⟩
    intro now
    obtain ⟨here, all⟩ := found now
    have after := (inv.path.split here).2
    rw [Nat.sub_add_cancel positive] at after
    exact ⟨all, after⟩
  | popSwap want' head n successor =>
    rw [pc] at own popping taken
    cases popping
    obtain ⟨looked, positive, bound, found⟩ := own
    simp only [State.nodeStackBatchPop] at taken
    split at taken
    · rename_i swapped
      obtain ⟨all, path⟩ := found (inv.fresh looked quick swapped.1)
      have short : n ≤ c.length := by omega
      cases taken
      rw [← swapped.1]
      have detached : follow s.next s.head.slot n = c.take n := inv.path.follow short
      rw [detached]
      have whole := inv.path
      rw [← List.take_append_drop n c] at whole
      obtain ⟨last, front, -⟩ := path_append.mp whole
      refine ⟨c.drop n, inv.swap path (inv.shares.pop i n) ?_, by simp⟩
      have length : (c.take n).length = n := List.length_take_of_le short
      refine ⟨c.take n, last, front, length, positive, ?_, ?_, ?_⟩
      · exact inv.shares.chain.sublist (List.take_sublist n c)
      · intro x member
        exact List.mem_append_left _ member
      · rw [List.nil_append, length]
        exact bound
    · cases taken
      exact ⟨c, inv.inspects (by omega) (Nat.le_trans looked.since looked.seen), inv.inspects_got⟩
  | popOut want' det n out =>
    rw [pc] at own popping taken
    cases popping
    obtain ⟨rest, last, path, length, positive, distinct, mine, bound⟩ := own
    cases rest with
    | nil =>
      rw [List.length_nil] at length
      omega
    | cons x rest =>
      obtain ⟨rfl, path⟩ := path
      rw [List.append_cons] at distinct mine bound
      rw [List.length_cons] at length
      simp only [State.nodeStackBatchPop] at taken
      split at taken <;> cases taken
      · rename_i single
        have none : rest = [] := List.eq_nil_of_length_eq_zero (by omega)
        rw [none, List.append_nil] at distinct mine bound
        refine ⟨c, inv.moves trivial, fun _ => ?_⟩
        rw [State.popReturns_out]
        exact ⟨fun empty => absurd empty (by simp), bound, distinct, mine⟩
      · refine goesOn _ (by simp) ⟨rest, last, path, by omega, by omega, distinct, mine, bound⟩
  | _ =>
    rw [pc] at popping
    cases popping

theorem pushStep (inv : Inv s c) {ok : Bool} {slots : List Nat} {s' : State}
    (pushing : (s.callers i).pc.slots = some slots)
    (taken : s.nodeStackBatchPush i ok (s.callers i).pc = some s') :
    ((s'.callers i).pc ≠ .idle ∧ Inv s' c) ∨
      ((s'.callers i).pc = .idle ∧ (s'.callers i).linked = true ∧ Inv s' (slots ++ c)) := by
  have own := inv.callers i
  unfold CallerOk at own
  cases pc : (s.callers i).pc with
  | pushLink slots' rest =>
    rw [pc] at own pushing taken
    cases pushing
    obtain ⟨mine, done, shape, path⟩ := own
    match rest, taken with
    | x :: y :: rest, taken =>
      cases taken
      have distinct := mine.2.1
      rw [shape] at distinct
      have off : x ∉ done := fun member => (List.disjoint_of_nodup_append distinct) member (by simp)
      have held : x ∈ s.held i := mine.2.2 x (by simp [shape])
      refine Or.inl ⟨?_, inv.store held ?_⟩
      · rw [State.setPc_pc]
        unfold linking
        split <;> simp
      · have linked : slots = (done ++ [x]) ++ y :: rest := by
          rw [shape, List.append_assoc]
          rfl
        exact callerOk_linking mine linked (path.snoc off y) rfl
  | pushLoad slots' =>
    rw [pc] at own pushing taken
    cases pushing
    cases taken
    exact Or.inl ⟨by simp, inv.moves own⟩
  | pushStore slots' head =>
    rw [pc] at own pushing taken
    cases pushing
    cases taken
    obtain ⟨mine, path⟩ := own
    have last := mine.concat
    have distinct := mine.2.1
    rw [last] at distinct
    have off : slots.getLastD freeEnd ∉ slots.dropLast := fun member =>
      (List.disjoint_of_nodup_append distinct) member (by simp)
    refine Or.inl ⟨by simp, inv.store (mine.2.2 _ (by rw [last]; simp)) ⟨mine, ?_⟩⟩
    have linked := path.snoc off head.slot
    rw [← last] at linked
    exact linked
  | pushSwap slots' head =>
    rw [pc] at own pushing taken
    cases pushing
    obtain ⟨mine, path⟩ := own
    simp only [State.nodeStackBatchPush] at taken
    split at taken <;> cases taken
    · rename_i swapped
      rw [← swapped.1] at path ⊢
      refine Or.inr ⟨by simp, by simp, ?_⟩
      exact inv.swap (path_append.mpr ⟨_, path, inv.path⟩) (inv.shares.push mine.2.1 mine.2.2) trivial
    · refine Or.inl ⟨by simp, inv.moves ⟨mine, ?_⟩⟩
      rw [mine.concat] at path
      obtain ⟨last, front, same, -⟩ := path_append.mp path
      rw [same, ← mine.concat] at front
      exact front
  | _ =>
    rw [pc] at pushing
    cases pushing

end Inv

/-- The chain is a list that ends in END, and each slot is in it or with one caller. -/
structure Intact (s : State) : Prop where
  ends : Path s.next s.head.slot s.chain freeEnd
  marker : freeEnd ∉ s.chain
  acyclic : s.chain.Nodup
  distinct : ∀ i, (s.held i).Nodup
  inside : ∀ x, x ∈ s.chain ∨ (∃ i, x ∈ s.held i) → x < s.cap
  shared : ∀ x < s.cap, (x ∈ s.chain ∧ ∀ i, x ∉ s.held i) ∨
    x ∉ s.chain ∧ ∃ i, x ∈ s.held i ∧ ∀ j, x ∈ s.held j → j = i

/-- What the calls return: a pop some slots it now holds, or none because the chain is empty; a
push links nothing until it returns, and then all. -/
def Answered (s : State) (label : Label) : Prop :=
  ∀ s', step s label = some s' → match label with
    | .pop i want =>
      (s'.callers i).pc = .idle → (s'.callers i).out = [] ∧ (want = 0 ∨ s.chain = [])
    | .push i slots =>
      s'.chain = s.chain ∧ ((s'.callers i).pc = .idle → (s'.callers i).linked = true → slots = [])
    | .step i _ =>
      (∀ want, (s.callers i).pc.want = some want → (s'.callers i).pc = .idle →
        Got want s.chain (s'.held i) (s'.callers i).out) ∧
      ∀ slots, (s.callers i).pc.slots = some slots →
        ((s'.callers i).pc ≠ .idle ∧ s'.chain = s.chain) ∨
          (s'.callers i).pc = .idle ∧ (s'.callers i).linked = true ∧ s'.chain = slots ++ s.chain
    | .give _ _ _ => s'.chain = s.chain

namespace Inv

theorem intact (inv : Inv s c) : Intact s := by
  have shares := inv.shares
  have chain := inv.chain_eq
  refine ⟨?_, ?_, ?_, shares.distinct, ?_, ?_⟩
  · rw [chain]
    exact inv.path
  · rw [chain]
    exact inv.marker
  · rw [chain]
    exact shares.chain
  · intro x
    rw [chain]
    exact (shares.total x).mpr
  · intro x below
    rw [chain]
    by_cases member : x ∈ c
    · exact Or.inl ⟨member, fun i mine => shares.apart i x mine member⟩
    · obtain ⟨i, mine⟩ := ((shares.total x).mp below).resolve_left member
      exact Or.inr ⟨member, i, mine, fun j theirs => shares.exclusive j i x theirs mine⟩

theorem chain_kept (inv : Inv s c) {s' : State} (after : Inv s' c) : s'.chain = s.chain := by
  rw [after.chain_eq, inv.chain_eq]

theorem pop_called (inv : Inv s c) {want : Nat} {s' : State} (taken : step s (.pop i want) = some s') :
    Inv s' c ∧ ((s'.callers i).pc = .idle → (s'.callers i).out = [] ∧ (want = 0 ∨ s.chain = [])) := by
  simp only [step] at taken
  split at taken
  · split at taken <;> cases taken
    · rename_i nothing
      refine ⟨inv.moves trivial, fun _ => ⟨by simp, ?_⟩⟩
      rcases nothing with none | zero
      · right
        rw [State.chain, none]
        rfl
      · exact Or.inl zero
    · rename_i something
      have positive : 0 < want := by omega
      refine ⟨inv.moves ⟨positive, Nat.le_refl _⟩, fun idle => ?_⟩
      rw [State.begins_pc] at idle
      cases idle
  · cases taken

theorem push_called (inv : Inv s c) {slots : List Nat} {s' : State}
    (taken : step s (.push i slots) = some s') :
    Inv s' c ∧ ((s'.callers i).pc = .idle → (s'.callers i).linked = true → slots = []) := by
  simp only [step] at taken
  split at taken
  · rename_i called
    split at taken
    · rename_i none
      cases taken
      exact ⟨inv.moves trivial, fun _ _ => none⟩
    · rename_i some
      split at taken <;> cases taken
      · refine ⟨inv.moves trivial, fun _ linked => ?_⟩
        rw [State.pushReturns_linked] at linked
        cases linked
      · obtain ⟨x, rest, rfl⟩ := List.exists_cons_of_ne_nil some
        refine ⟨inv.moves ?_, fun idle => ?_⟩
        · exact callerOk_linking ⟨some, called.2⟩ (List.nil_append _).symm rfl rfl
        · rw [State.begins_pc] at idle
          unfold linking at idle
          split at idle <;> cases idle
  · cases taken

theorem given (inv : Inv s c) {j slot : Nat} {s' : State} (taken : step s (.give i j slot) = some s') :
    Inv s' c := by
  simp only [step] at taken
  split at taken <;> cases taken
  rename_i allowed
  obtain ⟨idle, mine, other⟩ := allowed
  refine ⟨inv.path, inv.tag, inv.small, inv.shares.give mine other, fun k => ?_⟩
  by_cases giver : k = i
  · rw [giver]
    show CallerOk _ _ _ _ (s.callers i)
    unfold CallerOk
    rw [idle]
    trivial
  · refine (inv.callers k).frame (Nat.le_refl _) (fun _ => ⟨rfl, fun _ _ => rfl⟩) (fun _ _ => rfl) ?_
    intro x member
    show x ∈ update (update s.held i _) j _ k
    by_cases taker : k = j
    · rw [taker, update_self]
      exact List.mem_cons_of_mem _ (taker ▸ member)
    · rw [update_of_ne taker, update_of_ne giver]
      exact member

theorem step_split {ok : Bool} {s' : State} (taken : step s (.step i ok) = some s') :
    (∃ want, (s.callers i).pc.want = some want ∧ (s.callers i).pc.slots = none ∧
      s.nodeStackBatchPop i ok (s.callers i).pc = some s') ∨
    ∃ slots, (s.callers i).pc.slots = some slots ∧ (s.callers i).pc.want = none ∧
      s.nodeStackBatchPush i ok (s.callers i).pc = some s' := by
  simp only [step] at taken
  split at taken
  case h_1 => cases taken
  all_goals rename_i pc
  all_goals rw [pc] at taken ⊢
  all_goals first
    | exact Or.inl ⟨_, rfl, rfl, taken⟩
    | exact Or.inr ⟨_, rfl, rfl, taken⟩

theorem answers (inv : Inv s c) {label : Label} (quick : Quick s label) {s' : State}
    (taken : step s label = some s') : ∃ c', Inv s' c' := by
  cases label with
  | pop i want => exact ⟨c, (inv.pop_called taken).1⟩
  | push i slots => exact ⟨c, (inv.push_called taken).1⟩
  | give i j slot => exact ⟨c, inv.given taken⟩
  | step i ok =>
    rcases step_split taken with ⟨want, popping, -, taken⟩ | ⟨slots, pushing, -, taken⟩
    · obtain ⟨c', after, -⟩ := inv.popStep quick popping taken
      exact ⟨c', after⟩
    · rcases inv.pushStep pushing taken with ⟨-, after⟩ | ⟨-, -, after⟩
      · exact ⟨c, after⟩
      · exact ⟨slots ++ c, after⟩

theorem answered (inv : Inv s c) {label : Label} (quick : Quick s label) : Answered s label := by
  intro s' taken
  cases label with
  | pop i want => exact (inv.pop_called taken).2
  | push i slots =>
    obtain ⟨after, returned⟩ := inv.push_called taken
    exact ⟨inv.chain_kept after, returned⟩
  | give i j slot => exact inv.chain_kept (inv.given taken)
  | step i ok =>
    rcases step_split taken with ⟨want, popping, other, taken⟩ | ⟨slots, pushing, other, taken⟩
    · obtain ⟨c', after, got⟩ := inv.popStep quick popping taken
      refine ⟨fun want' same returned => ?_, fun slots same => ?_⟩
      · rw [popping] at same
        cases same
        rw [inv.chain_eq]
        exact got returned
      · rw [other] at same
        cases same
    · refine ⟨fun want same => ?_, fun slots' same => ?_⟩
      · rw [other] at same
        cases same
      · rw [pushing] at same
        cases same
        refine (inv.pushStep pushing taken).imp ?_ ?_
        · rintro ⟨busy, after⟩
          exact ⟨busy, inv.chain_kept after⟩
        · rintro ⟨idle, linked, after⟩
          exact ⟨idle, linked, by rw [after.chain_eq, inv.chain_eq]⟩

end Inv

theorem path_seeded {cap n k : Nat} (rest : k + (n + 1) = cap) :
    Path (fun i => if i + 1 < cap then i + 1 else freeEnd) k (List.range' k (n + 1)) freeEnd := by
  induction n generalizing k with
  | zero => exact ⟨rfl, if_neg (by omega)⟩
  | succ n ih =>
    refine ⟨rfl, ?_⟩
    have next : (if k + 1 < cap then k + 1 else freeEnd) = k + 1 := if_pos (by omega)
    show Path _ (if k + 1 < cap then k + 1 else freeEnd) _ _
    rw [next]
    exact ih (by omega)

theorem inv_start (cap : UInt32) : Inv (start cap) (List.range cap.toNat) := by
  have small := cap.toNat_lt
  refine ⟨?_, rfl, ?_, ?_, fun _ => trivial⟩
  · show Path _ (if cap = 0 then freeEnd else 0) _ _
    split
    · rename_i none
      rw [none]
      rfl
    · rename_i some
      have positive : cap.toNat ≠ 0 := fun zero => some (UInt32.toNat_inj.mp zero)
      obtain ⟨n, size⟩ := Nat.exists_eq_succ_of_ne_zero positive
      rw [List.range_eq_range', size]
      exact path_seeded (by omega)
  · show cap.toNat ≤ 2 ^ 32 - 1
    omega
  · refine ⟨List.nodup_range, fun _ => List.nodup_nil, ?_, ?_, ?_⟩
    · intro i x none
      cases none
    · intro i j x none
      cases none
    · intro x
      simp [start]

/-- In every interleaving of pops and pushes, of any callers and any batch sizes, of which none
lasts for 2^32 updates. -/
theorem node_stack_intact (cap : UInt32) (labels : List Label)
    (quick : Meets step Quick (start cap) labels) :
    Always step Intact (start cap) labels ∧ Meets step Answered (start cap) labels := by
  have keep : ∀ {s s' : State} {label : Label}, (∃ c, Inv s c) → Quick s label →
      step s label = some s' → ∃ c, Inv s' c := by
    rintro s s' label ⟨c, inv⟩ quick taken
    exact inv.answers quick taken
  constructor
  · apply always_of_meets keep _ ⟨_, inv_start cap⟩ quick
    rintro s ⟨c, inv⟩
    exact inv.intact
  · apply quick.of_invariant keep _ ⟨_, inv_start cap⟩
    rintro s label ⟨c, inv⟩ quick
    exact inv.answered quick

/-- While caller 0 walks from slot 0, caller 1 pops that slot and pushes it back. -/
def backAgain : List Label :=
  [.pop 0 2, .step 0 true, .step 0 true, .pop 1 1] ++ List.replicate 4 (.step 1 true) ++
  [.step 0 true, .push 1 [0]] ++ List.replicate 3 (.step 1 true) ++ List.replicate 6 (.step 0 true)

theorem node_stack_intact_back_again : ∃ s,
    exec step (start 3) backAgain = some s ∧ s.chain = [2] ∧ (s.callers 0).out = [0, 1] ∧
    s.head.tag = 3 ∧ Intact s := by
  have quick : Meets step Quick (start 3) backAgain := by
    apply meets_of_decide
    decide +kernel
  have run : (exec step (start 3) backAgain).map
      (fun s => (s.chain, (s.callers 0).out, s.head.tag)) = some ([2], [0, 1], 3) := by decide +kernel
  obtain ⟨s, run, shape⟩ := Option.map_eq_some_iff.mp run
  simp only [Prod.mk.injEq] at shape
  exact ⟨s, run, shape.1, shape.2.1, shape.2.2, (node_stack_intact 3 backAgain quick).1.final run⟩

end Loomworks.Pool.NodeStack

import Loomworks.Pool
import Loomworks.Sites
import Loomworks.Tally

/- Who has each task of a pool, without how the pool keeps it. A task is with the client that
submits it, in the ring or a deque, in a lane or with the worker that runs it; the moves are all that
calls, workers and cancels do to one task. -/
namespace Loomworks.Pool

open Sites Tally

/-- How far a submit call is with the task it has created: not counted in queue_len, counted, or
in the ring and not yet in the cancel index. -/
inductive Stage where
  | fresh | counted | claimed
  deriving DecidableEq, Repr

inductive Site where
  | client (c : Nat) (counted : Bool)
  | pooled
  | lane
  | running (w : Nat)
  deriving DecidableEq, Repr

/-- What is known of a task besides its place. dispatched counts its dispatches, claimed says that
a cancel call has succeeded for it and returned lists what its function returned. -/
structure Facts where
  coro : Bool
  isFuture : Bool
  flag : Bool
  ended : Option Ending
  future : Future
  returned : List Nat
  dispatched : Nat
  claimed : Bool

namespace Facts

/-- task_create. -/
def create (f : Facts) (coro isFuture : Bool) : Facts :=
  { f with coro, isFuture, flag := false, ended := none, future := {} }

def skip (f : Facts) : Facts :=
  { f with
    ended := some .cancelled
    future := if f.isFuture then futureMarkCancelled f.future else f.future }

def run (f : Facts) : Facts := { f with ended := some .dispatched, dispatched := f.dispatched + 1 }

def finish (f : Facts) (result : Nat) : Facts :=
  { f with
    future := if f.isFuture then { f.future with result, hasResult := true, ready := true } else f.future
    returned := result :: f.returned }

end Facts

/-- holds is what each client has of a task, running what each worker runs; live are the tasks of
the cancel index. -/
@[ext]
structure Custody where
  holds : Nat → Option (Nat × Stage)
  pooled : List Nat
  lanes : List Nat
  running : Nat → Option Nat
  live : Finset Nat
  next : Nat
  queueLen : Int
  facts : Nat → Facts

namespace Custody

def setFacts (v : Custody) (t : Nat) (f : Facts) : Custody := { v with facts := Function.update v.facts t f }

def setHolds (v : Custody) (c : Nat) (what : Option (Nat × Stage)) : Custody :=
  { v with holds := Function.update v.holds c what }

def setRunning (v : Custody) (w : Nat) (what : Option Nat) : Custody :=
  { v with running := Function.update v.running w what }

/-- named: a cancel by id is called with the id of a task. -/
inductive Move (named : Prop) : Custody → Custody → Prop
  | create {v : Custody} {c : Nat} (isFuture : Bool) (free : v.holds c = none) :
      Move named v ({ v with next := v.next + 1 }.setHolds c (some (v.next + 1, .fresh)) |>.setFacts
        (v.next + 1) ((v.facts (v.next + 1)).create false isFuture))
  | createLane {v : Custody} {lanes : List Nat} (coro isFuture : Bool)
      (joined : lanes.Perm ((v.next + 1) :: v.lanes)) :
      Move named v ({ v with next := v.next + 1, lanes, queueLen := v.queueLen + 1 }.setFacts
        (v.next + 1) ((v.facts (v.next + 1)).create coro isFuture))
  | count {v : Custody} {c t : Nat} (here : v.holds c = some (t, .fresh)) :
      Move named v ({ v with queueLen := v.queueLen + 1 }.setHolds c (some (t, .counted)))
  | uncount {v : Custody} {c t : Nat} (here : v.holds c = some (t, .counted)) :
      Move named v ({ v with queueLen := v.queueLen - 1 }.setHolds c (some (t, .fresh)))
  | claim {v : Custody} {c t : Nat} {pooled : List Nat} (here : v.holds c = some (t, .counted))
      (joined : pooled.Perm (t :: v.pooled)) :
      Move named v ({ v with pooled }.setHolds c (some (t, .claimed)))
  | index {v : Custody} {c t : Nat} {live : Finset Nat} (here : v.holds c = some (t, .claimed))
      (grown : live = insert t v.live ∨ live = v.live) :
      Move named v ({ v with live }.setHolds c none)
  | refuse {v : Custody} {c t : Nat} (here : v.holds c = some (t, .fresh)) :
      Move named v ((v.setHolds c none).setFacts t { v.facts t with ended := some .failed })
  | spill {v : Custody} {c t : Nat} {lanes : List Nat} (here : v.holds c = some (t, .fresh))
      (joined : lanes.Perm (t :: v.lanes)) :
      Move named v ({ v with lanes, queueLen := v.queueLen + 1 }.setHolds c none)
  | skip {v : Custody} {t : Nat} {pooled : List Nat} (left : v.pooled.Perm (t :: pooled))
      (flagged : (v.facts t).flag = true) (settled : ∀ c, v.holds c ≠ some (t, .claimed)) :
      Move named v ({ v with pooled, live := v.live.erase t }.setFacts t (v.facts t).skip)
  | run {v : Custody} {w t : Nat} {pooled : List Nat} (left : v.pooled.Perm (t :: pooled))
      (unflagged : (v.facts t).flag = false) (settled : ∀ c, v.holds c ≠ some (t, .claimed))
      (idle : v.running w = none) :
      Move named v ({ v with
        pooled, live := v.live.erase t, queueLen := v.queueLen - 1 }.setRunning w (some t) |>.setFacts t
          (v.facts t).run)
  | skipLane {v : Custody} {t : Nat} {lanes : List Nat} (left : v.lanes.Perm (t :: lanes))
      (flagged : (v.facts t).flag = true) (plain : (v.facts t).coro = false) :
      Move named v ({ v with lanes, queueLen := v.queueLen - 1 }.setFacts t (v.facts t).skip)
  | runLane {v : Custody} {w t : Nat} {lanes : List Nat} (left : v.lanes.Perm (t :: lanes))
      (unflagged : (v.facts t).flag = false) (plain : (v.facts t).coro = false)
      (idle : v.running w = none) :
      Move named v ({ v with lanes, queueLen := v.queueLen - 1 }.setRunning w (some t) |>.setFacts t
        (v.facts t).run)
  | leaveLane {v : Custody} {t : Nat} {lanes : List Nat} {f : Facts} (left : v.lanes.Perm (t :: lanes))
      (kind : (v.facts t).coro = true) (kept : f.coro = true)
      (lasts : f.ended = none → (v.facts t).ended = none) :
      Move named v ({ v with lanes, queueLen := v.queueLen - 1 }.setFacts t f)
  | cancelPooled {v : Custody} {t : Nat} (listed : t ∈ v.live) (unflagged : (v.facts t).flag = false) :
      Move named v ({ v with live := v.live.erase t, queueLen := v.queueLen - 1 }.setFacts t
        { v.facts t with flag := true, claimed := true })
  | cancelLane {v : Custody} {t : Nat} {lanes : List Nat} (left : v.lanes.Perm (t :: lanes))
      (plain : (v.facts t).coro = false) :
      Move named v ({ v with lanes, queueLen := v.queueLen - 1 }.setFacts t
        { (v.facts t).skip with claimed := true })
  | finish {v : Custody} {w t : Nat} (result : Nat) (here : v.running w = some t) :
      Move named v ((v.setRunning w none).setFacts t ((v.facts t).finish result))
  | aside {v : Custody} {t : Nat} {f : Facts} (known : t ≤ v.next) (kind : (v.facts t).coro = true)
      (kept : f.coro = true) (lasts : f.ended = none → (v.facts t).ended = none) :
      Move named v (v.setFacts t f)
  | stray {v : Custody} {t : Nat} (unnamed : ¬named) :
      Move named v (v.setFacts t { v.facts t with flag := true })

abbrev Moves (named : Prop) : Custody → Custody → Prop := Relation.ReflTransGen (Move named)

/-- The task of a client that is nowhere else. -/
def handed (counted : Bool) : Option (Nat × Stage) → List Nat
  | some (t, .fresh) => if counted then [] else [t]
  | some (t, .counted) => if counted then [t] else []
  | _ => []

/-- The tasks of each site. -/
def sites (v : Custody) : Site → List Nat
  | .client c counted => handed counted (v.holds c)
  | .pooled => v.pooled
  | .lane => v.lanes
  | .running w => (v.running w).toList

noncomputable def place (v : Custody) (t : Nat) : Option Site := Sites.place v.sites t

/-- What a task counts for in queue_len. -/
def weight : Option Site → Bool → Nat
  | some (.client _ true), _ => 1
  | some .pooled, flag => if flag then 0 else 1
  | some .lane, _ => 1
  | _, _ => 0

/-- The task waits to be run. -/
def waits : Option Site → Bool
  | some (.client _ _) | some .pooled | some .lane => true
  | _ => false

/-- How a task that is nowhere has ended. -/
inductive Ended (f : Facts) : Prop
  | returned {result : Nat} (ended : f.ended = some .dispatched) (dispatched : f.dispatched = 1)
      (unclaimed : f.claimed = false) (returned : f.returned = [result])
      (told : f.isFuture = true → f.future = { result, hasResult := true, ready := true })
  | cancelled (ended : f.ended = some .cancelled) (dispatched : f.dispatched = 0)
      (claimed : f.claimed = true) (returned : f.returned = [])
      (told : f.isFuture = true → f.future = futureMarkCancelled {})
  | refused (ended : f.ended = some .failed)

/-- Nobody has run the task. -/
structure Unrun (f : Facts) : Prop where
  dispatched : f.dispatched = 0
  returned : f.returned = []
  future : f.future = {}

/-- What the place of a task tells. -/
def Told (live : Prop) (f : Facts) : Option Site → Prop
  | some (.client _ _) | some .lane => f.flag = false ∧ f.claimed = false ∧ Unrun f
  | some .pooled => (live → f.flag = false) ∧ f.claimed = f.flag ∧ Unrun f
  | some (.running _) => f.ended = some .dispatched ∧ f.dispatched = 1 ∧ f.claimed = false ∧
      f.returned = [] ∧ f.future = {}
  | none => Ended f

/-- A coroutine task is in a lane or with its worker; of a thread task its place tells all. -/
structure Fair (named live : Prop) (f : Facts) (at_ : Option Site) : Prop where
  kind : f.coro = true → at_ = some .lane ∨ at_ = none
  ended : f.coro = false → (f.ended = none ↔ waits at_ = true)
  told : named → f.coro = false → Told live f at_

/-- What holds in every run. -/
structure Good (named : Prop) (v : Custody) : Prop where
  ids : 1 ≤ v.next
  apart : Apart v.sites
  bound : ∀ {t site}, v.place t = some site → 1 < t ∧ t ≤ v.next
  live : ∀ t ∈ v.live, v.place t = some .pooled
  claims : ∀ {c t}, v.holds c = some (t, .claimed) →
    v.place t = some .pooled ∧ t ∉ v.live ∧ (named → (v.facts t).flag = false)
  claimer : ∀ {c d t}, v.holds c = some (t, .claimed) → v.holds d = some (t, .claimed) → c = d
  count : (tally (fun t => weight (v.place t) (v.facts t).flag) (List.range (v.next + 1)) : Int) ≤
    v.queueLen
  blank : ∀ t, v.next < t →
    (v.facts t).dispatched = 0 ∧ (v.facts t).claimed = false ∧ (v.facts t).returned = []
  fair : ∀ t, 1 < t → t ≤ v.next → Fair named (t ∈ v.live) (v.facts t) (v.place t)

variable {named : Prop} {v v' : Custody} {c w t : Nat}

theorem setHolds_self (v : Custody) (c : Nat) (what : Option (Nat × Stage)) :
    (v.setHolds c what).holds c = what :=
  Function.update_self _ _ _

theorem setHolds_of_ne (v : Custody) {d : Nat} (what : Option (Nat × Stage)) (other : d ≠ c) :
    (v.setHolds c what).holds d = v.holds d :=
  Function.update_of_ne other _ _

theorem setHolds_eq_self {v : Custody} {what : Option (Nat × Stage)} (same : v.holds c = what) :
    v.setHolds c what = v := by
  subst same
  exact Custody.ext (Function.update_eq_self c v.holds) rfl rfl rfl rfl rfl rfl rfl

theorem setRunning_self (v : Custody) (w : Nat) (what : Option Nat) :
    (v.setRunning w what).running w = what :=
  Function.update_self _ _ _

theorem setRunning_of_ne (v : Custody) {x : Nat} (what : Option Nat) (other : x ≠ w) :
    (v.setRunning w what).running x = v.running x :=
  Function.update_of_ne other _ _

theorem setRunning_eq_self {v : Custody} {what : Option Nat} (same : v.running w = what) :
    v.setRunning w what = v := by
  subst same
  exact Custody.ext rfl rfl rfl (Function.update_eq_self w v.running) rfl rfl rfl rfl

theorem setFacts_self (v : Custody) (t : Nat) (f : Facts) : (v.setFacts t f).facts t = f :=
  Function.update_self _ _ _

theorem setFacts_of_ne (v : Custody) {x : Nat} (f : Facts) (other : x ≠ t) :
    (v.setFacts t f).facts x = v.facts x :=
  Function.update_of_ne other _ _

theorem sites_client (v : Custody) (c : Nat) (counted : Bool) :
    v.sites (.client c counted) = handed counted (v.holds c) := rfl

theorem sites_running (v : Custody) (w : Nat) : v.sites (.running w) = (v.running w).toList := rfl

theorem sites_setHolds (v : Custody) {site : Site} (what : Option (Nat × Stage))
    (elsewhere : ∀ counted, site ≠ .client c counted) : (v.setHolds c what).sites site = v.sites site := by
  cases site with
  | client d counted =>
    have other : d ≠ c := fun same => elsewhere counted (by rw [same])
    rw [sites_client, sites_client, setHolds_of_ne v what other]
  | pooled | lane | running _ => rfl

theorem sites_setRunning (v : Custody) {site : Site} (what : Option Nat) (elsewhere : site ≠ .running w) :
    (v.setRunning w what).sites site = v.sites site := by
  cases site with
  | running x =>
    have other : x ≠ w := fun same => elsewhere (by rw [same])
    rw [sites_running, sites_running, setRunning_of_ne v what other]
  | client _ _ | pooled | lane => rfl

/-- A client with the same list on its other site changes one site at most. -/
theorem sites_other (v : Custody) {counted : Bool} {what : Option (Nat × Stage)} {site : Site}
    (other : handed (!counted) what = handed (!counted) (v.holds c))
    (elsewhere : site ≠ .client c counted) : (v.setHolds c what).sites site = v.sites site := by
  by_cases own : site = .client c (!counted)
  · rw [own, sites_client, sites_client, setHolds_self, other]
  · apply sites_setHolds
    intro k same
    by_cases flip : k = counted
    · exact elsewhere (same.trans (by rw [flip]))
    · exact own (same.trans (by rw [Bool.eq_not.mpr flip]))

theorem removes_client (counted : Bool) (apart : Apart v.sites) {what : Option (Nat × Stage)}
    (here : handed counted (v.holds c) = [t]) (other : handed (!counted) (v.holds c) = [])
    (given : ∀ counted, handed counted what = []) :
    Relocates v.sites (v.setHolds c what).sites t none := by
  refine apart.remove (a := .client c counted) ?_ ?_
  · rw [sites_client, sites_client, setHolds_self, here, given]
  · intro site elsewhere
    rw [sites_other v ((given _).trans other.symm) elsewhere]

theorem inserts_client (counted : Bool) (apart : Apart v.sites) {what : Option (Nat × Stage)}
    (away : v.place t = none) (here : handed counted what = [t]) (other : handed (!counted) what = [])
    (before : ∀ counted, handed counted (v.holds c) = []) :
    Relocates v.sites (v.setHolds c what).sites t (some (.client c counted)) := by
  refine apart.insert (apart.place_eq_none.mp away) ?_ ?_
  · rw [sites_client, sites_client, setHolds_self, here, before]
  · intro site elsewhere
    rw [sites_other v (other.trans (before _).symm) elsewhere]

theorem swaps_client (counted : Bool) (apart : Apart v.sites) {what : Option (Nat × Stage)}
    (here : handed (!counted) (v.holds c) = [t]) (other : handed counted (v.holds c) = [])
    (after : handed counted what = [t]) (rest : handed (!counted) what = []) :
    Relocates v.sites (v.setHolds c what).sites t (some (.client c counted)) := by
  have removed : Relocates v.sites (v.setHolds c none).sites t none :=
    removes_client (!counted) apart here (by rw [Bool.not_not]; exact other) fun _ => rfl
  have away : (v.setHolds c none).place t = none := (removed.place apart t).1 rfl
  have inserted := inserts_client counted (c := c) (removed.apart apart) away after rest
    fun _ => by rw [setHolds_self]; rfl
  have twice : (v.setHolds c none).setHolds c what = v.setHolds c what := by
    unfold setHolds
    simp only [Function.update_idem]
  rw [twice] at inserted
  exact removed.trans inserted

theorem inserts_pooled (apart : Apart v.sites) {pooled : List Nat} (away : v.place t = none)
    (joined : pooled.Perm (t :: v.pooled)) :
    Relocates v.sites { v with pooled }.sites t (some .pooled) := by
  refine apart.insert (apart.place_eq_none.mp away) joined ?_
  intro site elsewhere
  cases site with
  | pooled => exact absurd rfl elsewhere
  | client _ _ | lane | running _ => exact List.Perm.refl _

theorem inserts_lane (apart : Apart v.sites) {lanes : List Nat} (away : v.place t = none)
    (joined : lanes.Perm (t :: v.lanes)) :
    Relocates v.sites { v with lanes }.sites t (some .lane) := by
  refine apart.insert (apart.place_eq_none.mp away) joined ?_
  intro site elsewhere
  cases site with
  | lane => exact absurd rfl elsewhere
  | client _ _ | pooled | running _ => exact List.Perm.refl _

theorem inserts_running (apart : Apart v.sites) (away : v.place t = none) (idle : v.running w = none) :
    Relocates v.sites (v.setRunning w (some t)).sites t (some (.running w)) := by
  refine apart.insert (apart.place_eq_none.mp away) ?_ ?_
  · rw [sites_running, sites_running, setRunning_self, idle]
    exact List.Perm.refl _
  · intro site elsewhere
    rw [sites_setRunning v _ elsewhere]

theorem removes_pooled (apart : Apart v.sites) {pooled : List Nat} (left : v.pooled.Perm (t :: pooled)) :
    Relocates v.sites { v with pooled }.sites t none := by
  refine apart.remove (a := .pooled) left ?_
  intro site elsewhere
  cases site with
  | pooled => exact absurd rfl elsewhere
  | client _ _ | lane | running _ => exact List.Perm.refl _

theorem removes_lane (apart : Apart v.sites) {lanes : List Nat} (left : v.lanes.Perm (t :: lanes)) :
    Relocates v.sites { v with lanes }.sites t none := by
  refine apart.remove (a := .lane) left ?_
  intro site elsewhere
  cases site with
  | lane => exact absurd rfl elsewhere
  | client _ _ | pooled | running _ => exact List.Perm.refl _

theorem removes_running (apart : Apart v.sites) (here : v.running w = some t) :
    Relocates v.sites (v.setRunning w none).sites t none := by
  refine apart.remove (a := .running w) ?_ ?_
  · rw [sites_running, sites_running, setRunning_self, here]
    exact List.Perm.refl _
  · intro site elsewhere
    rw [sites_setRunning v _ elsewhere]

theorem Fair.thread {live : Prop} {f : Facts} {at_ : Option Site} (plain : f.coro = false)
    (ended : f.ended = none ↔ waits at_ = true) (told : named → Told live f at_) :
    Fair named live f at_ :=
  ⟨fun kind => absurd (plain.symm.trans kind) nofun, fun _ => ended, fun name _ => told name⟩

theorem Fair.coroutine {live : Prop} {f : Facts} {at_ : Option Site} (kept : f.coro = true)
    (kind : at_ = some .lane ∨ at_ = none) : Fair named live f at_ :=
  ⟨fun _ => kind, fun plain => absurd (kept.symm.trans plain) nofun,
    fun _ plain => absurd (kept.symm.trans plain) nofun⟩

theorem Fair.mono {live live' : Prop} {f : Facts} {at_ : Option Site} (fair : Fair named live f at_)
    (fewer : live' → live) : Fair named live' f at_ := by
  refine { fair with told := ?_ }
  intro name plain
  have told := fair.told name plain
  match at_, told with
  | some .pooled, told => exact ⟨fun member => told.1 (fewer member), told.2⟩
  | some (.client _ _), told | some .lane, told | some (.running _), told | none, told => exact told

/-- What the tasks count for when one task has changed, or a new one has come. -/
theorem tally_shift {first second : Nat → Nat} {next next' : Nat}
    (same : ∀ x, x ≠ t → second x = first x) (old : next < t → first t = 0)
    (ids : next' = next ∧ t ≤ next ∨ next' = next + 1 ∧ t = next + 1) :
    tally second (List.range (next' + 1)) + first t = tally first (List.range (next + 1)) + second t := by
  rcases ids with ⟨rfl, known⟩ | ⟨rfl, rfl⟩
  · exact tally_change List.nodup_range (List.mem_range.mpr (by omega)) same
  · have rest : tally second (List.range (next + 1)) = tally first (List.range (next + 1)) :=
      tally_congr fun x inside => same x (by have := List.mem_range.mp inside; omega)
    rw [List.range_succ, tally_append, rest, old (by omega)]
    simp

namespace Good

theorem place_iff (good : Good named v) {site : Site} : v.place t = some site ↔ t ∈ v.sites site :=
  good.apart.place_eq_some

theorem nowhere (good : Good named v) (new : v.next < t) : v.place t = none := by
  cases at_ : v.place t with
  | none => rfl
  | some site =>
    have bound := (good.bound at_).2
    omega

theorem start (empty : ∀ site, v.sites site = []) (ids : v.next = 1) (live : v.live = ∅)
    (holds : ∀ c, v.holds c = none) (count : v.queueLen = 0)
    (blank : ∀ t, (v.facts t).dispatched = 0 ∧ (v.facts t).claimed = false ∧ (v.facts t).returned = []) :
    Good named v := by
  have apart : Apart v.sites := by
    refine ⟨fun site => ?_, fun {site _ x} here => ?_⟩
    · rw [empty]
      exact List.nodup_nil
    · rw [empty site] at here
      cases here
  have nowhere : ∀ t, v.place t = none := by
    intro t
    refine apart.place_eq_none.mpr fun site => ?_
    rw [empty]
    exact List.not_mem_nil
  refine ⟨?_, apart, fun {t site} at_ => ?_, fun t listed => ?_, fun {c t} held => ?_, fun {c _ t} held => ?_, ?_,
    fun t _ => blank t, fun t low high => ?_⟩
  · omega
  · rw [nowhere] at at_
    cases at_
  · rw [live] at listed
    exact absurd listed (Finset.notMem_empty t)
  · rw [holds] at held
    cases held
  · rw [holds] at held
    cases held
  · have zero : tally (fun t => weight (v.place t) (v.facts t).flag) (List.range (v.next + 1)) = 0 := by
      refine tally_eq_zero.mpr fun t _ => ?_
      rw [nowhere]
      rfl
    rw [zero, count]
    exact Int.le_refl _
  · omega

/-- One task comes, goes to another place, or away; client c may claim it. -/
theorem shift (good : Good named v) {dest : Option Site} (moved : Relocates v.sites v'.sites t dest)
    (low : 1 < t) (ids : v'.next = v.next ∧ t ≤ v.next ∨ v'.next = v.next + 1 ∧ t = v.next + 1)
    (facts : ∀ x, x ≠ t → v'.facts x = v.facts x)
    (live : ∀ x, x ≠ t → x ∈ v'.live → x ∈ v.live) (own : t ∈ v'.live → dest = some .pooled)
    (claims : ∀ {d x}, v'.holds d = some (x, .claimed) →
      v.holds d = some (x, .claimed) ∧ x ≠ t ∨
        x = t ∧ d = c ∧ dest = some .pooled ∧ t ∉ v'.live ∧ (named → (v'.facts t).flag = false))
    (count : v.queueLen + weight dest (v'.facts t).flag ≤
      v'.queueLen + weight (v.place t) (v.facts t).flag)
    (fair : Fair named (t ∈ v'.live) (v'.facts t) dest) : Good named v' := by
  have here : v'.place t = dest := (moved.place good.apart t).1 rfl
  have there : ∀ x, x ≠ t → v'.place x = v.place x := fun x => (moved.place good.apart x).2
  have known : ∀ x, x ≠ t → x ≤ v'.next → x ≤ v.next := by
    intro x other bound
    omega
  exact {
    ids := by
      have ids := good.ids
      omega
    apart := moved.apart good.apart
    bound := by
      intro x site at_
      by_cases same : x = t
      · omega
      · rw [there x same] at at_
        have bound := good.bound at_
        omega
    live := by
      intro x member
      by_cases same : x = t
      · rw [same, here]
        exact own (same ▸ member)
      · rw [there x same]
        exact good.live x (live x same member)
    claims := by
      intro d x held
      rcases claims held with ⟨before, other⟩ | ⟨rfl, -, pooled, dead, flag⟩
      · obtain ⟨at_, dead, flag⟩ := good.claims before
        rw [there x other, facts x other]
        exact ⟨at_, fun member => dead (live x other member), flag⟩
      · rw [here]
        exact ⟨pooled, dead, flag⟩
    claimer := by
      intro d e x first second
      rcases claims first with ⟨before, other⟩ | ⟨rfl, mine, -⟩
      · rcases claims second with ⟨before', -⟩ | ⟨same, -⟩
        · exact good.claimer before before'
        · exact absurd same other
      · rcases claims second with ⟨-, other⟩ | ⟨-, yours, -⟩
        · exact absurd rfl other
        · rw [mine, yours]
    count := by
      have before := good.count
      have change := @tally_shift t (fun x => weight (v.place x) (v.facts x).flag)
        (fun x => weight (v'.place x) (v'.facts x).flag) v.next v'.next
        (fun x other => by rw [there x other, facts x other])
        (fun new => by rw [good.nowhere new]; rfl) ids
      rw [here] at change
      omega
    blank := by
      intro x new
      rw [facts x (by omega)]
      exact good.blank x (by omega)
    fair := by
      intro x low high
      by_cases same : x = t
      · rw [same, here]
        exact fair
      · have before := good.fair x low (known x same high)
        rw [there x same, facts x same]
        exact before.mono (live x same) }

/-- A client that has claimed a task is not the one that goes on with another. -/
theorem claimed_setHolds {what : Option (Nat × Stage)} (unclaimed : ∀ x, what ≠ some (x, .claimed))
    {d x : Nat} (held : (v.setHolds c what).holds d = some (x, .claimed)) :
    v.holds d = some (x, .claimed) := by
  have other : d ≠ c := by
    rintro rfl
    rw [setHolds_self] at held
    exact unclaimed x held
  rwa [setHolds_of_ne v what other] at held

/-- A claimed task is not one that is elsewhere than in the ring. -/
theorem claims_ne (good : Good named v) (elsewhere : v.place t ≠ some .pooled) {d x : Nat}
    (held : v.holds d = some (x, .claimed)) : v.holds d = some (x, .claimed) ∧ x ≠ t := by
  refine ⟨held, ?_⟩
  rintro rfl
  exact elsewhere (good.claims held).1

theorem not_live (good : Good named v) (elsewhere : v.place t ≠ some .pooled) : t ∉ v.live :=
  fun member => elsewhere (good.live t member)

/-- A task that is neither in the ring nor new goes elsewhere. -/
theorem relocate (good : Good named v) {site : Site} {dest : Option Site}
    (at_ : v.place t = some site) (outside : site ≠ .pooled)
    (moved : Relocates v.sites v'.sites t dest) (next : v'.next = v.next)
    (facts : ∀ x, x ≠ t → v'.facts x = v.facts x) (live : v'.live = v.live)
    (claims : ∀ {d x}, v'.holds d = some (x, .claimed) → v.holds d = some (x, .claimed))
    (count : v.queueLen + weight dest (v'.facts t).flag ≤
      v'.queueLen + weight (some site) (v.facts t).flag)
    (fair : Fair named (t ∈ v.live) (v'.facts t) dest) : Good named v' := by
  obtain ⟨low, high⟩ := good.bound at_
  have elsewhere : v.place t ≠ some .pooled := by
    rw [at_]
    exact fun same => outside (Option.some.inj same)
  refine good.shift (c := 0) moved low (Or.inl ⟨next, high⟩) facts ?_ ?_ ?_ ?_ ?_
  · exact fun x _ member => live ▸ member
  · exact fun member => absurd (live ▸ member) (good.not_live elsewhere)
  · exact fun held => Or.inl (good.claims_ne elsewhere (claims held))
  · rw [at_]
    exact count
  · rw [live]
    exact fair

theorem place_held (good : Good named v) {counted : Bool} (here : handed counted (v.holds c) = [t]) :
    v.place t = some (.client c counted) := by
  refine good.place_iff.mpr ?_
  rw [sites_client, here]
  exact List.mem_singleton_self t

theorem place_fresh (good : Good named v) (here : v.holds c = some (t, .fresh)) :
    v.place t = some (.client c false) := good.place_held (by rw [here]; rfl)

theorem place_counted (good : Good named v) (here : v.holds c = some (t, .counted)) :
    v.place t = some (.client c true) := good.place_held (by rw [here]; rfl)

/-- A task that is somewhere but in a lane is a thread task. -/
theorem plain (good : Good named v) {site : Site} (at_ : v.place t = some site)
    (elsewhere : site ≠ .lane) : (v.facts t).coro = false := by
  obtain ⟨low, high⟩ := good.bound at_
  apply eq_false_of_ne_true
  intro kind
  rcases (good.fair t low high).kind kind with lane | none_
  · rw [at_] at lane
    exact elsewhere (Option.some.inj lane)
  · rw [at_] at none_
    cases none_

theorem fair_at (good : Good named v) {site : Site} (at_ : v.place t = some site) :
    Fair named (t ∈ v.live) (v.facts t) (some site) := by
  obtain ⟨low, high⟩ := good.bound at_
  have fair := good.fair t low high
  rwa [at_] at fair

theorem fair_create (good : Good named v) {live : Prop} (coro isFuture : Bool) {site : Site}
    (sort : coro = true → site = .lane) (waits : waits (some site) = true)
    (apart : site ≠ .pooled) :
    Fair named live ((v.facts (v.next + 1)).create coro isFuture) (some site) := by
  obtain ⟨dispatched, claimed, returned⟩ := good.blank (v.next + 1) (by omega)
  refine ⟨fun kind => Or.inl (congrArg some (sort kind)), fun _ => iff_of_true rfl waits, ?_⟩
  intro _ _
  cases site with
  | client _ _ | lane => exact ⟨rfl, claimed, dispatched, returned, rfl⟩
  | pooled => exact absurd rfl apart
  | running _ => cases waits

theorem move_create (good : Good named v) (isFuture : Bool) (free : v.holds c = none) :
    Good named ({ v with next := v.next + 1 }.setHolds c (some (v.next + 1, .fresh)) |>.setFacts
      (v.next + 1) ((v.facts (v.next + 1)).create false isFuture)) := by
  have away := good.nowhere (Nat.lt_succ_self v.next)
  have ids := good.ids
  refine good.shift (c := c) (inserts_client false good.apart away rfl rfl ?_) ?_
    (Or.inr ⟨rfl, rfl⟩) ?_ (fun _ _ => id) ?_ ?_ ?_ ?_
  · intro counted
    rw [free]
    rfl
  · omega
  · exact fun x other => setFacts_of_ne _ _ other
  · exact fun member => absurd member (good.not_live (by rw [away]; exact nofun))
  · exact fun held => Or.inl (good.claims_ne (by rw [away]; exact nofun)
      (claimed_setHolds (by rintro x ⟨⟩) held))
  · show v.queueLen + _ ≤ v.queueLen + _
    rw [away]
    simp only [weight]
    omega
  · rw [setFacts_self]
    exact good.fair_create false isFuture nofun rfl nofun

theorem move_createLane (good : Good named v) (coro isFuture : Bool) {lanes : List Nat}
    (joined : lanes.Perm ((v.next + 1) :: v.lanes)) :
    Good named ({ v with next := v.next + 1, lanes, queueLen := v.queueLen + 1 }.setFacts
      (v.next + 1) ((v.facts (v.next + 1)).create coro isFuture)) := by
  have away := good.nowhere (Nat.lt_succ_self v.next)
  have ids := good.ids
  refine good.shift (c := 0) (inserts_lane good.apart away joined) ?_ (Or.inr ⟨rfl, rfl⟩) ?_
    (fun _ _ => id) ?_ ?_ ?_ ?_
  · omega
  · exact fun x other => setFacts_of_ne _ _ other
  · exact fun member => absurd member (good.not_live (by rw [away]; exact nofun))
  · exact fun held => Or.inl (good.claims_ne (by rw [away]; exact nofun) held)
  · show v.queueLen + _ ≤ v.queueLen + 1 + _
    rw [away]
    simp only [weight]
    omega
  · rw [setFacts_self]
    exact good.fair_create coro isFuture (fun _ => rfl) rfl nofun

/-- A client counts its task in queue_len, or takes its count back. -/
theorem move_swap (good : Good named v) (counted : Bool) {before after : Option (Nat × Stage)}
    {queueLen : Int} (here : v.holds c = before) (at_ : v.place t = some (.client c (!counted)))
    (own : handed (!counted) before = [t]) (other : handed counted before = [])
    (next : handed counted after = [t]) (rest : handed (!counted) after = [])
    (unclaimed : ∀ x, after ≠ some (x, .claimed))
    (count : v.queueLen + weight (some (.client c counted)) false ≤
      queueLen + weight (some (.client c (!counted))) false) :
    Good named ({ v with queueLen }.setHolds c after) := by
  have plain := good.plain at_ nofun
  have fair := good.fair_at at_
  refine good.relocate at_ nofun (swaps_client counted good.apart (by rw [here]; exact own)
    (by rw [here]; exact other) next rest) rfl (fun _ _ => rfl) rfl (claimed_setHolds unclaimed) ?_ ?_
  · cases counted <;> exact count
  · exact Fair.thread plain (fair.ended plain) fun name => fair.told name plain

theorem move_claim (good : Good named v) {pooled : List Nat} (here : v.holds c = some (t, .counted))
    (joined : pooled.Perm (t :: v.pooled)) :
    Good named ({ v with pooled }.setHolds c (some (t, .claimed))) := by
  have at_ := good.place_counted here
  have plain := good.plain at_ nofun
  have fair := good.fair_at at_
  obtain ⟨low, high⟩ := good.bound at_
  have dead := good.not_live (t := t) (by rw [at_]; exact nofun)
  have removed : Relocates v.sites (v.setHolds c (some (t, .claimed))).sites t none :=
    removes_client true good.apart (by rw [here]; rfl) (by rw [here]; rfl) fun _ => rfl
  have away : (v.setHolds c (some (t, .claimed))).place t = none := (removed.place good.apart t).1 rfl
  refine good.shift (c := c) (removed.trans (inserts_pooled (removed.apart good.apart) away joined)) low
    (Or.inl ⟨rfl, high⟩) (fun _ _ => rfl) (fun _ _ => id) (fun _ => rfl) ?_ ?_ ?_
  · intro d x held
    by_cases own : d = c
    · subst own
      rw [setHolds_self] at held
      cases held
      exact Or.inr ⟨rfl, rfl, rfl, dead, fun name => (fair.told name plain).1⟩
    · rw [setHolds_of_ne _ _ own] at held
      exact Or.inl (good.claims_ne (by rw [at_]; exact nofun) held)
  · show v.queueLen + _ ≤ v.queueLen + _
    rw [at_]
    simp only [weight]
    split <;> omega
  · refine Fair.thread plain (fair.ended plain) fun name => ?_
    obtain ⟨flag, claimed, unrun⟩ := fair.told name plain
    exact ⟨fun _ => flag, claimed.trans flag.symm, unrun⟩

theorem move_index (good : Good named v) {live : Finset Nat} (here : v.holds c = some (t, .claimed))
    (grown : live = insert t v.live ∨ live = v.live) :
    Good named ({ v with live }.setHolds c none) := by
  obtain ⟨at_, dead, flag⟩ := good.claims here
  have fair := good.fair_at at_
  obtain ⟨low, high⟩ := good.bound at_
  have same : ({ v with live }.setHolds c none).sites = v.sites := by
    funext site
    by_cases own : ∃ counted, site = .client c counted
    · obtain ⟨counted, rfl⟩ := own
      rw [sites_client, sites_client, setHolds_self, here]
      rfl
    · exact sites_setHolds _ _ fun counted there => own ⟨counted, there⟩
  have moved : Relocates v.sites ({ v with live }.setHolds c none).sites t (some .pooled) := by
    rw [same]
    exact good.apart.stay at_
  refine good.shift (c := c) moved low (Or.inl ⟨rfl, high⟩) (fun _ _ => rfl) ?_ (fun _ => rfl) ?_ ?_ ?_
  · intro x other member
    rcases grown with rfl | rfl
    · exact (Finset.mem_insert.mp member).resolve_left other
    · exact member
  · intro d x held
    have other : d ≠ c := by
      rintro rfl
      rw [setHolds_self] at held
      cases held
    rw [setHolds_of_ne _ _ other] at held
    refine Or.inl ⟨held, ?_⟩
    rintro rfl
    exact other (good.claimer held here)
  · show v.queueLen + _ ≤ v.queueLen + _
    rw [at_]
    exact Int.le_refl _
  · refine ⟨fair.kind, fair.ended, ?_⟩
    intro name plain
    obtain ⟨-, claimed, unrun⟩ := fair.told name plain
    exact ⟨fun _ => flag name, claimed, unrun⟩

theorem move_refuse (good : Good named v) (here : v.holds c = some (t, .fresh)) :
    Good named ((v.setHolds c none).setFacts t { v.facts t with ended := some .failed }) := by
  have at_ := good.place_fresh here
  have plain := good.plain at_ nofun
  have removed : Relocates v.sites (v.setHolds c none).sites t none :=
    removes_client false good.apart (by rw [here]; rfl) (by rw [here]; rfl) fun _ => rfl
  refine good.relocate at_ nofun removed rfl (fun x other => setFacts_of_ne _ _ other) rfl
    (claimed_setHolds (by rintro x ⟨⟩)) (Int.le_refl _) ?_
  rw [setFacts_self]
  exact Fair.thread plain (iff_of_false nofun nofun) fun _ => Ended.refused rfl

theorem move_spill (good : Good named v) {lanes : List Nat} (here : v.holds c = some (t, .fresh))
    (joined : lanes.Perm (t :: v.lanes)) :
    Good named ({ v with lanes, queueLen := v.queueLen + 1 }.setHolds c none) := by
  have at_ := good.place_fresh here
  have plain := good.plain at_ nofun
  have fair := good.fair_at at_
  have removed : Relocates v.sites (v.setHolds c none).sites t none :=
    removes_client false good.apart (by rw [here]; rfl) (by rw [here]; rfl) fun _ => rfl
  have away : (v.setHolds c none).place t = none := (removed.place good.apart t).1 rfl
  refine good.relocate at_ nofun (removed.trans (inserts_lane (removed.apart good.apart) away joined))
    rfl (fun _ _ => rfl) rfl (claimed_setHolds (by rintro x ⟨⟩)) ?_ ?_
  · show v.queueLen + 1 ≤ v.queueLen + 1 + 0
    omega
  · exact Fair.thread plain (fair.ended plain) fun name => fair.told name plain

theorem place_pooled (good : Good named v) {pooled : List Nat} (left : v.pooled.Perm (t :: pooled)) :
    v.place t = some .pooled :=
  good.place_iff.mpr (left.mem_iff.mpr List.mem_cons_self)

theorem place_lane (good : Good named v) {lanes : List Nat} (left : v.lanes.Perm (t :: lanes)) :
    v.place t = some .lane :=
  good.place_iff.mpr (left.mem_iff.mpr List.mem_cons_self)

theorem ended_skip {f : Facts} (unrun : Unrun f) (claimed : f.claimed = true) : Ended f.skip := by
  refine Ended.cancelled rfl unrun.dispatched claimed unrun.returned ?_
  intro kind
  have kind : f.isFuture = true := kind
  show (if f.isFuture = true then futureMarkCancelled f.future else f.future) = _
  rw [if_pos kind, unrun.future]

theorem move_skip (good : Good named v) {pooled : List Nat} (left : v.pooled.Perm (t :: pooled))
    (flagged : (v.facts t).flag = true) (settled : ∀ c, v.holds c ≠ some (t, .claimed)) :
    Good named ({ v with pooled, live := v.live.erase t }.setFacts t (v.facts t).skip) := by
  have at_ := good.place_pooled left
  have plain := good.plain at_ nofun
  have fair := good.fair_at at_
  obtain ⟨low, high⟩ := good.bound at_
  refine good.shift (c := 0) (removes_pooled good.apart left) low (Or.inl ⟨rfl, high⟩)
    (fun x other => setFacts_of_ne _ _ other) (fun x _ => Finset.mem_of_mem_erase) ?_ ?_ ?_ ?_
  · exact fun member => absurd member (Finset.notMem_erase t v.live)
  · exact fun held => Or.inl ⟨held, fun same => settled _ (same ▸ held)⟩
  · show v.queueLen + _ ≤ v.queueLen + _
    rw [at_, flagged]
    exact Int.le_refl _
  · rw [setFacts_self]
    refine Fair.thread plain (iff_of_false nofun nofun) fun name => ?_
    obtain ⟨-, claimed, unrun⟩ := fair.told name plain
    exact ended_skip unrun (claimed.trans flagged)

/-- An unflagged thread task that is given to a worker. -/
theorem fair_run {f : Facts} {live : Prop} (plain : f.coro = false) (unclaimed : named → f.claimed = false)
    (unrun : named → Unrun f) : Fair named live f.run (some (.running w)) := by
  refine Fair.thread plain (iff_of_false nofun nofun) fun name => ?_
  refine ⟨rfl, ?_, unclaimed name, (unrun name).returned, (unrun name).future⟩
  show f.dispatched + 1 = 1
  rw [(unrun name).dispatched]

theorem move_run (good : Good named v) {pooled : List Nat} (left : v.pooled.Perm (t :: pooled))
    (unflagged : (v.facts t).flag = false) (settled : ∀ c, v.holds c ≠ some (t, .claimed))
    (idle : v.running w = none) :
    Good named ({ v with
      pooled, live := v.live.erase t, queueLen := v.queueLen - 1 }.setRunning w (some t) |>.setFacts t
        (v.facts t).run) := by
  have at_ := good.place_pooled left
  have plain := good.plain at_ nofun
  have fair := good.fair_at at_
  obtain ⟨low, high⟩ := good.bound at_
  have removed := removes_pooled good.apart left
  have away : { v with pooled }.place t = none := (removed.place good.apart t).1 rfl
  refine good.shift (c := 0) (removed.trans (inserts_running (removed.apart good.apart) away idle)) low
    (Or.inl ⟨rfl, high⟩) (fun x other => setFacts_of_ne _ _ other)
    (fun x _ => Finset.mem_of_mem_erase) ?_ ?_ ?_ ?_
  · exact fun member => absurd member (Finset.notMem_erase t v.live)
  · exact fun held => Or.inl ⟨held, fun same => settled _ (same ▸ held)⟩
  · show v.queueLen + _ ≤ v.queueLen - 1 + _
    rw [at_, unflagged]
    show v.queueLen + 0 ≤ v.queueLen - 1 + 1
    omega
  · rw [setFacts_self]
    refine fair_run plain (fun name => ?_) fun name => (fair.told name plain).2.2
    exact (fair.told name plain).2.1.trans unflagged

theorem leaves_lane (good : Good named v) {lanes : List Nat} {f : Facts}
    (left : v.lanes.Perm (t :: lanes)) (fair : Fair named (t ∈ v.live) f none) :
    Good named ({ v with lanes, queueLen := v.queueLen - 1 }.setFacts t f) := by
  refine good.relocate (good.place_lane left) nofun (removes_lane good.apart left) rfl
    (fun x other => setFacts_of_ne _ _ other) rfl id ?_ ?_
  · show v.queueLen + 0 ≤ v.queueLen - 1 + 1
    omega
  · rw [setFacts_self]
    exact fair

theorem move_skipLane (good : Good named v) {lanes : List Nat} (left : v.lanes.Perm (t :: lanes))
    (flagged : (v.facts t).flag = true) (plain : (v.facts t).coro = false) :
    Good named ({ v with lanes, queueLen := v.queueLen - 1 }.setFacts t (v.facts t).skip) := by
  have fair := good.fair_at (good.place_lane left)
  refine good.leaves_lane left (Fair.thread plain (iff_of_false nofun nofun) fun name => ?_)
  exact absurd ((fair.told name plain).1.symm.trans flagged) nofun

theorem move_runLane (good : Good named v) {lanes : List Nat} (left : v.lanes.Perm (t :: lanes))
    (plain : (v.facts t).coro = false) (idle : v.running w = none) :
    Good named ({ v with lanes, queueLen := v.queueLen - 1 }.setRunning w (some t) |>.setFacts t
      (v.facts t).run) := by
  have at_ := good.place_lane left
  have fair := good.fair_at at_
  have removed := removes_lane good.apart left
  have away : { v with lanes }.place t = none := (removed.place good.apart t).1 rfl
  refine good.relocate at_ nofun (removed.trans (inserts_running (removed.apart good.apart) away idle))
    rfl (fun x other => setFacts_of_ne _ _ other) rfl id ?_ ?_
  · show v.queueLen + 0 ≤ v.queueLen - 1 + 1
    omega
  · rw [setFacts_self]
    exact fair_run plain (fun name => (fair.told name plain).2.1) fun name => (fair.told name plain).2.2

theorem move_cancelPooled (good : Good named v) (listed : t ∈ v.live)
    (unflagged : (v.facts t).flag = false) :
    Good named ({ v with live := v.live.erase t, queueLen := v.queueLen - 1 }.setFacts t
      { v.facts t with flag := true, claimed := true }) := by
  have at_ := good.live t listed
  have plain := good.plain at_ nofun
  have fair := good.fair_at at_
  obtain ⟨low, high⟩ := good.bound at_
  refine good.shift (c := 0) (good.apart.stay at_) low (Or.inl ⟨rfl, high⟩)
    (fun x other => setFacts_of_ne _ _ other) (fun x _ => Finset.mem_of_mem_erase) (fun _ => rfl) ?_ ?_ ?_
  · exact fun held => Or.inl ⟨held, fun same => (good.claims held).2.1 (same ▸ listed)⟩
  · show v.queueLen + _ ≤ v.queueLen - 1 + _
    rw [at_, unflagged, setFacts_self]
    show v.queueLen + 0 ≤ v.queueLen - 1 + 1
    omega
  · rw [setFacts_self]
    refine Fair.thread plain (fair.ended plain) fun name => ?_
    obtain ⟨-, -, unrun⟩ := fair.told name plain
    exact ⟨fun member => absurd member (Finset.notMem_erase t v.live), rfl, unrun.1, unrun.2, unrun.3⟩

theorem move_cancelLane (good : Good named v) {lanes : List Nat} (left : v.lanes.Perm (t :: lanes))
    (plain : (v.facts t).coro = false) :
    Good named ({ v with lanes, queueLen := v.queueLen - 1 }.setFacts t
      { (v.facts t).skip with claimed := true }) := by
  have fair := good.fair_at (good.place_lane left)
  refine good.leaves_lane left (Fair.thread plain (iff_of_false nofun nofun) fun name => ?_)
  obtain ⟨-, -, unrun⟩ := fair.told name plain
  exact ended_skip (f := { v.facts t with claimed := true }) ⟨unrun.1, unrun.2, unrun.3⟩ rfl

theorem move_finish (good : Good named v) (result : Nat) (here : v.running w = some t) :
    Good named ((v.setRunning w none).setFacts t ((v.facts t).finish result)) := by
  have at_ : v.place t = some (.running w) := good.place_iff.mpr (by
    rw [sites_running, here]
    exact List.mem_singleton_self t)
  have plain := good.plain at_ nofun
  have fair := good.fair_at at_
  refine good.relocate at_ nofun (removes_running good.apart here) rfl
    (fun x other => setFacts_of_ne _ _ other) rfl id (Int.le_refl _) ?_
  rw [setFacts_self]
  refine Fair.thread plain (fair.ended plain) fun name => ?_
  obtain ⟨ended, dispatched, unclaimed, returned, future⟩ := fair.told name plain
  have list : ((v.facts t).finish result).returned = [result] := by
    show result :: (v.facts t).returned = [result]
    rw [returned]
  refine Ended.returned ended dispatched unclaimed list ?_
  intro kind
  have kind : (v.facts t).isFuture = true := kind
  show (if (v.facts t).isFuture = true then _ else _) = _
  rw [if_pos kind, future]

theorem move_facts (good : Good named v) {f : Facts}
    (blank : v.next < t → f.dispatched = 0 ∧ f.claimed = false ∧ f.returned = [])
    (count : weight (v.place t) f.flag ≤ weight (v.place t) (v.facts t).flag)
    (claims : named → v.place t ≠ some .pooled)
    (fair : 1 < t → t ≤ v.next → Fair named (t ∈ v.live) f (v.place t)) :
    Good named (v.setFacts t f) where
  ids := good.ids
  apart := good.apart
  bound := good.bound
  live := good.live
  claims := by
    intro c x held
    obtain ⟨at_, dead, flag⟩ := good.claims held
    refine ⟨at_, dead, fun name => ?_⟩
    have other : x ≠ t := fun same => claims name (same ▸ at_)
    rw [setFacts_of_ne v f other]
    exact flag name
  claimer := good.claimer
  count := by
    refine le_trans (Int.ofNat_le.mpr (tally_le_tally fun x _ => ?_)) good.count
    show weight (v.place x) _ ≤ _
    by_cases own : x = t
    · rw [own, setFacts_self]
      exact count
    · rw [setFacts_of_ne v f own]
  blank := by
    intro x new
    by_cases own : x = t
    · rw [own, setFacts_self]
      exact blank (own ▸ new)
    · rw [setFacts_of_ne v f own]
      exact good.blank x new
  fair := by
    intro x low high
    show Fair named (x ∈ v.live) _ (v.place x)
    by_cases own : x = t
    · subst own
      rw [setFacts_self]
      exact fair low high
    · rw [setFacts_of_ne v f own]
      exact good.fair x low high

theorem weight_le {at_ : Option Site} {flag flag' : Bool} (allowed : at_ = some .pooled → flag = true) :
    weight at_ flag ≤ weight at_ flag' := by
  match at_, allowed with
  | some .pooled, allowed =>
    rw [allowed rfl]
    exact Nat.zero_le _
  | some (.client _ true), _ | some (.client _ false), _ | some .lane, _ | some (.running _), _ | none, _ =>
    exact Nat.le_refl _

theorem move_aside (good : Good named v) {f : Facts} (known : t ≤ v.next)
    (kind : (v.facts t).coro = true) (kept : f.coro = true) : Good named (v.setFacts t f) := by
  have away : v.place t ≠ some .pooled := fun at_ => absurd (kind.symm.trans (good.plain at_ nofun)) nofun
  apply good.move_facts
  · intro new
    omega
  · exact weight_le fun at_ => absurd at_ away
  · exact fun _ => away
  · intro low high
    exact Fair.coroutine kept ((good.fair t low high).kind kind)

theorem move_stray (good : Good named v) (unnamed : ¬named) :
    Good named (v.setFacts t { v.facts t with flag := true }) := by
  apply good.move_facts
  · exact good.blank t
  · exact weight_le fun _ => rfl
  · exact fun name => absurd name unnamed
  · intro low high
    have fair := good.fair t low high
    exact ⟨fair.kind, fair.ended, fun name => absurd name unnamed⟩

theorem move (good : Good named v) (moved : Move named v v') : Good named v' := by
  cases moved with
  | create isFuture free => exact good.move_create isFuture free
  | createLane coro isFuture joined => exact good.move_createLane coro isFuture joined
  | count here =>
    refine good.move_swap true here (good.place_fresh here) rfl rfl rfl rfl (by rintro x ⟨⟩) ?_
    show v.queueLen + 1 ≤ v.queueLen + 1 + 0
    omega
  | uncount here =>
    refine good.move_swap false here (good.place_counted here) rfl rfl rfl rfl (by rintro x ⟨⟩) ?_
    show v.queueLen + 0 ≤ v.queueLen - 1 + 1
    omega
  | claim here joined => exact good.move_claim here joined
  | index here grown => exact good.move_index here grown
  | refuse here => exact good.move_refuse here
  | spill here joined => exact good.move_spill here joined
  | skip left flagged settled => exact good.move_skip left flagged settled
  | run left unflagged settled idle => exact good.move_run left unflagged settled idle
  | skipLane left flagged plain => exact good.move_skipLane left flagged plain
  | runLane left _ plain idle => exact good.move_runLane left plain idle
  | leaveLane left _ kept _ => exact good.leaves_lane left (Fair.coroutine kept (Or.inr rfl))
  | cancelPooled listed unflagged => exact good.move_cancelPooled listed unflagged
  | cancelLane left plain => exact good.move_cancelLane left plain
  | finish result here => exact good.move_finish result here
  | aside known kind kept _ => exact good.move_aside known kind kept
  | stray unnamed => exact good.move_stray unnamed

theorem moves (good : Good named v) (moved : Moves named v v') : Good named v' := by
  induction moved with
  | refl => exact good
  | tail _ last ih => exact ih.move last

end Good

/-- What a run does not take back of the tasks it has created. -/
structure Lasting (v v' : Custody) : Prop where
  next : v.next ≤ v'.next
  kind : ∀ t ≤ v.next, (v'.facts t).coro = (v.facts t).coro
  ended : ∀ t ≤ v.next, (v'.facts t).ended = none → (v.facts t).ended = none

theorem Lasting.refl (v : Custody) : Lasting v v := ⟨Nat.le_refl _, fun _ _ => rfl, fun _ _ => id⟩

theorem Lasting.trans {v'' : Custody} (first : Lasting v v') (second : Lasting v' v'') : Lasting v v'' where
  next := first.next.trans second.next
  kind := fun t known => (second.kind t (known.trans first.next)).trans (first.kind t known)
  ended := fun t known none_ => first.ended t known (second.ended t (known.trans first.next) none_)

theorem lasting_setFacts {u : Custody} {f : Facts} (next : v.next ≤ u.next) (same : u.facts = v.facts)
    (own : t ≤ v.next → f.coro = (v.facts t).coro ∧ (f.ended = none → (v.facts t).ended = none)) :
    Lasting v (u.setFacts t f) := by
  refine ⟨next, fun x known => ?_, fun x known => ?_⟩
  · by_cases here : x = t
    · subst here
      rw [setFacts_self]
      exact (own known).1
    · rw [setFacts_of_ne u f here, same]
  · by_cases here : x = t
    · subst here
      rw [setFacts_self]
      exact (own known).2
    · rw [setFacts_of_ne u f here, same]
      exact id

theorem Move.lasting (moved : Move named v v') : Lasting v v' := by
  cases moved with
  | create _ _ | createLane _ _ _ =>
    refine lasting_setFacts (Nat.le_succ _) rfl fun known => ?_
    omega
  | count _ | uncount _ | claim _ _ | index _ _ | spill _ _ =>
    exact ⟨Nat.le_refl _, fun _ _ => rfl, fun _ _ => id⟩
  | refuse _ | skip _ _ _ | run _ _ _ _ | skipLane _ _ _ | runLane _ _ _ _ | cancelLane _ _ =>
    exact lasting_setFacts (Nat.le_refl _) rfl fun _ => ⟨rfl, nofun⟩
  | cancelPooled _ _ | finish _ _ | stray _ =>
    exact lasting_setFacts (Nat.le_refl _) rfl fun _ => ⟨rfl, id⟩
  | leaveLane _ kind kept lasts | aside _ kind kept lasts =>
    exact lasting_setFacts (Nat.le_refl _) rfl fun _ => ⟨kept.trans kind.symm, lasts⟩

theorem Moves.lasting (moved : Moves named v v') : Lasting v v' := by
  induction moved with
  | refl => exact Lasting.refl v
  | tail _ last ih => exact ih.trans last.lasting

/-- The task has left its submitter, and was not refused. -/
structure Past (v : Custody) (t : Nat) : Prop where
  low : 1 < t
  known : t ≤ v.next
  away : ∀ {c stage}, v.holds c = some (t, stage) → stage = .claimed
  taken : (v.facts t).coro = false → (v.facts t).ended ≠ some .failed

theorem Past.of (past : Past v t) (lasting : Lasting v v')
    (holds : ∀ {c stage}, v'.holds c = some (t, stage) → v.holds c = some (t, stage) ∨ stage = .claimed)
    (taken : (v.facts t).coro = false → (v'.facts t).ended = some .failed →
      (v.facts t).ended = some .failed) : Past v' t where
  low := past.low
  known := past.known.trans lasting.next
  away := fun held => (holds held).elim past.away id
  taken := by
    intro plain failed
    rw [lasting.kind t past.known] at plain
    exact past.taken plain (taken plain failed)

theorem held_setHolds {u : Custody} {what : Option (Nat × Stage)} {x : Nat} (same : u.holds = v.holds)
    (given : ∀ {stage}, what = some (x, stage) → stage = .claimed) {d : Nat} {stage : Stage}
    (held : (u.setHolds c what).holds d = some (x, stage)) :
    v.holds d = some (x, stage) ∨ stage = .claimed := by
  by_cases own : d = c
  · rw [own, setHolds_self] at held
    exact Or.inr (given held)
  · rw [setHolds_of_ne u what own, same] at held
    exact Or.inl held

theorem failed_setFacts {u : Custody} {f : Facts} {x : Nat} (same : u.facts = v.facts)
    (own : x = t → f.ended = some .failed → (v.facts t).ended = some .failed)
    (failed : ((u.setFacts t f).facts x).ended = some .failed) : (v.facts x).ended = some .failed := by
  by_cases here : x = t
  · rw [here, setFacts_self] at failed
    rw [here]
    exact own here failed
  · rwa [setFacts_of_ne u f here, same] at failed

theorem Past.move {x : Nat} (past : Past v x) (moved : Move named v v') : Past v' x := by
  have known := past.known
  refine past.of moved.lasting ?_ ?_
  · cases moved with
    | create _ _ =>
      refine held_setHolds rfl ?_
      rintro _ ⟨⟩
      omega
    | count here | uncount here =>
      refine held_setHolds rfl ?_
      rintro _ ⟨⟩
      cases past.away here
    | claim _ _ =>
      refine held_setHolds rfl ?_
      rintro _ ⟨⟩
      rfl
    | index _ _ | spill _ _ | refuse _ => exact held_setHolds rfl (by rintro _ ⟨⟩)
    | createLane _ _ _ | skip _ _ _ | run _ _ _ _ | skipLane _ _ _ | runLane _ _ _ _ | leaveLane _ _ _ _
    | cancelPooled _ _ | cancelLane _ _ | finish _ _ | aside _ _ _ _ | stray _ => exact Or.inl
  · intro plain
    cases moved with
    | create _ _ | createLane _ _ _ => exact failed_setFacts rfl fun new _ => by omega
    | count _ | uncount _ | claim _ _ | index _ _ | spill _ _ => exact id
    | refuse here =>
      refine failed_setFacts rfl ?_
      rintro rfl
      cases past.away here
    | skip _ _ _ | run _ _ _ _ | skipLane _ _ _ | runLane _ _ _ _ | cancelLane _ _ =>
      exact failed_setFacts rfl fun _ => nofun
    | cancelPooled _ _ | finish _ _ | stray _ => exact failed_setFacts rfl fun _ => id
    | leaveLane _ kind _ _ | aside _ kind _ _ =>
      refine failed_setFacts rfl ?_
      rintro rfl
      cases plain.symm.trans kind

theorem Past.moves {x : Nat} (past : Past v x) (moved : Moves named v v') : Past v' x := by
  induction moved with
  | refl => exact past
  | tail _ last ih => exact ih.move last

end Custody

end Loomworks.Pool

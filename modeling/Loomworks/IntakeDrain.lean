import Loomworks.IntakeCustody

/- loom_pool_shutdown against submitters: what is left when the last worker has exited. -/
namespace Loomworks.Pool.Intake

open Custody Tally Transition

/-- Every worker of the pool has exited. -/
def State.Over (s : State) : Prop := ∀ w < s.pool.workerCount, s.workers w = .exited

instance (s : State) : Decidable s.Over :=
  inferInstanceAs (Decidable (∀ w < s.pool.workerCount, s.workers w = .exited))

/-- A client in this place puts no task in the ring unless it looks at shutdown once more. -/
def HarmlessCall (next : CallPc) : CallPc → Prop
  | .idle | .check | .blocked _ | .gaveUp | .lane | .spill _ | .post _ => True
  | .capacity | .waitSpace => next = .lane
  | _ => False

def State.Harmless (s : State) (c : Nat) : Prop :=
  HarmlessCall (s.route (s.clients c).request) (s.clients c).pc

/-- The task of a call that has put it in a queue and returns LOOMWORKS_OK. -/
def CallPc.done : CallPc → Option Nat
  | .publish t _ | .addCount t | .post t => some t
  | _ => none

def State.Done (s : State) (t : Nat) : Prop := t ∈ s.accepted ∨ ∃ c, (s.clients c).pc.done = some t

/-- The task was dispatched once, or cancelled by a call that succeeded. -/
def State.Settled (s : State) (t : Nat) : Prop :=
  s.pool.events.count (.dispatched t) = 1 ∧ .cancelled t ∉ s.pool.events ∨
    s.pool.events.count (.dispatched t) = 0 ∧ .cancelled t ∈ s.pool.events

/-- No accepted task is lost when the last worker has exited or loom_pool_shutdown has returned. -/
def NoneLost (s : State) : Prop :=
  s.joined = true ∨ s.Over → ∀ t ∈ s.accepted, t ∉ s.pool.pooled ∧ t ∉ laneTasks s.pool.lanes ∧ s.Settled t

/-- A worker that looks for the drained exit as the last one. -/
def State.Last (s : State) (w : Nat) : Prop :=
  s.drained = true ∧ ∀ v < s.pool.workerCount, v ≠ w → s.workers v = .exited

/-- The submits are of thread tasks, cancels by id name a task, and when the last worker exits the
counter has not wrapped and no submitter is past its look at shutdown on its way to the ring. -/
def Prudent (s : State) : Label → Prop
  | .submit _ request => request.isCoro = false
  | .cancelById id _ => id ≠ 0
  | .pass w _ _ => s.Last w → s.pool.queueLen < 2 ^ 32 ∧ ∀ c < s.clientCount, s.Harmless c
  | _ => True

/-- What holds in a run of thread tasks that goes to its end. -/
structure Draining (s : State) : Prop where
  kept : ∃ live, Kept True s live
  threads : ∀ t ≤ s.pool.nextTaskId, (s.pool.tasks t).isCoro = false
  requests : ∀ c, (s.clients c).request.isCoro = false
  past : ∀ t, s.Done t → Past (s.custody ∅) t
  total : s.pool.dequeTotal = s.pool.dequeTasks.length
  size : s.pool.ringSize ≤ 2 ^ 21
  manned : 0 < s.pool.workerCount
  resting : ∀ w, s.pool.workerCount ≤ w → s.workers w = .looping
  exits : ∀ w, s.workers w = .exited → s.shutdown = true
  joins : s.joined = true → s.Over
  spent : s.Over → s.pool.pooled = [] ∧ laneTasks s.pool.lanes = [] ∧ ∀ c, s.Harmless c

variable {s s' : State} {live : Finset Nat} {c w : Nat}

theorem past_of_place {named : Prop} {v : Custody} {t : Nat} {site : Site} (good : Good named v)
    (at_ : v.place t = some site) (queued : site = .pooled ∨ site = .lane) : Past v t := by
  obtain ⟨low, known⟩ := good.bound at_
  have elsewhere : ∀ c counted, v.place t ≠ some (.client c counted) := by
    intro c counted there
    rw [at_] at there
    rcases queued with rfl | rfl <;> cases there
  refine ⟨low, known, fun {c stage} held => ?_, fun plain failed => ?_⟩
  · cases stage with
    | fresh => exact absurd (good.place_fresh held) (elsewhere c false)
    | counted => exact absurd (good.place_counted held) (elsewhere c true)
    | claimed => rfl
  · have waits : (v.facts t).ended = none := by
      refine ((good.fair_at at_).ended plain).mpr ?_
      rcases queued with rfl | rfl <;> rfl
    rw [waits] at failed
    cases failed

theorem past_congr {v v' : Custody} {t : Nat} (past : Past v t) (next : v'.next = v.next)
    (holds : v'.holds = v.holds) (facts : v'.facts = v.facts) : Past v' t := by
  refine ⟨past.low, ?_, ?_, ?_⟩
  · rw [next]
    exact past.known
  · rw [holds]
    exact past.away
  · rw [facts]
    exact past.taken

theorem route_eq (request : Request) (same : s'.pool.ringSize = s.pool.ringSize)
    (deques : s'.pool.deques.isSome = s.pool.deques.isSome) : s'.route request = s.route request := by
  unfold State.route
  rw [same, deques]

/-- deque_total counts the tasks of the deques. -/
theorem total_taken {label : Label} (ringed : Ringed s) (taken : Taken s s' label)
    (total : s.pool.dequeTotal = s.pool.dequeTasks.length) :
    s'.pool.dequeTotal = s'.pool.dequeTasks.length := by
  cases taken with
  | calls called => cases called <;> exact total
  | @passes w _ cas inside looping passed =>
    cases passed with
    | takes list next | exits dry drained next | idles dry undrained nothing next =>
      rw [next]
      exact total
    | fetches dry undrained found boundary =>
      have drawn := drawn_of_fetch ringed inside found
      have calm := calm_boundary boundary
      rw [calm.total, dequeTasks_calm calm]
      generalize (s.fetch w cas).1 = s₁ at drawn
      cases drawn with
      | lane left => exact total
      | @ring t n deques dequeTotal short ready seen left moved =>
        show dequeTotal = ((ThreadPool.dequeTasks { s.pool with deques }).length : Int)
        omega
  | minor minor =>
    rw [minor.steady.total, dequeTasks_calm minor.steady]
    exact total

theorem next_taken {label : Label} (ringed : Ringed s) (taken : Taken s s' label)
    (outside : ∀ c ok n, ¬Called s c ok n s') : s'.pool.nextTaskId = s.pool.nextTaskId := by
  cases taken with
  | calls called => exact absurd called (outside _ _ _)
  | @passes w _ cas inside looping passed =>
    cases passed with
    | takes list next | exits dry drained next | idles dry undrained nothing next =>
      rw [next]
      rfl
    | fetches dry undrained found boundary =>
      rw [(calm_boundary boundary).next]
      have drawn := drawn_of_fetch ringed inside found
      generalize (s.fetch w cas).1 = s₁ at drawn
      cases drawn with
      | lane _ | ring _ _ _ _ _ => rfl
  | minor minor => exact minor.steady.next

theorem ring_length_le (ringed : Ringed s) : s.pool.ring.length ≤ s.pool.ringSize := by
  rw [ringed.listed, List.length_drop]
  by_cases zero : s.pool.ringSize = 0
  · rw [(ringed.dry zero).1, List.length_nil]
    omega
  · have valid := ringed.valid zero
    have count := valid.count
    have high := valid.high
    rw [ringed.size] at high
    omega

theorem harmless_congr {client : Client} (others : s'.clients = Function.update s.clients c client)
    (size : s'.pool.ringSize = s.pool.ringSize) (deques : s'.pool.deques = s.pool.deques)
    (own : HarmlessCall (s.route client.request) client.pc) (before : ∀ d, s.Harmless d) (d : Nat) :
    s'.Harmless d := by
  have route : ∀ request, s'.route request = s.route request :=
    fun request => route_eq request size (by rw [deques])
  unfold State.Harmless
  rw [route, others]
  by_cases same : d = c
  · rw [same, Function.update_self]
    exact own
  · rw [Function.update_of_ne same]
    exact before d

theorem route_cases (s : State) (request : Request) : s.route request = .create ∨ s.route request = .lane := by
  unfold State.route
  split
  · exact Or.inl rfl
  · exact Or.inr rfl

/-- After the last exit a client finds shutdown set and puts nothing in a queue. -/
theorem over_called {ok : Bool} {n : Nat} (shut : s.shutdown = true) (harmless : ∀ d, s.Harmless d)
    (called : Called s c ok n s') :
    s'.pool.pooled = s.pool.pooled ∧ s'.pool.lanes = s.pool.lanes ∧ ∀ d, s'.Harmless d := by
  have own := harmless c
  unfold State.Harmless at own
  have closed : ∀ {p : Prop}, s.shutdown = false → p := fun open_ => absurd (open_.symm.trans shut) nofun
  have walks : ∀ {pc : CallPc}, HarmlessCall (s.route (s.clients c).request) pc →
      (s.setPc c pc).pool.pooled = s.pool.pooled ∧ (s.setPc c pc).pool.lanes = s.pool.lanes ∧
        ∀ d, (s.setPc c pc).Harmless d :=
    fun next => ⟨rfl, rfl, harmless_congr rfl rfl rfl next harmless⟩
  cases called with
  | walks walk =>
    apply walks
    generalize here : (s.clients c).pc = pc at walk own
    cases walk with
    | coroutine open_ | unbounded open_ | bounded open_ | blocks _ open_ | waits _ open_
    | leaves _ open_ => exact closed open_
    | crowded _ => exact own
    | room _ | slips _ =>
      have lane : s.route (s.clients c).request = .lane := own
      rw [lane]
      trivial
    | quits _ => trivial
    | loadTail | free _ | taken | retry => exact own.elim
  | gives | spillRefused | posts => exact ⟨rfl, rfl, harmless_congr rfl rfl rfl trivial harmless⟩
  | lane _ open_ | spills _ open_ => exact closed open_
  | creates here _ | addLen here | subLen here | claims here | stores here | inserts here | publishes here
  | counts here =>
    rw [here] at own
    exact own.elim

theorem mem_handed {t : Nat} {counted : Bool} {what : Option (Nat × Stage)} (member : t ∈ handed counted what) :
    what = some (t, if counted then .counted else .fresh) := by
  rcases what with - | ⟨u, stage⟩
  · cases member
  · cases stage with
    | fresh =>
      cases counted with
      | false =>
        cases List.mem_singleton.mp member
        rfl
      | true => cases member
    | counted =>
      cases counted with
      | false => cases member
      | true =>
        cases List.mem_singleton.mp member
        rfl
    | claimed => cases member

theorem manned_settings (config : Config) (processors : Nat) :
    0 < (poolInit (settings config processors)).workerCount := by
  show 0 < if config.workerCount = 0 then min (max processors 1) 64 * 2 else config.workerCount
  split <;> omega

namespace Draining

/-- The drained exit of the last worker leaves every queue empty. -/
theorem empty (draining : Draining s) (drained : s.drained = true) (unwrapped : s.pool.queueLen < 2 ^ 32)
    (harmless : ∀ c < s.clientCount, s.Harmless c) :
    s.pool.pooled = [] ∧ laneTasks s.pool.lanes = [] := by
  obtain ⟨live, kept⟩ := draining.kept
  unfold State.drained at drained
  simp only [Bool.and_eq_true, beq_iff_eq] at drained
  obtain ⟨⟨⟨⟨-, len⟩, ringCount⟩, total⟩, -⟩ := drained
  have count : (tally (fun t => weight ((s.custody live).place t) ((s.custody live).facts t).flag)
    (List.range (s.pool.nextTaskId + 1)) : Int) ≤ s.pool.queueLen := kept.good.count
  have zero : s.pool.queueLen = 0 := by
    unfold ThreadPool.loadQueueLen at len
    rw [Int.emod_eq_of_lt (by omega) unwrapped] at len
    omega
  rw [zero] at count
  have light := tally_eq_zero.mp (Nat.le_zero.mp (Int.ofNat_le.mp count))
  have lanes : laneTasks s.pool.lanes = [] := by
    apply List.eq_nil_iff_forall_not_mem.mpr
    intro t member
    have at_ : (s.custody live).place t = some .lane := kept.good.place_iff.mpr member
    have bound : t ≤ s.pool.nextTaskId := (kept.good.bound at_).2
    have weightless := light t (List.mem_range.mpr (by omega))
    rw [at_] at weightless
    cases weightless
  have uncounted : s.uncounted = [] := by
    refine Bins.all_eq_nil fun c inside => ?_
    have own := harmless c inside
    unfold State.Harmless at own
    cases pc : (s.clients c).pc with
    | storeTask _ _ | insert _ _ | publish _ _ | addCount _ =>
      rw [pc] at own
      exact own.elim
    | _ => rfl
  have ring : s.pool.ring = [] := by
    have counted := kept.ringed.count
    have short := ring_length_le kept.ringed
    have size := draining.size
    rw [uncounted] at counted
    change s.ringCount + 0 = s.pool.ring.length at counted
    unfold State.loadRingCount at ringCount
    rw [Int.emod_eq_of_lt (by omega) (by omega)] at ringCount
    apply List.eq_nil_of_length_eq_zero
    omega
  have deques : s.pool.dequeTasks = [] := by
    have held := draining.total
    rw [total] at held
    apply List.eq_nil_of_length_eq_zero
    omega
  refine ⟨?_, lanes⟩
  unfold ThreadPool.pooled
  rw [ring, deques]
  rfl

theorem shut_of_over (draining : Draining s) (spent : s.Over) : s.shutdown = true :=
  draining.exits 0 (spent 0 draining.manned)

theorem idle_of_over (draining : Draining s) (spent : s.Over) (w : Nat) :
    s.workers w = .exited ∨ s.workers w = .looping := by
  by_cases inside : w < s.pool.workerCount
  · exact Or.inl (spent w inside)
  · exact Or.inr (draining.resting w (by omega))

theorem no_token {t : Nat} (draining : Draining s) : ¬s.Token t := by
  intro token
  obtain ⟨live, kept⟩ := draining.kept
  obtain ⟨kind, known⟩ := kept.tokens t token
  rw [draining.threads t known] at kind
  cases kind

/-- Once the last worker has exited nothing comes into a queue. -/
theorem over_taken {label : Label} (draining : Draining s) (spent : s.Over) (taken : Taken s s' label) :
    s'.pool.pooled = s.pool.pooled ∧ s'.pool.lanes = s.pool.lanes ∧ ∀ d, s'.Harmless d := by
  have shut := draining.shut_of_over spent
  obtain ⟨-, -, harmless⟩ := draining.spent spent
  have stuck : ∀ {w : Nat} {pc : WorkerPc} {p : Prop}, s.workers w = pc → (pc == .exited) = false →
      (pc == .looping) = false → p := by
    intro w pc p here first second
    rcases draining.idle_of_over spent w with exited | looping
    · exact absurd (here.symm.trans exited) (beq_eq_false_iff_ne.mp first)
    · exact absurd (here.symm.trans looping) (beq_eq_false_iff_ne.mp second)
  cases taken with
  | calls called => exact over_called shut harmless called
  | @passes w _ _ inside looping passed =>
    rw [spent w inside] at looping
    cases looping
  | minor minor =>
    cases minor with
    | submits _ _ => exact ⟨rfl, rfl, harmless_congr rfl rfl rfl trivial harmless⟩
    | settles here _ | wakes here | signals here _ => exact stuck here rfl rfl
    | @works w _ _ _ _ here _ _ _ =>
      rcases draining.idle_of_over spent w with idle | idle
      · rw [idle] at here
        cases here
      · rw [idle] at here
        cases here
    | fires fired =>
      unfold ThreadPool.timerFire at fired
      split at fired
      · cases fired
      · rename_i entry here
        exact absurd (Or.inl (Or.inr ⟨entry, List.mem_of_getElem? here, rfl⟩)) draining.no_token
    | posts | stays | shuts _ | joins _ _ => exact ⟨rfl, rfl, harmless⟩
    | cancels open_ _ _ =>
      rw [shut] at open_
      cases open_

theorem threads_step {label : Label} {live live' : Finset Nat} (draining : Draining s) (kept : Kept True s live)
    (moves : Custody.Moves True (s.custody live) (s'.custody live')) (taken : Taken s s' label) :
    ∀ t ≤ s'.pool.nextTaskId, (s'.pool.tasks t).isCoro = false := by
  have old : ∀ t ≤ s.pool.nextTaskId, (s'.pool.tasks t).isCoro = false := by
    intro t known
    have same : (s'.pool.tasks t).isCoro = (s.pool.tasks t).isCoro := moves.lasting.kind t known
    rw [same]
    exact draining.threads t known
  have created : ∀ {c : Nat} {pool : ThreadPool},
      pool.tasks = (s.pool.taskCreate (s.clients c).request.task).tasks →
      (pool.tasks (s.pool.nextTaskId + 1)).isCoro = false := by
    intro c pool tasks
    have task : pool.tasks (s.pool.nextTaskId + 1) = (s.clients c).request.task := by
      rw [tasks]
      exact Function.update_self _ _ _
    rw [task]
    unfold Request.task
    rw [draining.requests c]
    rfl
  by_cases submitter : ∃ c ok n, Called s c ok n s'
  · obtain ⟨c, ok, n, called⟩ := submitter
    cases called with
    | lane here open_ space vacant | creates here vacant =>
      intro t known
      by_cases new : t = s.pool.nextTaskId + 1
      · rw [new]
        exact created rfl
      · have known : t ≤ s.pool.nextTaskId + 1 := known
        exact old t (by omega)
    | walks _ | gives _ _ | addLen _ | subLen _ | spillRefused _ _ | spills _ _ _ | posts _ | claims _
    | stores _ | inserts _ | publishes _ | counts _ => exact old
  · have next := next_taken kept.ringed taken fun c ok n same => submitter ⟨c, ok, n, same⟩
    rw [next]
    exact old

theorem requests_step {label : Label} (draining : Draining s) (prudent : Prudent s label)
    (stepped : Stepped s s' label) : ∀ d, (s'.clients d).request.isCoro = false := by
  have client : ∀ {c : Nat} {client : Client}, client.request.isCoro = false →
      ∀ d, (Function.update s.clients c client d).request.isCoro = false := by
    intro c client own d
    by_cases same : d = c
    · rw [same, Function.update_self]
      exact own
    · rw [Function.update_of_ne same]
      exact draining.requests d
  cases stepped with
  | submits inside idle => exact client prudent
  | @calls c n ok s' called => cases called <;> exact client (draining.requests c)
  | shuts _ | joins _ _ => exact draining.requests
  | other woken =>
    rcases woken.clients with same | ⟨c, -, next⟩
    · rw [same]
      exact draining.requests
    · rw [next]
      exact client (draining.requests c)

theorem done_walk {ok : Bool} {pc pc' : CallPc} (walk : Walk s c ok pc pc') : pc'.done = none := by
  cases walk with
  | unbounded _ _ _ | room _ | slips _ | leaves _ _ _ =>
    rcases route_cases s (s.clients c).request with create | lane
    · rw [create]
      rfl
    · rw [lane]
      rfl
  | coroutine _ _ | bounded _ _ _ | crowded _ | blocks _ _ | quits _ | waits _ _ _ | loadTail | free _
  | taken | retry => rfl

theorem done_client {client : Client} {t : Nat} (clients : s'.clients = Function.update s.clients c client)
    (done : s'.Done t) : t ∈ s'.accepted ∨ client.pc.done = some t ∨ s.Done t := by
  rcases done with accepted | ⟨d, here⟩
  · exact Or.inl accepted
  · rw [clients] at here
    by_cases same : d = c
    · rw [same, Function.update_self] at here
      exact Or.inr (Or.inl here)
    · rw [Function.update_of_ne same] at here
      exact Or.inr (Or.inr (Or.inr ⟨d, here⟩))

theorem past_step {label : Label} {live' : Finset Nat} (draining : Draining s) (kept : Kept True s live)
    (moves : Custody.Moves True (s.custody live) (s'.custody live')) (kept' : Kept True s' live')
    (stepped : Stepped s s' label) : ∀ t, s'.Done t → Past (s'.custody ∅) t := by
  have carry : ∀ {t : Nat}, s.Done t → Past (s'.custody ∅) t := by
    intro t done
    have before : Past (s.custody live) t := past_congr (draining.past t done) rfl rfl rfl
    exact past_congr (before.moves moves) rfl rfl rfl
  have queued : ∀ {t : Nat}, t ∈ s'.pool.pooled ∨ t ∈ laneTasks s'.pool.lanes → Past (s'.custody ∅) t := by
    rintro t (member | member)
    · have at_ : (s'.custody live').place t = some .pooled := kept'.good.place_iff.mpr member
      exact past_congr (past_of_place kept'.good at_ (Or.inl rfl)) rfl rfl rfl
    · have at_ : (s'.custody live').place t = some .lane := kept'.good.place_iff.mpr member
      exact past_congr (past_of_place kept'.good at_ (Or.inr rfl)) rfl rfl rfl
  have already : ∀ {c t : Nat} {pc : CallPc}, (s.clients c).pc = pc → pc.done = some t →
      Past (s'.custody ∅) t := by
    rintro c t pc rfl here
    exact carry (Or.inr ⟨c, here⟩)
  intro t done
  cases stepped with
  | submits inside idle =>
    rcases done_client (s := s) rfl done with accepted | own | before
    · exact carry (Or.inl accepted)
    · cases own
    · exact carry before
  | shuts _ | joins _ _ => exact carry done
  | other woken =>
    rcases woken.clients with same | ⟨c, -, next⟩
    · unfold State.Done at done
      rw [same, woken.accepted] at done
      exact carry done
    · rcases done_client next done with accepted | own | before
      · rw [woken.accepted] at accepted
        exact carry (Or.inl accepted)
      · cases own
      · exact carry before
  | @calls c n ok s' called =>
    cases called with
    | walks walk =>
      rcases done_client (s := s) rfl done with accepted | own | before
      · exact carry (Or.inl accepted)
      · cases (done_walk walk).symm.trans own
      · exact carry before
    | gives _ _ | creates _ _ | addLen _ | subLen _ | spillRefused _ _ | claims _ | stores _ =>
      rcases done_client (s := s) rfl done with accepted | own | before
      · exact carry (Or.inl accepted)
      · cases own
      · exact carry before
    | lane here open_ space vacant =>
      rcases done_client (s := s) rfl done with accepted | own | before
      · rcases List.mem_cons.mp accepted with rfl | old
        · exact queued (Or.inr ((laneTasks_append _ _ _).mem_iff.mpr List.mem_cons_self))
        · exact carry (Or.inl old)
      · cases own
      · exact carry before
    | spills here open_ space =>
      rcases done_client (s := s) rfl done with accepted | own | before
      · exact carry (Or.inl accepted)
      · cases own
        exact queued (Or.inr ((laneTasks_append _ _ _).mem_iff.mpr List.mem_cons_self))
      · exact carry before
    | posts here =>
      rcases done_client (s := s) rfl done with accepted | own | before
      · rcases List.mem_cons.mp accepted with rfl | old
        · exact already here rfl
        · exact carry (Or.inl old)
      · cases own
      · exact carry before
    | inserts here =>
      rcases done_client (s := s) rfl done with accepted | own | before
      · exact carry (Or.inl accepted)
      · cases own
        have held : (s.custody live).holds c = some (t, .claimed) := congrArg CallPc.holds here
        exact queued (Or.inl (kept.good.place_iff.mp (kept.good.claims held).1))
      · exact carry before
    | publishes here | counts here =>
      rcases done_client (s := s) rfl done with accepted | own | before
      · exact carry (Or.inl accepted)
      · cases own
        exact already here rfl
      · exact carry before

theorem shut_step {label : Label} (stepped : Stepped s s' label) (shut : s.shutdown = true) :
    s'.shutdown = true := by
  cases stepped with
  | submits _ _ | joins _ _ => exact shut
  | shuts _ => rfl
  | calls called => cases called <;> exact shut
  | other woken =>
    rw [woken.shutdown]
    exact shut

theorem exits_step {label : Label} (draining : Draining s) (worked : Worked s s' label)
    (stepped : Stepped s s' label) : ∀ w, s'.workers w = .exited → s'.shutdown = true := by
  intro w exited
  apply shut_step stepped
  cases worked with
  | rests same =>
    rw [same] at exited
    exact draining.exits w exited
  | @moves v pc _ _ next stays =>
    rw [next] at exited
    by_cases same : w = v
    · rw [same, Function.update_self] at exited
      exact absurd exited stays
    · rw [Function.update_of_ne same] at exited
      exact draining.exits w exited
  | exits _ _ _ _ drained _ =>
    unfold State.drained at drained
    simp only [Bool.and_eq_true] at drained
    exact drained.1.1.1.1

/-- The last worker has exited in this step, or before. -/
theorem over_before {label : Label} (draining : Draining s) (worked : Worked s s' label)
    (count : s'.pool.workerCount = s.pool.workerCount) (spent : s'.Over) :
    s.Over ∨ ∃ w cas c, label = .pass w cas c ∧ s.Last w ∧ s' = s.setWorker w .exited := by
  unfold State.Over at spent
  rw [count] at spent
  cases worked with
  | rests same =>
    rw [same] at spent
    exact Or.inl spent
  | @moves v pc own before next stays =>
    rw [next] at spent
    by_cases inside : v < s.pool.workerCount
    · have exited := spent v inside
      rw [Function.update_self] at exited
      exact absurd exited stays
    · have looping := draining.resting v (by omega)
      rcases own with inside | busy
      · exact absurd inside (by omega)
      · exact absurd looping busy
  | @exits v c cas taken _ _ _ drained next =>
    refine Or.inr ⟨v, cas, c, taken, ⟨drained, fun u inside other => ?_⟩, next⟩
    have exited := spent u inside
    rw [next] at exited
    exact (Function.update_of_ne other _ _).symm.trans exited

theorem over_after {label : Label} (worked : Worked s s' label)
    (count : s'.pool.workerCount = s.pool.workerCount) (spent : s.Over) : s'.Over := by
  intro w inside
  rw [count] at inside
  have exited := spent w inside
  cases worked with
  | rests same =>
    rw [same]
    exact exited
  | @moves v pc _ before next _ =>
    have other : w ≠ v := by
      rintro rfl
      exact before exited
    rw [next, Function.update_of_ne other]
    exact exited
  | @exits v _ _ _ inside looping _ _ _ => exact absurd (looping.symm.trans (spent v inside)) nofun

theorem step {label : Label} (draining : Draining s) (prudent : Prudent s label)
    (after : Intake.step s label = some s') : Draining s' := by
  obtain ⟨live, kept⟩ := draining.kept
  have allowed : True → Named label := by
    intro _
    cases label with
    | cancelById id alloc => exact prudent
    | _ => trivial
  obtain ⟨live', moves, kept'⟩ := kept.step allowed after
  have taken := taken_of_step kept.ringed.counts after
  have stepped := stepped_of_taken taken
  have worked := worked_of_taken taken
  have settings := settings_taken kept.ringed taken
  obtain ⟨count, -, size⟩ := ThreadPool.sizes_of_settings settings
  refine ⟨⟨live', kept'⟩, draining.threads_step kept moves taken, draining.requests_step prudent stepped,
    draining.past_step kept moves kept' stepped, total_taken kept.ringed taken draining.total, ?_, ?_,
    resting_step draining.resting worked count, draining.exits_step worked stepped, fun joined => ?_, fun spent => ?_⟩
  · rw [size]
    exact draining.size
  · rw [count]
    exact draining.manned
  · have before : s.joined = true → s'.Over := fun joined =>
      over_after worked count (draining.joins joined)
    cases stepped with
    | submits _ _ | shuts _ => exact before joined
    | joins shut spent => exact spent
    | calls called => cases called <;> exact before joined
    | other woken =>
      rw [woken.joined] at joined
      exact before joined
  · rcases draining.over_before worked count spent with before | ⟨w, cas, c, rfl, last, rfl⟩
    · obtain ⟨pooled, lanes, harmless⟩ := draining.over_taken before taken
      obtain ⟨empty, none, -⟩ := draining.spent before
      rw [pooled, lanes]
      exact ⟨empty, none, harmless⟩
    · obtain ⟨unwrapped, harmless⟩ := prudent last
      obtain ⟨empty, none⟩ := draining.empty last.1 unwrapped harmless
      refine ⟨empty, none, fun d => ?_⟩
      by_cases inside : d < s.clientCount
      · exact harmless d inside
      · show HarmlessCall _ (s.clients d).pc
        rw [kept.ringed.idle d (by omega)]
        trivial

theorem start (config : Config) (processors clients : Nat) :
    Draining (Intake.start config processors clients) where
  kept := ⟨∅, Kept.start config processors clients⟩
  threads := fun _ _ => rfl
  requests := fun _ => rfl
  past := by
    rintro t (accepted | ⟨c, here⟩)
    · cases accepted
    · cases here
  total := by
    have empty : ThreadPool.pooled (poolInit (settings config processors)) = [] := pooled_poolInit _
    have deques := (List.append_eq_nil_iff.mp empty).2
    show (0 : Int) = (ThreadPool.dequeTasks (poolInit (settings config processors))).length
    rw [deques]
    rfl
  size := ringSize_le config processors
  manned := manned_settings config processors
  resting := fun _ _ => rfl
  exits := nofun
  joins := nofun
  spent := fun spent => absurd (spent 0 (manned_settings config processors)) nofun

/-- After the last exit nobody has an accepted task. -/
theorem ended {t : Nat} (draining : Draining s) (spent : s.Over) (accepted : t ∈ s.accepted) :
    Ended (s.pool.facts s.returned t) ∧ s.pool.ended t ≠ some .failed := by
  obtain ⟨live, kept⟩ := draining.kept
  have past := draining.past t (Or.inl accepted)
  obtain ⟨pooled, lanes, -⟩ := draining.spent spent
  have away : (s.custody live).place t = none := by
    cases at_ : (s.custody live).place t with
    | none => rfl
    | some site =>
      have member := kept.good.place_iff.mp at_
      cases site with
      | pooled =>
        change t ∈ s.pool.pooled at member
        rw [pooled] at member
        cases member
      | lane =>
        change t ∈ laneTasks s.pool.lanes at member
        rw [lanes] at member
        cases member
      | running w =>
        change t ∈ (s.workers w).task.toList at member
        rcases draining.idle_of_over spent w with exited | looping
        · rw [exited] at member
          cases member
        · rw [looping] at member
          cases member
      | client c counted =>
        have held : (s.custody live).holds c = some (t, if counted then .counted else .fresh) :=
          mem_handed member
        have stage := past.away held
        cases counted <;> cases stage
  have plain : ((s.custody live).facts t).coro = false := draining.threads t past.known
  have fair := kept.good.fair t past.low past.known
  rw [away] at fair
  exact ⟨fair.told trivial plain, past.taken plain⟩

theorem noneLost (draining : Draining s) : NoneLost s := by
  intro done t accepted
  have spent : s.Over := done.elim draining.joins id
  obtain ⟨pooled, lanes, -⟩ := draining.spent spent
  obtain ⟨ended, taken⟩ := draining.ended spent accepted
  rw [pooled, lanes]
  refine ⟨List.not_mem_nil, List.not_mem_nil, ?_⟩
  cases ended with
  | returned _ dispatched unclaimed _ _ => exact Or.inl ⟨dispatched, of_decide_eq_false unclaimed⟩
  | cancelled _ dispatched claimed _ _ => exact Or.inr ⟨dispatched, of_decide_eq_true claimed⟩
  | refused failed => exact absurd failed taken

end Draining

instance (next : CallPc) : DecidablePred (HarmlessCall next)
  | .idle | .check | .blocked _ | .gaveUp | .lane | .spill _ | .post _ => .isTrue trivial
  | .capacity | .waitSpace => inferInstanceAs (Decidable (next = .lane))
  | .create | .addLen _ | .loadTail _ | .loadSeq .. | .casTail .. | .storeTask .. | .insert .. | .publish ..
  | .addCount _ | .subLen _ => .isFalse id

instance (s : State) : DecidablePred s.Harmless := fun c =>
  inferInstanceAs (Decidable (HarmlessCall (s.route (s.clients c).request) (s.clients c).pc))

instance (s : State) : DecidablePred s.Last := fun w =>
  inferInstanceAs (Decidable (s.drained = true ∧ ∀ v < s.pool.workerCount, v ≠ w → s.workers v = .exited))

instance (s : State) : DecidablePred (Prudent s)
  | .submit _ request => inferInstanceAs (Decidable (request.isCoro = false))
  | .cancelById id _ => inferInstanceAs (Decidable (id ≠ 0))
  | .pass w _ _ =>
    inferInstanceAs (Decidable (s.Last w → s.pool.queueLen < 2 ^ 32 ∧ ∀ c < s.clientCount, s.Harmless c))
  | .call .. | .settle _ | .wake _ | .finish .. | .create .. | .checkReady _ | .bodyEnds .. | .signal ..
  | .timerFire .. | .post | .cancel _ | .cancelAll | .shutdown | .join => .isTrue trivial

/-- No accepted task is lost across loom_pool_shutdown. -/
theorem none_lost_across_shutdown (config : Config) (processors clients : Nat) (labels : List Label)
    (run : Meets step Prudent (start config processors clients) labels) :
    Always step NoneLost (start config processors clients) labels := by
  apply @always_of_meets _ _ step Draining NoneLost Prudent
  · intro s s' label draining prudent after
    exact draining.step prudent after
  · intro s draining
    exact draining.noneLost
  · exact Draining.start config processors clients
  · exact run

/-- Two clients submit to the ring and to a lane, one task is cancelled, and the pool shuts down. -/
theorem none_lost_two_submitters :
    Always step NoneLost (start { workerCount := 1, queueCapacity := 4 } 1 2)
      ([.submit 0 {}, .submit 1 { priority := 0 }] ++ List.replicate 12 (.call 0 true 0) ++
        List.replicate 3 (.call 1 true 1) ++ [.cancelById 2 true, .submit 0 {}, .shutdown, .call 0 true 2,
          .pass 0 true 0, .finish 0 5, .pass 0 true 0, .pass 0 true 0, .join]) := by
  apply none_lost_across_shutdown
  apply meets_of_decide
  decide +kernel

/-- A submitter that has seen shutdown clear puts its task in the ring after the last worker has exited. -/
theorem submit_slips_past_shutdown :
    ∃ labels final, exec step (start { workerCount := 1, queueCapacity := 1 } 1 1) labels = some final ∧
      final.joined = true ∧ final.Over ∧ final.accepted = [2] ∧ final.pool.pooled = [2] ∧
        final.pool.events = [] ∧ ¬NoneLost final := by
  let labels : List Label := [.submit 0 {}, .call 0 true 0, .shutdown, .pass 0 true 0, .join] ++
    List.replicate 11 (.call 0 true 0)
  have run : ((exec step (start { workerCount := 1, queueCapacity := 1 } 1 1) labels).map fun s =>
      (s.joined, decide s.Over, s.accepted, s.pool.pooled, s.pool.events)) = some (true, true, [2], [2], []) := by
    decide +kernel
  obtain ⟨s, reached, shape⟩ := Option.map_eq_some_iff.mp run
  simp only [Prod.mk.injEq, decide_eq_true_eq] at shape
  obtain ⟨joined, spent, accepted, pooled, events⟩ := shape
  refine ⟨labels, s, reached, joined, spent, accepted, pooled, events, fun none => ?_⟩
  have left := (none (Or.inl joined) 2 (by rw [accepted]; exact List.mem_singleton_self 2)).1
  rw [pooled] at left
  exact left (List.mem_singleton_self 2)

end Loomworks.Pool.Intake

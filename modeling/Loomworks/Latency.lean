import Loomworks.Transition

/- loom_metrics_record_latency (src/metrics.c): any number of calls at once, each of
their atomic accesses one step. -/
namespace Loomworks.Latency

open Transition

variable {n : Nat}

/-- Where a call is; comparing carries old_max, which the call's value has beaten. -/
inductive Pc where
  | adding
  | loading
  | comparing (oldMax : UInt64)
  | returned
  deriving DecidableEq, Repr

structure State (n : Nat) where
  latencySumNs : UInt64 := 0
  latencyMaxNs : UInt64 := 0
  pcs : Fin n → Pc := fun _ => .adding

/-- The call that moves; its weak compare-exchange may fail for no reason. -/
structure Label (n : Nat) where
  call : Fin n
  spurious : Bool := false
  deriving DecidableEq, Repr

def State.setPc (s : State n) (i : Fin n) (pc : Pc) : State n :=
  { s with pcs := Function.update s.pcs i pc }

/-- latency_ns > old_max, the head of the loop. -/
def whileBeaten (value oldMax : UInt64) : Pc :=
  if oldMax < value then .comparing oldMax else .returned

def step (values : Fin n → UInt64) (s : State n) (label : Label n) : Option (State n) :=
  let i := label.call
  match s.pcs i with
  | .adding => some { s.setPc i .loading with latencySumNs := s.latencySumNs + values i }
  | .loading => some (s.setPc i (whileBeaten (values i) s.latencyMaxNs))
  | .comparing oldMax =>
    if s.latencyMaxNs = oldMax ∧ label.spurious = false then
      some { s.setPc i .returned with latencyMaxNs := values i }
    -- a failed exchange stores the value it saw in old_max
    else some (s.setPc i (whileBeaten (values i) s.latencyMaxNs))
  | .returned => none

/-- What the calls that have passed their fetch_add have added. -/
def added (values : Fin n → UInt64) (pcs : Fin n → Pc) : Nat :=
  ∑ i, if pcs i = .adding then 0 else (values i).toNat

/-- Once all calls have returned, the maximum and the sum are those of the values. -/
def Aggregated (values : Fin n → UInt64) (s : State n) : Prop :=
  (∀ i, s.pcs i = .returned) →
    IsGreatest (insert 0 (Set.range values)) s.latencyMaxNs ∧
      s.latencySumNs.toNat = (∑ i, (values i).toNat) % 2 ^ 64

def KeepsMax (values : Fin n → UInt64) (s : State n) (label : Label n) : Prop :=
  ∀ next, step values s label = some next → s.latencyMaxNs ≤ next.latencyMaxNs

structure Inv (values : Fin n → UInt64) (s : State n) : Prop where
  sum : s.latencySumNs.toNat = added values s.pcs % 2 ^ 64
  returned : ∀ i, s.pcs i = .returned → values i ≤ s.latencyMaxNs
  beaten : ∀ i oldMax, s.pcs i = .comparing oldMax → oldMax < values i
  source : s.latencyMaxNs ∈ insert 0 (Set.range values)

variable {values : Fin n → UInt64} {s s' : State n} {label : Label n}

/-- A call adds its value, raises the maximum from what it compared with, or looks at the
maximum and returns if that is not below its value. -/
theorem step_cases (stepped : step values s label = some s') :
    (s.pcs label.call = .adding ∧ s' = { s.setPc label.call .loading with
        latencySumNs := s.latencySumNs + values label.call }) ∨
      (s.pcs label.call = .comparing s.latencyMaxNs ∧ s' = { s.setPc label.call .returned with
        latencyMaxNs := values label.call }) ∨
      s.pcs label.call ≠ .adding ∧
        s' = s.setPc label.call (whileBeaten (values label.call) s.latencyMaxNs) := by
  unfold step at stepped
  dsimp only at stepped
  split at stepped
  · rename_i adding
    exact Or.inl ⟨adding, (Option.some.inj stepped).symm⟩
  · rename_i loading
    refine Or.inr (Or.inr ⟨?_, (Option.some.inj stepped).symm⟩)
    rw [loading]
    decide
  · rename_i oldMax comparing
    split at stepped
    · rename_i exchanged
      refine Or.inr (Or.inl ⟨?_, (Option.some.inj stepped).symm⟩)
      rw [comparing, exchanged.1]
    · refine Or.inr (Or.inr ⟨?_, (Option.some.inj stepped).symm⟩)
      rw [comparing]
      simp
  · cases stepped

theorem added_update (values : Fin n → UInt64) (pcs : Fin n → Pc) (i : Fin n) (pc : Pc)
    (moved : pc ≠ .adding) : added values (Function.update pcs i pc) =
      added values pcs + if pcs i = .adding then (values i).toNat else 0 := by
  have own : ∀ pcs : Fin n → Pc, added values pcs =
      (if pcs i = .adding then 0 else (values i).toNat) +
        ∑ j ∈ Finset.univ.erase i, if pcs j = .adding then 0 else (values j).toNat :=
    fun pcs => (Finset.add_sum_erase _ _ (Finset.mem_univ i)).symm
  have others : ∀ j ∈ Finset.univ.erase i,
      (if Function.update pcs i pc j = .adding then 0 else (values j).toNat) =
        if pcs j = .adding then 0 else (values j).toNat := by
    intro j other
    rw [Function.update_of_ne (Finset.ne_of_mem_erase other)]
  rw [own, own pcs, Finset.sum_congr rfl others, Function.update_self, if_neg moved]
  split <;> omega

theorem whileBeaten_returned {value oldMax : UInt64} (out : whileBeaten value oldMax = .returned) :
    value ≤ oldMax := by
  unfold whileBeaten at out
  split at out
  · cases out
  · rename_i unbeaten
    exact UInt64.not_lt.mp unbeaten

theorem whileBeaten_comparing {value oldMax seen : UInt64}
    (on : whileBeaten value oldMax = .comparing seen) : seen < value := by
  unfold whileBeaten at on
  split at on
  · rename_i beaten
    cases on
    exact beaten
  · cases on

theorem whileBeaten_ne_adding (value oldMax : UInt64) : whileBeaten value oldMax ≠ .adding := by
  unfold whileBeaten
  split <;> simp

/-- The clauses about single calls, when one of them moves and the maximum does not fall. -/
theorem Inv.calls (inv : Inv values s) (i : Fin n) (pc : Pc) {latest : UInt64}
    (risen : s.latencyMaxNs ≤ latest) (returned : pc = .returned → values i ≤ latest)
    (beaten : ∀ oldMax, pc = .comparing oldMax → oldMax < values i) :
    (∀ j, Function.update s.pcs i pc j = .returned → values j ≤ latest) ∧
      ∀ j oldMax, Function.update s.pcs i pc j = .comparing oldMax → oldMax < values j := by
  refine ⟨fun j out => ?_, fun j oldMax on => ?_⟩
  · by_cases same : j = i
    · subst same
      rw [Function.update_self] at out
      exact returned out
    · rw [Function.update_of_ne same] at out
      exact UInt64.le_trans (inv.returned j out) risen
  · by_cases same : j = i
    · subst same
      rw [Function.update_self] at on
      exact beaten oldMax on
    · rw [Function.update_of_ne same] at on
      exact inv.beaten j oldMax on

theorem Inv.keepsMax (inv : Inv values s) (stepped : step values s label = some s') :
    s.latencyMaxNs ≤ s'.latencyMaxNs := by
  obtain ⟨-, rfl⟩ | ⟨comparing, rfl⟩ | ⟨-, rfl⟩ := step_cases stepped
  · exact UInt64.le_refl _
  · exact UInt64.le_of_lt (inv.beaten _ _ comparing)
  · exact UInt64.le_refl _

theorem Inv.step (inv : Inv values s) (stepped : step values s label = some s') :
    Inv values s' := by
  have risen := inv.keepsMax stepped
  obtain ⟨adding, rfl⟩ | ⟨comparing, rfl⟩ | ⟨moved, rfl⟩ := step_cases stepped
  · obtain ⟨returned, beaten⟩ := inv.calls label.call .loading risen
      (fun clash => by cases clash) (fun _ clash => by cases clash)
    refine ⟨?_, returned, beaten, inv.source⟩
    show (s.latencySumNs + values label.call).toNat =
      added values (Function.update s.pcs label.call .loading) % 2 ^ 64
    rw [added_update _ _ _ _ (by decide), if_pos adding, UInt64.toNat_add, inv.sum]
    exact Nat.mod_add_mod _ _ _
  · obtain ⟨returned, beaten⟩ := inv.calls label.call .returned risen
      (fun _ => UInt64.le_refl _) (fun _ clash => by cases clash)
    refine ⟨?_, returned, beaten, Set.mem_insert_of_mem _ ⟨label.call, rfl⟩⟩
    show s.latencySumNs.toNat = added values (Function.update s.pcs label.call .returned) % 2 ^ 64
    rw [added_update _ _ _ _ (by decide), comparing]
    exact inv.sum
  · obtain ⟨returned, beaten⟩ := inv.calls label.call (whileBeaten _ _) risen
      whileBeaten_returned (fun _ => whileBeaten_comparing)
    refine ⟨?_, returned, beaten, inv.source⟩
    show s.latencySumNs.toNat = added values (Function.update s.pcs label.call _) % 2 ^ 64
    rw [added_update _ _ _ _ (whileBeaten_ne_adding _ _), if_neg moved]
    exact inv.sum

theorem inv_start (values : Fin n → UInt64) : Inv values {} where
  sum := by simp [added]
  returned := fun _ clash => by cases clash
  beaten := fun _ _ clash => by cases clash
  source := Set.mem_insert _ _

theorem Inv.aggregated (inv : Inv values s) : Aggregated values s := by
  intro all
  refine ⟨⟨inv.source, ?_⟩, ?_⟩
  · rintro value (rfl | ⟨i, rfl⟩)
    · exact UInt64.zero_le
    · exact inv.returned i (all i)
  · rw [inv.sum]
    simp [added, all]

/-- Whatever the calls, their values and the order of their accesses: once all have
returned nothing is lost, and until then the maximum never falls. -/
theorem latency_aggregated (n : Nat) (values : Fin n → UInt64) (labels : List (Label n)) :
    Always (step values) (Aggregated values) {} labels ∧
      Meets (step values) (KeepsMax values) {} labels := by
  refine ⟨always_of_invariant Inv.step Inv.aggregated labels (inv_start values), ?_⟩
  apply @Meets.of_invariant _ _ (step values) (Inv values) (fun _ _ => True) (KeepsMax values)
  · intro s s' label inv _ stepped
    exact inv.step stepped
  · intro s label inv _ next stepped
    exact inv.keepsMax stepped
  · exact inv_start values
  · exact meets_of_forall (fun _ _ _ => trivial) _

end Loomworks.Latency

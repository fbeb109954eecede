import Mathlib

/- Runs of a deterministic labelled transition system. A label carries every
choice the environment makes, so that a schedule is a list of labels; a step
that is not enabled returns none. -/
namespace Transition

variable {σ ℓ : Type}

/-- Execute a schedule; none when one of its steps is not enabled. -/
def exec (step : σ → ℓ → Option σ) : σ → List ℓ → Option σ
  | state, [] => some state
  | state, label :: rest => (step state label).bind fun next => exec step next rest

/-- Each step of the schedule meets the condition in the state it is taken from. -/
def Meets (step : σ → ℓ → Option σ) (condition : σ → ℓ → Prop) : σ → List ℓ → Prop
  | _, [] => True
  | state, label :: rest =>
    condition state label ∧ ∀ next, step state label = some next → Meets step condition next rest

/-- Every state the schedule passes through, its two ends included. -/
def Always (step : σ → ℓ → Option σ) (property : σ → Prop) : σ → List ℓ → Prop
  | state, [] => property state
  | state, label :: rest =>
    property state ∧ ∀ next, step state label = some next → Always step property next rest

def Reachable (step : σ → ℓ → Option σ) (start state : σ) : Prop :=
  ∃ labels, exec step start labels = some state

variable {step : σ → ℓ → Option σ}

@[simp] theorem exec_nil (state : σ) : exec step state [] = some state := rfl

theorem exec_cons {state final : σ} {label : ℓ} {rest : List ℓ} :
    exec step state (label :: rest) = some final ↔
      ∃ next, step state label = some next ∧ exec step next rest = some final := by
  simp only [exec, Option.bind_eq_some_iff]

theorem exec_append {state final : σ} {first second : List ℓ} :
    exec step state (first ++ second) = some final ↔
      ∃ middle, exec step state first = some middle ∧ exec step middle second = some final := by
  induction first generalizing state with
  | nil => simp
  | cons label rest ih =>
    simp only [List.cons_append, exec_cons, ih]
    constructor
    · rintro ⟨next, taken, middle, left, right⟩
      exact ⟨middle, ⟨next, taken, left⟩, right⟩
    · rintro ⟨middle, ⟨next, taken, left⟩, right⟩
      exact ⟨next, taken, middle, left, right⟩

theorem Reachable.refl (state : σ) : Reachable step state state := ⟨[], rfl⟩

/-- What one enabled step preserves, a whole run preserves. -/
theorem exec_invariant {invariant : σ → Prop}
    (keep : ∀ {state next label}, invariant state → step state label = some next → invariant next)
    {start final : σ} {labels : List ℓ} (initial : invariant start)
    (run : exec step start labels = some final) : invariant final := by
  induction labels generalizing start with
  | nil =>
    cases run
    exact initial
  | cons label rest ih =>
    obtain ⟨next, taken, run⟩ := exec_cons.mp run
    exact ih (keep initial taken) run

theorem Reachable.invariant {invariant : σ → Prop}
    (keep : ∀ {state next label}, invariant state → step state label = some next → invariant next)
    {start final : σ} (initial : invariant start) (reached : Reachable step start final) :
    invariant final := by
  obtain ⟨labels, run⟩ := reached
  exact exec_invariant keep initial run

theorem Meets.and {first second : σ → ℓ → Prop} {state : σ} {labels : List ℓ}
    (left : Meets step first state labels) (right : Meets step second state labels) :
    Meets step (fun s l => first s l ∧ second s l) state labels := by
  induction labels generalizing state with
  | nil => trivial
  | cons label rest ih =>
    exact ⟨⟨left.1, right.1⟩, fun next taken => ih (left.2 next taken) (right.2 next taken)⟩

/-- The rule for a property that only holds while every step meets a condition. -/
theorem always_of_meets {invariant property : σ → Prop} {condition : σ → ℓ → Prop}
    (keep : ∀ {state next label}, invariant state → condition state label →
      step state label = some next → invariant next)
    (gives : ∀ {state}, invariant state → property state)
    {start : σ} {labels : List ℓ} (initial : invariant start)
    (meets : Meets step condition start labels) : Always step property start labels := by
  induction labels generalizing start with
  | nil => exact gives initial
  | cons label rest ih =>
    exact ⟨gives initial, fun next taken =>
      ih (keep initial meets.1 taken) (meets.2 next taken)⟩

/-- The rule for a property of every run. -/
theorem always_of_invariant {invariant property : σ → Prop}
    (keep : ∀ {state next label}, invariant state → step state label = some next → invariant next)
    (gives : ∀ {state}, invariant state → property state)
    {start : σ} (labels : List ℓ) (initial : invariant start) :
    Always step property start labels := by
  induction labels generalizing start with
  | nil => exact gives initial
  | cons label rest ih => exact ⟨gives initial, fun next taken => ih (keep initial taken)⟩

/-- The converse rule: while the invariant stands, a step that breaks the
condition leads to a state without the property. -/
theorem meets_of_always {invariant property : σ → Prop} {scope condition : σ → ℓ → Prop}
    (keep : ∀ {state next label}, invariant state → scope state label → condition state label →
      step state label = some next → invariant next)
    (needed : ∀ {state label}, invariant state → scope state label →
      (∀ next, step state label = some next → property next) → condition state label)
    {start : σ} {labels : List ℓ} (initial : invariant start)
    (inScope : Meets step scope start labels) (always : Always step property start labels) :
    Meets step condition start labels := by
  induction labels generalizing start with
  | nil => trivial
  | cons label rest ih =>
    have now : ∀ next, step start label = some next → property next := by
      intro next taken
      have tail := always.2 next taken
      cases rest with
      | nil => exact tail
      | cons => exact tail.1
    have holds := needed initial inScope.1 now
    exact ⟨holds, fun next taken =>
      ih (keep initial inScope.1 holds taken) (inScope.2 next taken) (always.2 next taken)⟩

theorem Always.final {property : σ → Prop} {start final : σ} {labels : List ℓ}
    (always : Always step property start labels) (run : exec step start labels = some final) :
    property final := by
  induction labels generalizing start with
  | nil =>
    cases run
    exact always
  | cons label rest ih =>
    obtain ⟨next, taken, run⟩ := exec_cons.mp run
    exact ih (always.2 next taken) run

/-- A schedule meets a condition step by step: in the state each of its prefixes
leads to, the next step does. -/
theorem meets_iff {condition : σ → ℓ → Prop} {start : σ} {labels : List ℓ} :
    Meets step condition start labels ↔ ∀ first label rest middle,
      labels = first ++ label :: rest → exec step start first = some middle →
      condition middle label := by
  induction labels generalizing start with
  | nil => simp [Meets]
  | cons head tail ih =>
    constructor
    · intro meets first label rest middle split run
      cases first with
      | nil =>
        cases split
        cases run
        exact meets.1
      | cons _ first =>
        cases split
        obtain ⟨next, taken, run⟩ := exec_cons.mp run
        exact ih.mp (meets.2 next taken) first label rest middle rfl run
    · intro each
      refine ⟨each [] head tail start rfl rfl, fun next taken => ih.mpr ?_⟩
      intro first label rest middle split run
      exact each (head :: first) label rest middle (by rw [split]; rfl)
        (exec_cons.mpr ⟨next, taken, run⟩)

/-- Meets for a condition that can be tested, as a test. -/
def checks (step : σ → ℓ → Option σ) (test : σ → ℓ → Bool) : σ → List ℓ → Bool
  | _, [] => true
  | state, label :: rest =>
    test state label &&
      match step state label with
      | some next => checks step test next rest
      | none => true

theorem meets_of_checks {test : σ → ℓ → Bool} {start : σ} {labels : List ℓ}
    (passed : checks step test start labels = true) :
    Meets step (fun s l => test s l = true) start labels := by
  induction labels generalizing start with
  | nil => trivial
  | cons label rest ih =>
    rw [checks, Bool.and_eq_true] at passed
    refine ⟨passed.1, fun next taken => ih ?_⟩
    simpa only [taken] using passed.2

theorem meets_of_decide {condition : σ → ℓ → Prop} [∀ s l, Decidable (condition s l)] {start : σ}
    {labels : List ℓ}
    (passed : checks step (fun s l => decide (condition s l)) start labels = true) :
    Meets step condition start labels := by
  simpa using meets_of_checks passed

theorem meets_of_forall {condition : σ → ℓ → Prop} {labels : List ℓ}
    (each : ∀ label ∈ labels, ∀ state, condition state label) (start : σ) :
    Meets step condition start labels := by
  refine meets_iff.mpr fun first label rest middle split _ => ?_
  exact each label (by simp [split]) middle

theorem Meets.after {condition : σ → ℓ → Prop} {start middle : σ} {first second : List ℓ}
    (meets : Meets step condition start (first ++ second))
    (run : exec step start first = some middle) : Meets step condition middle second := by
  refine meets_iff.mpr fun earlier label rest state split more => ?_
  refine meets_iff.mp meets (first ++ earlier) label rest state ?_ ?_
  · rw [split, List.append_assoc]
  · exact exec_append.mpr ⟨middle, run, more⟩

/-- The rule for what follows from an invariant at each step. -/
theorem Meets.of_invariant {invariant : σ → Prop} {condition allowed : σ → ℓ → Prop}
    (keep : ∀ {state next label}, invariant state → condition state label →
      step state label = some next → invariant next)
    (gives : ∀ {state label}, invariant state → condition state label → allowed state label)
    {start : σ} {labels : List ℓ} (initial : invariant start)
    (meets : Meets step condition start labels) : Meets step allowed start labels := by
  induction labels generalizing start with
  | nil => trivial
  | cons label rest ih =>
    exact ⟨gives initial meets.1, fun next taken =>
      ih (keep initial meets.1 taken) (meets.2 next taken)⟩

/-- From the first state with the trigger on, every state stays as said and only
allowed steps are taken. -/
def StableFrom (step : σ → ℓ → Option σ) (trigger stays : σ → Prop) (allowed : σ → ℓ → Prop)
    (start : σ) (labels : List ℓ) : Prop :=
  ∀ first second middle, labels = first ++ second → exec step start first = some middle →
    trigger middle → Always step stays middle second ∧ Meets step allowed middle second

theorem stableFrom_of_meets (invariant latched : σ → Prop) {trigger stays : σ → Prop}
    {condition allowed : σ → ℓ → Prop}
    (keep : ∀ {state next label}, invariant state → step state label = some next → invariant next)
    (latch : ∀ {state}, invariant state → trigger state → latched state)
    (stay : ∀ {state next label}, latched state → condition state label →
      step state label = some next → latched next)
    (gives : ∀ {state}, latched state → stays state)
    (permits : ∀ {state label}, latched state → condition state label → allowed state label)
    {start : σ} {labels : List ℓ} (initial : invariant start)
    (meets : Meets step condition start labels) :
    StableFrom step trigger stays allowed start labels := by
  intro first second middle split run triggered
  subst split
  have later := meets.after run
  have latched := latch (exec_invariant keep initial run) triggered
  exact ⟨always_of_meets stay gives latched later, Meets.of_invariant stay permits latched later⟩

end Transition

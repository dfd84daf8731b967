/-! Finite runs of a fallible step function.
A run is a list of events that a fault ends. Safety is proved for one step and lifted to every
state a run reaches.
-/

namespace Runs

variable {σ ε φ : Type} {α β : Type} {first : Except φ α} {events : List ε} {fault : φ}
  {condition : σ → ε → Prop} {next : α → Except φ β} {outcome : Except φ α} {change : σ → σ}
  {image : α → β}

/-- A fallible computation that continues into `next` succeeds exactly when both parts do.
Witness: case analysis on the first outcome.
-/
theorem bind_ok {result : β}
    : (first >>= next) = .ok result
      ↔ ∃ middle, first = .ok middle ∧ next middle = .ok result := by
  cases first with
  | error fault => simp [bind, Except.bind]
  | ok value => simp [bind, Except.bind]

theorem bind_error
    : (first >>= next) = .error fault
      ↔ first = .error fault ∨ ∃ middle, first = .ok middle ∧ next middle = .error fault := by
  cases first with
  | error other => simp [bind, Except.bind]
  | ok value => simp [bind, Except.bind]

theorem bind_pure_ok {result : β}
    : (first >>= fun value => pure (image value)) = .ok result
      ↔ ∃ value, first = .ok value ∧ image value = result := by
  cases first with
  | error fault => simp [bind, Except.bind]
  | ok value => simp [bind, Except.bind, pure, Except.pure]

theorem bind_pure_error
    : (first >>= fun value => pure (image value)) = .error fault ↔ first = .error fault := by
  cases first with
  | error other => simp [bind, Except.bind]
  | ok value => simp [bind, Except.bind, pure, Except.pure]

theorem map_ok {result : β}
    : outcome.map image = .ok result ↔ ∃ value, outcome = .ok value ∧ image value = result := by
  cases outcome <;> simp [Except.map]

theorem checked_ok {α : Type} {condition : Prop} [Decidable condition] {checked : Except φ α}
    {result : α}
    : (if condition then checked else .error fault) = .ok result
      ↔ condition ∧ checked = .ok result := by
  by_cases holds : condition <;> simp [holds]

theorem refused_ok {α : Type} {condition : Prop} [Decidable condition] {checked : Except φ α}
    {result : α}
    : (if condition then .error fault else checked) = .ok result
      ↔ ¬ condition ∧ checked = .ok result := by
  by_cases holds : condition <;> simp [holds]

/-- A change of the state that an operation neither sees nor undoes. -/
def Commutes (change : σ → σ) (operation : σ → Except φ σ) : Prop :=
  ∀ state, operation (change state) = (operation state).map change

theorem Commutes.pure {change operation : σ → σ}
    (he : ∀ state, operation (change state) = change (operation state))
    : Commutes change fun state => (.ok (operation state) : Except φ σ) :=
  fun state => congrArg Except.ok (he state)

theorem Commutes.bind {first second : σ → Except φ σ} (commutes : Commutes change first)
    (next : Commutes change second)
    : Commutes change fun state => first state >>= second := by
  intro state
  dsimp only
  rw [commutes state]
  cases first state with
  | error fault => rfl
  | ok middle => exact next middle

/-- A fold of operations that commute with a change does so too, by induction on the list. -/
theorem Commutes.foldlM {α : Type} {operation : σ → α → Except φ σ} {list : List α}
    (commutes : ∀ item ∈ list, Commutes change fun state => operation state item)
    : Commutes change fun state => list.foldlM operation state := by
  induction list with
  | nil => exact .pure fun _ => rfl
  | cons head tail ih =>
      simp only [List.foldlM_cons]
      exact (commutes head (by simp)).bind (ih fun item hm => commutes item (by simp [hm]))

theorem view_of_ok (view : α → β) {final : α} {value : β} (returned : outcome = .ok final)
    (seen : outcome.map view = .ok value)
    : view final = value := by
  rw [returned] at seen
  exact Except.ok.inj seen

/-- Runs the listed events one after another and stops at the first fault. -/
def run (step : σ → ε → Except φ σ) (start : σ) : List ε → Except φ σ
  | [] => .ok start
  | event :: rest => do
      let next ← step start event
      run step next rest

/-- A run of two lists of events goes through a state between them. -/
theorem run_append_ok {step : σ → ε → Except φ σ} {events more : List ε} {start final : σ}
    (ran : run step start (events ++ more) = .ok final)
    : ∃ middle, run step start events = .ok middle ∧ run step middle more = .ok final := by
  induction events generalizing start with
  | nil => exact ⟨start, rfl, ran⟩
  | cons event rest ih =>
      obtain ⟨next, hs, later⟩ := bind_ok.mp ran
      obtain ⟨middle, first, second⟩ := ih later
      exact ⟨middle, bind_ok.mpr ⟨next, hs, first⟩, second⟩

/-- Every event of the run meets a condition on the state it happens in. -/
def Along (step : σ → ε → Except φ σ) (condition : σ → ε → Prop) (state : σ) : List ε → Prop
  | [] => True
  | event :: rest =>
      condition state event
      ∧ ∀ next, step state event = .ok next → Along step condition next rest

theorem Along.cons {step : σ → ε → Except φ σ} {state next : σ} {event : ε} {rest : List ε}
    (met : condition state event) (hs : step state event = .ok next)
    (later : Along step condition next rest)
    : Along step condition state (event :: rest) := by
  refine ⟨met, fun other he => ?_⟩
  rw [hs] at he
  rw [← Except.ok.inj he]
  exact later

/-- A condition that every successful step needs holds along a run that succeeds. Witness:
induction on the events.
-/
theorem along_of_run {step : σ → ε → Except φ σ} {state final : σ}
    (needed
      : ∀ event ∈ events, ∀ state next, step state event = .ok next → condition state event)
    (ran : run step state events = .ok final)
    : Along step condition state events := by
  induction events generalizing state with
  | nil => trivial
  | cons event rest ih =>
      obtain ⟨next, hs, later⟩ := bind_ok.mp ran
      refine .cons (needed event (by simp) _ _ hs) hs (ih ?_ later)
      exact fun event hm => needed event (by simp [hm])

/-- The states that finitely many permitted steps lead to. -/
inductive Reaches (step : σ → ε → Except φ σ) (allowed : σ → ε → Prop) (start : σ)
    : σ → Prop
  | here : Reaches step allowed start start
  | step {before event after} (reached : Reaches step allowed start before)
    (permitted : allowed before event) (ran : step before event = .ok after)
    : Reaches step allowed start after

variable {step : σ → ε → Except φ σ} {ha : σ → ε → Prop} {start : σ} {middle final : σ}

/-- A property of the start that every permitted step preserves holds in every reached
state. Witness: induction on the run.
-/
theorem Reaches.invariant {final : σ} (reached : Reaches step ha start final)
    (holds : σ → Prop) (initial : holds start)
    (preserved
      : ∀ before event after,
          holds before
          → ha before event
          → step before event = .ok after
          → holds after)
    : holds final := by
  induction reached with
  | here => exact initial
  | step _ permitted ran ih => exact preserved _ _ _ ih permitted ran

theorem Reaches.mono {more : σ → ε → Prop} {final : σ} (reached : Reaches step ha start final)
    (weaker : ∀ state event, ha state event → more state event)
    : Reaches step more start final := by
  induction reached with
  | here => exact .here
  | step _ permitted ran ih => exact .step ih (weaker _ _ permitted) ran

/-- A successful run of permitted events extends any run that reached its first state.
Witness: induction on the event list.
-/
theorem Reaches.run (reached : Reaches step ha start middle)
    (permitted : ∀ state, ∀ event ∈ events, ha state event)
    (ran : run step middle events = .ok final)
    : Reaches step ha start final := by
  induction events generalizing middle with
  | nil => cases ran; exact reached
  | cons event rest ih =>
      obtain ⟨next, hs, later⟩ := bind_ok.mp ran
      refine ih (reached.step (permitted _ _ (by simp)) hs) ?_ later
      exact fun state event hm => permitted state event (by simp [hm])

/-- Whether every event of a run is allowed in the state it happens in. -/
def allows (step : σ → ε → Except φ σ) (check : σ → ε → Bool) (state : σ) : List ε → Bool
  | [] => true
  | event :: rest =>
      check state event
        && match step state event with
          | .ok next => allows step check next rest
          | .error _ => true

theorem Reaches.run_allowed (check : σ → ε → Bool)
    (reached : Reaches step (fun state event => check state event = true) start middle)
    (checked : allows step check middle events = true)
    (ran : Runs.run step middle events = .ok final)
    : Reaches step (fun state event => check state event = true) start final := by
  induction events generalizing middle with
  | nil => cases ran; exact reached
  | cons event rest ih =>
      obtain ⟨next, hs, later⟩ := bind_ok.mp ran
      simp only [allows, hs, Bool.and_eq_true] at checked
      exact ih (reached.step checked.1 hs) checked.2 later

end Runs

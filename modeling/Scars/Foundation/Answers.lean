import Scars.Foundation.Runs

/-! Runs of operations that answer.
A fallible component is compared with a total specification by the answers of both over the same
operations.
-/

namespace Answers

variable {σ τ ε α φ : Type} {step : σ → ε → Except φ (α × σ)} {related : σ → τ → Prop}
  {spec : τ → ε → α × τ} {abstract : τ} {later : List ε} {op : ε} {state : σ}

open Runs

/-- The answers of the operations in order, and the last state, up to the first fault. -/
def answers (step : σ → ε → Except φ (α × σ)) (state : σ) : List ε → Except φ (List α × σ)
  | [] => .ok ([], state)
  | op :: later => do
      let (answer, state) ← step state op
      let (rest, state) ← answers step state later
      return (answer :: rest, state)

/-- What a specification answers to the operations in order, and its last state. -/
def specified (spec : τ → ε → α × τ) (state : τ) : List ε → List α × τ
  | [] => ([], state)
  | op :: later =>
      ((spec state op).1 :: (specified spec (spec state op).2 later).1,
        (specified spec (spec state op).2 later).2)

theorem answers_cons {state middle : σ} {answer : α}
    (hs : step state op = .ok (answer, middle)) (later : List ε)
    : answers step state (op :: later)
      = (answers step middle later).map fun result => (answer :: result.1, result.2) := by
  simp only [answers, hs]
  change (answers step middle later >>= _) = _
  cases answers step middle later with
  | error fault => rfl
  | ok result => rfl

theorem answers_cons_ok {state final : σ} {all : List α}
    (ran : answers step state (op :: later) = .ok (all, final))
    : ∃ answer middle rest,
        step state op = .ok (answer, middle) ∧ answers step middle later = .ok (rest, final)
        ∧ all = answer :: rest := by
  obtain ⟨⟨answer, middle⟩, hs, continued⟩ := bind_ok.mp ran
  obtain ⟨⟨rest, last⟩, ranLater, returned⟩ := bind_ok.mp continued
  cases returned
  exact ⟨answer, middle, rest, hs, ranLater, rfl⟩

/-- The component answers every operation as specified, and ends in a state that is related to
the specification's.
-/
def Agrees (step : σ → ε → Except φ (α × σ)) (spec : τ → ε → α × τ) (related : σ → τ → Prop)
    (state : σ) (abstract : τ) (ops : List ε)
    : Prop :=
  ∃ final,
    answers step state ops = .ok ((specified spec abstract ops).1, final)
    ∧ related final (specified spec abstract ops).2

/-- After an operation that was answered as specified, the later ones decide. -/
theorem agrees_cons_iff {state middle : σ} (hs : step state op = .ok ((spec abstract op).1, middle))
    : Agrees step spec related state abstract (op :: later)
      ↔ Agrees step spec related middle (spec abstract op).2 later := by
  simp only [Agrees, answers_cons hs, specified]
  constructor
  · rintro ⟨final, ran, he⟩
    obtain ⟨⟨rest, last⟩, ranLater, returned⟩ := map_ok.mp ran
    cases returned
    exact ⟨last, ranLater, he⟩
  · rintro ⟨final, ran, he⟩
    exact ⟨final, map_ok.mpr ⟨_, ran, rfl⟩, he⟩

theorem not_agrees_of_first (wrong : ∀ middle, step state op ≠ .ok ((spec abstract op).1, middle))
    : ¬ Agrees step spec related state abstract (op :: later) := by
  rintro ⟨final, ran, -⟩
  obtain ⟨answer, middle, rest, hs, -, he⟩ := answers_cons_ok ran
  obtain ⟨rfl, -⟩ := List.cons.inj he
  exact wrong middle hs

/-- A component whose operations answer as specified, from related states to related states, does
so over every sequence. Witness: induction on the operations.
-/
theorem answers_specified
    (refines
      : ∀ state abstract op,
          related state abstract
          → ∃ state',
              step state op = .ok ((spec abstract op).1, state')
              ∧ related state' (spec abstract op).2)
    (start : related state abstract) (ops : List ε)
    : ∃ state',
        answers step state ops = .ok ((specified spec abstract ops).1, state')
        ∧ related state' (specified spec abstract ops).2 := by
  induction ops generalizing state abstract with
  | nil => exact ⟨state, rfl, start⟩
  | cons op later ih =>
      obtain ⟨middle, hs, next⟩ := refines state abstract op start
      obtain ⟨state', ran, final⟩ := ih next
      refine ⟨state', ?_, final⟩
      rw [answers_cons hs, ran]
      rfl

/-- Every operation is permitted in the state in which the specification finds it. -/
def Permitted (spec : τ → ε → α × τ) (permits : τ → ε → Prop) (state : τ) : List ε → Prop
  | [] => True
  | op :: later => permits state op ∧ Permitted spec permits (spec state op).2 later

/-- A component whose permitted operations answer as specified, from related states to related
states, does so over every permitted sequence.
-/
theorem agrees_of_permitted {permits : τ → ε → Prop}
    (refines
      : ∀ state abstract op,
          related state abstract
          → permits abstract op
          → ∃ state',
              step state op = .ok ((spec abstract op).1, state')
              ∧ related state' (spec abstract op).2)
    (start : related state abstract) {ops : List ε}
    (permitted : Permitted spec permits abstract ops)
    : Agrees step spec related state abstract ops := by
  induction ops generalizing state abstract with
  | nil => exact ⟨state, rfl, start⟩
  | cons op later ih =>
      obtain ⟨middle, hs, next⟩ := refines state abstract op start permitted.1
      exact (agrees_cons_iff hs).mpr (ih next permitted.2)

/-- A component that only wraps another one answers like it, by induction on the operations. -/
theorem answers_wrap {outer : τ → ε → Except φ (α × τ)} (wrap : σ → τ)
    (delegates
      : ∀ state op,
          outer (wrap state) op = (step state op).map fun result => (result.1, wrap result.2))
    (state : σ) (ops : List ε)
    : answers outer (wrap state) ops
      = (answers step state ops).map fun result => (result.1, wrap result.2) := by
  induction ops generalizing state with
  | nil => rfl
  | cons op later ih =>
      simp only [answers, delegates]
      cases step state op with
      | error fault => rfl
      | ok result =>
          change (answers outer (wrap result.2) later >>= _) = _
          rw [ih]
          change _ = Except.map _ (answers step result.2 later >>= _)
          cases answers step result.2 later with
          | error fault => rfl
          | ok final => rfl

end Answers

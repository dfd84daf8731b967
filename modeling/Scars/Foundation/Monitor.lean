import Scars.Foundation.Runs

/-! A mutex and the loop that waits on a condition variable under it.
A wait may end at any time: the loop cannot tell a notification from a spurious wake-up, so it
needs no queue of waiters.
-/

namespace Monitor

variable {κ φ : Type}

/-- Takes the mutex if nobody owns it. -/
def acquire (context : κ) (busy : φ) : Option κ → Except φ (Option κ)
  | none => .ok (some context)
  | some _ => .error busy

theorem acquire_ok {context : κ} {busy : φ} {owner owner' : Option κ}
    (acquired : acquire context busy owner = .ok owner')
    : owner = none ∧ owner' = some context := by
  cases owner with
  | none =>
      cases acquired
      exact ⟨rfl, rfl⟩
  | some other => cases acquired

/-- Where a context is in `while blocked { wait }`. -/
inductive WaitLoop where
  /-- The mutex is owned; the condition is tested next. -/
  | testing
  /-- The mutex is owned and released next. -/
  | unlocking
  | waiting
  /-- The wait ended; the mutex is taken again next. -/
  | relocking
  deriving DecidableEq, Repr

namespace WaitLoop

def inside : WaitLoop → Bool
  | testing => true
  | unlocking => true
  | waiting => false
  | relocking => false

/-- The next place in the loop and the owner of the mutex; no place once the test fails. -/
def step (context : κ) (busy : φ) (blocked : Bool) (owner : Option κ)
    : WaitLoop → Except φ (Option WaitLoop × Option κ)
  | testing => .ok (if blocked then some unlocking else none, owner)
  | unlocking => .ok (some waiting, none)
  | waiting => .ok (some relocking, owner)
  | relocking => do
      let owner ← acquire context busy owner
      return (some testing, owner)

/-- What a step of the loop does. -/
inductive Steps (context : κ) (blocked : Bool)
    : WaitLoop → Option κ → Option WaitLoop → Option κ → Prop
  | leaves {owner} (passes : blocked = false) : Steps context blocked testing owner none owner
  | blocks {owner} (blocks : blocked = true)
    : Steps context blocked testing owner (some unlocking) owner
  | unlocks {owner} : Steps context blocked unlocking owner (some waiting) none
  | wakes {owner} : Steps context blocked waiting owner (some relocking) owner
  | relocks : Steps context blocked relocking none (some testing) (some context)

theorem step_ok {context : κ} {busy : φ} {blocked : Bool} {owner owner' : Option κ}
    {loop : WaitLoop} {next : Option WaitLoop}
    (hs : loop.step context busy blocked owner = .ok (next, owner'))
    : Steps context blocked loop owner next owner' := by
  cases loop with
  | testing =>
      cases hs
      cases blocked with
      | false => exact .leaves rfl
      | true => exact .blocks rfl
  | unlocking =>
      cases hs
      exact .unlocks
  | waiting =>
      cases hs
      exact .wakes
  | relocking =>
      obtain ⟨owner, acquired, he⟩ := Runs.bind_ok.mp hs
      obtain ⟨rfl, rfl⟩ := acquire_ok acquired
      cases he
      exact .relocks

theorem Steps.passes {context : κ} {blocked : Bool} {owner owner' : Option κ} {loop : WaitLoop}
    (hs : Steps context blocked loop owner none owner')
    : blocked = false := by
  cases hs with
  | leaves passes => exact passes

end WaitLoop

/-- The contexts inside the critical section are exactly the owner of its mutex. -/
def Owned (inside : κ → Bool) (owner : Option κ) : Prop :=
  ∀ context, inside context = true ↔ owner = some context

theorem Owned.unique {inside : κ → Bool} {owner : Option κ} (owned : Owned inside owner)
    {first second : κ} (one : inside first = true) (other : inside second = true)
    : first = second :=
  Option.some.inj (((owned first).mp one).symm.trans ((owned second).mp other))

/-- One context moves, and takes or gives back the mutex as it comes in or goes out. Witness:
another context is inside as before, and not the owner before or after a change.
-/
theorem Owned.move {inside inside' : κ → Bool} {owner owner' : Option κ}
    (owned : Owned inside owner) (mover : κ)
    (others : ∀ context, context ≠ mover → inside' context = inside context)
    (moved
      : (owner' = owner ∧ inside' mover = inside mover)
        ∨ (owner = none ∧ owner' = some mover ∧ inside' mover = true)
        ∨ (inside mover = true ∧ owner' = none ∧ inside' mover = false))
    : Owned inside' owner' := by
  intro context
  by_cases he : context = mover
  case pos =>
      subst he
      obtain ⟨rfl, kept⟩ | ⟨_, rfl, entered⟩ | ⟨_, rfl, left⟩ := moved
      · rw [kept]
        exact owned context
      · simp [entered]
      · simp [left]
  case neg =>
      rw [others context he, owned context]
      obtain ⟨rfl, _⟩ | ⟨rfl, rfl, _⟩ | ⟨was, rfl, _⟩ := moved
      · exact Iff.rfl
      · simp [Ne.symm he]
      · simp [(owned mover).mp was, Ne.symm he]

/-- A step of the loop takes and gives back the mutex as it comes in and goes out. -/
theorem WaitLoop.Steps.moved {context : κ} {blocked : Bool} {loop : WaitLoop}
    {owner owner' : Option κ} {next : Option WaitLoop}
    (hs : Steps context blocked loop owner next owner')
    : (owner' = owner ∧ (next.elim true inside) = loop.inside)
      ∨ (owner = none ∧ owner' = some context ∧ next.elim true inside = true)
      ∨ (loop.inside = true ∧ owner' = none ∧ next.elim true inside = false) := by
  cases hs <;> simp [inside]

end Monitor

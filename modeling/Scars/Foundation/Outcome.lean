import Scars.Foundation.Runs

/-! What a fallible computation guarantees of the value it returns, or of its fault.
The rules follow the way computations are put together.
-/

namespace Outcome

variable {α β φ : Type}

/-- The outcome is a value with a property or a tolerated fault. -/
def Meets (post : α → Prop) (tolerated : φ → Prop) : Except φ α → Prop
  | .ok value => post value
  | .error fault => tolerated fault

variable {post : α → Prop} {tolerated : φ → Prop} {outcome : Except φ α}

section

variable (meets : Meets post tolerated outcome)
include meets

theorem Meets.of_ok {value : α} (returned : outcome = .ok value)
    : post value := by
  rw [returned] at meets
  exact meets

theorem Meets.of_error {fault : φ} (failed : outcome = .error fault)
    : tolerated fault := by
  rw [failed] at meets
  exact meets

theorem Meets.mono {weaker : α → Prop} (implies : ∀ value, post value → weaker value)
    : Meets weaker tolerated outcome := by
  cases outcome with
  | ok value => exact implies value meets
  | error fault => exact meets

theorem Meets.tolerate {more : φ → Prop} (implies : ∀ fault, tolerated fault → more fault)
    : Meets post more outcome := by
  cases outcome with
  | ok value => exact meets
  | error fault => exact implies fault meets

/-- One computation after the other: the second starts from what the first guarantees. -/
theorem Meets.bind {final : β → Prop} {next : α → Except φ β}
    (later : ∀ value, post value → Meets final tolerated (next value))
    : Meets final tolerated (outcome >>= next) := by
  cases outcome with
  | ok value => exact later value meets
  | error fault => exact meets

end

end Outcome

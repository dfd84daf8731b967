import Scars.Kernel.Invariants

/-! The states that threads only leave.
A thread that has run is never again one that was not started. It gets out of the scheduler's
hands only by being suspended.
-/

namespace Scars

namespace ThreadExecutionState

/-- The thread did not run yet. -/
def Fresh (state : ThreadExecutionState) : Prop :=
  state = .created ∨ state = .started

/-- The thread was not started yet, or is suspended. -/
def Dormant (state : ThreadExecutionState) : Prop :=
  state = .created ∨ state = .started ∨ state = .suspended

/-- The scheduler puts no thread into a state of the kind, unless it suspends it. -/
structure Passing (kind : ThreadExecutionState → Prop) : Prop where
  ready : ¬ kind .ready
  running : ¬ kind .running
  blocked : ¬ kind .blocked
  started : kind .started → kind .created

theorem passing_fresh : Passing Fresh := by
  constructor <;> simp [Fresh]

theorem passing_dormant : Passing Dormant := by
  constructor <;> simp [Dormant]

theorem passing_suspended : Passing (· = .suspended) := by
  constructor <;> simp

end ThreadExecutionState

namespace Kernel

open Runs OrderedInsert Function ThreadExecutionState

/-- No thread comes into a state of the kind. -/
def Leaves (kind : ThreadExecutionState → Prop) (kernel kernel' : Kernel) : Prop :=
  ∀ thread, kind (kernel'.state thread) → kind (kernel.state thread)

variable {kernel kernel' : Kernel} {thread : ThreadId} {kind : ThreadExecutionState → Prop}

theorem Leaves.trans {first second third : Kernel} (left : first.Leaves kind second)
    (right : second.Leaves kind third)
    : first.Leaves kind third :=
  fun thread found => left thread (right thread found)

theorem Leaves.of_eq (he : kernel'.state = kernel.state) : kernel.Leaves kind kernel' := by
  intro thread found
  rwa [he] at found

theorem SameLists.leaves (he : kernel.SameLists kernel') : kernel.Leaves kind kernel' :=
  .of_eq he.state

/-- A state of the kind is stored over another one at most. -/
theorem Leaves.update {state : ThreadExecutionState}
    (stored : kernel'.state = update kernel.state thread state)
    (leaves : kind state → kind (kernel.state thread))
    : kernel.Leaves kind kernel' := by
  intro other found
  rw [stored] at found
  by_cases he : other = thread
  · subst he
    exact leaves (update_self other state kernel.state ▸ found)
  · rwa [update_of_ne he] at found

theorem leaves_insertToSuspendedList (passing : ¬ kind .suspended)
    (hi : kernel.insertToSuspendedList thread = .ok kernel')
    : kernel.Leaves kind kernel' := by
  obtain ⟨-, -, rfl⟩ := insertToSuspendedList_ok hi
  exact .update rfl fun found => absurd found passing

/-- Threads become ready, running or blocked, which is none of the kind. -/
theorem steady_leaves (passing : Passing kind) : Steady (Leaves kind) where
  refl _ := .of_eq rfl
  trans := .trans
  readies _ _ _ hi := by
    rcases insertToReadyQueue_ok hi with ⟨-, rfl⟩ | ⟨-, -, rfl⟩ <;>
      exact .update rfl fun found => absurd found passing.ready
  pops _ := .of_eq rfl
  switches kernel next := by
    have runs : kernel.Leaves kind (kernel.setState next .running) :=
      .update rfl fun found => absurd found passing.running
    exact runs.trans (.update rfl fun found => absurd found passing.ready)
  sleeps _ := .of_eq rfl
  polls pushed := (sameLists_setPendingExecutorPoll pushed).leaves
  notes := .of_eq rfl
  starts created := .update rfl fun found => created ▸ passing.started found
  blocks := .update rfl fun found => absurd found passing.blocked

/-- No thread becomes dormant, unless one is suspended. -/
theorem leaves_perform {fuel : Nat} {op : Op}
    (notSuspending : ∀ maybeThread, op ≠ .suspend maybeThread)
    (hp : kernel.perform fuel op = .ok kernel')
    : kernel.Leaves Dormant kernel' := by
  have steady := steady_leaves passing_dormant
  cases op with
  | suspend maybeThread => exact absurd rfl (notSuspending maybeThread)
  | wait queue ceiling =>
      obtain ⟨-, enqueued, hi, blocks⟩ := waitCurrentThread_ok hp
      exact (steady.handOver.trans (sameLists_enqueued hi).leaves).trans (steady.blockThread blocks)
  | lock _ | unlock _ | enterSection _ | leaveSection =>
      exact (adjusts_perform hp trivial).sameLists.leaves
  | notifyNext queue =>
      obtain ⟨waitQueue, waitOwner, rfl | ⟨waiter, resumed⟩⟩ := notifyNext_ok hp
      · exact .of_eq rfl
      · have leaves := steady.resumeThread (fun _ _ => .of_eq rfl) resumed
        exact leaves
  | _ => exact steady.perform (fun _ _ => .of_eq rfl) hp trivial

end Kernel

end Scars

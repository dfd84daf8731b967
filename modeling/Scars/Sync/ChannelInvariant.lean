import Scars.Sync.Channel
import Scars.Sync.CondvarRuns

/-! Channels lose no notification that is in time.
While a side is blocked, or about to block, the notifications under way to it are at least
as many as what it waits for. Moving an item adds a notification for the other side and uses
up at most one of its own.
-/

namespace Scars

open Runs Function

namespace Monitors

variable {state state' : Monitors} {fuel : Nat} {condvar : Condvar}

/-- The current thread moves to another place and all waiters stay in their queues. -/
structure Moves (place : WaitPlace) (state state' : Monitors) : Prop where
  spares : state.kernel.Spares state'.kernel
  place : state'.place = update state.place state.kernel.currentThread place

theorem step_unlock_ok {lock : LockId} (hs : state.step fuel (.unlock condvar lock) = .ok state')
    : state.Moves (.released condvar lock) state' := by
  simp only [step] at hs
  split at hs
  · obtain ⟨kernel, unlocked, rfl⟩ := bind_pure_ok.mp hs
    exact ⟨(Kernel.adjusts_unlockScoped unlocked).spares, rfl⟩
  · cases hs

theorem step_relock_ok (hs : state.step fuel .relock = .ok state')
    : state.Moves .outside state' := by
  simp only [step] at hs
  split at hs
  · obtain ⟨kernel, locked, rfl⟩ := bind_pure_ok.mp hs
    exact ⟨(Kernel.adjusts_lockScoped locked).spares, rfl⟩
  · cases hs

theorem Orderly.step_other_ok (orderly : state.Orderly) {op : Op}
    (hs : state.step fuel (.other op) = .ok state')
    : state.Moves (state.place state.kernel.currentThread) state' := by
  simp only [Monitors.step] at hs
  split at hs
  next ha =>
    obtain ⟨kernel, hp, rfl⟩ := bind_pure_ok.mp hs
    have apart := (Bool.and_eq_true_iff.mp ha).1
    exact ⟨orderly.consistent.spares_perform apart hp,
      (update_eq_self _ _).symm⟩
  · cases hs

theorem step_wait_ok (hs : state.step fuel .wait = .ok state')
    : ∃ condvar lock,
        state.place state.kernel.currentThread = .released condvar lock
        ∧ state'.place
          = update state.place state.kernel.currentThread (.waiting condvar lock)
        ∧ state.kernel.waitCurrentThread condvar.waiterQueue condvar.ceiling
          = .ok state'.kernel := by
  simp only [step] at hs
  split at hs
  next condvar lock here =>
    obtain ⟨kernel, waited, rfl⟩ := bind_pure_ok.mp hs
    exact ⟨condvar, lock, here, rfl, waited⟩
  · cases hs

theorem step_notifyOne_ok (hs : state.step fuel (.notifyOne condvar) = .ok state')
    : state'.place = state.place
      ∧ state.kernel.notifyNext condvar.waiterQueue = .ok state'.kernel := by
  obtain ⟨kernel, notified, rfl⟩ := bind_pure_ok.mp hs
  exact ⟨rfl, notified⟩

theorem Moves.place_of_ne {place : WaitPlace} (moves : state.Moves place state')
    {thread : ThreadId} (hne : thread ≠ state.kernel.currentThread)
    : state'.place thread = state.place thread := by
  rw [moves.place, update_of_ne hne]

theorem Moves.place_current {place : WaitPlace} (moves : state.Moves place state')
    : state'.place state.kernel.currentThread = place := by
  rw [moves.place, update_self]

end Monitors

namespace Channel

variable {T : Type} {parts : ChannelParts} {state state' : Channel T} {side : ChannelSide}
  {fuel : Nat} {thread : ThreadId}

theorem waiterQueue_injective {left right : ChannelSide}
    (he : (parts.condvar left).waiterQueue = (parts.condvar right).waiterQueue)
    : left = right := by
  cases left <;> cases right
  · rfl
  · exact absurd he parts.distinct
  · exact absurd he.symm parts.distinct
  · rfl

/-- A thread is inside `wait_lock` exactly when its call waits. -/
def Linked (parts : ChannelParts) (state : Channel T) (thread : ThreadId) : Prop :=
  match state.place thread with
  | .waiting call =>
      state.monitors.place thread = .released (parts.condvar call.side) parts.fifoLock
      ∨ state.monitors.place thread = .waiting (parts.condvar call.side) parts.fifoLock
  | _ => state.monitors.place thread = .outside

theorem Linked.of_outside (notWaiting : ∀ call, state.place thread ≠ .waiting call)
    (outside : state.monitors.place thread = .outside)
    : state.Linked parts thread := by
  unfold Linked
  split
  next call waits => exact absurd waits (notWaiting call)
  · exact outside

theorem Linked.of_waiting {call : ChannelCall T} (waits : state.place thread = .waiting call)
    (inside
      : state.monitors.place thread = .released (parts.condvar call.side) parts.fifoLock
        ∨ state.monitors.place thread = .waiting (parts.condvar call.side) parts.fifoLock)
    : state.Linked parts thread := by
  unfold Linked
  rw [waits]
  exact inside

/-- Some thread of the side is blocked in its queue, or released its mutex and will be. -/
def Wanted (parts : ChannelParts) (side : ChannelSide) (state : Channel T) : Prop :=
  state.monitors.kernel.waitQueue (parts.condvar side).waiterQueue ≠ []
  ∨ ∃ thread lock, state.monitors.place thread = .released (parts.condvar side) lock

structure Attended (parts : ChannelParts) (state : Channel T) : Prop where
  orderly : state.monitors.Orderly
  linked : ∀ thread, state.Linked parts thread
  bounded : state.fifo.used ≤ state.fifo.capacity
  covered
    : ∀ side,
        state.Wanted parts side → AtLeast (state.fifo.available side) (state.UnderWay side)

theorem start_attended (program : Program) (capacity : Nat)
    : (start program capacity : Channel T).Attended parts where
  orderly := Monitors.start_orderly program
  linked _ := rfl
  bounded := Nat.zero_le capacity
  covered side wanted := by
    rcases wanted with hq | ⟨thread, lock, released⟩
    · exact absurd rfl hq
    · cases released

theorem UnderWay.congr (underWay : state.UnderWay side thread)
    (place : state'.place thread = state.place thread)
    (inside : state'.monitors.place thread = state.monitors.place thread)
    (free
      : state.monitors.kernel.waitOwner (.thread thread) = none
        → state'.monitors.kernel.waitOwner (.thread thread) = none)
    : state'.UnderWay side thread := by
  cases underWay with
  | sent result isSent => exact .sent result (place.trans isSent)
  | taken call waits mine condvar lock within unlinked =>
      exact .taken call (place.trans waits) mine condvar lock (inside.trans within)
        (free unlinked)
  | woken call tests mine => exact .woken call (place.trans tests) mine

/-- The places between a notification and the next test of a condition. -/
theorem UnderWay.place_cases (underWay : state.UnderWay side thread)
    : (∃ result, state.place thread = .notifying side result)
      ∨ (∃ call, state.place thread = .waiting call ∧ call.side = side)
      ∨ ∃ call, state.place thread = .testing call true ∧ call.side = side := by
  cases underWay with
  | sent result place => exact Or.inl ⟨result, place⟩
  | taken call place mine => exact Or.inr (Or.inl ⟨call, place, mine⟩)
  | woken call place mine => exact Or.inr (Or.inr ⟨call, place, mine⟩)

/-- The channel after such a step: the current thread is at new places. -/
structure Moves (place : ChannelPlace T) (inside : WaitPlace) (state state' : Channel T)
    : Prop where
  monitors : state.monitors.Moves inside state'.monitors
  place : state'.place = update state.place state.current place

variable {place : ChannelPlace T} {inside : WaitPlace}

section

variable (moves : state.Moves place inside state')
include moves

theorem Moves.place_of_ne (hne : thread ≠ state.current)
    : state'.place thread = state.place thread := by
  rw [moves.place, update_of_ne hne]

theorem Moves.place_current
    : state'.place state.current = place := by
  rw [moves.place, update_self]

theorem Moves.underWay_of_ne (underWay : state.UnderWay side thread) (hne : thread ≠ state.current)
    : state'.UnderWay side thread := by
  apply underWay.congr (moves.place_of_ne hne) (moves.monitors.place_of_ne hne)
  intro free
  rw [moves.monitors.spares.waitOwner, free]

end

theorem Moves.of_outside (outside : state.monitors.place state.current = .outside)
    (monitors : state'.monitors = state.monitors)
    (placed : state'.place = update state.place state.current place)
    : state.Moves place .outside state' := by
  refine ⟨⟨?_, ?_⟩, placed⟩
  · rw [monitors]
    exact .of_eq rfl
  · rw [monitors, ← outside]
    exact (update_eq_self _ _).symm

section

variable (moves : state.Moves place inside state')
include moves

/-- A side is wanted after the step if it was before, or the current thread joins it. -/
theorem Moves.wanted (joins : ∀ lock, inside ≠ .released (parts.condvar side) lock)
    (wanted : state'.Wanted parts side)
    : state.Wanted parts side := by
  rcases wanted with hq | ⟨thread, lock, released⟩
  · rw [moves.monitors.spares.waitQueue] at hq
    exact Or.inl hq
  · rcases eq_or_ne thread state.current with rfl | hne
    · rw [moves.monitors.place_current] at released
      exact absurd released (joins lock)
    · rw [moves.monitors.place_of_ne hne] at released
      exact Or.inr ⟨thread, lock, released⟩

theorem Moves.linked (linked : ∀ thread, state.Linked parts thread)
    (here : state'.Linked parts state.current)
    : ∀ thread, state'.Linked parts thread := by
  intro thread
  rcases eq_or_ne thread state.current with rfl | hne
  · exact here
  · have before := linked thread
    unfold Linked at before ⊢
    rw [moves.place_of_ne hne, moves.monitors.place_of_ne hne]
    exact before

/-- The side stays covered when the current thread had no notification to lose. -/
theorem Moves.covered (attended : state.Attended parts) (he : state'.fifo = state.fifo)
    (joins : ∀ lock, inside ≠ .released (parts.condvar side) lock)
    (keeps : state.UnderWay side state.current → state'.UnderWay side state.current)
    (wanted : state'.Wanted parts side)
    : AtLeast (state'.fifo.available side) (state'.UnderWay side) := by
  rw [he]
  apply (attended.covered side (moves.wanted joins wanted)).mono
  intro thread underWay
  rcases eq_or_ne thread state.current with rfl | hne
  · exact keeps underWay
  · exact moves.underWay_of_ne underWay hne

end

end Channel

end Scars

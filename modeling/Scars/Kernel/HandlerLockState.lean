import Scars.Kernel.Moves
import Scars.Kernel.HandlerLocks

/-! The accounts of threads and interrupt handlers.
A lock operation of the current thread changes its own account as it says, and leaves those of
other threads alone.
-/

namespace Scars.Locking

open Runs OrderedInsert Function Kernel

variable {locking locking' : Locking} {fuel : Nat} {handler : HandlerId} {lock : LockId}
  {context : ExecutionContext}

/-- The interrupt level of a stored lock priority, zero for a thread priority or none. -/
def thresholdOf : PriorityStatus → UInt8
  | .interrupt level => level
  | _ => 0

/-- Every account is sound, and a handler lists exactly the locks it links, which no thread
owns.
-/
structure Sound (locking : Locking) : Prop where
  threads : locking.toKernel.LocksSound
  handlers : ∀ handler, (locking.account (.interrupt handler)).Sound locking.ceilingOf
  linked
    : ∀ lock handler, locking.nodeOwner lock = some handler ↔ lock ∈ locking.ownedLocks handler
  apart : ∀ lock, locking.nodeOwner lock ≠ none → (locking.lock lock).owner = none

theorem start_sound (program : Program) : (Locking.start program).Sound where
  threads := start_locksSound program
  handlers _ := ⟨Or.inr rfl, rfl, rfl, List.Pairwise.nil, List.nodup_nil⟩
  linked _ _ := by simp [Locking.start]
  apart _ linked := absurd rfl linked

theorem nested_of_thread {base : Priority} {sections : List CeilingSection}
    {status : PriorityStatus} (nested : Kernel.Nested base sections status)
    : LockAccount.Nested base .invalid sections status := by
  induction sections generalizing status with
  | nil => exact nested
  | cons innermost rest ih => exact ⟨ih nested.1, nested.2⟩

theorem ownedStatus_eq (locks : List LockId)
    : locking.toKernel.ownedStatus locks
      = LockAccount.ownedStatus locking.ceilingOf locks := by
  cases locks <;> rfl

theorem Sound.thread (sound : locking.Sound) (thread : ThreadId)
    : (locking.account (.thread thread)).Sound locking.ceilingOf := by
  have holds := sound.threads thread
  refine ⟨Or.inl rfl, nested_of_thread holds.nested, ?_, holds.descending, holds.unrepeated⟩
  rw [← ownedStatus_eq]
  exact holds.owned

theorem Sound.account (sound : locking.Sound) (context : ExecutionContext)
    : (locking.account context).Sound locking.ceilingOf := by
  cases context with
  | thread thread => exact sound.thread thread
  | interrupt handler => exact sound.handlers handler

theorem Sound.priority_eq (sound : locking.Sound) (context : ExecutionContext)
    : locking.priority context
      = .highest (locking.account context).base
          ((locking.account context).locks.map locking.ceilingOf
            ++ (locking.account context).sections.map CeilingSection.ceiling) := by
  have records : (locking.account context).Records
      ⟨(locking.account context).locks,
        (locking.account context).sections.map CeilingSection.ceiling⟩ := ⟨.rfl, rfl⟩
  rw [priority_account]
  exact (sound.account context).priority_eq records

theorem account_thread_congr {thread : ThreadId}
    (he : locking'.thread thread = locking.thread thread)
    : locking'.account (.thread thread) = locking.account (.thread thread) := by
  simp only [account, he]

theorem account_interrupt_congr (record : locking'.handler handler = locking.handler handler)
    (locks : locking'.ownedLocks handler = locking.ownedLocks handler)
    (sections : locking'.openSections handler = locking.openSections handler)
    : locking'.account (.interrupt handler) = locking.account (.interrupt handler) := by
  simp only [account, record, locks, sections]

/-- An operation leaves the records of the other threads and the ceilings alone, and a lock gets
an owner only by being taken.
-/
theorem accounts_perform {kernel kernel' : Kernel} {op : Op}
    (hp : kernel.perform fuel op = .ok kernel')
    : (∀ thread, thread ≠ kernel.currentThread → kernel'.thread thread = kernel.thread thread)
      ∧ ∀ lock,
          (kernel'.lock lock).ceilingPriority = (kernel.lock lock).ceilingPriority
          ∧ ((kernel.lock lock).owner = none → op ≠ .lock lock
              → (kernel'.lock lock).owner = none) := by
  by_cases changes : Kernel.ChangesLocks op
  · cases op with
    | lock taken =>
        obtain ⟨-, -, -, threads, locks⟩ := lockScoped_ok hp
        rw [threads, locks]
        refine ⟨fun thread other => update_of_ne other _ _,
          fun lock => ⟨ceilingPriority_update _ _ _, fun free other => ?_⟩⟩
        have hne : lock ≠ taken := fun he => other (by rw [he])
        rw [update_of_ne hne, free]
    | unlock given =>
        rcases unlockScoped_ok hp with
          ⟨-, rfl⟩ | ⟨-, released, rfl, -, threads, locks⟩
        · exact ⟨fun _ _ => rfl, fun _ => ⟨rfl, fun free _ => free⟩⟩
        · rw [scheduling_condReschedule.thread, scheduling_condReschedule.lock,
            threads, locks]
          refine ⟨fun thread other => update_of_ne other _ _,
            fun lock => ⟨ceilingPriority_update _ _ _, fun free _ => ?_⟩⟩
          by_cases he : lock = given
          · rw [he, update_self]
          · rw [update_of_ne he, free]
    | enterSection ceiling =>
        cases hp
        rw [enterSection_thread, enterSection_lock]
        exact ⟨fun thread other => update_of_ne other _ _,
          fun _ => ⟨rfl, fun free _ => free⟩⟩
    | leaveSection =>
        obtain ⟨innermost, rest, released, -, rfl, -, threads, locks⟩ :=
          leaveSection_ok hp
        rw [scheduling_condReschedule.thread, scheduling_condReschedule.lock,
          threads, locks]
        exact ⟨fun thread other => update_of_ne other _ _,
          fun _ => ⟨rfl, fun free _ => free⟩⟩
    | _ => exact changes.elim
  · have kept := scheduling_perform changes hp
    rw [kept.thread, kept.lock]
    exact ⟨fun _ _ => rfl, fun _ => ⟨rfl, fun free _ => free⟩⟩

/-- What an event did to the account of a context. -/
def Follows (locking locking' : Locking) (context : ExecutionContext) : Option LockOp → Prop
  | none => locking'.account context = locking.account context
  | some op =>
      (locking.account context).Applies op
      ∧ locking'.account context = (locking.account context).after locking.ceilingOf op

theorem Sound.follows_current (sound : locking.Sound) {kernel : Kernel} {op : Op}
    (hp : locking.toKernel.perform fuel op = .ok kernel)
    : Follows locking { locking with toKernel := kernel } (.thread locking.currentThread)
        (threadLockOp op) := by
  have current := sound.threads locking.currentThread
  by_cases changes : Kernel.ChangesLocks op
  · cases op with
    | lock lock =>
        obtain ⟨-, free, -, threads, -⟩ := lockScoped_ok hp
        constructor
        · change lock ∉ (locking.thread locking.currentThread).scopedLocks
          rw [← current.owner, free]
          simp
        · simp only [Locking.account, threads, update_self, withScopedLocks]
          rw [ownedStatus_eq]
          rfl
    | unlock lock =>
        refine ⟨trivial, ?_⟩
        rcases unlockScoped_ok hp with
          ⟨free, rfl⟩ | ⟨-, released, rfl, -, threads, -⟩
        · refine ((sound.thread _).after_unlock_of_free ?_).symm
          change lock ∉ (locking.thread locking.currentThread).scopedLocks
          rw [← current.owner, free]
          simp
        · simp only [Locking.account, scheduling_condReschedule.thread, threads,
            update_self, withScopedLocks]
          rw [ownedStatus_eq]
          rfl
    | enterSection ceiling =>
        cases hp
        refine ⟨trivial, ?_⟩
        simp only [Locking.account, enterSection_thread, update_self,
          withSection]
        rfl
    | leaveSection =>
        obtain ⟨innermost, rest, released, opened, rfl, -, threads, -⟩ :=
          leaveSection_ok hp
        constructor
        · change (locking.thread locking.currentThread).sections ≠ []
          rw [opened]
          simp
        · simp only [Locking.account, scheduling_condReschedule.thread, threads,
            update_self, withoutSection, LockAccount.after, opened]
    | _ => exact changes.elim
  · have he : threadLockOp op = none := by
      cases op <;> first | rfl | exact absurd trivial changes
    rw [he]
    apply account_thread_congr
    rw [(scheduling_perform changes hp).thread]

end Scars.Locking

import Scars.Kernel.HandlerLockState

/-! A lock operation of a context changes the account of that context and no other.
This holds for threads and handlers alike, and every account stays sound.
-/

namespace Scars.Locking

open Runs OrderedInsert Function

variable {locking locking' : Locking} {fuel : Nat} {handler : HandlerId} {lock : LockId}
  {context : ExecutionContext} {event : Event}

/-- What a lock operation of a handler did: it rewrote the lock priorities of the handler, its
locks and its sections, and programmed the threshold to match.
-/
structure Rewrites (locking locking' : Locking) (handler : HandlerId) (account : LockAccount)
    : Prop where
  thread : locking'.thread = locking.thread
  lock : locking'.lock = locking.lock
  current : locking'.currentThread = locking.currentThread
  others : ∀ other, other ≠ handler → locking'.handler other = locking.handler other
  otherLocks : ∀ other, other ≠ handler → locking'.ownedLocks other = locking.ownedLocks other
  otherSections
    : ∀ other, other ≠ handler → locking'.openSections other = locking.openSections other
  self : locking'.account (.interrupt handler) = account
  threshold : locking'.interruptThreshold = thresholdOf account.lockPriority

theorem setCeilingThreshold_threshold {kernel : Kernel} (ceiling : PriorityStatus)
    : (kernel.setCeilingThreshold ceiling).interruptThreshold = thresholdOf ceiling := by
  cases ceiling <;> rfl

theorem setCeilingThreshold_current {kernel : Kernel} (ceiling : PriorityStatus)
    : (kernel.setCeilingThreshold ceiling).currentThread = kernel.currentThread := by
  cases ceiling <;> rfl

/-- The threshold is that of both stored priorities, though the code skips an invalid one. -/
theorem max_owned (raised owned : PriorityStatus)
    : (if owned.isValid then raised.max owned else raised) = raised.max owned := by
  cases owned <;> cases raised <;> rfl

/-- Other locks of a handler and its second lock priority go together. -/
theorem rewrites_updateOwnedLockPriority (locks : List LockId)
    (nodeOwner : LockId → Option HandlerId)
    : Rewrites locking
        ({ locking with
          ownedLocks := update locking.ownedLocks handler locks
          nodeOwner := nodeOwner }.updateOwnedLockPriority handler) handler
        ((locking.account (.interrupt handler)).withLocks locking.ceilingOf locks) := by
  unfold updateOwnedLockPriority
  simp only [update_self, max_owned]
  constructor
  case thread => simp
  case lock => simp
  case current => exact setCeilingThreshold_current _
  case others => intro other hne; simp [hne]
  case otherLocks => intro other hne; simp [hne]
  case otherSections => intro other hne; rfl
  case self =>
      cases locks <;> simp [account, LockAccount.withLocks, LockAccount.ownedStatus, ceilingOf]
  case threshold =>
    refine (setCeilingThreshold_threshold _).trans ?_
    cases locks <;> rfl

/-- Other sections of a handler and other lock priorities go together. -/
theorem rewrites_setHandlerPriorities (locking : Locking) (handler : HandlerId)
    (priorities : PriorityStatus × PriorityStatus) (sections : List CeilingSection)
    : Rewrites locking
        { locking with
          toKernel := locking.setHandlerPriorities handler priorities
          openSections := update locking.openSections handler sections } handler
        { locking.account (.interrupt handler) with
          lockPriorities := priorities, sections := sections } := by
  unfold Kernel.setHandlerPriorities
  constructor
  case thread => simp
  case lock => simp
  case current => exact setCeilingThreshold_current _
  case others => intro other hne; simp [hne]
  case otherLocks => intro other hne; rfl
  case otherSections => intro other hne; simp [hne]
  case self => simp [account]
  case threshold => exact setCeilingThreshold_threshold _

/-- The handler's list with one more lock, behind those of higher ceilings. -/
def withLock (handler : HandlerId) (lock : LockId) (locking : Locking) : Locking :=
  { locking with
    ownedLocks := update locking.ownedLocks handler
      (insertPast (fun held => decide (locking.ceilingOf lock < locking.ceilingOf held)) lock
        (locking.ownedLocks handler))
    nodeOwner := update locking.nodeOwner lock (some handler)
    }.updateOwnedLockPriority handler

/-- The handler's list without a lock. -/
def withoutLock (handler : HandlerId) (lock : LockId) (locking : Locking) : Locking :=
  { locking with
    ownedLocks :=
      update locking.ownedLocks handler ((locking.ownedLocks handler).erase lock)
    nodeOwner := update locking.nodeOwner lock none
    }.updateOwnedLockPriority handler

theorem acquireScopedLockInInterrupt_ok
    (acquired : locking.acquireScopedLockInInterrupt handler lock = .ok locking')
    : (locking.lock lock).owner = none ∧ locking.nodeOwner lock = none
      ∧ locking' = locking.withLock handler lock := by
  unfold acquireScopedLockInInterrupt acquireLock at acquired
  split at acquired
  · cases acquired
  split at acquired
  · cases acquired
  next free =>
    simp only [ne_eq, not_or, not_not] at free
    exact ⟨free.1, free.2, (Except.ok.inj acquired).symm⟩

theorem releaseLock_ok (released : locking.releaseLock handler lock = .ok locking')
    : locking.nodeOwner lock = some handler ∧ locking' = locking.withoutLock handler lock := by
  unfold releaseLock at released
  split at released
  next mine => exact ⟨mine, (Except.ok.inj released).symm⟩
  · cases released

theorem leaveSectionInInterrupt_ok (left : locking.leaveSectionInInterrupt handler = .ok locking')
    : ∃ innermost rest,
        locking.openSections handler = innermost :: rest
        ∧ locking' = { locking with
            toKernel := locking.setHandlerNesting handler innermost.savedPriority
            openSections := update locking.openSections handler rest } := by
  unfold leaveSectionInInterrupt at left
  split at left
  · cases left
  next innermost rest opened => exact ⟨innermost, rest, opened, (Except.ok.inj left).symm⟩

/-- A lock operation of a handler that returns rewrites its account as its kind says. -/
theorem Sound.performInInterrupt (sound : locking.Sound) {op : LockOp}
    (hp : locking.performInInterrupt handler op = .ok locking')
    : (locking.account (.interrupt handler)).Applies op
      ∧ Rewrites locking locking' handler
          ((locking.account (.interrupt handler)).after locking.ceilingOf op) := by
  cases op with
  | lock lock =>
      obtain ⟨-, unlinked, rfl⟩ := acquireScopedLockInInterrupt_ok hp
      refine ⟨?_, rewrites_updateOwnedLockPriority _ _⟩
      change lock ∉ locking.ownedLocks handler
      rw [← sound.linked, unlinked]
      simp
  | unlock lock =>
      obtain ⟨-, rfl⟩ := releaseLock_ok hp
      exact ⟨trivial, rewrites_updateOwnedLockPriority _ _⟩
  | enter ceiling =>
      cases hp
      exact ⟨trivial, rewrites_setHandlerPriorities _ _ _ _⟩
  | leave =>
      obtain ⟨innermost, rest, opened, rfl⟩ := leaveSectionInInterrupt_ok hp
      constructor
      · change locking.openSections handler ≠ []
        rw [opened]
        simp
      · have rewrites := rewrites_setHandlerPriorities locking handler
          (innermost.savedPriority, (locking.handler handler).lockPriorities.2) rest
        have after : (locking.account (.interrupt handler)).after locking.ceilingOf .leave
            = { locking.account (.interrupt handler) with
                lockPriorities :=
                  (innermost.savedPriority, (locking.handler handler).lockPriorities.2)
                sections := rest } := by
          simp only [LockAccount.after, Locking.account, opened]
        rw [after]
        exact rewrites

/-- A handler lists exactly the locks it links, and no thread owns them, before and after its
operations.
-/
theorem Sound.linked_performInInterrupt (sound : locking.Sound) {op : LockOp}
    (hp : locking.performInInterrupt handler op = .ok locking')
    : (∀ lock other,
        locking'.nodeOwner lock = some other ↔ lock ∈ locking'.ownedLocks other)
      ∧ ∀ lock, locking'.nodeOwner lock ≠ none → (locking.lock lock).owner = none := by
  cases op with
  | lock lock =>
      obtain ⟨free, unlinked, rfl⟩ := acquireScopedLockInInterrupt_ok hp
      refine ⟨fun other owner => ?_, fun other linked => ?_⟩
      · have linked := sound.linked other owner
        change update locking.nodeOwner lock (some handler) other = some owner
          ↔ other ∈ update locking.ownedLocks handler _ owner
        by_cases sameLock : other = lock
        · subst sameLock
          rw [update_self]
          by_cases sameHandler : owner = handler
          · subst sameHandler; simp
          · rw [unlinked] at linked
            simp only [update_of_ne sameHandler, ← linked]
            simpa using Ne.symm sameHandler
        · rw [update_of_ne sameLock, linked]
          by_cases sameHandler : owner = handler
          · subst sameHandler; simp [sameLock]
          · rw [update_of_ne sameHandler]
      · by_cases he : other = lock
        · exact he ▸ free
        · refine sound.apart other fun absent => linked ?_
          exact (update_of_ne he _ _).trans absent
  | unlock lock =>
      obtain ⟨mine, rfl⟩ := releaseLock_ok hp
      refine ⟨fun other owner => ?_, fun other linked => ?_⟩
      · have linked := sound.linked other owner
        have unique : (locking.ownedLocks handler).Nodup := (sound.handlers handler).unrepeated
        change update locking.nodeOwner lock none other = some owner
          ↔ other ∈ update locking.ownedLocks handler _ owner
        by_cases sameHandler : owner = handler
        · subst sameHandler
          rw [update_self, unique.mem_erase_iff]
          by_cases sameLock : other = lock
          · simp [sameLock]
          · rw [update_of_ne sameLock, linked]
            simp [sameLock]
        · rw [update_of_ne sameHandler, ← linked]
          by_cases sameLock : other = lock
          · subst sameLock
            rw [update_self, mine]
            simpa using Ne.symm sameHandler
          · rw [update_of_ne sameLock]
      · by_cases he : other = lock
        · subst he
          exact absurd (update_self _ _ _) linked
        · refine sound.apart other fun absent => linked ?_
          exact (update_of_ne he _ _).trans absent
  | enter ceiling => cases hp; exact ⟨sound.linked, sound.apart⟩
  | leave =>
      obtain ⟨innermost, rest, -, rfl⟩ := leaveSectionInInterrupt_ok hp
      exact ⟨sound.linked, sound.apart⟩

theorem performInKernel_ok {op : Op} (hp : locking.performInKernel fuel op = .ok locking')
    : ∃ kernel, locking.toKernel.perform fuel op = .ok kernel
        ∧ locking.takesLinked op = false
        ∧ locking' = { locking with toKernel := kernel } := by
  obtain ⟨kernel, operated, returned⟩ := bind_ok.mp hp
  refine ⟨kernel, operated, ?_⟩
  split at returned
  · cases returned
  next unlinked => exact ⟨eq_false_of_ne_true unlinked, (Except.ok.inj returned).symm⟩

theorem perform_ceilingOf (sound : locking.Sound) (hp : locking.perform fuel event = .ok locking')
    : locking'.ceilingOf = locking.ceilingOf := by
  cases event with
  | kernel op =>
      obtain ⟨kernel, operated, -, rfl⟩ := performInKernel_ok hp
      funext lock
      exact ((accounts_perform operated).2 lock).1
  | handler handler op =>
      have rewrites := (sound.performInInterrupt hp).2
      unfold ceilingOf
      rw [rewrites.lock]

/-- Every account follows the lock operation that the event is for its context. -/
theorem Sound.follows (sound : locking.Sound)
    (hp : locking.perform fuel event = .ok locking') (context : ExecutionContext)
    : Follows locking locking' context (locking.lockOp event context) := by
  cases event with
  | kernel op =>
      obtain ⟨kernel, operated, -, rfl⟩ := performInKernel_ok hp
      cases context with
      | thread thread =>
          unfold lockOp
          by_cases isCurrent : thread = locking.currentThread
          · subst isCurrent
            simp only [if_true]
            exact sound.follows_current operated
          · simp only [isCurrent, if_false]
            exact account_thread_congr ((accounts_perform operated).1 _ isCurrent)
      | interrupt handler =>
          apply account_interrupt_congr
          · rw [Kernel.perform_handler operated]
          · rfl
          · rfl
  | handler handler op =>
      obtain ⟨applies, rewrites⟩ := sound.performInInterrupt hp
      cases context with
      | thread thread => exact account_thread_congr (by rw [rewrites.thread])
      | interrupt other =>
          unfold lockOp
          by_cases he : other = handler
          · subst he
            simp only [if_true]
            exact ⟨applies, rewrites.self⟩
          · simp only [he, if_false]
            exact account_interrupt_congr (rewrites.others other he)
              (rewrites.otherLocks other he) (rewrites.otherSections other he)

theorem Follows.sound {op : Option LockOp} (follows : Follows locking locking' context op)
    (sound : (locking.account context).Sound locking.ceilingOf)
    : (locking'.account context).Sound locking.ceilingOf := by
  cases op with
  | none => rw [show locking'.account context = locking.account context from follows]; exact sound
  | some op => rw [follows.2]; exact sound.after follows.1

theorem Sound.perform (sound : locking.Sound) (hp : locking.perform fuel event = .ok locking')
    : locking'.Sound := by
  have ceilings := perform_ceilingOf sound hp
  have accounts (handler : HandlerId)
      : (locking'.account (.interrupt handler)).Sound locking'.ceilingOf := by
    rw [ceilings]
    exact (sound.follows hp (.interrupt handler)).sound (sound.handlers handler)
  cases event with
  | kernel op =>
      obtain ⟨kernel, operated, unlinked, rfl⟩ := performInKernel_ok hp
      refine ⟨sound.threads.perform operated, accounts, sound.linked, fun lock linked => ?_⟩
      refine ((accounts_perform operated).2 lock).2 (sound.apart lock linked) ?_
      rintro rfl
      simp only [takesLinked, Option.isSome_eq_false_iff, Option.isNone_iff_eq_none] at unlinked
      exact linked unlinked
  | handler handler op =>
      have rewrites := (sound.performInInterrupt hp).2
      obtain ⟨linked, apart⟩ := sound.linked_performInInterrupt hp
      refine ⟨fun thread => ?_, accounts, linked, by rwa [rewrites.lock]⟩
      exact (sound.threads thread).congr (by rw [rewrites.thread])
        (fun _ => by rw [rewrites.lock]) (fun _ => by rw [rewrites.lock])

end Scars.Locking

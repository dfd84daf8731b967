import Scars.Sync.Guards

/-! What the operations of one context do to the lock lists of all contexts.
A lock is taken only when no list has it, and a release takes it out of the own list at most.
-/

namespace Scars.Locking

open Runs OrderedInsert

variable {locking locking' : Locking} {fuel : Nat} {context : ExecutionContext} {lock : LockId}
  {op : LockOp}

theorem performIn_ok (hp : locking.performIn fuel context op = .ok locking')
    : locking.perform fuel (eventIn context op) = .ok locking'
      ∧ ∀ other, locking.lockOp (eventIn context op) other
          = if other = context then some op else none := by
  obtain ⟨executing, operated⟩ := checked_ok.mp hp
  refine ⟨operated, fun other => ?_⟩
  cases context with
  | thread thread =>
      have current : thread = locking.currentThread := beq_iff_eq.mp executing
      subst current
      cases other with
      | thread other => cases op <;> simp [lockOp, eventIn, threadOp, threadLockOp]
      | interrupt handler => simp [lockOp, eventIn]
  | interrupt handler =>
      cases other with
      | thread other => simp [lockOp, eventIn]
      | interrupt other => simp [lockOp, eventIn]

theorem Sound.performIn (sound : locking.Sound)
    (hp : locking.performIn fuel context op = .ok locking')
    : locking'.Sound
      ∧ locking'.account context = (locking.account context).after locking.ceilingOf op
      ∧ ∀ other, other ≠ context → locking'.account other = locking.account other := by
  obtain ⟨operated, lockOp⟩ := performIn_ok hp
  refine ⟨sound.perform operated, ?_, fun other hne => ?_⟩
  · have follows := sound.follows operated context
    rw [lockOp, if_pos rfl] at follows
    exact follows.2
  · have follows := sound.follows operated other
    rw [lockOp, if_neg hne] at follows
    exact follows

theorem Sound.free_of_lock (sound : locking.Sound)
    (hp : locking.performIn fuel context (.lock lock) = .ok locking') (other : ExecutionContext)
    : lock ∉ (locking.account other).locks := by
  obtain ⟨operated, -⟩ := performIn_ok hp
  have free : (locking.lock lock).owner = none ∧ locking.nodeOwner lock = none := by
    cases context with
    | thread thread =>
        obtain ⟨kernel, locked, unlinked, -⟩ := performInKernel_ok operated
        exact ⟨(Kernel.lockScoped_ok locked).2.1, by simpa [threadOp, takesLinked] using unlinked⟩
    | interrupt handler =>
        obtain ⟨owner, node, -⟩ := acquireScopedLockInInterrupt_ok operated
        exact ⟨owner, node⟩
  intro hm
  cases other with
  | thread thread =>
      have owned := ((sound.threads thread).owner lock).mpr hm
      rw [free.1] at owned
      cases owned
  | interrupt handler =>
      have linked := (sound.linked lock handler).mpr hm
      rw [free.2] at linked
      cases linked

theorem Sound.mem_of_lock (sound : locking.Sound)
    (hp : locking.performIn fuel context (.lock lock) = .ok locking')
    : lock ∈ (locking'.account context).locks
      ∧ ∀ other held,
          held ∈ (locking.account other).locks → held ∈ (locking'.account other).locks := by
  obtain ⟨-, own, others⟩ := sound.performIn hp
  have locks : (locking'.account context).locks
      = insertPast (fun held => decide (locking.ceilingOf lock < locking.ceilingOf held)) lock
          (locking.account context).locks := by
    rw [own]
    rfl
  refine ⟨?_, fun other held hm => ?_⟩
  · rw [locks]
    exact mem_insertPast.mpr (.inl rfl)
  · by_cases he : other = context
    case pos =>
        subst he
        rw [locks]
        exact mem_insertPast.mpr (.inr hm)
    case neg =>
        rw [others other he]
        exact hm

theorem Sound.mem_of_unlock (sound : locking.Sound)
    (hp : locking.performIn fuel context (.unlock lock) = .ok locking')
    {other : ExecutionContext} {held : LockId} (hm : held ∈ (locking.account other).locks)
    (kept : other ≠ context ∨ held ≠ lock)
    : held ∈ (locking'.account other).locks := by
  obtain ⟨-, own, others⟩ := sound.performIn hp
  by_cases he : other = context
  case pos =>
      subst he
      have hne : held ≠ lock := kept.resolve_left fun not => not rfl
      rw [own]
      exact (List.mem_erase_of_ne hne).mpr hm
  case neg =>
      rw [others other he]
      exact hm

theorem after_locks_of_section {account : LockAccount} {ceilingOf : LockId → Priority}
    (noLock : ∀ lock, op ≠ .lock lock ∧ op ≠ .unlock lock)
    : (account.after ceilingOf op).locks = account.locks := by
  cases op with
  | lock lock => exact absurd rfl (noLock lock).1
  | unlock lock => exact absurd rfl (noLock lock).2
  | enter ceiling => rfl
  | leave => unfold LockAccount.after; dsimp only; split <;> rfl

theorem Sound.locks_of_other (sound : locking.Sound) {event : Event}
    (unguarded : isGuarded event = false)
    (hp : locking.perform fuel event = .ok locking') (context : ExecutionContext)
    : (locking'.account context).locks = (locking.account context).locks := by
  have follows := sound.follows hp context
  cases op : locking.lockOp event context with
  | none =>
      rw [op] at follows
      exact congrArg LockAccount.locks follows
  | some lockOp =>
      rw [op] at follows
      rw [follows.2]
      refine after_locks_of_section fun lock => ?_
      cases event with
      | kernel operation =>
          cases context with
          | interrupt handler => simp [Locking.lockOp] at op
          | thread thread =>
              cases operation <;> simp_all [Locking.lockOp, threadLockOp, isGuarded] <;>
                simp [← op.2]
      | handler handler operation =>
          cases context with
          | thread thread => simp [Locking.lockOp] at op
          | interrupt other =>
              cases operation <;> simp_all [Locking.lockOp, isGuarded] <;> simp [← op.2]

theorem Sound.ceiling_le_priority (sound : locking.Sound)
    (held : lock ∈ (locking.account context).locks)
    : locking.ceilingOf lock ≤ locking.priority context := by
  rw [sound.priority_eq, Priority.le_iff]
  refine (Priority.rank_highest_le.mp (Nat.le_refl _)).2 _ ?_
  exact List.mem_append_left _ (List.mem_map_of_mem held)

end Scars.Locking

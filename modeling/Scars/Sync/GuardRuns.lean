import Scars.Sync.ScopedLocks

/-! A guard that was returned holds its lock.
This holds as long as the lock is taken back by the guard itself, and not by a temporary guard
that releases it at once, and an unlocked guard does not release a lock taken by another one.
-/

namespace Scars

open Runs Function

/-- The places at which the holder of the guard relies on the lock. -/
def Guard.holds (guard : Guard) : Bool :=
  match guard.place with
  | .returned => true
  | .testing _ _ => true
  | .entered _ _ => true
  | _ => false

namespace Guarding

variable {state state' : Guarding} {fuel : Nat} {id : GuardId} {context : ExecutionContext}
  {locking : Locking} {guard : Guard} {new : Option Guard}

/-- A guard that is unlocked or dropped holds its lock itself, or the context does not have it. -/
def releasesOwn (state : Guarding) (context : ExecutionContext) (guard : Guard) : Bool :=
  (guard.holds && decide (guard.context = context))
    || !(state.account context).locks.contains guard.lock

/-- Guards release only what they hold; no `CeilingLockGuard` is relocked, and no asynchronous
wait takes its lock back.
-/
def proper (state : Guarding) : GuardEvent → Bool
  | .unlock id context =>
      match state.guard id with
      | some guard => state.releasesOwn context guard
      | none => true
  | .drop id context =>
      match state.guard id with
      | some guard => state.releasesOwn context guard
      | none => true
  | .relock id _ =>
      match state.guard id with
      | some guard => decide (guard.kind ≠ .ceiling)
      | none => true
  | .advance id _ =>
      match state.guard id with
      | some guard =>
          match guard.place with
          | .waiting call _ => !call.isAsync
          | _ => true
      | none => true
  | _ => true

/-- Every such guard's lock is in the list of its context, and no two of them share a lock. -/
structure Guarded (state : Guarding) : Prop where
  sound : state.toLocking.Sound
  held
    : ∀ id guard, state.guard id = some guard → guard.holds = true
        → guard.lock ∈ (state.account guard.context).locks
  single
    : ∀ id guard other guard', state.guard id = some guard → state.guard other = some guard'
        → guard.holds = true → guard'.holds = true → guard.lock = guard'.lock → id = other

theorem guarded_start (program : Program) : Guarded (start program) where
  sound := Locking.start_sound program
  held _ _ live := by simp [start] at live
  single _ _ _ _ live := by simp [start] at live

section

variable (guarded : Guarded state)
include guarded

theorem Guarded.setGuard (sound : locking.Sound)
    (kept
      : ∀ other guard, other ≠ id → state.guard other = some guard → guard.holds = true
          → guard.lock ∈ (locking.account guard.context).locks)
    (own
      : ∀ guard, new = some guard → guard.holds = true
          → guard.lock ∈ (locking.account guard.context).locks
            ∧ ∀ other guard', other ≠ id → state.guard other = some guard' → guard'.holds = true
              → guard'.lock ≠ guard.lock)
    : Guarded (state.setGuard id new locking) where
  sound := sound
  held := by
    intro other guard live holds
    by_cases he : other = id
    case pos =>
        subst he
        exact (own guard (by simpa [Guarding.setGuard] using live) holds).1
    case neg =>
        exact kept other guard he (by simpa [Guarding.setGuard, he] using live) holds
  single := by
    intro one guard two guard' live live' holds holds' equal
    simp only [Guarding.setGuard] at live live'
    by_cases first : one = id
    case pos =>
        by_cases second : two = id
        case pos => rw [first, second]
        case neg =>
            rw [first, update_self] at live
            rw [update_of_ne second] at live'
            exact absurd equal.symm ((own guard live holds).2 two guard' second live' holds')
    case neg =>
        rw [update_of_ne first] at live
        by_cases second : two = id
        case pos =>
            rw [second, update_self] at live'
            exact absurd equal ((own guard' live' holds').2 one guard first live holds)
        case neg =>
            rw [update_of_ne second] at live'
            exact guarded.single one guard two guard' live live' holds holds' equal

theorem Guarded.acquire (hp : state.performIn fuel context (.lock guard.lock) = .ok locking)
    (own : guard.context = context)
    : Guarded (state.setGuard id (some guard) locking) := by
  obtain ⟨sound, -, -⟩ := guarded.sound.performIn hp
  obtain ⟨taken, kept⟩ := guarded.sound.mem_of_lock hp
  refine guarded.setGuard sound (fun other guard' _ live holds => ?_) fun guard' he _ => ?_
  · exact kept _ _ (guarded.held other guard' live holds)
  · cases he
    rw [own]
    refine ⟨taken, fun other guard' _ live holds equal => ?_⟩
    exact guarded.sound.free_of_lock hp guard'.context
      (equal ▸ guarded.held other guard' live holds)

theorem Guarded.release (live : state.guard id = some guard)
    (hp : state.performIn fuel context (.unlock guard.lock) = .ok locking)
    (releases : state.releasesOwn context guard = true)
    (loose : ∀ guard, new = some guard → guard.holds = false)
    : Guarded (state.setGuard id new locking) := by
  obtain ⟨sound, -, -⟩ := guarded.sound.performIn hp
  refine guarded.setGuard sound (fun other guard' hne live' holds => ?_)
    fun guard' he holds => ?_
  · have hm := guarded.held other guard' live' holds
    refine guarded.sound.mem_of_unlock hp hm ?_
    by_cases equal : guard'.lock = guard.lock
    case neg => exact .inr equal
    case pos =>
        refine .inl fun he => ?_
        simp only [releasesOwn, Bool.or_eq_true, Bool.and_eq_true, Bool.not_eq_true',
          List.contains_eq_mem, decide_eq_false_iff_not] at releases
        rcases releases with ⟨itself, -⟩ | absent
        · exact hne (guarded.single _ _ _ _ live' live holds itself equal)
        · rw [he, equal] at hm
          exact absent hm
  · rw [loose guard' he] at holds
    cases holds

theorem Guarded.goOn (live : state.guard id = some guard) (sound : locking.Sound)
    (locks : ∀ context, (locking.account context).locks = (state.account context).locks)
    {place : GuardPlace}
    (holding : ({ guard with place } : Guard).holds = true → guard.holds = true)
    : Guarded (state.setGuard id (some { guard with place }) locking) := by
  refine guarded.setGuard sound (fun other guard' _ live' holds => ?_) fun guard' he holds => ?_
  · rw [locks]
    exact guarded.held other guard' live' holds
  · cases he
    rw [locks]
    refine ⟨guarded.held id guard live (holding holds),
      fun other guard' hne live' holds' => ?_⟩
    exact fun equal => hne
      (guarded.single _ _ _ _ live' live holds' (holding holds) equal)

theorem Guarded.advance {condition : Bool} (well : proper state (.advance id condition) = true)
    (hs : state.step fuel (.advance id condition) = .ok state')
    : Guarded state' := by
  simp only [Guarding.step] at hs
  split at hs
  case h_2 => cases hs
  case h_1 guard live =>
    obtain ⟨⟨place, locking⟩, advanced, he⟩ := bind_ok.mp hs
    cases he
    simp only [proper, live] at well
    unfold Guarding.advance at advanced
    cases here : guard.place with
    | returned | unlocked =>
        rw [here] at advanced
        cases advanced
    | testing call condvar =>
        rw [here] at advanced
        cases advanced
        exact guarded.goOn live guarded.sound (fun _ => rfl) fun _ => by simp [Guard.holds, here]
    | entered call condvar =>
        rw [here] at advanced
        obtain ⟨after, hp, he⟩ := bind_ok.mp advanced
        cases he
        have releases : state.releasesOwn guard.context guard = true := by
          simp [releasesOwn, Guard.holds, here]
        refine guarded.release live hp releases fun guard' he => ?_
        cases he
        rfl
    | released call condvar =>
        rw [here] at advanced
        obtain ⟨after, waited, he⟩ := bind_ok.mp advanced
        cases he
        have loose : ({ guard with place := .waiting call condvar } : Guard).holds = true
            → guard.holds = true := nofun
        simp only [enqueue] at waited
        split at waited
        · cases waited
          exact guarded.goOn live guarded.sound (fun _ => rfl) loose
        · obtain ⟨-, waited⟩ := checked_ok.mp waited
          exact guarded.goOn live (guarded.sound.perform waited)
            (guarded.sound.locks_of_other rfl waited) loose
    | waiting call condvar =>
        rw [here] at advanced well
        obtain ⟨after, taken, he⟩ := bind_ok.mp advanced
        cases he
        have isSync : call.isAsync = false := by simpa using well
        rw [takeBack, isSync] at taken
        exact guarded.acquire taken rfl

/-- A proper step keeps each guard with its lock. -/
theorem Guarded.step {event : GuardEvent} (well : proper state event = true)
    (hs : state.step fuel event = .ok state')
    : Guarded state' := by
  cases event with
  | lock id context lock kind =>
      simp only [Guarding.step] at hs
      split at hs
      · cases hs
      · obtain ⟨locking, hp, he⟩ := bind_ok.mp hs
        cases he
        exact guarded.acquire hp rfl
  | unlock id context =>
      simp only [Guarding.step] at hs
      split at hs
      next guard live =>
        obtain ⟨-, hs⟩ := checked_ok.mp hs
        obtain ⟨locking, hp, he⟩ := bind_ok.mp hs
        cases he
        simp only [proper, live] at well
        refine guarded.release live hp well fun guard' he => ?_
        cases he
        rfl
      · cases hs
  | relock id context =>
      simp only [Guarding.step] at hs
      split at hs
      next guard live =>
        obtain ⟨-, hs⟩ := checked_ok.mp hs
        obtain ⟨locking, hp, he⟩ := bind_ok.mp hs
        cases he
        have raw : guard.kind ≠ .ceiling := by simpa [proper, live] using well
        unfold relockGuard at hp
        split at hp
        next ceiling => exact absurd ceiling raw
        next => exact guarded.acquire hp rfl
      · cases hs
  | drop id context =>
      simp only [Guarding.step] at hs
      split at hs
      next guard live =>
        obtain ⟨-, hs⟩ := checked_ok.mp hs
        obtain ⟨locking, hp, he⟩ := bind_ok.mp hs
        cases he
        simp only [proper, live] at well
        exact guarded.release live hp well nofun
      · cases hs
  | call id context call condvar =>
      simp only [Guarding.step] at hs
      split at hs
      next guard live =>
        obtain ⟨⟨-, returned, -⟩, hs⟩ := checked_ok.mp hs
        obtain ⟨place, -, he⟩ := bind_ok.mp hs
        cases he
        exact guarded.goOn live guarded.sound (fun _ => rfl)
          fun _ => by simp [Guard.holds, returned]
      · cases hs
  | advance id condition => exact guarded.advance well hs
  | other event =>
      obtain ⟨unguarded, hs⟩ := refused_ok.mp hs
      obtain ⟨locking, hp, he⟩ := bind_ok.mp hs
      cases he
      have locks := guarded.sound.locks_of_other (Bool.eq_false_iff.mpr unguarded) hp
      refine ⟨guarded.sound.perform hp, fun id guard live holds => ?_, guarded.single⟩
      change guard.lock ∈ (locking.account guard.context).locks
      rw [locks]
      exact guarded.held id guard live holds

end

/-- In every state of a proper run, and for every guard that a lock, wait or relock returned and
that was not unlocked or dropped since: its lock is in the list of its context, whose active
priority includes the ceiling. Witness: the invariant of the run.
-/
theorem returned_guard_holds_lock (program : Program) (fuel : Nat) (state : Guarding)
    (reached
      : Reaches (step fuel) (fun state event => proper state event = true) (start program) state)
    (id : GuardId) (guard : Guard) (live : state.guard id = some guard)
    (returned : guard.place = .returned)
    : guard.lock ∈ (state.account guard.context).locks
      ∧ state.ceilingOf guard.lock ≤ state.priority guard.context := by
  have guarded : Guarded state :=
    reached.invariant Guarded (guarded_start program) fun _ _ _ guarded well hs =>
      guarded.step well hs
  have held := guarded.held id guard live (by simp [Guard.holds, returned])
  exact ⟨held, guarded.sound.ceiling_le_priority held⟩

/-- Threads have their number as priority and locks the ceiling 9. -/
def ceilingNine : Program :=
  ⟨fun thread => .thread thread.toUInt8, fun _ => .thread 9, fun _ => .interrupt 1⟩

/-- Thread 5 waits on a condition variable and is notified by thread 4. -/
def notifiedWait : List GuardEvent :=
  [.other (.kernel (.start 5)), .other (.kernel (.executePendingReschedule 0)),
    .other (.kernel (.start 4)), .lock 0 (.thread 5) 0 .mutex,
    .call 0 (.thread 5) .wait ⟨1, .thread 9⟩, .advance 0 true, .advance 0 true,
    .other (.kernel (.notifyNext 1)), .other (.kernel (.executePendingReschedule 0)),
    .advance 0 true]

theorem returned_guard_holds_lock_notified
    : ∃ state, run (step 1) (start ceilingNine) notifiedWait = .ok state
        ∧ state.guard 0 = some ⟨.thread 5, 0, .mutex, .returned⟩
        ∧ 0 ∈ (state.account (.thread 5)).locks := by
  obtain ⟨state, ran⟩ : ∃ state, run (step 1) (start ceilingNine) notifiedWait = .ok state :=
    ⟨_, rfl⟩
  have live : state.guard 0 = some ⟨.thread 5, 0, .mutex, .returned⟩ :=
    view_of_ok (fun state : Guarding => state.guard 0) ran rfl
  have reached := Reaches.run_allowed proper .here (by decide) ran
  exact ⟨state, ran, live,
    (returned_guard_holds_lock ceilingNine 1 state reached 0 _ live rfl).1⟩

/-- The guard that `async_wait` returns, and a `CeilingLockGuard` after `relock`, have no lock. -/
theorem returned_guard_without_lock
    : (∃ state, run (step 1) (start ceilingNine)
            [.other (.kernel (.start 5)), .other (.kernel (.executePendingReschedule 0)),
              .lock 0 (.thread 5) 0 .mutex, .call 0 (.thread 5) .asyncWait ⟨1, .thread 9⟩,
              .advance 0 true, .advance 0 true, .advance 0 true] = .ok state
        ∧ state.guard 0 = some ⟨.thread 5, 0, .mutex, .returned⟩
        ∧ (state.account (.thread 5)).locks = [])
      ∧ ∃ state, run (step 1) (start ceilingNine)
            [.other (.kernel (.start 5)), .other (.kernel (.executePendingReschedule 0)),
              .lock 0 (.thread 5) 0 .ceiling, .unlock 0 (.thread 5), .relock 0 (.thread 5)]
            = .ok state
          ∧ state.guard 0 = some ⟨.thread 5, 0, .ceiling, .returned⟩
          ∧ (state.account (.thread 5)).locks = [] :=
  ⟨⟨_, rfl, rfl, rfl⟩, _, rfl, rfl, rfl⟩

end Guarding

end Scars

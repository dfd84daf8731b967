import Scars.Foundation.Runs
import Scars.Kernel.State

/-! The interrupt lock: nested sections and scoped guards over one nesting counter.
The hardware keeps one enable state; `acquire` clears it and `restore` writes it back.
-/

namespace Scars

abbrev InterruptLockId := Nat

/-- The enable state of the interrupt controller, `INTERRUPT_LOCK_NESTING`, and the `owned`
flag of each interrupt lock.
-/
structure InterruptLocks where
  enabled : Bool
  nesting : Nat
  owned : InterruptLockId → Bool

namespace InterruptLocks

/-- `InterruptController::acquire`: disables interrupts and returns the previous state. -/
def acquire (locks : InterruptLocks) : Bool × InterruptLocks :=
  (locks.enabled, { locks with enabled := false })

/-- `InterruptController::restore`. -/
def restore (restoreState : Bool) (locks : InterruptLocks) : InterruptLocks :=
  { locks with enabled := restoreState }

/-- `INTERRUPT_LOCK_NESTING.fetch_sub(1)`, and `restore(true)` by the one that saw 1. -/
def releaseNesting (locks : InterruptLocks) : InterruptLocks :=
  let next := { locks with nesting := locks.nesting - 1 }
  if locks.nesting = 1 then next.restore true else next

def setOwned (lock : InterruptLockId) (owned : Bool) (locks : InterruptLocks) : InterruptLocks :=
  { locks with owned := Function.update locks.owned lock owned }

/-- `InterruptLock::acquire_scoped_lock`. The state that `acquire` returns is discarded. -/
def acquireScopedLock (lock : InterruptLockId) (locks : InterruptLocks)
    : Except Fault InterruptLocks :=
  let (_, locks) := locks.acquire
  let locks := { locks with nesting := locks.nesting + 1 }
  if locks.owned lock then .error .recursiveLock else .ok (locks.setOwned lock true)

/-- `InterruptLock::release_scoped_lock`. -/
def releaseScopedLock (lock : InterruptLockId) (locks : InterruptLocks) : InterruptLocks :=
  if locks.owned lock then (locks.setOwned lock false).releaseNesting
  else locks.setOwned lock false

/-- The part of `InterruptLock::with` before its closure. -/
def beginWith (locks : InterruptLocks) : InterruptLocks :=
  let (_, locks) := locks.acquire
  { locks with nesting := locks.nesting + 1 }

/-- The part of `InterruptLock::with` after its closure. -/
def endWith (locks : InterruptLocks) : InterruptLocks := locks.releaseNesting

@[simp] theorem releaseNesting_nesting (locks : InterruptLocks)
    : locks.releaseNesting.nesting = locks.nesting - 1 := by
  unfold releaseNesting
  split <;> rfl

@[simp] theorem releaseNesting_owned (locks : InterruptLocks)
    : locks.releaseNesting.owned = locks.owned := by
  unfold releaseNesting
  split <;> rfl

theorem releaseNesting_enabled {locks : InterruptLocks} (positive : 0 < locks.nesting)
    (disabled : 0 < locks.nesting → locks.enabled = false)
    : locks.releaseNesting.enabled = decide (locks.releaseNesting.nesting = 0) := by
  by_cases last : locks.nesting = 1
  case pos => simp [releaseNesting, last, restore]
  case neg =>
      have more : locks.nesting - 1 ≠ 0 := by omega
      simp [releaseNesting, last, more, disabled positive]

end InterruptLocks

/-- The lock state together with the sections whose closures are running and the guards
that are alive. Sections are nested, so their number says which one ends next.
-/
structure InterruptSections extends InterruptLocks where
  sections : Nat
  guards : List InterruptLockId

inductive InterruptLockEvent where
  /-- `InterruptLock::with` calls its closure. -/
  | enter
  /-- The closure of the innermost section returns. -/
  | leave
  /-- `InterruptLock::lock`. -/
  | lock (lock : InterruptLockId)
  /-- An `InterruptLockGuard` is dropped. -/
  | drop (lock : InterruptLockId)
  deriving DecidableEq

namespace InterruptSections

/-- No section and no guard yet, with interrupts enabled or not. -/
def start (enabled : Bool) : InterruptSections where
  enabled := enabled
  nesting := 0
  owned := fun _ => false
  sections := 0
  guards := []

/-- A section is running or a guard is alive. -/
def Active (state : InterruptSections) : Prop := 0 < state.sections ∨ state.guards ≠ []

instance (state : InterruptSections) : Decidable state.Active :=
  inferInstanceAs (Decidable (_ ∨ _))

/-- What a section or a guard does to the lock; only a running section ends and only a guard
that is alive is dropped.
-/
def step (state : InterruptSections) : InterruptLockEvent → Except Fault InterruptSections
  | .enter => .ok ⟨state.beginWith, state.sections + 1, state.guards⟩
  | .leave =>
      if 0 < state.sections then .ok ⟨state.endWith, state.sections - 1, state.guards⟩
      else .error .notCallable
  | .lock lock => do
      let locks ← state.acquireScopedLock lock
      .ok ⟨locks, state.sections, lock :: state.guards⟩
  | .drop lock =>
      if lock ∈ state.guards then
        .ok ⟨state.releaseScopedLock lock, state.sections, state.guards.erase lock⟩
      else .error .notCallable

/-- What a step that succeeds does. -/
inductive Steps (state : InterruptSections) : InterruptLockEvent → InterruptSections → Prop
  | enter : Steps state .enter ⟨state.beginWith, state.sections + 1, state.guards⟩
  | leave (running : 0 < state.sections)
    : Steps state .leave ⟨state.releaseNesting, state.sections - 1, state.guards⟩
  | lock {lock} (free : state.owned lock = false)
    : Steps state (.lock lock)
        ⟨state.beginWith.setOwned lock true, state.sections, lock :: state.guards⟩
  | drop {lock} (alive : lock ∈ state.guards)
    : Steps state (.drop lock)
        ⟨state.releaseScopedLock lock, state.sections, state.guards.erase lock⟩

variable {state next : InterruptSections} {event : InterruptLockEvent}

theorem step_ok (hs : state.step event = .ok next)
    : Steps state event next := by
  cases event with
  | enter =>
      cases hs
      exact .enter
  | leave =>
      obtain ⟨running, he⟩ := Runs.checked_ok.mp hs
      cases he
      exact .leave running
  | lock lock =>
      obtain ⟨locks, locked, he⟩ := Runs.bind_ok.mp hs
      obtain ⟨free, acquired⟩ := Runs.refused_ok.mp locked
      cases acquired
      cases he
      exact .lock (by simpa using free)
  | drop lock =>
      obtain ⟨alive, he⟩ := Runs.checked_ok.mp hs
      cases he
      exact .drop alive

/-- What every step keeps: the counter counts sections and guards, and the guards that are
alive are those of the owned locks.
-/
structure Counted (state : InterruptSections) : Prop where
  nesting : state.nesting = state.sections + state.guards.length
  distinct : state.guards.Nodup
  owned : ∀ lock, state.owned lock = true ↔ lock ∈ state.guards

theorem counted_start (enabled : Bool) : Counted (start enabled) where
  nesting := rfl
  distinct := List.nodup_nil
  owned := by simp [start]

theorem Counted.active_iff {state : InterruptSections} (counted : Counted state)
    : state.Active ↔ 0 < state.nesting := by
  have length : 0 < state.guards.length ↔ state.guards ≠ [] := List.length_pos_iff
  rw [counted.nesting, Active, ← length]
  omega

theorem Counted.releaseScopedLock {state : InterruptSections} {lock : InterruptLockId}
    (counted : Counted state) (alive : lock ∈ state.guards)
    : state.releaseScopedLock lock = (state.setOwned lock false).releaseNesting := by
  rw [InterruptLocks.releaseScopedLock, if_pos ((counted.owned lock).mpr alive)]

/-- Every step keeps the count. Witness: one case for each event; a dropped guard is that of
an owned lock, and it was alive only once.
-/
theorem Counted.step (counted : Counted state) (hs : Steps state event next)
    : Counted next := by
  have nesting := counted.nesting
  cases hs with
  | enter =>
      refine ⟨?_, counted.distinct, counted.owned⟩
      change state.nesting + 1 = state.sections + 1 + state.guards.length
      omega
  | leave running =>
      refine ⟨?_, counted.distinct, by simpa using counted.owned⟩
      simp only [InterruptLocks.releaseNesting_nesting]
      omega
  | @lock lock free =>
      have absent : lock ∉ state.guards := by simp [← counted.owned, free]
      refine ⟨?_, List.nodup_cons.mpr ⟨absent, counted.distinct⟩, fun other => ?_⟩
      · change state.nesting + 1 = state.sections + (state.guards.length + 1)
        omega
      · change Function.update state.owned lock true other = true ↔ other ∈ lock :: state.guards
        by_cases he : other = lock <;> simp [he, counted.owned]
  | @drop lock alive =>
      have length := List.length_erase_of_mem alive
      have positive := List.length_pos_of_mem alive
      rw [counted.releaseScopedLock alive]
      refine ⟨?_, counted.distinct.erase lock, fun other => ?_⟩
      · simp only [InterruptLocks.releaseNesting_nesting, InterruptLocks.setOwned]
        omega
      · rw [counted.distinct.mem_erase_iff, ← counted.owned other]
        by_cases he : other = lock <;> simp [InterruptLocks.setOwned, he]

/-- After a section or guard has begun or ended, interrupts are enabled exactly when the
counter is zero. Witness: a begin disables them; an end enables them if it took the counter
to zero, and otherwise they were disabled before.
-/
theorem Counted.enabled_step (counted : Counted state)
    (disabled : 0 < state.nesting → state.enabled = false) (hs : Steps state event next)
    : next.enabled = decide (next.nesting = 0) := by
  have nesting := counted.nesting
  cases hs with
  | enter => rfl
  | lock free => rfl
  | leave running =>
      exact InterruptLocks.releaseNesting_enabled (by omega) disabled
  | @drop lock alive =>
      have positive := List.length_pos_of_mem alive
      rw [counted.releaseScopedLock alive]
      refine InterruptLocks.releaseNesting_enabled ?_ disabled
      change 0 < state.nesting
      omega

/-- A whole run keeps the count, and from its first event on the enable state follows the
counter. Witness: induction on the events.
-/
theorem Counted.run {state final : InterruptSections} {events : List InterruptLockEvent}
    (counted : Counted state) (disabled : 0 < state.nesting → state.enabled = false)
    (ran : Runs.run InterruptSections.step state events = .ok final)
    : Counted final
      ∧ (events ≠ [] → final.enabled = decide (final.nesting = 0))
      ∧ (0 < final.nesting → final.enabled = false) := by
  induction events generalizing state with
  | nil =>
      cases ran
      exact ⟨counted, fun nonempty => absurd rfl nonempty, disabled⟩
  | cons event rest ih =>
      obtain ⟨next, hs, later⟩ := Runs.bind_ok.mp ran
      have follows := counted.enabled_step disabled (step_ok hs)
      have disabledNext (positive : 0 < next.nesting) : next.enabled = false := by
        rw [follows]
        exact decide_eq_false (by omega)
      obtain ⟨countedFinal, followsFinal, disabledFinal⟩ :=
        ih (counted.step (step_ok hs)) disabledNext later
      refine ⟨countedFinal, fun _ => ?_, disabledFinal⟩
      cases rest with
      | nil =>
          cases later
          exact follows
      | cons => exact followsFinal (List.cons_ne_nil _ _)

/-- Interrupts are disabled while a section or guard is active. After the last one has ended
the state found by the first one is restored exactly when that state was enabled, or there
was none at all. Witness: the counter is then zero, and zero means enabled.
-/
theorem interrupts_restored_iff (enabled : Bool) (events : List InterruptLockEvent)
    (final : InterruptSections) (ran : Runs.run step (start enabled) events = .ok final)
    : (final.Active → final.enabled = false)
      ∧ (¬ final.Active → (final.enabled = enabled ↔ enabled = true ∨ events = [])) := by
  have idle : 0 < (start enabled).nesting → (start enabled).enabled = false := nofun
  obtain ⟨counted, follows, disabled⟩ := (counted_start enabled).run idle ran
  refine ⟨fun active => disabled (counted.active_iff.mp active), fun inactive => ?_⟩
  rw [counted.active_iff] at inactive
  cases events with
  | nil =>
      cases ran
      simp [start]
  | cons event rest =>
      have ended : final.enabled = true := by
        rw [follows (List.cons_ne_nil _ _)]
        exact decide_eq_true (by omega)
      simp [ended, eq_comm]

/-- A guard taken inside a section and dropped after it, with interrupts enabled before. -/
theorem interrupts_restored_overlapping
    : ∃ final, Runs.run step (start true) [.enter, .lock 1, .leave, .drop 1] = .ok final
        ∧ ¬ final.Active ∧ final.enabled = true := by
  obtain ⟨final, ran⟩
    : ∃ final, Runs.run step (start true) [.enter, .lock 1, .leave, .drop 1] = .ok final :=
    ⟨_, rfl⟩
  have ended : ¬ final.Active :=
    of_decide_eq_false
      (Runs.view_of_ok (fun state : InterruptSections => decide state.Active) ran rfl)
  exact ⟨final, ran, ended, ((interrupts_restored_iff true _ _ ran).2 ended).mpr (.inl rfl)⟩

/-- A section in a trap handler, which runs with interrupts disabled, leaves them enabled. -/
theorem disabled_interrupts_enabled
    : ∃ final, Runs.run step (start false) [.enter, .leave] = .ok final
        ∧ ¬ final.Active ∧ final.enabled = true :=
  ⟨_, rfl, by decide, rfl⟩

end InterruptSections

end Scars

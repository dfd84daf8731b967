import Scars.Kernel.HandlerLockSteps

/-! The active priority of a context is exactly what it holds.
A run records which locks and sections each context acquired and did not release; the stored lock
priorities and the interrupt threshold agree with that record.
-/

namespace Scars

open Runs OrderedInsert Locking

namespace Kernel

variable {kernel kernel' : Kernel} {thread : ThreadId}

/-- The threshold is the level of the thread's stored lock priority. -/
def ThresholdMatches (kernel : Kernel) (thread : ThreadId) : Prop :=
  kernel.interruptThreshold = thresholdOf (kernel.lockPriority thread)

theorem thresholdMatches_setLockPriorities (priorities : PriorityStatus × PriorityStatus)
    : (kernel.setLockPriorities thread priorities).ThresholdMatches thread := by
  unfold ThresholdMatches lockPriority
  rw [setLockPriorities_thread, Function.update_self]
  exact setCeilingThreshold_threshold _

theorem ThresholdMatches.condReschedule (he : kernel.ThresholdMatches thread)
    : kernel.condReschedule.ThresholdMatches thread := by
  unfold Kernel.condReschedule
  split
  · exact he
  · split <;> exact he

/-- A lock operation of the current thread stores priorities and programs the threshold to
match, unless it releases a lock that is free.
-/
theorem perform_thresholdMatches {fuel : Nat} {op : Op} {lockOp : LockOp}
    (isLockOp : threadLockOp op = some lockOp) (hp : kernel.perform fuel op = .ok kernel')
    : kernel' = kernel ∨ kernel'.ThresholdMatches kernel.currentThread := by
  cases op with
  | lock lock =>
      right
      unfold perform lockScoped acquireScopedLock at hp
      dsimp only at hp
      split at hp
      · cases hp
      split at hp
      · cases hp
      split at hp
      · cases hp
      split at hp
      · split at hp
        · cases hp
        · cases hp
          exact thresholdMatches_setLockPriorities _
      · cases hp
  | unlock lock =>
      unfold perform unlockScoped at hp
      dsimp only at hp
      split at hp
      · cases hp; exact Or.inl rfl
      split at hp
      · cases hp
      next mine =>
        right
        rw [not_ne_iff] at mine
        subst mine
        unfold releaseScopedLock at hp
        split at hp
        · cases hp
          exact (thresholdMatches_setLockPriorities _).condReschedule
        · cases hp
  | enterSection ceiling =>
      cases hp
      exact Or.inr (thresholdMatches_setLockPriorities _)
  | leaveSection =>
      right
      unfold perform leaveSection at hp
      dsimp only at hp
      split at hp
      · cases hp
      · cases hp
        exact (thresholdMatches_setLockPriorities _).condReschedule
  | _ => cases isLockOp

end Kernel

namespace Locking

variable {locking locking' : Locking} {fuel : Nat} {context : ExecutionContext}

/-- A lock operation of a context leaves the threshold at the level of its stored lock
priority, or did nothing at all.
-/
theorem Sound.threshold (sound : locking.Sound) {event : Event} {op : LockOp}
    (own : locking.lockOp event context = some op) (hp : locking.perform fuel event = .ok locking')
    : locking' = locking
      ∨ locking'.interruptThreshold = thresholdOf (locking'.account context).lockPriority := by
  cases event with
  | kernel operation =>
      cases context with
      | interrupt handler => simp [lockOp] at own
      | thread thread =>
          unfold lockOp at own
          dsimp only at own
          split at own
          next isCurrent =>
            subst isCurrent
            obtain ⟨kernel, operated, -, rfl⟩ := performInKernel_ok hp
            rcases Kernel.perform_thresholdMatches own operated with rfl | matching
            · exact Or.inl rfl
            · exact Or.inr matching
          · cases own
  | handler handler operation =>
      cases context with
      | thread thread => simp [lockOp] at own
      | interrupt other =>
          unfold lockOp at own
          dsimp only at own
          split at own
          next he =>
            subst he
            have rewrites := (sound.performInInterrupt hp).2
            right
            rw [rewrites.self]
            exact rewrites.threshold
          · cases own

/-- An event, with the record of what each context holds. -/
def performRecorded (fuel : Nat) (state : Locking × (ExecutionContext → Held)) (event : Event)
    : Except Fault (Locking × (ExecutionContext → Held)) := do
  let locking ← state.1.perform fuel event
  let record := fun context => match state.1.lockOp event context with
    | none => state.2 context
    | some op => (state.2 context).after op
  return (locking, record)

/-- The accounts are sound, agree with the record and keep their base priorities. -/
structure Exact (program : Program) (state : Locking × (ExecutionContext → Held)) : Prop where
  sound : state.1.Sound
  records : ∀ context, (state.1.account context).Records (state.2 context)
  base
    : ∀ context,
        (state.1.account context).base = ((start program).account context).base
        ∧ (state.1.account context).initial
          = ((start program).account context).initial

theorem start_exact (program : Program) : Exact program (start program, fun _ => {}) where
  sound := start_sound program
  records context := by
    cases context with
    | thread thread => exact ⟨.rfl, rfl⟩
    | interrupt handler => exact ⟨.rfl, rfl⟩
  base _ := ⟨rfl, rfl⟩

theorem Exact.performRecorded {program : Program}
    {state state' : Locking × (ExecutionContext → Held)} (holds : Exact program state)
    {event : Event} (hp : performRecorded fuel state event = .ok state')
    : Exact program state' := by
  obtain ⟨locking, operated, rfl⟩ := bind_pure_ok.mp hp
  refine ⟨holds.sound.perform operated, fun context => ?_, fun context => ?_⟩
  · have follows := holds.sound.follows operated context
    dsimp only
    split
    next none =>
      rw [none] at follows
      rw [show locking.account context = state.1.account context from follows]
      exact holds.records context
    next op some =>
      rw [some] at follows
      rw [follows.2]
      exact (holds.records context).after op
  · have follows := holds.sound.follows operated context
    cases own : state.1.lockOp event context with
    | none =>
        rw [own] at follows
        rw [show locking.account context = state.1.account context from follows]
        exact holds.base context
    | some op =>
        rw [own] at follows
        rw [follows.2, LockAccount.after_base, LockAccount.after_initial]
        exact holds.base context

/-- In every run of threads and interrupt handlers, for every context: its active priority is the
maximum of its base priority and all ceilings it holds, its stored priorities are the initial ones
when it holds nothing, the word that stores them reads back, and after each lock operation that did
anything the interrupt threshold is the level of its lock priority.
-/
theorem activePriority_exact {program : Program} {record : ExecutionContext → Held}
    (reached
      : Reaches (performRecorded fuel) (fun _ _ => True) (start program, fun _ => {})
          (locking, record))
    (context : ExecutionContext)
    : locking.priority context
        = .highest ((start program).account context).base
            ((record context).ceilings locking.ceilingOf)
      ∧ (record context = {}
        → (locking.account context).lockPriorities
          = ((start program).account context).lockPriorities)
      ∧ toStatusPair (fromStatusPair (locking.account context).lockPriorities)
        = (locking.account context).lockPriorities
      ∧ ∀ event op locking',
          locking.lockOp event context = some op
          → locking.perform fuel event = .ok locking'
          → locking' = locking
            ∨ locking'.interruptThreshold
              = thresholdOf (locking'.account context).lockPriority := by
  have holds : Exact program (locking, record) :=
    reached.invariant (Exact program) (start_exact program)
      fun _ _ _ holds _ hp => holds.performRecorded hp
  have sound := holds.sound.account context
  refine ⟨?_, fun released => ?_, toStatusPair_fromStatusPair _, fun event op locking' => ?_⟩
  · rw [priority_account, sound.priority_eq (holds.records context), (holds.base context).1]
  · have records := holds.records context
    dsimp only at records
    rw [released] at records
    rw [sound.released records, (holds.base context).2]
    cases context <;> rfl
  · exact holds.sound.threshold

/-- Thread 5 holds a lock and is inside a section, and handler 3 holds another lock. -/
theorem activePriority_exact_both
    : let program : Program :=
        ⟨fun thread => .thread thread.toUInt8, fun _ => .interrupt 4, fun _ => .interrupt 1⟩
      let ran := run (performRecorded 1) (start program, fun _ => {})
        [.kernel (.start 5), .kernel (.executePendingReschedule 0), .kernel (.lock 0),
          .kernel (.enterSection (.interrupt 2)), .handler 3 (.lock 1)]
      ∃ state,
        ran = .ok state
        ∧ state.2 (.thread 5) = ⟨[0], [.interrupt 2]⟩ ∧ state.2 (.interrupt 3) = ⟨[1], []⟩
        ∧ ∀ context,
            state.1.priority context
            = .highest ((start program).account context).base
                ((state.2 context).ceilings state.1.ceilingOf) := by
  intro program ran
  have records
      : ran.map (fun state => (state.2 (.thread 5), state.2 (.interrupt 3)))
        = .ok (⟨[0], [.interrupt 2]⟩, ⟨[1], []⟩) := by
    unfold ran program
    rfl
  obtain ⟨state, ended⟩ : ∃ state, ran = .ok state := by
    unfold ran program
    exact ⟨_, rfl⟩
  rw [ended] at records
  have both := Prod.mk.inj (Except.ok.inj records)
  refine ⟨state, ended, both.1, both.2, fun context => ?_⟩
  exact (activePriority_exact (Reaches.here.run (fun _ _ _ => trivial) ended) context).1

end Locking

end Scars

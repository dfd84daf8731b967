import Scars.Preemption.InnerSteps

/-! What instructions outside of the scheduler's methods can change of its lists.
They set the deadline of a handler or mark a thread as started; everything else leaves states,
lists, deadlines and the alarm alone.
-/

namespace Scars

open Memory

namespace Kernel

variable {kernel kernel' : Kernel} {thread : ThreadId}

theorem SameLists.refl (kernel : Kernel) : kernel.SameLists kernel := by constructor <;> rfl

theorem sameLists_popWaiter (queue : WaitQueueId) (kernel : Kernel)
    : kernel.SameLists (kernel.popWaiter queue).2 := by
  unfold popWaiter
  split
  · exact .refl kernel
  · constructor <;> rfl

theorem popWaiter_alarm (queue : WaitQueueId) (kernel : Kernel)
    : (kernel.popWaiter queue).2.alarm = kernel.alarm := by
  unfold popWaiter
  split <;> rfl

/-- The effect of an instruction on the lists of the scheduler. -/
inductive OuterEffect (kernel : Kernel) : Instr → Kernel → Prop
  | same {instr : Instr} {kernel' : Kernel} (lists : kernel.SameLists kernel')
    (alarm : kernel'.alarm = kernel.alarm)
    : OuterEffect kernel instr kernel'
  | deadline {handler : HandlerId} {wakeupTime : Instant}
    : OuterEffect kernel (.access (.setDeadline handler wakeupTime))
        (kernel.setDeadline (.interrupt handler) (some wakeupTime))
  | started {thread : ThreadId} (created : kernel.state thread = .created)
    : OuterEffect kernel (.access (.markStarted thread)) (kernel.setState thread .started)

end Kernel

variable {memory memory' : Memory} {fuel : Nat} {now : Instant} {more rest : List Instr}
  {context : ExecutionContext} {instr : Instr}

theorem Access.perform_outer {access : Access}
    (hp : access.perform fuel memory = .ok (memory', more))
    : memory.raw.OuterEffect (.access access) memory'.raw := by
  cases access.perform_step hp with
  | sends => exact .same (Kernel.sameLists_setEvents _ _) rfl
  | pops => exact .same (Kernel.sameLists_popWaiter _ _) (Kernel.popWaiter_alarm _ _)
  | dates => exact .deadline
  | requests => exact .same (by constructor <;> rfl) rfl
  | polls => exact .same (by constructor <;> rfl) rfl
  | adjusts adjusts alarm _ => exact .same adjusts.sameLists alarm
  | starts created => exact .started created
  | clears => exact .same (Kernel.sameLists_setEvents _ _) rfl
  | collects => exact .same (Kernel.sameLists_setEvents _ _) rfl
  | _ => exact .same (.refl _) rfl

/-- Every instruction that is no step inside a section is one of these. -/
theorem Instr.perform_outerEffect (hp : instr.perform fuel now context memory = .ok (memory', more))
    (outer : ∀ op, instr ≠ .locked op)
    : memory.raw.OuterEffect instr memory'.raw := by
  cases instr with
  | user => cases hp
  | access access => exact access.perform_outer hp
  | tryWith body =>
      rcases Section.perform_ok hp with ⟨previous, -, rfl, -⟩ | ⟨-, refused, -⟩
      · exact .same (.refl _) rfl
      · rcases Section.refuse_cases refused with ⟨_, _, _, -, -, rfl⟩ | ⟨_, -, rfl⟩ | rfl
        · exact .same (.refl _) rfl
        · exact .same (by constructor <;> rfl) rfl
        · exact .same (.refl _) rfl
  | borrowMut => obtain ⟨rfl, -⟩ := borrowMut_ok hp; exact .same (.refl _) rfl
  | locked op => exact absurd rfl (outer op)
  | drain queue =>
      obtain ⟨popped, pending, -, rfl, -⟩ := Memory.drain_ok hp
      exact .same (.refl _) rfl
  | pollExecutor handler =>
      obtain ⟨rfl, -⟩ := setRaw_ok hp
      exact .same (Kernel.adjusts_setHandlerPriorities handler _).sameLists
        (Kernel.setCeilingThreshold_alarm _)
  | pollPending =>
      obtain ⟨polls, rfl, -⟩ := Memory.pollPending_ok hp
      exact .same (by constructor <;> rfl) rfl
  | swapPending => cases hp; exact .same (by constructor <;> rfl) rfl
  | checkPolls => cases hp; exact .same (by constructor <;> rfl) rfl
  | _ => cases hp; exact .same (.refl _) rfl

namespace Kernel

variable {kernel kernel' : Kernel} {thread : ThreadId} {moving : Option ThreadId}

theorem Filed.setHandlerDeadline (filed : kernel.Filed thread) (handler : HandlerId)
    (deadline : Option Instant)
    : (kernel.setDeadline (.interrupt handler) deadline).Filed thread :=
  filed.congr rfl .rfl .rfl .rfl fun sleeps => ⟨sleeps, by simp [Kernel.setDeadline]⟩

theorem Detached.markStarted {moving : ThreadId} (detached : kernel.Detached moving)
    (created : kernel.state thread = .created)
    : (kernel.setState thread .started).Detached moving := by
  by_cases he : thread = moving
  · subst he
    exact detached.setState .started
  · have filed := detached.filed thread he
    have notIdle : thread ≠ IDLE_THREAD_ID := by
      rintro rfl
      simpa [created] using detached.idle he
    refine ⟨⟨detached.notCurrent, fun other hne => ?_, fun hne => ?_,
      fun other hne => ?_, detached.unrepeated.congr rfl rfl rfl rfl⟩,
      detached.notReady, detached.notBlocked, detached.notSuspended⟩
    · have runs := detached.running other hne
      by_cases isThread : other = thread
      · subst isThread
        simpa [Kernel.setState, created] using runs
      · simpa [Kernel.setState, isThread] using runs
    · simpa [Kernel.setState, Ne.symm notIdle] using detached.idle hne
    · by_cases isThread : other = thread
      · subst isThread
        have notBlocked : .thread other ∉ kernel.sleepQueue := fun sleeps => by
          simpa [created] using filed.sleeping sleeps
        constructor
        · simpa [Kernel.setState, created] using filed.ready
        · simpa [Kernel.setState, created] using filed.blocked
        · simpa [Kernel.setState, created] using filed.suspended
        · exact fun sleeps => absurd sleeps notBlocked
      · exact (detached.filed other hne).congr (by simp [Kernel.setState, isThread]) .rfl
          .rfl .rfl fun sleeps => ⟨sleeps, rfl⟩

/-- All threads are filed, or one of them is moving and does not sleep. -/
def Listed (kernel : Kernel) : Option ThreadId → Prop
  | none => kernel.Consistent
  | some moving => kernel.Detached moving ∧ .thread moving ∉ kernel.sleepQueue

theorem Listed.congr (listed : kernel.Listed moving) (he : kernel.SameLists kernel')
    : kernel'.Listed moving := by
  cases moving with
  | none => exact Consistent.congr listed he
  | some moving => exact ⟨listed.1.congr he, he.sleeping ▸ listed.2⟩

theorem Listed.outer (listed : kernel.Listed moving) (effect : kernel.OuterEffect instr kernel')
    : kernel'.Listed moving := by
  cases effect with
  | same lists alarm => exact listed.congr lists
  | deadline =>
      cases moving with
      | none =>
          exact ⟨listed.running, listed.idle,
            fun thread => (listed.filed thread).setHandlerDeadline _ _,
            listed.unrepeated.congr rfl rfl rfl rfl⟩
      | some moving =>
          obtain ⟨detached, awake⟩ := listed
          exact ⟨⟨⟨detached.notCurrent, detached.running, detached.idle,
            fun other hne => (detached.filed other hne).setHandlerDeadline _ _,
            detached.unrepeated.congr rfl rfl rfl rfl⟩, detached.notReady, detached.notBlocked,
            detached.notSuspended⟩, awake⟩
  | started created =>
      cases moving with
      | none => exact Consistent.markStarted listed created
      | some moving => exact ⟨listed.1.markStarted created, listed.2⟩

end Kernel

end Scars

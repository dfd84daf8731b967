import Scars.Preemption.StepCases

/-! What each kind of instruction changes.
Accesses and steps inside a section leave the preemption lock and the borrow alone. Only the
switching methods change the current thread.
-/

namespace Scars

variable {memory memory' : Memory} {fuel : Nat} {now : Instant} {more : List Instr}

namespace Memory

/-- The preemption lock and the borrow are as before. -/
structure SameLock (memory memory' : Memory) : Prop where
  preemptLock : memory'.preemptLock = memory.preemptLock
  borrowed : memory'.borrowed = memory.borrowed

end Memory

open Memory Kernel

/-- Code that neither starts nor ends anything, at every level. -/
def Instr.isPlain (instr : Instr) : Bool :=
  instr.isNeutral && !instr.isExit && !instr.switches

/-- Plain code, which is of threads only where the access is. -/
def Access.GoesOn (access : Access) (more : List Instr) : Prop :=
  ∀ instr ∈ more,
    instr.isPlain = true ∧ (instr.isThreads = true → access.isThreads = true)

variable {access : Access}

theorem goesOn_nil : access.GoesOn [] := by simp [Access.GoesOn]

theorem goesOn_singleton {instr : Instr} (plain : instr.isPlain = true)
    (threads : instr.isThreads = false)
    : access.GoesOn [instr] :=
  List.forall_mem_singleton.mpr ⟨plain, fun yes => absurd yes (ne_true_of_eq_false threads)⟩

theorem goesOn_resumeCode {thread : ThreadId}
    : access.GoesOn (resumeCode thread) :=
  goesOn_singleton rfl rfl

theorem popWaiter_currentThread (queue : WaitQueueId) (kernel : Kernel)
    : (kernel.popWaiter queue).2.currentThread = kernel.currentThread := by
  unfold popWaiter
  split <;> rfl

theorem goesOn_notifyCode {popped : Option Suspendable}
    : access.GoesOn (notifyCode popped) := by
  unfold notifyCode
  split
  · exact goesOn_resumeCode
  · exact goesOn_nil

/-- An access leaves the lock, the borrow, the pending queues and the current thread alone,
and goes on with plain code.
-/
theorem Access.perform_ok (hp : access.perform fuel memory = .ok (memory', more))
    : memory.SameLock memory' ∧ memory'.pending = memory.pending
      ∧ memory'.raw.currentThread = memory.raw.currentThread ∧ access.GoesOn more := by
  cases access.perform_step hp with
  | sends => exact ⟨⟨rfl, rfl⟩, rfl, rfl, goesOn_singleton rfl rfl⟩
  | checks goesOn =>
      refine ⟨⟨rfl, rfl⟩, rfl, rfl, ?_⟩
      rcases goesOn with rfl | rfl
      · exact goesOn_nil
      · exact goesOn_resumeCode
  | pops =>
      refine ⟨⟨rfl, rfl⟩, rfl, popWaiter_currentThread _ memory.raw, fun instr hm => ?_⟩
      rcases List.mem_append.mp hm with notified | again
      · exact goesOn_notifyCode instr notified
      · simp only [List.mem_ite_nil_right, List.mem_singleton] at again
        rw [again.2]
        exact ⟨rfl, nofun⟩
  | adjusts adjusts _ _ => exact ⟨⟨rfl, rfl⟩, rfl, adjusts.currentThread, goesOn_nil⟩
  | asksPoll goesOn | loads goesOn =>
      refine ⟨⟨rfl, rfl⟩, rfl, rfl, ?_⟩
      rcases goesOn with rfl | rfl
      · exact goesOn_nil
      · exact goesOn_singleton rfl rfl
  | tries goesOn =>
      refine ⟨⟨rfl, rfl⟩, rfl, rfl, ?_⟩
      rcases goesOn with rfl | rfl
      · exact goesOn_nil
      · simp only [Access.GoesOn, waitEventsCode, List.forall_mem_cons]
        exact ⟨⟨rfl, fun _ => rfl⟩, ⟨rfl, nofun⟩, ⟨rfl, nofun⟩, nofun⟩
  | _ => exact ⟨⟨rfl, rfl⟩, rfl, rfl, goesOn_nil⟩

theorem leaveSleepQueue_currentThread (kernel : Kernel) (suspendable : Suspendable)
    : (kernel.leaveSleepQueue suspendable).currentThread = kernel.currentThread := by
  rw [leaveSleepQueue_eq]

/-- Steps inside a section that do not switch threads. -/
def StaysInside (more : List Instr) : Prop :=
  ∀ instr ∈ more, ∃ op : Locked, op.switches = false ∧ instr = .locked op

theorem staysInside_nil : StaysInside [] := by simp [StaysInside]

theorem StaysInside.cons {op : Locked} (stays : op.switches = false) (inside : StaysInside more)
    : StaysInside (.locked op :: more) :=
  List.forall_mem_cons.mpr ⟨⟨op, stays, rfl⟩, inside⟩

/-- A step inside a section leaves the lock, the borrow and the pending queues alone and goes
on with steps inside the section.
-/
theorem Locked.perform_ok {op : Locked} (hp : op.perform fuel now memory = .ok (memory', more))
    : memory.SameLock memory' ∧ memory'.pending = memory.pending
      ∧ StaysInside more
      ∧ (op.switches = false → memory'.raw.currentThread = memory.raw.currentThread) := by
  have nothing := staysInside_nil
  cases op.perform_step hp with
  | resumes _ resumed =>
      exact ⟨⟨rfl, rfl⟩, rfl, nothing, fun _ => resumeThread_current resumed⟩
  | resumesInterrupt resumed =>
      obtain ⟨polls, rfl⟩ := resumeInterrupt_ok resumed
      exact ⟨⟨rfl, rfl⟩, rfl, nothing, fun _ => rfl⟩
  | schedules =>
      exact ⟨⟨rfl, rfl⟩, rfl, nothing.cons rfl, fun _ => leaveSleepQueue_currentThread _ _⟩
  | reschedulesSleep =>
      refine ⟨⟨rfl, rfl⟩, rfl, (nothing.cons rfl).cons rfl, fun _ => ?_⟩
      exact leaveSleepQueue_currentThread _ _
  | handsOver => exact ⟨⟨rfl, rfl⟩, rfl, nothing.cons rfl, nofun⟩
  | locks locked =>
      exact ⟨⟨rfl, rfl⟩, rfl, nothing, fun _ => (adjusts_lockScoped locked).currentThread⟩
  | unlocks released =>
      refine ⟨⟨rfl, rfl⟩, rfl, nothing, fun _ => ?_⟩
      exact (adjusts_releaseScopedLock released).currentThread
  | condReschedules =>
      exact ⟨⟨rfl, rfl⟩, rfl, nothing, fun _ => adjusts_condReschedule.currentThread⟩
  | raises =>
      refine ⟨⟨rfl, rfl⟩, rfl, nothing.cons rfl, fun _ => ?_⟩
      exact (adjusts_setHandlerPriorities _ _).currentThread
  | inserts hi =>
      refine ⟨⟨rfl, rfl⟩, rfl, nothing.cons rfl, fun _ => ?_⟩
      exact (sameLists_insertToWaitQueue hi).current
  | restores =>
      refine ⟨⟨rfl, rfl⟩, rfl, nothing.cons rfl, fun _ => ?_⟩
      exact (adjusts_setHandlerPriorities _ _).currentThread
  | blocks blocked =>
      exact ⟨⟨rfl, rfl⟩, rfl, nothing, fun _ => (blockThread_frame blocked).1⟩
  | reads => exact ⟨⟨rfl, rfl⟩, rfl, nothing.cons rfl, fun _ => rfl⟩
  | sleeps linked =>
      obtain ⟨-, rfl⟩ := insertSleeper_ok linked
      exact ⟨⟨rfl, rfl⟩, rfl, nothing, fun _ => sameLists_reprogramAlarm.current⟩
  | reprograms =>
      exact ⟨⟨rfl, rfl⟩, rfl, nothing, fun _ => sameLists_reprogramAlarm.current⟩
  | asks => exact ⟨⟨rfl, rfl⟩, rfl, nothing, fun _ => rfl⟩
  | consumes => exact ⟨⟨rfl, rfl⟩, rfl, nothing, fun _ => rfl⟩
  | _ => exact ⟨⟨rfl, rfl⟩, rfl, nothing, nofun⟩

theorem Section.refuse_ok {body : Section} (refused : body.refuse fuel memory = .ok memory')
    : memory.SameLock memory' ∧ memory'.raw.currentThread = memory.raw.currentThread := by
  rcases Section.refuse_cases refused with ⟨_, _, _, -, -, rfl⟩ | ⟨_, -, rfl⟩ | rfl <;>
    exact ⟨⟨rfl, rfl⟩, rfl⟩

end Scars

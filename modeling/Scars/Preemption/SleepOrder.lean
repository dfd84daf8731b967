import Scars.Kernel.SleepRuns
import Scars.Preemption.Deadlines

/-! The order of the sleep queue while deadlines change.
`schedule_interrupt_wakeup` changes the deadline of a handler that may be queued, before it takes
the lock. Until the handler has left the queue, the rest of the queue is in order without it.
-/

namespace Scars

open Memory Runs OrderedInsert

namespace Kernel

variable {kernel kernel' : Kernel} {handler : HandlerId} {instr : Instr} {stale : Option HandlerId}

/-- The sleep queue is in order, but for a handler whose deadline was changed. -/
def InOrder (kernel : Kernel) : Option HandlerId → Prop
  | none => kernel.Timed
  | some stale => (kernel.leaveSleepQueue (.interrupt stale)).Timed

theorem Timed.leaveSleepQueue (timed : kernel.Timed) (suspendable : Suspendable)
    : (kernel.leaveSleepQueue suspendable).Timed :=
  timed.thins (routine_thins.leaveSleepQueue suspendable)

theorem InOrder.congr (inOrder : kernel.InOrder stale)
    (sleepers : kernel'.sleepQueue = kernel.sleepQueue)
    (deadline
      : ∀ sleeper ∈ kernel.sleepQueue, kernel'.deadline sleeper = kernel.deadline sleeper)
    (alarm : kernel'.alarm = kernel.alarm)
    : kernel'.InOrder stale := by
  cases stale with
  | none => exact Timed.sublist inOrder (by rw [sleepers]) (by rwa [sleepers]) alarm
  | some stale =>
      unfold InOrder at inOrder ⊢
      dsimp only at inOrder ⊢
      rw [leaveSleepQueue_eq] at inOrder ⊢
      refine Timed.sublist inOrder (by rw [sleepers]) (fun sleeper hm => ?_) alarm
      dsimp only at hm
      rw [sleepers] at hm
      exact deadline sleeper (List.mem_of_mem_erase hm)

theorem InOrder.outer (inOrder : kernel.InOrder stale) (effect : kernel.OuterEffect instr kernel')
    (awake
      : ∀ handler wakeupTime,
          instr = .access (.setDeadline handler wakeupTime)
          → .interrupt handler ∉ kernel.sleepQueue)
    : kernel'.InOrder stale := by
  cases effect with
  | same lists alarm =>
      exact inOrder.congr lists.sleeping (fun _ _ => by rw [lists.deadline]) alarm
  | @deadline handler wakeupTime =>
      refine inOrder.congr rfl (fun sleeper hm => ?_) rfl
      have other : sleeper ≠ .interrupt handler := fun he =>
        awake handler wakeupTime rfl (he ▸ hm)
      simp [setDeadline, other]
  | started created => exact inOrder.congr rfl (fun _ _ => rfl) rfl

/-- A new deadline for a handler leaves the others in order. -/
theorem Timed.setDeadline (timed : kernel.Timed) (unique : kernel.sleepQueue.Nodup)
    (wakeupTime : Option Instant)
    : (kernel.setDeadline (.interrupt handler) wakeupTime).InOrder (some handler) := by
  unfold InOrder
  dsimp only
  have left := timed.leaveSleepQueue (.interrupt handler)
  rw [leaveSleepQueue_eq] at left ⊢
  refine left.sublist (.refl _) (fun sleeper hm => ?_) rfl
  have other : sleeper ≠ .interrupt handler := fun he =>
    unique.not_mem_erase (he ▸ hm)
  simp [Kernel.setDeadline, other]

theorem InOrder.awake (inOrder : kernel.InOrder (some handler))
    (awake : .interrupt handler ∉ kernel.sleepQueue)
    : kernel.Timed := by
  unfold InOrder at inOrder
  dsimp only at inOrder
  rw [leaveSleepQueue_eq, List.erase_of_not_mem awake] at inOrder
  exact inOrder

theorem Listed.nodup {moving : Option ThreadId} (listed : kernel.Listed moving)
    : kernel.sleepQueue.Nodup := by
  cases moving with
  | none => exact Consistent.unrepeated listed |>.sleeping
  | some moving => exact listed.1.unrepeated.sleeping

theorem Timed.insertSleeper (timed : kernel.Timed) (dated : kernel.HasDeadline handler)
    (hi
      : kernel.insertSleeper handler (kernel.deadline (.interrupt handler)) = .ok kernel')
    : kernel'.reprogramAlarm.Timed := by
  obtain ⟨-, rfl⟩ := insertSleeper_ok hi
  exact timed.withSleeper dated

end Kernel

variable {memory memory' : Memory} {fuel : Nat} {now : Instant} {more rest : List Instr}

/-- Steps inside a section keep the order; a handler is inserted by the deadline it has. -/
theorem Locked.perform_timed {op : Locked} (timed : memory.raw.Timed)
    (listed : memory.raw.Listed op.moving)
    (dated : ∀ handler, (Instr.locked op).schedules = some handler → memory.raw.HasDeadline handler)
    (current
      : ∀ handler deadline,
          op = .insertSleeper handler deadline
          → memory.raw.deadline (.interrupt handler) = deadline)
    (hp : op.perform fuel now memory = .ok (memory', more))
    : memory'.raw.Timed := by
  cases op.perform_step hp with
  | resumes _ resumed => exact timed.thins (Kernel.thins_resumeThread resumed)
  | resumesInterrupt resumed => exact timed.thins (Kernel.routine_thins.resumeInterrupt resumed)
  | schedules => exact timed.leaveSleepQueue _
  | reschedulesSleep => exact timed.leaveSleepQueue _
  | reschedules rescheduled => exact timed.reschedule rescheduled
  | delays delayed => exact timed.delayThreadUntil listed delayed
  | suspends suspended => exact timed.thins (Kernel.thins_suspendThread suspended)
  | handsOver => exact timed.thins Kernel.routine_thins.handOver
  | locks locked => exact timed.thins (Kernel.adjusts_lockScoped locked).thins
  | unlocks released => exact timed.thins (Kernel.adjusts_releaseScopedLock released).thins
  | condReschedules => exact timed.thins Kernel.adjusts_condReschedule.thins
  | raises => exact timed.thins (Kernel.adjusts_setHandlerPriorities _ _).thins
  | inserts hi => exact timed.thins (Kernel.thins_insertToWaitQueue hi)
  | restores => exact timed.thins (Kernel.adjusts_setHandlerPriorities _ _).thins
  | blocks blocked => exact timed.blockThread listed.2 blocked
  | reads => exact timed
  | @sleeps handler deadline kernel linked =>
      have he := current handler deadline rfl
      subst he
      exact timed.insertSleeper (dated handler rfl) linked
  | reprograms => exact Kernel.timed_reprogramAlarm timed.dated timed.sorted
  | asks => exact timed.thins (.of_eq rfl)
  | consumes => exact timed.thins (.of_eq rfl)
  | blocksUnless blocks =>
      rcases Kernel.blockUnlessReceived_ok blocks with ⟨-, blocked⟩ | ⟨-, rfl⟩
      · have notIdle := (Kernel.blockThread_ok blocked).1
        exact (timed.thins Kernel.routine_thins.handOver).blockThread
          (Kernel.Consistent.handOver listed notIdle).2 blocked
      · exact timed

/-- A deadline is stored right before the lock is tried. -/
def RequestsNext : List Instr → Prop
  | [] => True
  | instr :: rest =>
      (∀ handler,
        instr.dates = some handler
        → ∃ later, rest = .tryWith (.op (.scheduleInterruptWakeup handler)) :: later)
      ∧ RequestsNext rest

/-- Code that stores no deadline. -/
def Dateless (code : List Instr) : Prop := code.all (fun instr => instr.dates.isNone) = true

theorem RequestsNext.append (later : RequestsNext rest) (dateless : Dateless more)
    : RequestsNext (more ++ rest) := by
  induction more with
  | nil => exact later
  | cons instr more ih =>
      obtain ⟨first, others⟩ := Bool.and_eq_true_iff.mp dateless
      refine ⟨fun handler dates => ?_, ih others⟩
      simp [dates] at first

theorem Dateless.append {left right : List Instr} (first : Dateless left) (second : Dateless right)
    : Dateless (left ++ right) := by
  unfold Dateless at *
  rw [List.all_append, first, second]
  rfl

theorem dateless_notifyCode (popped : Option Suspendable) : Dateless (notifyCode popped) := by
  rcases popped with _ | thread | handler <;> rfl

theorem dateless_continues {instr : Instr} (continues : Continues instr more) : Dateless more := by
  cases continues with
  | acquired body restoreState =>
      refine Dateless.append ?_ rfl
      cases body with
      | op method => cases method <;> rfl
      | waitCurrentThreadEvent events deadline => rfl
      | closure mayBlock => rfl
  | notified popped => exact dateless_notifyCode popped
  | notifiesNext popped => exact (dateless_notifyCode popped).append rfl
  | _ => rfl

theorem requestsNext_of_dateless {code : List Instr} (dateless : Dateless code)
    : RequestsNext code := by
  have all : RequestsNext (code ++ []) := RequestsNext.append trivial dateless
  rwa [List.append_nil] at all

theorem keptByCode_requestsNext : Machine.KeptByCode RequestsNext where
  perform hp before :=
    before.2.append (dateless_continues (Instr.perform_continues hp))
  call call rest before := by
    cases call with
    | scheduleInterruptWakeup handler wakeupTime =>
        refine ⟨?_, nofun, before⟩
        rintro other ⟨⟩
        exact ⟨_, rfl⟩
    | _ => exact before.append rfl
  finish before := before.2
  enter entered exit ends := by
    refine requestsNext_of_dateless (Dateless.append ?_ (by rcases ends with rfl | rfl <;> rfl))
    rcases entered with rfl | ⟨call, rfl⟩
    · rfl
    · cases call <;> rfl

end Scars

import Scars.Preemption.LockedSteps

/-! What instructions outside of a section do to those who wait.
Notifiers take waiters off a queue, senders and the end of a wait change event masks, and
everything else leaves queues and masks alone.
-/

namespace Scars

open Memory

namespace Kernel

variable {kernel kernel' : Kernel}

/-- Wait queues and event masks stay. -/
structure SameWaits (kernel kernel' : Kernel) : Prop where
  waitQueue : kernel'.waitQueue = kernel.waitQueue
  events : kernel'.events = kernel.events

theorem SameWaits.refl (kernel : Kernel) : kernel.SameWaits kernel := ⟨rfl, rfl⟩

theorem Adjusts.sameWaits (adjusts : kernel.Adjusts kernel') : kernel.SameWaits kernel' := by
  obtain ⟨_, _, _, _, _, rfl⟩ := adjusts
  exact ⟨rfl, rfl⟩

end Kernel

variable {memory memory' : Memory} {fuel : Nat} {now : Instant} {more : List Instr}
  {context : ExecutionContext} {instr : Instr} {waiter : Suspendable} {queue : WaitQueueId}

/-- The effect of an instruction on those who wait. -/
inductive OuterWaits (memory memory' : Memory) (more : List Instr) : Instr → Prop
  | same {instr : Instr} (waits : memory.raw.SameWaits memory'.raw)
    (received : memory'.received = memory.received)
    : OuterWaits memory memory' more instr
  | sent {thread : ThreadId} {events : Events}
    (after
      : memory'
        = { memory with
            raw := memory.raw.setEvents thread ((memory.raw.events thread).sendFetchOr events).2 })
    (goesOn
      : more
        = [.access (.checkWaitedEvents thread
            ((memory.raw.events thread).sendFetchOr events).1)])
    : OuterWaits memory memory' more (.access (.sendEvents thread events))
  | popped {queue : WaitQueueId} {all : Bool}
    (after : memory' = { memory with raw := (memory.raw.popWaiter queue).2 })
    (notifies : ∀ next ∈ notifyCode (memory.raw.popWaiter queue).1, next ∈ more)
    : OuterWaits memory memory' more (.access (.popWaiter queue all))
  | cleared
    (after
      : memory'
        = { memory with
            raw := memory.raw.setEvents memory.raw.currentThread
              (memory.raw.events memory.raw.currentThread).clearWaitedEvents })
    : OuterWaits memory memory' more (.access .clearWaitedEvents)
  | collected {events : Events} {timed : Bool} (after : memory' = memory.collectEvents events timed)
    : OuterWaits memory memory' more (.access (.collectEvents events timed))

theorem Access.perform_waits {access : Access}
    (hp : access.perform fuel memory = .ok (memory', more))
    : OuterWaits memory memory' more (.access access) := by
  cases access.perform_step hp with
  | sends => exact .sent rfl rfl
  | pops => exact .popped rfl fun next hm => List.mem_append_left _ hm
  | adjusts adjusts _ _ => exact .same adjusts.sameWaits rfl
  | clears => exact .cleared rfl
  | collects => exact .collected rfl
  | _ => exact .same ⟨rfl, rfl⟩ rfl

/-- Every instruction that is no step inside a section has one of these effects. -/
theorem Instr.perform_waits (hp : instr.perform fuel now context memory = .ok (memory', more))
    (outer : ∀ op, instr ≠ .locked op)
    : OuterWaits memory memory' more instr := by
  cases instr with
  | user => cases hp
  | access access => exact access.perform_waits hp
  | tryWith body =>
      rcases Section.perform_ok hp with ⟨previous, -, rfl, -⟩ | ⟨-, refused, -⟩
      · exact .same (.refl _) rfl
      · rcases Section.refuse_cases refused with ⟨_, _, _, -, -, rfl⟩ | ⟨_, -, rfl⟩ | rfl <;>
          exact .same ⟨rfl, rfl⟩ rfl
  | borrowMut => obtain ⟨rfl, -⟩ := borrowMut_ok hp; exact .same (.refl _) rfl
  | locked op => exact absurd rfl (outer op)
  | drain queue =>
      obtain ⟨popped, pending, -, rfl, -⟩ := Memory.drain_ok hp
      exact .same (.refl _) rfl
  | pollExecutor handler =>
      obtain ⟨rfl, -⟩ := setRaw_ok hp
      exact .same (Kernel.adjusts_setHandlerPriorities handler _).sameWaits rfl
  | pollPending =>
      obtain ⟨polls, rfl, -⟩ := Memory.pollPending_ok hp
      exact .same ⟨rfl, rfl⟩ rfl
  | swapPending => cases hp; exact .same ⟨rfl, rfl⟩ rfl
  | checkPolls => cases hp; exact .same ⟨rfl, rfl⟩ rfl
  | _ => cases hp; exact .same (.refl _) rfl

theorem Kernel.popWaiter_waitQueue (queue other : WaitQueueId) (kernel : Kernel)
    (linked : waiter ∈ kernel.waitQueue other)
    : waiter ∈ (kernel.popWaiter queue).2.waitQueue other
      ∨ (kernel.popWaiter queue).1 = some waiter := by
  unfold popWaiter
  split
  · exact Or.inl linked
  next head rest waiting =>
    by_cases he : other = queue
    · subst he
      rw [waiting] at linked
      rcases List.mem_cons.mp linked with rfl | later
      · exact Or.inr rfl
      · exact Or.inl (by simpa using later)
    · exact Or.inl (by simpa [he] using linked)

theorem LockedEffect.linked {op : Locked} (effect : LockedEffect memory memory' op)
    (linked : waiter ∈ memory.raw.waitQueue queue)
    : waiter ∈ memory'.raw.waitQueue queue := by
  cases effect with
  | wakes wakes _ => rwa [wakes.waitQueue]
  | blocks wakes blocks _ _ => rwa [blocks.waitQueue, wakes.waitQueue]
  | waits hi _ =>
      obtain ⟨waitQueue, waitOwner, he, -, grows⟩ := Kernel.insertToWaitQueue_waits hi
      rw [he]
      exact grows queue waiter linked
  | asks raw _ => rw [raw]; exact linked
  | consumes raw _ => rw [raw]; exact linked

/-- A waiter stays in its queue until a notifier takes it off and goes on to notify it. -/
theorem Instr.perform_linked (hp : instr.perform fuel now context memory = .ok (memory', more))
    (linked : waiter ∈ memory.raw.waitQueue queue)
    : waiter ∈ memory'.raw.waitQueue queue ∨ ∀ next ∈ notifyCode (some waiter), next ∈ more := by
  by_cases inside : ∃ op, instr = .locked op
  · obtain ⟨op, rfl⟩ := inside
    exact Or.inl ((op.perform_effect hp).linked linked)
  · cases Instr.perform_waits hp (not_exists.mp inside) with
    | same waits _ => exact Or.inl (by rwa [waits.waitQueue])
    | sent after _ => exact Or.inl (by rw [after]; exact linked)
    | @popped popping all after notifies =>
        rcases memory.raw.popWaiter_waitQueue popping queue linked with stays | popped
        · exact Or.inl (by rw [after]; exact stays)
        · rw [popped] at notifies
          exact Or.inr notifies
    | cleared after => exact Or.inl (by rw [after]; exact linked)
    | collected after => exact Or.inl (by rw [after]; exact linked)

end Scars

import Scars.Preemption.Contexts

/-! What happens to the pending queues.
Only a refused request puts something in, and only `complete_pending` takes something out.
Threads wait in `pending_resume` and handlers in `pending_sleep`.
-/

namespace Scars

open Runs Memory

variable {memory memory' : Memory} {fuel : Nat} {now : Instant} {more rest : List Instr}
  {context : ExecutionContext} {instr : Instr} {queue : PendingQueue}

theorem Section.refuse_pending {body : Section} (refused : body.refuse fuel memory = .ok memory')
    : memory'.pending = memory.pending
      ∨ ∃ queue suspendable,
          body.defers = some (queue, suspendable)
          ∧ memory.pending.pushBack fuel queue suspendable = .ok memory'.pending := by
  rcases Section.refuse_cases refused with ⟨queue, suspendable, _, defers, pushed, rfl⟩ | rest
  · exact Or.inr ⟨queue, suspendable, defers, pushed⟩
  · rcases rest with ⟨_, -, rfl⟩ | rfl <;> exact Or.inl rfl

/-- The pending queues change when a request is refused and when one is popped. -/
inductive PendingEffect (fuel : Nat) (context : ExecutionContext) (memory memory' : Memory)
    (more : List Instr)
    : Instr → Prop
  | same {instr : Instr} (pending : memory'.pending = memory.pending)
    (noRound : ∀ queue, instr ≠ .drain queue)
    : PendingEffect fuel context memory memory' more instr
  | deferred {body : Section} {queue : PendingQueue} {suspendable : Suspendable}
    (refused : tryAcquireNestingLock memory.preemptLock context = none)
    (defers : body.defers = some (queue, suspendable))
    (pushed : memory.pending.pushBack fuel queue suspendable = .ok memory'.pending)
    (goesOn : more = [])
    : PendingEffect fuel context memory memory' more (.tryWith body)
  | drained {queue : PendingQueue}
    (taken : memory.pending.popFront fuel queue = .ok (none, memory'.pending))
    (goesOn : more = [])
    : PendingEffect fuel context memory memory' more (.drain queue)
  | popped {queue : PendingQueue} {suspendable : Suspendable}
    (taken : memory.pending.popFront fuel queue = .ok (some suspendable, memory'.pending))
    (goesOn : more = [.locked (.complete queue suspendable), .drain queue])
    : PendingEffect fuel context memory memory' more (.drain queue)

theorem Instr.perform_pending (hp : instr.perform fuel now context memory = .ok (memory', more))
    : PendingEffect fuel context memory memory' more instr := by
  cases instr with
  | user => cases hp
  | access access => exact .same (access.perform_ok hp).2.1 nofun
  | tryWith body =>
      rcases Section.perform_ok hp with ⟨previous, -, rfl, -⟩ | ⟨refused, deferred, rfl⟩
      · exact .same rfl nofun
      · rcases Section.refuse_pending deferred with he | ⟨queue, suspendable, defers, pushed⟩
        · exact .same he nofun
        · exact .deferred refused defers pushed rfl
  | borrowMut =>
      obtain ⟨rfl, rfl⟩ := borrowMut_ok hp
      exact .same rfl nofun
  | locked op => exact .same (op.perform_ok hp).2.1 nofun
  | drain queue =>
      obtain ⟨popped, pending, taken, rfl, rfl⟩ := drain_ok hp
      cases popped with
      | none => exact .drained taken rfl
      | some suspendable => exact .popped taken rfl
  | pollExecutor handler =>
      obtain ⟨rfl, -⟩ := setRaw_ok hp
      exact .same rfl nofun
  | pollPending =>
      obtain ⟨polls, rfl, -⟩ := pollPending_ok hp
      exact .same rfl nofun
  | _ => cases hp; exact .same rfl nofun

/-- Whether a pending queue is empty. -/
def Memory.isPendingEmpty (queue : PendingQueue) (memory : Memory) : Bool :=
  (memory.pending.isEmpty queue).1

end Scars

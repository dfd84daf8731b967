import Scars.PriorityWord
import Scars.Kernel.Operations
import Scars.Kernel.LockAccount

/-! Ceiling locks and sections of interrupt handlers, next to those of threads.
A handler keeps its own list of scoped locks. A lock's node is in one list at a time: its owning
thread's, or that of a handler, which does not become the owner.
-/

namespace Scars

open Function

/-- The kernel with what interrupt handlers hold. -/
structure Locking extends Kernel where
  /-- `RawInterruptHandler::owned_locks`. -/
  ownedLocks : HandlerId → List LockId
  /-- The handler whose list a `lock_list_node` is in. -/
  nodeOwner : LockId → Option HandlerId
  /-- The open `CeilingLock::with` sections of a handler, innermost first. -/
  openSections : HandlerId → List CeilingSection

namespace Locking

def start (program : Program) : Locking where
  toKernel := Kernel.start program
  ownedLocks := fun _ => []
  nodeOwner := fun _ => none
  openSections := fun _ => []

def ceilingOf (locking : Locking) (lock : LockId) : Priority :=
  (locking.lock lock).ceilingPriority

/-- `RawInterruptHandler::lock_priority`. -/
def handlerLockPriority (locking : Locking) (handler : HandlerId) : PriorityStatus :=
  (locking.handler handler).lockPriorities.1.max (locking.handler handler).lockPriorities.2

/-- `RawInterruptHandler::priority`. -/
def handlerPriority (locking : Locking) (handler : HandlerId) : Priority :=
  (locking.handler handler).basePriority.maxValid (locking.handlerLockPriority handler)

/-- `RawInterruptHandler::update_owned_lock_priority`. -/
def updateOwnedLockPriority (handler : HandlerId) (locking : Locking) : Locking :=
  let lockPriority := match locking.ownedLocks handler with
    | [] => PriorityStatus.invalid
    | head :: _ => .valid (locking.ceilingOf head)
  let (raisedPriority, _) := (locking.handler handler).lockPriorities
  let ceilingPriority :=
    if lockPriority.isValid then raisedPriority.max lockPriority else raisedPriority
  let stored : Kernel := { locking.toKernel with
    handler := update locking.handler handler
      { locking.handler handler with lockPriorities := (raisedPriority, lockPriority) } }
  { locking with toKernel := stored.setCeilingThreshold ceilingPriority }

/-- `RawInterruptHandler::acquire_lock`. A node in a thread's list belongs to a lock with an
owner.
-/
def acquireLock (handler : HandlerId) (lock : LockId) (locking : Locking)
    : Except Fault Locking :=
  if (locking.lock lock).owner ≠ none ∨ locking.nodeOwner lock ≠ none then
    .error .alreadyInList
  else
    .ok ({ locking with
      ownedLocks := update locking.ownedLocks handler
        (OrderedInsert.insertPast
          (fun held => decide (locking.ceilingOf lock < locking.ceilingOf held))
          lock (locking.ownedLocks handler))
      nodeOwner := update locking.nodeOwner lock (some handler)
      }.updateOwnedLockPriority handler)

/-- `RawInterruptHandler::release_lock`. -/
def releaseLock (handler : HandlerId) (lock : LockId) (locking : Locking)
    : Except Fault Locking :=
  if locking.nodeOwner lock = some handler then
    .ok ({ locking with
      ownedLocks := update locking.ownedLocks handler
        ((locking.ownedLocks handler).erase lock)
      nodeOwner := update locking.nodeOwner lock none
      }.updateOwnedLockPriority handler)
  else
    .error .notInList

/-- `RawCeilingLock::acquire_scoped_lock_in_interrupt`. The owner is always a thread, so the
handler never finds itself there.
-/
def acquireScopedLockInInterrupt (handler : HandlerId) (lock : LockId) (locking : Locking)
    : Except Fault Locking :=
  if locking.ceilingOf lock < locking.handlerPriority handler then
    .error .ceilingPriorityViolation
  else
    locking.acquireLock handler lock

/-- `RawCeilingLock::release_scoped_lock_in_interrupt`. -/
def releaseScopedLockInInterrupt (handler : HandlerId) (lock : LockId) (locking : Locking)
    : Except Fault Locking :=
  locking.releaseLock handler lock

/-- `acquire_nesting_lock` in an interrupt handler. -/
def enterSectionInInterrupt (handler : HandlerId) (ceiling : Priority) (locking : Locking)
    : Locking :=
  let (savedPriority, kernel) := locking.raiseHandlerNesting handler ceiling
  { locking with
    toKernel := kernel
    openSections := update locking.openSections handler
      ({ ceiling, savedPriority } :: locking.openSections handler) }

/-- `release_nesting_lock` in an interrupt handler, for its innermost section. -/
def leaveSectionInInterrupt (handler : HandlerId) (locking : Locking)
    : Except Fault Locking :=
  match locking.openSections handler with
  | [] => .error .notCallable
  | innermost :: rest =>
      .ok { locking with
        toKernel := locking.setHandlerNesting handler innermost.savedPriority
        openSections := update locking.openSections handler rest }

/-- A lock operation of an interrupt handler. -/
def performInInterrupt (handler : HandlerId) (locking : Locking)
    : LockOp → Except Fault Locking
  | .lock lock => locking.acquireScopedLockInInterrupt handler lock
  | .unlock lock => locking.releaseScopedLockInInterrupt handler lock
  | .enter ceiling => .ok (locking.enterSectionInInterrupt handler ceiling)
  | .leave => locking.leaveSectionInInterrupt handler

/-- Whether an operation of a thread takes a lock that is in the list of a handler. -/
def takesLinked (locking : Locking) : Op → Bool
  | .lock lock => (locking.nodeOwner lock).isSome
  | _ => false

/-- An operation of the kernel. A thread that takes a lock linked by a handler passes all
checks and then finds the node in a list.
-/
def performInKernel (fuel : Nat) (locking : Locking) (op : Op) : Except Fault Locking := do
  let kernel ← locking.toKernel.perform fuel op
  if locking.takesLinked op then
    .error .alreadyInList
  else
    return { locking with toKernel := kernel }

/-- An operation of the kernel or of its current thread, or a lock operation of a handler. -/
inductive Event where
  | kernel (op : Op)
  | handler (handler : HandlerId) (op : LockOp)
  deriving DecidableEq, Repr

def perform (fuel : Nat) (locking : Locking) : Event → Except Fault Locking
  | .kernel op => locking.performInKernel fuel op
  | .handler handler op => locking.performInInterrupt handler op

/-- The lock operation that an operation of the kernel is for the current thread. -/
def threadLockOp : Op → Option LockOp
  | .lock lock => some (.lock lock)
  | .unlock lock => some (.unlock lock)
  | .enterSection ceiling => some (.enter ceiling)
  | .leaveSection => some .leave
  | _ => none

/-- The lock operation that an event is for a context. -/
def lockOp (locking : Locking) (event : Event) (context : ExecutionContext) : Option LockOp :=
  match event, context with
  | .kernel op, .thread thread =>
      if thread = locking.currentThread then threadLockOp op else none
  | .handler handler op, .interrupt other => if other = handler then some op else none
  | _, _ => none

/-- A thread executes only while it is the current one. -/
def Executes (locking : Locking) : ExecutionContext → Prop
  | .thread thread => thread = locking.currentThread
  | .interrupt _ => True

/-- The fields of a context that its lock operations work on. -/
def account (locking : Locking) : ExecutionContext → LockAccount
  | .thread thread => {
      base := (locking.thread thread).basePriority
      initial := .invalid
      lockPriorities := (locking.thread thread).lockPriorities
      locks := (locking.thread thread).scopedLocks
      sections := (locking.thread thread).sections
    }
  | .interrupt handler => {
      base := (locking.handler handler).basePriority
      initial := .valid (locking.handler handler).basePriority
      lockPriorities := (locking.handler handler).lockPriorities
      locks := locking.ownedLocks handler
      sections := locking.openSections handler
    }

/-- `priority` of the current execution context. -/
def priority (locking : Locking) : ExecutionContext → Priority
  | .thread thread => locking.toKernel.priority thread
  | .interrupt handler => locking.handlerPriority handler

theorem priority_account (locking : Locking) (context : ExecutionContext)
    : locking.priority context = (locking.account context).priority := by
  cases context <;> rfl

end Locking

end Scars

import Scars.Kernel.QueueRefinement

/-! Sequences of queue operations, compared with the abstract queues.
-/

namespace Scars

variable {κ α : Type} [DecidableEq κ] [DecidableEq α]

inductive QueueOp (κ α : Type) where
  | pushBack (queue : κ) (item : α)
  | popFront (queue : κ)
  | isEmpty (queue : κ)
  deriving DecidableEq, Repr

/-- What an operation returns to its caller. -/
inductive QueueReply (α : Type) where
  | pushed
  | popped (item : Option α)
  | empty (answer : Bool)
  deriving DecidableEq, Repr

def QueueMemory.perform (fuel : Nat) (memory : QueueMemory κ α)
    : QueueOp κ α → Except QueueFault (QueueReply α × QueueMemory κ α)
  | .pushBack queue item => do
      let memory ← memory.pushBack fuel queue item
      return (.pushed, memory)
  | .popFront queue => do
      let (item, memory) ← memory.popFront fuel queue
      return (.popped item, memory)
  | .isEmpty queue =>
      let (answer, memory) := memory.isEmpty queue
      .ok (.empty answer, memory)

/-- The replies to the listed operations in order; a fault in one of them ends the run. -/
def QueueMemory.performAll (fuel : Nat) (memory : QueueMemory κ α)
    : List (QueueOp κ α) → Except QueueFault (List (QueueReply α))
  | [] => .ok []
  | op :: rest => do
      let (reply, memory) ← memory.perform fuel op
      let replies ← memory.performAll fuel rest
      return reply :: replies

namespace Fifos

def perform (fifos : Fifos κ α) : QueueOp κ α → QueueReply α × Fifos κ α
  | .pushBack queue item => (.pushed, fifos.push queue item)
  | .popFront queue =>
      let (item, fifos) := fifos.pop queue
      (.popped item, fifos)
  | .isEmpty queue => (.empty (fifos.items queue).isEmpty, fifos)

def performAll (fifos : Fifos κ α) : List (QueueOp κ α) → List (QueueReply α)
  | [] => []
  | op :: rest => (fifos.perform op).1 :: (fifos.perform op).2.performAll rest

/-- A push is of an item that no queue holds. -/
def NotQueued (fifos : Fifos κ α) : QueueOp κ α → Prop
  | .pushBack _ item => ∀ queue, item ∉ fifos.items queue
  | _ => True

/-- A push is not of the item a queue popped last. -/
def NotLastPopped (fifos : Fifos κ α) : QueueOp κ α → Prop
  | .pushBack _ item => ∀ queue, fifos.lastPopped queue ≠ some item
  | _ => True

/-- Every operation of the sequence meets a condition on the queues it finds. -/
def Along (condition : Fifos κ α → QueueOp κ α → Prop) (fifos : Fifos κ α)
    : List (QueueOp κ α) → Prop
  | [] => True
  | op :: rest => condition fifos op ∧ Along condition (fifos.perform op).2 rest

end Fifos

variable {memory : QueueMemory κ α} {fuel : Nat} {fifos : Fifos κ α}

/-- The operation on the links is the operation on the FIFOs. -/
theorem Represents.perform {op : QueueOp κ α} (hr : Represents memory fifos)
    (notQueued : fifos.NotQueued op) (notLastPopped : fifos.NotLastPopped op)
    : ∃ after,
        memory.perform (fuel + 1) op = .ok ((fifos.perform op).1, after)
        ∧ Represents after (fifos.perform op).2 := by
  cases op with
  | pushBack queue item =>
      have unlinked (other : κ) : .item item ∉ fifos.ptrs other := by
        rw [Fifos.mem_ptrs]
        exact not_or.mpr ⟨notLastPopped other, notQueued other⟩
      obtain ⟨after, pushed, still⟩ := hr.pushBack unlinked
      exact ⟨after, by rw [QueueMemory.perform, pushed]; rfl, still⟩
  | popFront queue =>
      obtain ⟨after, popped, still⟩ := hr.popFront fuel queue
      exact ⟨after, by rw [QueueMemory.perform, popped]; rfl, still⟩
  | isEmpty queue =>
      obtain ⟨agrees, still⟩ := hr.isEmpty
      exact ⟨_, by rw [QueueMemory.perform, Fifos.perform, ← agrees], still⟩

/-- A whole sequence of sound operations replies as the abstract queues do. Witness:
induction on the sequence with the representation carried along.
-/
theorem Represents.performAll {ops : List (QueueOp κ α)} (hr : Represents memory fifos)
    (notQueued : Fifos.Along Fifos.NotQueued fifos ops)
    (notLastPopped : Fifos.Along Fifos.NotLastPopped fifos ops)
    : memory.performAll (fuel + 1) ops = .ok (fifos.performAll ops) := by
  induction ops generalizing memory fifos with
  | nil => rfl
  | cons op rest ih =>
      obtain ⟨after, replied, still⟩ := hr.perform notQueued.1 notLastPopped.1
      rw [QueueMemory.performAll, replied]
      simp only [bind, Except.bind, ih still notQueued.2 notLastPopped.2]
      rfl

/-- From fresh queues, operations that push no queued item and never the item popped last
all return, and reply exactly as first-in first-out queues.
-/
theorem atomicQueue_fifo {ops : List (QueueOp κ α)} {fuel : Nat} (enough : 0 < fuel)
    (notQueued : Fifos.Along Fifos.NotQueued Fifos.empty ops)
    (notLastPopped : Fifos.Along Fifos.NotLastPopped Fifos.empty ops)
    : QueueMemory.new.performAll fuel ops = .ok (Fifos.empty.performAll ops) := by
  obtain ⟨rounds, rfl⟩ := Nat.exists_eq_succ_of_ne_zero (Nat.pos_iff_ne_zero.mp enough)
  exact represents_new.performAll notQueued notLastPopped

/-- Items 0 and 1 pass through one queue, and item 0 is pushed again after a second pop. -/
theorem atomicQueue_fifo_reuse
    : QueueMemory.new.performAll 1
        [.pushBack () 0, .pushBack () 1, .popFront (), .popFront (), .pushBack () 0,
          .isEmpty (), .popFront (), .popFront ()]
      = .ok [.pushed, .pushed, .popped (some 0), .popped (some 1), .pushed, .empty false,
          .popped (some 0), .popped none] :=
  atomicQueue_fifo (by decide)
    (by simp [Fifos.Along, Fifos.NotQueued, Fifos.perform, Fifos.push, Fifos.pop, Fifos.empty])
    (by simp [Fifos.Along, Fifos.NotLastPopped, Fifos.perform, Fifos.push, Fifos.pop,
      Fifos.empty])

/-- A head node linked to itself never lets a pop return, whatever the fuel. Witness:
induction on the fuel; advancing the lagging tail leads back to the same node.
-/
theorem popLoop_selfLinked {queue : κ} {item : α} (head : memory.loadHead queue = .item item)
    (tail : memory.loadTail queue = .item item)
    (loops : (memory.node (.item item)).next = some item)
    : QueueMemory.popLoop queue fuel memory = .error .outOfFuel := by
  induction fuel generalizing memory with
  | zero => rfl
  | succ fuel ih =>
      simp only [QueueMemory.popLoop, head, tail, if_true, loops]
      refine ih head ?_ loops
      simp [QueueMemory.loadTail, QueueMemory.storeTail]

/-- Pushing the item popped last breaks the queue although the item is in no queue. With
item 1 still queued, pushing item 0 again cuts it off, and the next pop finds nothing. In a
queue emptied by the pop, the item is linked to itself and no later pop returns.
-/
theorem atomicQueue_repush_loses_items
    : (let ops : List (QueueOp Unit Nat) :=
        [.pushBack () 0, .pushBack () 1, .popFront (), .pushBack () 0, .popFront ()]
      Fifos.Along Fifos.NotQueued Fifos.empty ops
      ∧ Fifos.empty.performAll ops
        = [.pushed, .pushed, .popped (some 0), .pushed, .popped (some 1)]
      ∧ ∀ fuel,
          QueueMemory.new.performAll (fuel + 1) ops
          = .ok [.pushed, .pushed, .popped (some 0), .pushed, .popped none])
      ∧ (let ops : List (QueueOp Unit Nat) :=
          [.pushBack () 0, .popFront (), .pushBack () 0, .popFront ()]
        Fifos.Along Fifos.NotQueued Fifos.empty ops
        ∧ ∀ fuel, QueueMemory.new.performAll fuel ops = .error .outOfFuel) := by
  refine ⟨⟨?_, rfl, fun _ => rfl⟩, ?_, fun fuel => ?_⟩
  · simp [Fifos.Along, Fifos.NotQueued, Fifos.perform, Fifos.push, Fifos.pop, Fifos.empty]
  · simp [Fifos.Along, Fifos.NotQueued, Fifos.perform, Fifos.push, Fifos.pop, Fifos.empty]
  · cases fuel with
    | zero => rfl
    | succ fuel =>
        simp [QueueMemory.performAll, QueueMemory.perform, QueueMemory.popFront,
          QueueMemory.popLoop, QueueMemory.pushBack, QueueMemory.pushLoop,
          QueueMemory.loadTail, QueueMemory.loadHead, QueueMemory.storeTail,
          QueueMemory.storeHead, QueueMemory.isLinked, QueueMemory.storeOwned,
          QueueMemory.storeNext, QueueMemory.initOnce, QueueMemory.new, bind, Except.bind,
          pure, Except.pure]
        -- what is left are the rounds of the last pop on the node that links itself
        rw [popLoop_selfLinked rfl rfl rfl]

end Scars

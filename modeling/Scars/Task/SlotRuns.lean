import Scars.Task.SlotLinks

/-! The life of task slots over whole runs.
As long as a task gives up its links before it finishes or is dropped, and is woken only while
it runs, every linked control block belongs to a running task.
-/

namespace Scars

open Runs Executor
open Outcome (Meets)

/-- The value was written once more than dropped if it is alive, and as often if not. -/
def SlotValue.Holds (value : SlotValue) (alive : Bool) : Prop :=
  value.written = value.dropped + alive.toNat

variable {value : SlotValue}

theorem SlotValue.Holds.write (holds : value.Holds false)
    : value.write.Holds true :=
  congrArg (· + 1) holds

theorem SlotValue.Holds.read (holds : value.Holds true)
    : value.read.Holds false :=
  holds

/-- The values that the state says are alive are the ones not dropped yet. -/
structure Slot.Balanced (slot : Slot) : Prop where
  controlBlock : slot.controlBlock.Holds slot.state.hasControlBlock
  future : slot.future.Holds slot.state.hasControlBlock
  output : slot.output.Holds slot.state.hasOutput

namespace Slot.Balanced

variable {slot : Slot}

section

variable (balanced : slot.Balanced)
include balanced

theorem claim : slot.claim.Balanced := by
  obtain ⟨controlBlock, future, output⟩ := balanced
  unfold Slot.claim
  split
  next free =>
    rw [free] at controlBlock future output
    exact ⟨controlBlock, future, output⟩
  next => exact ⟨controlBlock, future, output⟩

theorem init (bare : slot.state.hasControlBlock = false)
    : slot.init.Balanced := by
  obtain ⟨controlBlock, future, output⟩ := balanced
  have noOutput : slot.state.hasOutput = false := by
    cases state : slot.state <;> simp_all [SlotState.hasControlBlock, SlotState.hasOutput]
  rw [bare] at controlBlock future
  rw [noOutput] at output
  exact ⟨controlBlock.write, future.write, output⟩

theorem finish (hrun : slot.state = .running)
    : slot.finish.Balanced := by
  obtain ⟨controlBlock, future, output⟩ := balanced
  rw [hrun] at controlBlock future output
  exact ⟨controlBlock, future, output.write⟩

theorem readOutput (finished : slot.state = .finished)
    : slot.readOutput.Balanced := by
  obtain ⟨controlBlock, future, output⟩ := balanced
  rw [finished] at controlBlock future output
  exact ⟨controlBlock.read, future.read, output.read⟩

/-- Whatever is alive is dropped with the handle, one case for each state. -/
theorem dropHandle : slot.dropHandle.Balanced := by
  obtain ⟨controlBlock, future, output⟩ := balanced
  cases state : slot.state with
  | free | uninit =>
      rw [state] at controlBlock future output
      simpa only [Slot.dropHandle, dropValues, state] using ⟨controlBlock, future, output⟩
  | running =>
      rw [state] at controlBlock future output
      simpa only [Slot.dropHandle, dropValues, state] using
        ⟨controlBlock.read, future.read, output⟩
  | finished =>
      rw [state] at controlBlock future output
      simpa only [Slot.dropHandle, dropValues, state] using
        ⟨controlBlock.read, future.read, output.read⟩

end

end Slot.Balanced

namespace Slots

variable {state : Slots} {task : TaskId} {slot : Slot} {fuel : Nat} {queue : WaitQueueId}

/-- A slot is initialised when it has no control block and its node heads no queue with tasks;
a task is spawned and woken while it runs, the latter with its node free; it has given up its
links when it finishes, and when its handle is dropped while it runs, which is not in its poll.
-/
def proper (state : Slots) : SlotEvent → Bool
  | .init task =>
      !(state.slot task).state.hasControlBlock
        && (decide (state.executor.pendingReadyQueue.loadHead () ≠ .item task)
          || (state.executor.pendingReadyQueue.isEmpty ()).1)
  | .spawn task => decide ((state.slot task).state = .running)
  | .wake task =>
      decide ((state.slot task).state = .running) && state.executor.nodeFree task
  | .endPoll true =>
      match state.polled with
      | some task => !state.linked task
      | none => true
  | .notifyOne queue =>
      match state.waits.queue queue with
      | .task task :: _ => state.executor.nodeFree task
      | _ => true
  | .dropHandle task =>
      decide ((state.slot task).state ≠ .running)
        || (!state.linked task && decide (state.polled ≠ some task))
  | _ => true

/-- Linked and polled tasks are running, and every slot has the values its state says. -/
structure Tidy (state : Slots) : Prop where
  executor : state.executor.Within fun task => (state.slot task).state = .running
  placed : state.waits.Placed
  waiting
    : ∀ task, (state.waits.owner (.task task)).isSome = true → (state.slot task).state = .running
  polled : ∀ task, state.polled = some task → (state.slot task).state = .running
  balanced : ∀ task, (state.slot task).Balanced

theorem tidy_start (kind : ExecutorKind) : Tidy (start kind) where
  executor := within_new kind
  placed := .start
  waiting := by simp [start, WaitQueues.start]
  polled := nofun
  balanced _ := ⟨rfl, rfl, rfl⟩

theorem linked_iff
    : state.linked task = true
      ↔ (state.executor.pendingReadyQueue.isLinked task = true
          ∨ task ∈ state.executor.readyQueue
          ∨ task ∈ state.executor.sleepQueue
          ∨ task ∈ state.executor.wfiQueue)
        ∨ (state.waits.owner (.task task)).isSome = true := by
  simp only [linked, inSleepList, Bool.or_eq_true, List.contains_iff_mem]
  grind

section

variable (tidy : Tidy state)
include tidy

theorem Tidy.running_of_linked (linked : state.linked task = true)
    : (state.slot task).state = .running := by
  rcases linked_iff.mp linked with (pending | ready | sleep | wfi) | waiting
  · exact tidy.executor.pending task pending
  · exact tidy.executor.ready task ready
  · exact tidy.executor.sleep task sleep
  · exact tidy.executor.wfi task wfi
  · exact tidy.waiting task waiting

theorem Tidy.loose (stopped : (state.slot task).state ≠ .running)
    : state.linked task = false ∧ state.polled ≠ some task :=
  ⟨Bool.eq_false_iff.mpr fun linked => stopped (tidy.running_of_linked linked),
    fun polled => stopped (tidy.polled task polled)⟩

theorem Tidy.setSlot (balanced : slot.Balanced)
    (kept
      : slot.state = .running ∨ (state.linked task = false ∧ state.polled ≠ some task))
    : Tidy (state.setSlot task slot) := by
  have runs (other : TaskId) (here : state.linked other = true ∨ state.polled = some other)
      (hrun : (state.slot other).state = .running)
      : ((state.setSlot task slot).slot other).state = .running := by
    by_cases he : other = task
    case neg => simpa [Slots.setSlot, he] using hrun
    case pos =>
        subst he
        rcases kept with stays | ⟨loose, idle⟩
        · simpa [Slots.setSlot] using stays
        · rcases here with linked | polled
          · rw [loose] at linked
            cases linked
          · exact absurd polled idle
  refine ⟨tidy.executor.mono fun other here hrun => ?_, tidy.placed, fun other waits => ?_,
    fun other polled => ?_, fun other => ?_⟩
  · exact runs other (.inl (linked_iff.mpr (.inl here))) hrun
  · exact runs other (.inl (linked_iff.mpr (.inr waits))) (tidy.waiting other waits)
  · exact runs other (.inr polled) (tidy.polled other polled)
  · by_cases he : other = task
    case pos => simpa [Slots.setSlot, he] using balanced
    case neg => simpa [Slots.setSlot, he] using tidy.balanced other

theorem Tidy.onExecutor {operation : Executor → Except Fault Executor}
    (meets
      : Meets (Within fun task => (state.slot task).state = .running) (fun _ => True)
          (operation state.executor))
    : Meets Tidy (fun _ => True) (state.onExecutor operation) :=
  meets.bind fun _ within => ⟨within, tidy.placed, tidy.waiting, tidy.polled, tidy.balanced⟩

theorem Tidy.claim (task : TaskId)
    : Tidy (state.setSlot task (state.slot task).claim) := by
  refine tidy.setSlot (tidy.balanced task).claim ?_
  cases here : (state.slot task).state with
  | running => simp [Slot.claim, here]
  | free | uninit | finished => exact .inr (tidy.loose (by simp [here]))

/-- The new control block is linked nowhere, and the queues do not run through its memory. -/
theorem Tidy.init (fresh : proper state (.init task) = true)
    : Meets Tidy (fun _ => True) (state.init task) := by
  simp only [proper, Bool.and_eq_true, Bool.not_eq_true', Bool.or_eq_true,
    decide_eq_true_eq] at fresh
  obtain ⟨bare, head⟩ := fresh
  unfold Slots.init
  split
  · exact True.intro
  next unlinked =>
    have set : Tidy (state.setSlot task (state.slot task).init) :=
      tidy.setSlot ((tidy.balanced task).init bare) (.inl rfl)
    have free : state.executor.pendingReadyQueue.isLinked task = false :=
      Bool.eq_false_iff.mpr fun linked => unlinked (linked_iff.mpr (.inl (.inl linked)))
    have intact : (state.executor.pendingReadyQueue.resetNode task).Intact :=
      tidy.executor.intact.resetNode free fun is => head.resolve_left fun not => not is
    refine ⟨⟨intact, fun other linked => ?_, set.executor.ready, set.executor.sleep,
      set.executor.wfi⟩, set.placed, set.waiting, set.polled, set.balanced⟩
    exact set.executor.pending other ((QueueMemory.resetNode_isLinked free other).symm.trans linked)

theorem Tidy.wake (hrun : (state.slot task).state = .running)
    (free : state.executor.nodeFree task = true)
    : Meets Tidy (fun _ => True) (state.onExecutor (Executor.resumeTask fuel task)) := by
  obtain ⟨unlinked, notHead⟩ :
      state.executor.pendingReadyQueue.isLinked task = false
      ∧ state.executor.pendingReadyQueue.loadHead () ≠ .item task := by
    simpa [nodeFree] using free
  exact tidy.onExecutor (keepsWithin_resumeTask hrun tidy.executor unlinked notHead)

theorem Tidy.endPoll {finished : Bool} (clean : proper state (.endPoll finished) = true)
    : Meets Tidy (fun _ => True) (state.step fuel (.endPoll finished)) := by
  simp only [Slots.step]
  split
  · exact True.intro
  next task here =>
    have idle : Tidy { state with polled := none } :=
      ⟨tidy.executor, tidy.placed, tidy.waiting, nofun, tidy.balanced⟩
    cases finished with
    | false => exact idle
    | true =>
        have unlinked : state.linked task = false := by simpa [proper, here] using clean
        exact idle.setSlot ((tidy.balanced task).finish (tidy.polled task here))
          (.inr ⟨unlinked, nofun⟩)

theorem Tidy.asyncWait {waiterQueued : Bool}
    : Meets Tidy (fun _ => True) (state.step fuel (.asyncWait queue waiterQueued)) := by
  simp only [Slots.step]
  split
  · exact True.intro
  next task here =>
    cases waiterQueued with
    | true => exact ⟨tidy.executor, tidy.placed, tidy.waiting, tidy.polled, tidy.balanced⟩
    | false =>
        cases waits : state.waits.pollAsyncWait queue task false with
        | error fault => exact True.intro
        | ok outcome =>
            have arrives := WaitQueues.pollAsyncWait_ok waits
            have placed := tidy.placed.link arrives
            obtain ⟨_, he⟩ := WaitQueues.link_ok arrives
            refine ⟨tidy.executor, placed, fun other owned => ?_, tidy.polled, tidy.balanced⟩
            by_cases equal : other = task
            case pos => exact equal ▸ tidy.polled task here
            case neg => exact tidy.waiting other (by simpa [he, equal] using owned)

theorem Tidy.notifyOne (free : proper state (.notifyOne queue) = true)
    : Meets Tidy (fun _ => True) (state.step fuel (.notifyOne queue)) := by
  have placed := tidy.placed.popFront queue
  simp only [Slots.step, WaitQueues.notifyOne]
  cases here : state.waits.queue queue with
  | nil =>
      simp only [WaitQueues.popFront, here]
      exact tidy
  | cons waiter rest =>
      rw [WaitQueues.popFront_cons here] at placed ⊢
      have popped : Tidy { state with waits := { state.waits with
          queue := Function.update state.waits.queue queue rest
          owner := Function.update state.waits.owner waiter none } } := by
        refine ⟨tidy.executor, placed, fun other owned => tidy.waiting other ?_, tidy.polled,
          tidy.balanced⟩
        by_cases he : .task other = waiter
        case pos => simp [he] at owned
        case neg => simpa [he] using owned
      cases waiter with
      | suspendable suspendable => exact popped
      | task task =>
          have owned := tidy.placed.owner queue (.task task) (by simp [here])
          exact popped.wake (tidy.waiting task (by simp [owned]))
            (by simpa [proper, here] using free)

theorem Tidy.dropControlBlock (slot : Slot)
    : Meets Tidy (fun _ => True) (state.dropControlBlock fuel slot) := by
  unfold Slots.dropControlBlock
  split
  · exact tidy.onExecutor (keepsWithin_resumePendingTasks fuel true _ tidy.executor)
  · exact tidy

/-- A proper step that returns keeps the slots tidy. -/
theorem Tidy.step {event : SlotEvent} (well : proper state event = true)
    : Meets Tidy (fun _ => True) (state.step fuel event) := by
  cases event with
  | claim task => exact tidy.claim task
  | init task => exact tidy.init well
  | spawn task =>
      have hrun : (state.slot task).state = .running := by simpa [proper] using well
      simp only [Slots.step]
      split
      · exact True.intro
      · exact tidy.onExecutor (keepsWithin_spawn hrun _ tidy.executor)
  | wake task =>
      obtain ⟨hrun, free⟩
        : (state.slot task).state = .running ∧ state.executor.nodeFree task = true := by
        simpa [proper] using well
      exact tidy.wake hrun free
  | resume resumption clock =>
      exact tidy.onExecutor (keepsWithin_resume fuel clock resumption _ tidy.executor)
  | poll =>
      simp only [Slots.step]
      split
      next task executor _ popped =>
        obtain ⟨hrun, within⟩ := tidy.executor.popReady popped
        refine ⟨within, tidy.placed, tidy.waiting, fun other he => ?_, tidy.balanced⟩
        rw [← Option.some.inj he]
        exact hrun
      next => exact True.intro
  | endPoll finished => exact tidy.endPoll well
  | sleepUntil deadline =>
      simp only [Slots.step, onPolled]
      split
      next task here =>
        have hrun := tidy.polled task here
        exact tidy.onExecutor (keepsWithin_taskSleepUntil hrun deadline _ tidy.executor)
      next => exact True.intro
  | waitForInterrupt =>
      simp only [Slots.step, onPolled]
      split
      next task here =>
        have hrun := tidy.polled task here
        exact tidy.onExecutor (keepsWithin_taskWaitForInterrupt hrun _ tidy.executor)
      next => exact True.intro
  | asyncWait queue waiterQueued => exact tidy.asyncWait
  | notifyOne queue => exact tidy.notifyOne well
  | readOutput task =>
      simp only [Slots.step]
      split
      · split
        next finished =>
          refine Tidy.dropControlBlock ?_ _
          exact tidy.setSlot ((tidy.balanced task).readOutput finished)
            (.inr (tidy.loose (by simp [finished])))
        next => exact tidy
      · exact True.intro
  | dropHandle task =>
      simp only [Slots.step]
      split
      · have loose : state.linked task = false ∧ state.polled ≠ some task := by
          simp only [proper, Bool.or_eq_true, Bool.and_eq_true, Bool.not_eq_true',
            decide_eq_true_eq] at well
          exact well.elim tidy.loose id
        refine Tidy.dropControlBlock ?_ _
        exact tidy.setSlot (tidy.balanced task).dropHandle (.inr loose)
      · exact True.intro

end

/-- In every state that a proper run reaches: the task polled, and the one that a poll would take
next, is running; a free slot's control block is linked nowhere and the pending queue is intact; and
every control block, future and output that is not alive was dropped or moved out as often as it
was written. Witness: the invariant of the run.
-/
theorem slot_lifecycle (kind : ExecutorKind) (fuel : Nat) (state : Slots)
    (reached
      : Reaches (step fuel) (fun state event => proper state event = true) (start kind) state)
    : (∀ task, state.polled = some task ∨ task ∈ state.executor.readyQueue
        → (state.slot task).state = .running)
      ∧ (∀ task, (state.slot task).state = .free → state.linked task = false)
      ∧ state.executor.pendingReadyQueue.Intact
      ∧ ∀ task, (state.slot task).Balanced := by
  have tidy : Tidy state :=
    reached.invariant Tidy (tidy_start kind) fun _ _ _ tidy well hs =>
      (tidy.step well).of_ok hs
  refine ⟨fun task here => ?_, fun task free => ?_, tidy.executor.intact, tidy.balanced⟩
  · exact here.elim (tidy.polled task) (tidy.executor.ready task)
  · exact (tidy.loose (by simp [free])).1

/-- Task 1 sleeps, is woken by the timer and finishes; its output is read and the slot used
again.
-/
def twoLives : List SlotEvent :=
  [.claim 1, .init 1, .spawn 1, .poll, .sleepUntil 5, .endPoll false,
    .resume .sleeping fun _ => 9, .poll, .endPoll true, .readOutput 1, .claim 1, .init 1, .spawn 1]

theorem slot_lifecycle_reused
    : ∃ state, run (step 3) (start .thread) twoLives = .ok state
        ∧ state.executor.readyQueue = [1]
        ∧ (state.slot 1).state = .running
        ∧ (state.slot 1).output = ⟨1, 1⟩
        ∧ (state.slot 1).Balanced := by
  obtain ⟨state, ran⟩ : ∃ state, run (step 3) (start .thread) twoLives = .ok state := ⟨_, rfl⟩
  have ready : state.executor.readyQueue = [1] :=
    view_of_ok (fun state : Slots => state.executor.readyQueue) ran rfl
  have output : (state.slot 1).output = ⟨1, 1⟩ :=
    view_of_ok (fun state : Slots => (state.slot 1).output) ran rfl
  have reached := Reaches.run_allowed proper .here (by decide) ran
  obtain ⟨hrun, _, _, balanced⟩ := slot_lifecycle .thread 3 state reached
  exact ⟨state, ran, ready, hrun 1 (.inr (by simp [ready])), output, balanced 1⟩

/-- The handle of a spawned task is dropped: the slot is free, and its control block still in the
ready queue, from where the next poll takes it.
-/
theorem freed_slot_is_polled
    : ∃ state, run (step 3) (start .thread) [.init 1, .spawn 1, .dropHandle 1] = .ok state
        ∧ (state.slot 1).state = .free
        ∧ state.linked 1 = true
        ∧ ∃ next, state.step 3 .poll = .ok next
            ∧ next.polled = some 1
            ∧ (next.slot 1).state = .free :=
  ⟨_, rfl, rfl, rfl, _, rfl, rfl, rfl⟩

end Slots

end Scars

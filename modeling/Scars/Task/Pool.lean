import Scars.Foundation.Answers
import Scars.Task.Slots

/-! `TaskPool`: from the allocation of a slot to the consumption of its handle.
A slot is initialised before its executor is known, with an executor that has no priority to give
to the task's waiter.
-/

namespace Scars

open Runs Answers Function

/-- `LocalExecutor`, with the priority that the executor it refers to has. -/
inductive LocalExecutor where
  | none
  | thread (priority : Priority)
  | interrupt (priority : Priority)
  deriving DecidableEq, Repr

inductive PoolFault where
  /-- "No executor found" -/
  | noExecutor
  | slots (fault : Fault)
  /-- The types offer no such call. -/
  | notCallable
  deriving DecidableEq, Repr

namespace LocalExecutor

def priority : LocalExecutor → Except PoolFault Priority
  | .none => .error .noExecutor
  | .thread priority => .ok priority
  | .interrupt priority => .ok priority

/-- An executor of this kind and priority. -/
def of : ExecutorKind → Priority → LocalExecutor
  | .thread => .thread
  | .interrupt => .interrupt

def kind : LocalExecutor → ExecutorKind
  | .none => .thread
  | .thread _ => .thread
  | .interrupt _ => .interrupt

end LocalExecutor

/-- What refers to a slot: nothing, the `TaskBuilder` of an allocated one, the `InitializedTask`
of an attached one, or the `JoinHandle` of a spawned one.
-/
inductive SlotOwner where
  | pool
  | builder
  | initialized
  | joinHandle
  deriving DecidableEq, Repr

/-- `TaskPool<F, N>`, with the executor that its tasks are spawned on. -/
structure TaskPool where
  size : Nat
  localExecutor : LocalExecutor
  slots : Slots
  /-- `RawTask::executor`. -/
  executor : TaskId → LocalExecutor := fun _ => .none
  /-- The priority of `RawTask::waiter`, once it is written. -/
  waiterPriority : TaskId → Option Priority := fun _ => none
  owner : TaskId → SlotOwner := fun _ => .pool

namespace TaskPool

def new (size : Nat) (localExecutor : LocalExecutor) : TaskPool where
  size := size
  localExecutor := localExecutor
  slots := .start localExecutor.kind

/-- An operation on the slots and the executor. -/
def onSlots (fuel : Nat) (event : SlotEvent) (pool : TaskPool) : Except PoolFault TaskPool :=
  match pool.slots.step fuel event with
  | .ok slots => .ok { pool with slots }
  | .error fault => .error (.slots fault)

def setOwner (task : TaskId) (owner : SlotOwner) (pool : TaskPool) : TaskPool :=
  { pool with owner := update pool.owner task owner }

/-- `TaskPool::alloc`: the first slot that can be claimed. -/
def alloc (pool : TaskPool) : Option TaskId × TaskPool :=
  match (List.range pool.size).find? fun task => (pool.slots.slot task).state == .free with
  | none => (none, pool)
  | some task =>
      (some task,
        { pool with slots := pool.slots.setSlot task (pool.slots.slot task).claim }.setOwner task
          .builder)

/-- `Task::init`; the waiter gets the priority that the executor has now. -/
def init (fuel : Nat) (task : TaskId) (executor : LocalExecutor) (pool : TaskPool)
    : Except PoolFault TaskPool := do
  let priority ← executor.priority
  let pool ← pool.onSlots fuel (.init task)
  return { pool with
    executor := update pool.executor task executor
    waiterPriority := update pool.waiterPriority task (some priority) }

/-- `TaskBuilder::attach`; the task is initialised without an executor. -/
def attach (fuel : Nat) (task : TaskId) (pool : TaskPool) : Except PoolFault TaskPool := do
  let pool ← pool.init fuel task .none
  return pool.setOwner task .initialized

/-- `LocalExecutor::spawn`, with `InitializedTask::with_executor`. -/
def spawn (fuel : Nat) (task : TaskId) (pool : TaskPool) : Except PoolFault TaskPool := do
  let _ ← pool.localExecutor.priority
  let pool :=
    { pool with executor := update pool.executor task pool.localExecutor }
  let pool ← pool.onSlots fuel (.spawn task)
  return pool.setOwner task .joinHandle

/-- The executor polls its next ready task, and the future is finished. -/
def complete (fuel : Nat) (pool : TaskPool) : Except PoolFault TaskPool := do
  let pool ← pool.onSlots fuel .poll
  pool.onSlots fuel (.endPoll true)

/-- A handle is dropped; a control block that is dropped with it calls its executor. -/
def dropHandle (fuel : Nat) (task : TaskId) (pool : TaskPool) : Except PoolFault TaskPool := do
  if (pool.slots.slot task).state.hasControlBlock then
    let _ ← (pool.executor task).priority
  let pool ← pool.onSlots fuel (.dropHandle task)
  return pool.setOwner task .pool

/-- The output of a finished task is read, and its handle dropped. -/
def readOutput (fuel : Nat) (task : TaskId) (pool : TaskPool) : Except PoolFault TaskPool := do
  let _ ← (pool.executor task).priority
  let pool ← pool.onSlots fuel (.readOutput task)
  pool.dropHandle fuel task

end TaskPool

inductive PoolOp where
  | alloc
  | attach (task : TaskId)
  | spawn (task : TaskId)
  | complete
  | dropHandle (task : TaskId)
  | readOutput (task : TaskId)
  deriving DecidableEq, Repr

inductive PoolAnswer where
  | allocated (task : Option TaskId)
  | attached
  /-- The state of the spawned slot, how often the ready queue has it, and the priority of its
  waiter.
  -/
  | spawned (state : SlotState) (links : Nat) (waiterPriority : Option Priority)
  | completed
  /-- The state of a slot whose handle has been consumed. -/
  | consumed (state : SlotState)
  deriving DecidableEq, Repr

/-- How far a slot is. -/
inductive PoolStage where
  | free
  | built
  | attached
  | ready
  | finished
  deriving DecidableEq, Repr

/-- What a pool has to remember: the stage of each slot, and the tasks made ready in order. -/
structure PoolSpec where
  stage : TaskId → PoolStage := fun _ => .free
  queue : List TaskId := []

namespace PoolSpec

def setStage (task : TaskId) (stage : PoolStage) (spec : PoolSpec) : PoolSpec :=
  { spec with stage := update spec.stage task stage }

/-- The number of slots that are claimed. -/
def claimed (size : Nat) (spec : PoolSpec) : Nat :=
  (List.range size).countP fun task => spec.stage task != .free

/-- What a pool of this size has to do for an executor of this priority. -/
def perform (size : Nat) (priority : Priority) (spec : PoolSpec) : PoolOp → PoolAnswer × PoolSpec
  | .alloc =>
      if spec.claimed size < size then
        match (List.range size).find? fun task => spec.stage task == .free with
        | some task => (.allocated (some task), spec.setStage task .built)
        | none => (.allocated none, spec)
      else
        (.allocated none, spec)
  | .attach task => (.attached, spec.setStage task .attached)
  | .spawn task =>
      (.spawned .running 1 (some priority),
        { spec.setStage task .ready with queue := spec.queue ++ [task] })
  | .complete =>
      match spec.queue with
      | task :: rest => (.completed, { spec.setStage task .finished with queue := rest })
      | [] => (.completed, spec)
  | .dropHandle task =>
      (.consumed .free, { spec.setStage task .free with queue := spec.queue.erase task })
  | .readOutput task => (.consumed .free, spec.setStage task .free)

/-- What the types allow: each of builder, initialised task and handle is used once, and an
output is read when there is one.
-/
def Allows (spec : PoolSpec) : PoolOp → Prop
  | .alloc => True
  | .attach task => spec.stage task = .built
  | .spawn task => spec.stage task = .attached
  | .complete => spec.queue ≠ []
  | .dropHandle task => spec.stage task = .ready ∨ spec.stage task = .finished
  | .readOutput task => spec.stage task = .finished

/-- Every operation of a sequence is allowed. -/
def AllowsAll (size : Nat) (priority : Priority) (spec : PoolSpec) : List PoolOp → Prop
  | [] => True
  | op :: later =>
      spec.Allows op ∧ AllowsAll size priority (spec.perform size priority op).2 later

end PoolSpec

namespace TaskPool

/-- What can be seen of a spawned slot. -/
def spawnedAnswer (task : TaskId) (pool : TaskPool) : PoolAnswer :=
  .spawned (pool.slots.slot task).state (pool.slots.executor.readyQueue.count task)
    (pool.waiterPriority task)

def perform (fuel : Nat) (pool : TaskPool) : PoolOp → Except PoolFault (PoolAnswer × TaskPool)
  | .alloc =>
      let (task, pool) := pool.alloc
      .ok (.allocated task, pool)
  | .attach task =>
      if pool.owner task = .builder then do
        let pool ← pool.attach fuel task
        return (.attached, pool)
      else
        .error .notCallable
  | .spawn task =>
      if pool.owner task = .initialized then do
        let pool ← pool.spawn fuel task
        return (pool.spawnedAnswer task, pool)
      else
        .error .notCallable
  | .complete => do
      let pool ← pool.complete fuel
      return (.completed, pool)
  | .dropHandle task =>
      if pool.owner task = .joinHandle then do
        let pool ← pool.dropHandle fuel task
        return (.consumed (pool.slots.slot task).state, pool)
      else
        .error .notCallable
  | .readOutput task =>
      if pool.owner task = .joinHandle then do
        let pool ← pool.readOutput fuel task
        return (.consumed (pool.slots.slot task).state, pool)
      else
        .error .notCallable

variable {pool : TaskPool} {spec : PoolSpec} {size fuel : Nat} {priority : Priority}

/-- The slots that are claimed. -/
def claimed (pool : TaskPool) : Nat :=
  (List.range pool.size).countP fun task => (pool.slots.slot task).state != .free

/-- In a list some element fails a test exactly when fewer than all pass it. -/
theorem find?_isSome_iff_countP {α : Type} (list : List α) (passes : α → Bool)
    : (list.find? fun item => !passes item).isSome = true ↔ list.countP passes < list.length := by
  rw [List.find?_isSome]
  constructor
  · rintro ⟨item, hm, fails⟩
    refine Nat.lt_of_le_of_ne List.countP_le_length fun all => ?_
    have passing := List.countP_eq_length.mp all item hm
    simp [passing] at fails
  · intro fewer
    by_contra none
    refine Nat.lt_irrefl _ (Nat.lt_of_lt_of_eq fewer (List.countP_eq_length.mpr ?_).symm)
    intro item hm
    by_contra fails
    exact none ⟨item, hm, by simpa using fails⟩

theorem alloc_isSome_iff (pool : TaskPool)
    : pool.alloc.1.isSome = true ↔ pool.claimed < pool.size := by
  have found : ((List.range pool.size).find? fun task =>
        (pool.slots.slot task).state == .free).isSome = true
      ↔ pool.claimed < pool.size := by
    have test := find?_isSome_iff_countP (List.range pool.size)
      fun task => (pool.slots.slot task).state != .free
    simpa only [claimed, bne, Bool.not_not, List.length_range] using test
  rw [← found]
  unfold alloc
  split
  next none => simp [none]
  next task first => simp [first]

/-- Before anything is attached: a slot is free, or allocated and in the hands of its builder. -/
structure Allocating (size : Nat) (pool : TaskPool) (spec : PoolSpec) : Prop where
  size : pool.size = size
  slot
    : ∀ task,
        ((pool.slots.slot task).state = .free ∧ spec.stage task = .free)
        ∨ ((pool.slots.slot task).state = .uninit ∧ spec.stage task = .built
          ∧ pool.owner task = .builder)
  queue : spec.queue = []

theorem allocating_new (size : Nat) (executor : LocalExecutor)
    : Allocating size (new size executor) {} :=
  ⟨rfl, fun _ => Or.inl ⟨rfl, rfl⟩, rfl⟩

theorem Allocating.free_iff (allocating : Allocating size pool spec) (task : TaskId)
    : ((pool.slots.slot task).state == .free) = (spec.stage task == .free) := by
  rcases allocating.slot task with ⟨state, stage⟩ | ⟨state, stage, -⟩
  · simp [state, stage]
  · simp [state, stage]

/-- An allocation does what it has to. Witness: both choose the first free slot. -/
theorem Allocating.alloc (allocating : Allocating size pool spec)
    : pool.perform fuel .alloc = .ok ((spec.perform size priority .alloc).1, pool.alloc.2)
      ∧ Allocating size pool.alloc.2 (spec.perform size priority .alloc).2 := by
  have sameTest : (fun task => (pool.slots.slot task).state == .free)
      = fun task => spec.stage task == .free := funext allocating.free_iff
  have counts : pool.claimed = spec.claimed size := by
    unfold TaskPool.claimed PoolSpec.claimed
    rw [allocating.size]
    refine List.countP_congr fun task _ => ?_
    simp only [bne, allocating.free_iff]
  have succeeds := pool.alloc_isSome_iff
  rw [counts, allocating.size] at succeeds
  unfold TaskPool.alloc at succeeds
  simp only [TaskPool.perform, PoolSpec.perform, TaskPool.alloc]
  rw [sameTest, allocating.size] at succeeds ⊢
  cases first : (List.range size).find? fun task => spec.stage task == .free with
  | none =>
      rw [first] at succeeds
      have full : ¬ spec.claimed size < size := by simpa using succeeds
      rw [if_neg full]
      exact ⟨rfl, allocating⟩
  | some task =>
      rw [first] at succeeds
      have room : spec.claimed size < size := by simpa using succeeds
      rw [if_pos room]
      refine ⟨rfl, rfl, fun other => ?_, allocating.queue⟩
      have free : spec.stage task = .free := by simpa using List.find?_some first
      have state : (pool.slots.slot task).state = .free := by
        have he := allocating.free_iff task
        simpa [free] using he
      by_cases he : other = task
      case pos =>
          subst he
          exact Or.inr ⟨by simp [Slots.setSlot, setOwner, Slot.claim, state],
            by simp [PoolSpec.setStage], by simp [setOwner]⟩
      case neg =>
          simpa [Slots.setSlot, setOwner, PoolSpec.setStage, he] using allocating.slot other

/-- Every attach panics: the executor that it initialises the task with has no priority. -/
theorem perform_attach (task : TaskId)
    : ∀ result, pool.perform fuel (.attach task) ≠ .ok result := by
  intro result attached
  simp only [perform] at attached
  split at attached
  · obtain ⟨after, attaches, -⟩ := bind_ok.mp attached
    obtain ⟨initialized, initializes, -⟩ := bind_ok.mp attaches
    obtain ⟨priority, known, -⟩ := bind_ok.mp initializes
    cases known
  · cases attached

/-- From a pool with nothing attached, the answers are right exactly when nothing is attached
later either. Witness: induction on the operations; without an attach only allocations are
allowed.
-/
theorem Allocating.agrees_iff (allocating : Allocating size pool spec) {ops : List PoolOp}
    (ha : PoolSpec.AllowsAll size priority spec ops)
    : Agrees (perform fuel) (PoolSpec.perform size priority) (fun _ _ => True) pool spec ops
      ↔ ∀ task, .attach task ∉ ops := by
  induction ops generalizing pool spec with
  | nil => exact ⟨fun _ _ => by simp, fun _ => ⟨pool, rfl, trivial⟩⟩
  | cons op later ih =>
      obtain ⟨allows, allowsLater⟩ := ha
      -- what comes after an attach cannot be asked for yet
      have stages (task : TaskId) : spec.stage task = .free ∨ spec.stage task = .built :=
        (allocating.slot task).imp And.right fun built => built.2.1
      cases op with
      | alloc =>
          obtain ⟨hp, next⟩ := allocating.alloc
          rw [agrees_cons_iff hp, ih next allowsLater]
          simp
      | attach task =>
          refine iff_of_false ?_ fun absent => absent task (by simp)
          exact not_agrees_of_first fun middle => perform_attach task _
      | spawn task =>
          have attached : spec.stage task = .attached := allows
          rcases stages task with stage | stage <;> simp [stage] at attached
      | complete => exact absurd allocating.queue allows
      | dropHandle task =>
          have spawned : spec.stage task = .ready ∨ spec.stage task = .finished := allows
          rcases stages task with stage | stage <;> simp [stage] at spawned
      | readOutput task =>
          have finished : spec.stage task = .finished := allows
          rcases stages task with stage | stage <;> simp [stage] at finished

/-- For every pool size, every executor and every sequence of operations that the types allow,
all answers are as they have to be exactly when nothing is attached. In every state of a pool,
whatever led to it, an allocation succeeds exactly when fewer slots are claimed than there are.
-/
theorem pool_lawful_iff_nothing_attached (size fuel : Nat) (kind : ExecutorKind)
    (priority : Priority) {ops : List PoolOp} (ha : PoolSpec.AllowsAll size priority {} ops)
    : ((∃ final,
          answers (perform fuel) (new size (.of kind priority)) ops
            = .ok ((specified (PoolSpec.perform size priority) {} ops).1, final))
        ↔ ∀ task, .attach task ∉ ops)
      ∧ ∀ pool : TaskPool, pool.alloc.1.isSome = true ↔ pool.claimed < pool.size := by
  refine ⟨?_, alloc_isSome_iff⟩
  have agrees : Agrees (perform fuel) (PoolSpec.perform size priority) (fun _ _ => True)
      (new size (.of kind priority)) {} ops ↔ ∀ task, .attach task ∉ ops :=
    (allocating_new size (.of kind priority)).agrees_iff ha
  rw [← agrees]
  unfold Agrees
  simp only [and_true]

/-- Two slots of a pool of two are allocated, and a third allocation fails. -/
theorem pool_lawful_iff_nothing_attached_full
    : (specified (PoolSpec.perform 2 (.thread 3)) {} [.alloc, .alloc, .alloc]).1
        = [.allocated (some 0), .allocated (some 1), .allocated none]
      ∧ ∃ final,
          answers (perform 1) (new 2 (.of .thread (.thread 3))) [.alloc, .alloc, .alloc]
            = .ok ((specified (PoolSpec.perform 2 (.thread 3)) {} [.alloc, .alloc, .alloc]).1,
                final) := by
  refine ⟨rfl, ?_⟩
  refine (pool_lawful_iff_nothing_attached 2 1 .thread (.thread 3) ?_).1.mpr (by simp)
  exact ⟨trivial, trivial, trivial, trivial⟩

/-- The first task that is attached panics for lack of an executor. -/
theorem attach_finds_no_executor
    : answers (perform 1) (new 2 (.of .thread (.thread 3))) [.alloc, .attach 0]
      = .error .noExecutor := rfl

end TaskPool

end Scars

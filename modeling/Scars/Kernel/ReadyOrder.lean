import Scars.Kernel.DueSleepers

/-! The order of the ready queue among equals.
Lock holders stand in front. The others stand in the order in which they became ready, which
a run records next to the kernel.
-/

namespace Scars

open Runs OrderedInsert

namespace Kernel

/-- The thread that `resume_thread` puts into the ready queue, if it does. -/
def readiedByResume (kernel : Kernel) (thread : ThreadId) : List ThreadId :=
  match kernel.state thread with
  | .blocked => [thread]
  | .suspended => [thread]
  | .started => [thread]
  | _ => []

/-- The thread that `wakeup_suspendable` puts into the ready queue, if it does. -/
def readiedByWakeup (kernel : Kernel) : Suspendable → List ThreadId
  | .thread thread => if kernel.state thread = .blocked then [thread] else []
  | .interrupt _ => []

/-- The previous thread, when a reschedule replaces it. The idle thread is never queued. -/
def readiedBySwitch (kernel : Kernel) (kind : Nat) : List ThreadId :=
  match kernel.readyQueue with
  | [] => []
  | head :: _ =>
      if kernel.mayReplaceCurrent kind head ∧ head ≠ kernel.currentThread
          ∧ kernel.currentThread ≠ IDLE_THREAD_ID then
        [kernel.currentThread]
      else
        []

/-- The threads a reschedule makes ready: the due sleepers in turn, then the thread it
switches away from.
-/
def readiedByReschedule (fuel kind : Nat) (now : Instant) (kernel : Kernel) : List ThreadId :=
  match wakeDue fuel now (kernel.sleepQueue.length + 1) kernel with
  | .ok awake =>
      (kernel.dueSleepers now).flatMap kernel.readiedByWakeup ++ awake.readiedBySwitch kind
  | .error _ => []

/-- The threads an operation puts into the ready queue, in this order. -/
def readied (fuel : Nat) (kernel : Kernel) : Op → List ThreadId
  | .start thread => (kernel.setState thread .started).readiedByResume thread
  | .resume thread => kernel.readiedByResume thread
  | .wakeupNext =>
      match kernel.sleepQueue with
      | [] => []
      | head :: _ => kernel.readiedByWakeup head
  | .reschedule kind now => kernel.readiedByReschedule fuel kind now
  | .executePendingReschedule now =>
      if kernel.pendingRescheduleKind = RESCHEDULE_KIND_NONE then
        []
      else
        { kernel with pendingRescheduleKind := RESCHEDULE_KIND_NONE }.readiedByReschedule fuel
          kernel.pendingRescheduleKind now
  | .notifyNext queue =>
      match kernel.waitQueue queue with
      | .thread thread :: _ => kernel.readiedByResume thread
      | _ => []
  | .sendEvents thread events =>
      if ((kernel.events thread).sendEvents events).1 then
        kernel.readiedByResume thread
      else
        []
  | _ => []

end Kernel

/-- A kernel, and the threads in the order in which each last became ready. -/
structure Logged where
  kernel : Kernel
  arrived : List ThreadId

/-- The last arrival of a thread replaces its earlier ones. -/
def arrive (arrived : List ThreadId) (thread : ThreadId) : List ThreadId :=
  arrived.filter (· != thread) ++ [thread]

def Logged.perform (fuel : Nat) (logged : Logged) (op : Op) : Except Fault Logged :=
  (logged.kernel.perform fuel op).map fun kernel =>
    ⟨kernel, (logged.kernel.readied fuel op).foldl arrive logged.arrived⟩

namespace Kernel

variable {kernel kernel' : Kernel} {thread : ThreadId}

/-- A ready thread of this priority that holds no lock. -/
def isUnlocked (kernel : Kernel) (priority : Priority) (thread : ThreadId) : Bool :=
  !(kernel.lockPriority thread).isValid && decide (kernel.priority thread = priority)

/-- Among equals, the threads without locks stand in their order of arrival. -/
def InArrivalOrder (arrived : List ThreadId) (kernel : Kernel) : Prop :=
  ∀ priority, (kernel.readyQueue.filter (kernel.isUnlocked priority)).Sublist arrived

theorem sublist_arrive {queue arrived : List ThreadId} (ordered : queue.Sublist arrived)
    (absent : thread ∉ queue)
    : (queue ++ [thread]).Sublist (arrive arrived thread) := by
  have kept := ordered.filter (· != thread)
  have he : queue.filter (· != thread) = queue := by
    refine List.filter_eq_self.mpr fun other hm => ?_
    simp only [bne_iff_ne]
    exact fun isThread => absent (isThread ▸ hm)
  rw [he] at kept
  exact kept.append (.refl _)

/-- A step of the scheduler that makes these threads ready, one after the other. -/
structure Readies (readied : List ThreadId) (kernel kernel' : Kernel) : Prop where
  scheduling : kernel.Scheduling kernel'
  arrivals
    : ∀ arrived,
        kernel.Ordered
        → InArrivalOrder arrived kernel
        → InArrivalOrder (readied.foldl arrive arrived) kernel'

theorem Readies.trans {first second third : Kernel} {earlier later : List ThreadId}
    (left : Readies earlier first second) (right : Readies later second third)
    : Readies (earlier ++ later) first third where
  scheduling := left.scheduling.trans right.scheduling
  arrivals arrived ordered inOrder := by
    rw [List.foldl_append]
    exact right.arrivals _ (left.scheduling.ordered ordered)
      (left.arrivals arrived ordered inOrder)

theorem isUnlocked_congr {priority : Priority} (he : kernel'.thread thread = kernel.thread thread)
    : kernel'.isUnlocked priority thread = kernel.isUnlocked priority thread := by
  unfold isUnlocked Kernel.lockPriority Kernel.priority
  rw [he]

/-- Removals keep the order of those who stay, when their locks stay the same. -/
theorem InArrivalOrder.sublist {arrived : List ThreadId} (inOrder : InArrivalOrder arrived kernel)
    (ready : kernel'.readyQueue.Sublist kernel.readyQueue)
    (he : ∀ thread ∈ kernel'.readyQueue, kernel'.thread thread = kernel.thread thread)
    : InArrivalOrder arrived kernel' := by
  intro priority
  have alike : kernel'.readyQueue.filter (kernel'.isUnlocked priority)
      = kernel'.readyQueue.filter (kernel.isUnlocked priority) :=
    List.filter_congr fun thread hm => isUnlocked_congr (he thread hm)
  rw [alike]
  exact (ready.filter _).trans (inOrder priority)

theorem readies_sublist (scheduling : kernel.Scheduling kernel')
    (ready : kernel'.readyQueue.Sublist kernel.readyQueue)
    : Readies [] kernel kernel' :=
  ⟨scheduling, fun _ _ inOrder =>
    inOrder.sublist ready fun thread _ => congrFun scheduling.thread thread⟩

theorem readies_eq (scheduling : kernel.Scheduling kernel')
    (ready : kernel'.readyQueue = kernel.readyQueue)
    : Readies [] kernel kernel' :=
  readies_sublist scheduling (ready ▸ .refl _)

/-- Steps before it that leave the ready queue alone belong to a step that makes threads
ready.
-/
theorem Readies.after {middle : Kernel} {readied : List ThreadId}
    (readies : Readies readied middle kernel') (scheduling : kernel.Scheduling middle)
    (ready : middle.readyQueue = kernel.readyQueue)
    : Readies readied kernel kernel' :=
  (readies_eq scheduling ready).trans readies

/-- Nothing behind a thread that stops the walk lets it pass. -/
theorem Ordered.goesBeforeReady_monotone (ordered : kernel.Ordered)
    (unlocked : (kernel.lockPriority thread).isValid = false)
    : kernel.readyQueue.Pairwise fun first second =>
        kernel.goesBeforeReady thread first = false
        → kernel.goesBeforeReady thread second = false := by
  refine List.Pairwise.imp ?_ ordered.ready
  intro first second keys stops
  have := Bool.toNat_le (kernel.lockPriority first).isValid
  simp only [goesBeforeReady, unlocked, Bool.false_eq_true, if_false, decide_eq_false_iff_not,
    Priority.le_iff, readyKey] at stops keys ⊢
  omega

/-- A thread that becomes ready is the last arrival. With a lock it is not among the threads
the order is about; without one the walk goes past all its equals.
-/
theorem readies_insertToReadyQueue (notIdle : thread ≠ IDLE_THREAD_ID)
    (hi : kernel.insertToReadyQueue thread = .ok kernel')
    : Readies [thread] kernel kernel' := by
  refine ⟨scheduling_insertToReadyQueue hi, fun arrived ordered inOrder priority => ?_⟩
  rcases insertToReadyQueue_ok hi with ⟨isIdle, -⟩ | ⟨-, free, rfl⟩
  · exact absurd isIdle notIdle
  have absent : thread ∉ kernel.readyQueue := by
    simp only [inExecList, Bool.or_eq_false_iff] at free
    simpa using free.1.1
  have missing : thread ∉ kernel.readyQueue.filter (kernel.isUnlocked priority) :=
    fun hm => absent (List.mem_filter.mp hm).1
  have joined := sublist_arrive (inOrder priority) missing
  change ((insertPast (kernel.goesBeforeReady thread) thread kernel.readyQueue).filter
    (kernel.isUnlocked priority)).Sublist (arrive arrived thread)
  cases chosen : kernel.isUnlocked priority thread with
  | false =>
      rw [filter_insertPast_of_not chosen]
      exact (List.sublist_append_left _ _).trans joined
  | true =>
      simp only [isUnlocked, Bool.and_eq_true, Bool.not_eq_true', decide_eq_true_eq] at chosen
      obtain ⟨unlocked, rfl⟩ := chosen
      rw [filter_insertPast_last (by simp [isUnlocked, unlocked]) ?_
        (ordered.goesBeforeReady_monotone unlocked)]
      · exact joined
      · intro other _ equal
        simp only [isUnlocked, Bool.and_eq_true, decide_eq_true_eq] at equal
        simp only [goesBeforeReady, unlocked, Bool.false_eq_true, if_false, equal.2,
          decide_eq_true_eq, Priority.le_iff]
        exact Nat.le_refl _

end Kernel

end Scars

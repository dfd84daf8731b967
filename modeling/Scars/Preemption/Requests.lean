import Mathlib.Data.List.Nodup
import Scars.Foundation.Runs
import Scars.Kernel.QueueRefinement
import Scars.Preemption.Pending

/-! What requests ask for that find the preemption lock taken, and how they are parked.
The masks of a sent event change at once; a resumption and the move of a handler in the
sleep queue wait for the release of the lock.
-/

namespace Scars

open Runs Kernel

/-- What a sequence of requests asks for: the threads to resume and the handlers to wake up,
each named once and in the order of the first request, a handler with its latest deadline.
The kernel has the events that were sent.
-/
structure Wanted where
  raw : Kernel
  threads : List ThreadId := []
  wakeups : List (HandlerId × Instant) := []

namespace Wanted

/-- The deadline of a handler, in place of an earlier one. -/
def latest (handler : HandlerId) (wakeupTime : Instant)
    : List (HandlerId × Instant) → List (HandlerId × Instant)
  | [] => [(handler, wakeupTime)]
  | wakeup :: rest =>
      if wakeup.1 = handler then
        (handler, wakeupTime) :: rest
      else
        wakeup :: latest handler wakeupTime rest

def addThread (thread : ThreadId) (wanted : Wanted) : Wanted :=
  if thread ∈ wanted.threads then
    wanted
  else
    { wanted with threads := wanted.threads ++ [thread] }

def add (wanted : Wanted) : Request → Wanted
  | .resumeThread thread => wanted.addThread thread
  | .sendEvents thread events =>
      let (notify, set) := (wanted.raw.events thread).sendEvents events
      let wanted := { wanted with raw := wanted.raw.setEvents thread set }
      if notify then wanted.addThread thread else wanted
  | .scheduleInterruptWakeup handler wakeupTime =>
      { wanted with wakeups := latest handler wakeupTime wanted.wakeups }

/-- The deadline and the place in the sleep queue of a handler. -/
def wakeUp (kernel : Kernel) (wakeup : HandlerId × Instant) : Except Fault Kernel :=
  (kernel.setDeadline (.interrupt wakeup.1) (some wakeup.2)).scheduleInterruptWakeup wakeup.1

def resumeAll (threads : List ThreadId) (kernel : Kernel) : Except Fault Kernel :=
  threads.foldlM (fun kernel thread => kernel.resumeThread thread) kernel

/-- Performs everything that is wanted once, the resumptions first. -/
def perform (wanted : Wanted) : Except Fault Kernel := do
  let kernel ← resumeAll wanted.threads wanted.raw
  wanted.wakeups.foldlM wakeUp kernel

theorem latest_of_not_mem {handler : HandlerId} {wakeups : List (HandlerId × Instant)}
    (absent : handler ∉ wakeups.map Prod.fst) (wakeupTime : Instant)
    : latest handler wakeupTime wakeups = wakeups ++ [(handler, wakeupTime)] := by
  induction wakeups with
  | nil => rfl
  | cons wakeup rest ih =>
      simp only [List.map_cons, List.mem_cons, not_or] at absent
      rw [latest, if_neg (Ne.symm absent.1), ih absent.2, List.cons_append]

end Wanted

/-- The state that performing each distinct request once leads to. -/
def Kernel.performDistinct (kernel : Kernel) (requests : List Request)
    : Except Fault Kernel :=
  (requests.foldl Wanted.add { raw := kernel }).perform

theorem tryAcquireNestingLock_taken {holder : ExecutionContext} {caller : HandlerId}
    (taken : .interrupt caller ≠ holder)
    : tryAcquireNestingLock (some holder) (.interrupt caller) = none := by
  simp [tryAcquireNestingLock, Ne.symm taken]

namespace Scheduler

/-- The node of the suspendable is free: no queue holds it, and none has it for its head
because it was popped last.
-/
def NodeFree (scheduler : Scheduler) (suspendable : Suspendable) : Prop :=
  scheduler.pending.isLinked suspendable = false
  ∧ ∀ queue, scheduler.pending.loadHead queue ≠ .item suspendable

/-- A handler that is in the sleep queue keeps its side of the deadlines of the handlers that
are parked already.
-/
def KeepsSides (scheduler : Scheduler) (handler : HandlerId) (wakeupTime : Instant) : Prop :=
  .interrupt handler ∈ scheduler.raw.sleepQueue
  → ∀ other,
      scheduler.pending.isLinked (.interrupt other) = true
      → deadlineLe (scheduler.raw.deadline (.interrupt handler))
          (scheduler.raw.deadline (.interrupt other))
        = deadlineLe (some wakeupTime) (scheduler.raw.deadline (.interrupt other))

/-- A request finds a free node, and the deadline it sets moves no queued handler past a
parked one.
-/
def Parkable (scheduler : Scheduler) : Request → Prop
  | .resumeThread thread => scheduler.NodeFree (.thread thread)
  | .sendEvents thread events =>
      ((scheduler.raw.events thread).sendEvents events).1 = true
      → scheduler.NodeFree (.thread thread)
  | .scheduleInterruptWakeup handler wakeupTime =>
      scheduler.NodeFree (.interrupt handler) ∧ scheduler.KeepsSides handler wakeupTime

/-- A request is for a suspendable that is in neither queue. -/
def NotRepeated (scheduler : Scheduler) : Request → Prop
  | .resumeThread thread => scheduler.pending.isLinked (.thread thread) = false
  | .sendEvents thread events =>
      ((scheduler.raw.events thread).sendEvents events).1 = true
      → scheduler.pending.isLinked (.thread thread) = false
  | .scheduleInterruptWakeup handler _ =>
      scheduler.pending.isLinked (.interrupt handler) = false

/-- The pending queues are intact and hold nothing. -/
def Drained (scheduler : Scheduler) : Prop :=
  ∃ fifos, Represents scheduler.pending fifos ∧ ∀ queue, fifos.items queue = []

variable {suspendable : Suspendable} {fifos : Fifos PendingQueue Suspendable} {queue : PendingQueue}

theorem NodeFree.unlinked {scheduler : Scheduler} (free : scheduler.NodeFree suspendable)
    (hr : Represents scheduler.pending fifos) (queue : PendingQueue)
    : .item suspendable ∉ fifos.ptrs queue := by
  intro linked
  rcases List.mem_cons.mp linked with head | hm
  · exact free.2 queue ((hr.head queue).trans head.symm)
  · have owned := (hr.owned suspendable).mpr ⟨queue, by simpa using hm⟩
    simp [free.1] at owned

theorem pushPending_ok (scheduler : Scheduler) {fuel : Nat}
    (hr : Represents scheduler.pending fifos) (free : scheduler.NodeFree suspendable)
    : ∃ after,
        scheduler.pushPending (fuel + 1) queue suspendable
          = .ok { scheduler with pending := after }
        ∧ Represents after (fifos.push queue suspendable) := by
  obtain ⟨after, pushed, hr'⟩ := hr.pushBack (free.unlinked hr)
  exact ⟨after, by rw [pushPending, pushed], hr'⟩

theorem isLinked_of_pushPending {scheduler after : Scheduler} {fuel : Nat}
    (pushed : scheduler.pushPending fuel queue suspendable = .ok after)
    : scheduler.pending.isLinked suspendable = false := by
  by_contra linked
  have owned : (scheduler.pending.initOnce queue).isLinked suspendable = true := by
    simpa [QueueMemory.isLinked] using linked
  rw [pushPending, QueueMemory.pushBack, if_pos owned] at pushed
  cases pushed

end Scheduler

/-- The deadlines that the requests have set already. -/
def Kernel.setDeadlines (wakeups : List (HandlerId × Instant)) (kernel : Kernel) : Kernel :=
  wakeups.foldl (fun kernel wakeup => kernel.setDeadline (.interrupt wakeup.1) (some wakeup.2))
    kernel

/-- The queues hold what is wanted, and only the deadlines are ahead of it. -/
structure Parked (wanted : Wanted) (scheduler : Scheduler) : Prop where
  raw : scheduler.raw = wanted.raw.setDeadlines wanted.wakeups
  queued
    : ∃ fifos,
        Represents scheduler.pending fifos
        ∧ fifos.items .resume = wanted.threads.map .thread
        ∧ fifos.items .sleep = wanted.wakeups.map fun wakeup => .interrupt wakeup.1
  keepsSides
    : wanted.wakeups.Pairwise fun earlier later =>
        .interrupt later.1 ∈ wanted.raw.sleepQueue
        → deadlineLe (wanted.raw.deadline (.interrupt later.1)) (some earlier.2)
          = deadlineLe (some later.2) (some earlier.2)

namespace Kernel

section

variable (wakeups : List (HandlerId × Instant))
include wakeups

theorem setDeadlines_eq (kernel : Kernel)
    : kernel.setDeadlines wakeups
      = { kernel with deadline := (kernel.setDeadlines wakeups).deadline } := by
  induction wakeups generalizing kernel with
  | nil => rfl
  | cons wakeup rest ih => exact ih (kernel.setDeadline _ _)

theorem setDeadlines_append (wakeup : HandlerId × Instant) (kernel : Kernel)
    : kernel.setDeadlines (wakeups ++ [wakeup])
      = (kernel.setDeadlines wakeups).setDeadline (.interrupt wakeup.1) (some wakeup.2) := by
  simp [setDeadlines]

theorem setDeadlines_setEvents (kernel : Kernel) (thread : ThreadId) (set : EventSet)
    : (kernel.setEvents thread set).setDeadlines wakeups
      = (kernel.setDeadlines wakeups).setEvents thread set := by
  induction wakeups generalizing kernel with
  | nil => rfl
  | cons wakeup rest ih => exact ih (kernel.setDeadline _ _)

end

theorem setDeadlines_of_not_mem {wakeups : List (HandlerId × Instant)} {kernel : Kernel}
    {handler : HandlerId} (absent : handler ∉ wakeups.map Prod.fst)
    : (kernel.setDeadlines wakeups).deadline (.interrupt handler)
      = kernel.deadline (.interrupt handler) := by
  induction wakeups generalizing kernel with
  | nil => rfl
  | cons wakeup rest ih =>
      simp only [List.map_cons, List.mem_cons, not_or] at absent
      refine (ih absent.2).trans ?_
      simp [setDeadline, Function.update_of_ne, absent.1]

theorem setDeadlines_of_mem {wakeups : List (HandlerId × Instant)} {kernel : Kernel}
    {wakeup : HandlerId × Instant} (distinct : (wakeups.map Prod.fst).Nodup) (hm : wakeup ∈ wakeups)
    : (kernel.setDeadlines wakeups).deadline (.interrupt wakeup.1) = some wakeup.2 := by
  induction wakeups generalizing kernel with
  | nil => cases hm
  | cons first rest ih =>
      obtain ⟨absent, distinct⟩ := List.nodup_cons.mp distinct
      rcases List.mem_cons.mp hm with rfl | later
      · refine (setDeadlines_of_not_mem absent).trans ?_
        simp [setDeadline]
      · exact ih distinct later

end Kernel

namespace Parked

variable {wanted : Wanted} {scheduler : Scheduler} {fuel rounds : Nat}
  {holder : ExecutionContext} {thread : ThreadId} {handler : HandlerId}

section

variable (parked : Parked wanted scheduler)
include parked

theorem thread_not_mem (free : scheduler.NodeFree (.thread thread))
    : thread ∉ wanted.threads := by
  obtain ⟨fifos, hr, threads, -⟩ := parked.queued
  intro hm
  have owned := (hr.owned (.thread thread)).mpr ⟨.resume, by simp [threads, hm]⟩
  simp [free.1] at owned

theorem isLinked_of_mem (hm : handler ∈ wanted.wakeups.map Prod.fst)
    : scheduler.pending.isLinked (.interrupt handler) = true := by
  obtain ⟨fifos, hr, -, wakeups⟩ := parked.queued
  refine (hr.owned (.interrupt handler)).mpr ⟨.sleep, ?_⟩
  obtain ⟨wakeup, listed, rfl⟩ := List.mem_map.mp hm
  rw [wakeups]
  exact List.mem_map.mpr ⟨wakeup, listed, rfl⟩

theorem handler_not_mem (free : scheduler.NodeFree (.interrupt handler))
    : handler ∉ wanted.wakeups.map Prod.fst := by
  intro hm
  have linked := parked.isLinked_of_mem hm
  simp [free.1] at linked

theorem distinct
    : (wanted.wakeups.map Prod.fst).Nodup := by
  obtain ⟨fifos, hr, -, wakeups⟩ := parked.queued
  have distinct := (List.nodup_cons.mp (hr.distinct .sleep)).2.of_map
  rw [wakeups] at distinct
  apply List.Nodup.of_map Suspendable.interrupt
  rw [List.map_map]
  exact distinct

theorem pushThread (free : scheduler.NodeFree (.thread thread))
    : ∃ after,
        scheduler.pushPending (fuel + 1) .resume (.thread thread) = .ok after
        ∧ Parked (wanted.addThread thread) after := by
  have absent := parked.thread_not_mem free
  obtain ⟨fifos, hr, threads, wakeups⟩ := parked.queued
  obtain ⟨memory, pushed, hr'⟩ := Scheduler.pushPending_ok scheduler hr free
  refine ⟨_, pushed, ?_⟩
  rw [Wanted.addThread, if_neg absent]
  refine ⟨parked.raw, ⟨_, hr', ?_, ?_⟩, parked.keepsSides⟩
  · simp [Fifos.push, threads]
  · simp [Fifos.push, wakeups]

theorem setEvents (thread : ThreadId) (set : EventSet)
    : Parked { wanted with raw := wanted.raw.setEvents thread set }
        { scheduler with raw := scheduler.raw.setEvents thread set } := by
  refine ⟨?_, parked.queued, parked.keepsSides⟩
  rw [parked.raw, setDeadlines_setEvents]

theorem pushHandler {wakeupTime : Instant} (free : scheduler.NodeFree (.interrupt handler))
    (sides : scheduler.KeepsSides handler wakeupTime)
    : ∃ after,
        { scheduler with
            raw := scheduler.raw.setDeadline (.interrupt handler) (some wakeupTime) }.pushPending
          (fuel + 1) .sleep (.interrupt handler) = .ok after
        ∧ Parked (wanted.add (.scheduleInterruptWakeup handler wakeupTime)) after := by
  have absent := parked.handler_not_mem free
  obtain ⟨fifos, hr, threads, wakeups⟩ := parked.queued
  obtain ⟨memory, pushed, hr'⟩ :=
    Scheduler.pushPending_ok { scheduler with
      raw := scheduler.raw.setDeadline (.interrupt handler) (some wakeupTime) } hr free
  refine ⟨_, pushed, ?_⟩
  have appended := Wanted.latest_of_not_mem absent wakeupTime
  constructor
  case raw =>
    simp only [Wanted.add, appended]
    rw [setDeadlines_append, ← parked.raw]
  case queued =>
    refine ⟨_, hr', ?_, ?_⟩
    · simp [Fifos.push, Wanted.add, threads]
    · simp [Fifos.push, Wanted.add, wakeups, appended]
  case keepsSides =>
    simp only [Wanted.add, appended]
    refine List.pairwise_append.mpr ⟨parked.keepsSides, List.pairwise_singleton _ _, ?_⟩
    intro earlier listed later last hq
    obtain rfl := List.mem_singleton.mp last
    have inQueue : .interrupt handler ∈ scheduler.raw.sleepQueue := by
      rw [parked.raw, setDeadlines_eq]
      exact hq
    have known : earlier.1 ∈ wanted.wakeups.map Prod.fst := List.mem_map_of_mem listed
    have kept := sides inQueue earlier.1 (parked.isLinked_of_mem known)
    rw [parked.raw, setDeadlines_of_not_mem absent,
      setDeadlines_of_mem parked.distinct listed] at kept
    exact kept

/-- A parkable request that finds the lock taken by another context is parked. -/
theorem request (fuel rounds : Nat) {request : HandlerId × Request}
    (taken : .interrupt request.1 ≠ holder) (parkable : scheduler.Parkable request.2)
    : ∃ after,
        scheduler.request (fuel + 1) rounds (some holder) request = .ok after
        ∧ Parked (wanted.add request.2) after := by
  obtain ⟨caller, request⟩ := request
  have refused := tryAcquireNestingLock_taken taken
  cases request with
  | resumeThread thread =>
      simp only [Scheduler.request, Scheduler.resumeThread, refused]
      exact parked.pushThread parkable
  | sendEvents thread events =>
      have he : scheduler.raw.events thread = wanted.raw.events thread := by
        rw [parked.raw, setDeadlines_eq]
      simp only [Scheduler.request, Scheduler.sendEvents, Scheduler.resumeThread, refused,
        Wanted.add, ← he]
      have sent := parked.setEvents thread
        ((scheduler.raw.events thread).sendEvents events).2
      split
      next notify => exact sent.pushThread (parkable notify)
      next => exact ⟨_, rfl, sent⟩
  | scheduleInterruptWakeup handler wakeupTime =>
      simp only [Scheduler.request, Scheduler.scheduleInterruptWakeup, refused]
      exact parked.pushHandler parkable.1 parkable.2

/-- A whole sequence of parkable requests is parked, by induction on the sequence. -/
theorem run_request {requests : List (HandlerId × Request)}
    (taken : ∀ request ∈ requests, .interrupt request.1 ≠ holder)
    (parkable
      : Along (Scheduler.request (fuel + 1) rounds (some holder))
          (fun scheduler request => scheduler.Parkable request.2) scheduler requests)
    : ∃ after,
        run (Scheduler.request (fuel + 1) rounds (some holder)) scheduler requests = .ok after
        ∧ Parked ((requests.map Prod.snd).foldl Wanted.add wanted) after := by
  induction requests generalizing wanted scheduler with
  | nil => exact ⟨scheduler, rfl, parked⟩
  | cons first rest ih =>
      obtain ⟨next, requested, parked'⟩ :=
        parked.request fuel rounds (taken first (by simp)) parkable.1
      obtain ⟨after, ran, final⟩ := ih parked'
        (fun request hm => taken request (by simp [hm])) (parkable.2 next requested)
      refine ⟨after, bind_ok.mpr ⟨next, requested, ran⟩, final⟩

end

end Parked

end Scars

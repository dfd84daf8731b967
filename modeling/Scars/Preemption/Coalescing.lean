import Scars.Kernel.Effects
import Scars.Preemption.Completion

/-! Requests made while the preemption lock is taken coalesce when their nodes are free.
-/

namespace Scars

open Runs Kernel

namespace Kernel

variable {kernel kernel' : Kernel} {thread : ThreadId}

/-- Nobody gets a new deadline or joins the sleep queue. -/
structure Wakeless (kernel kernel' : Kernel) : Prop where
  deadline : kernel'.deadline = kernel.deadline
  sleepQueue : kernel'.sleepQueue ⊆ kernel.sleepQueue

theorem wakeless_insertToReadyQueue (hi : kernel.insertToReadyQueue thread = .ok kernel')
    : Wakeless kernel kernel' := by
  rcases insertToReadyQueue_ok hi with ⟨-, rfl⟩ | ⟨-, -, rfl⟩ <;> exact ⟨rfl, fun _ => id⟩

theorem wakeless_resumeThread (resumed : kernel.resumeThread thread = .ok kernel')
    : Wakeless kernel kernel' := by
  obtain ⟨moved, rfl, cases⟩ := resumeThread_ok resumed
  have asked : moved.Adjusts (moved.requestIfHigher thread) := adjusts_requestIfHigher
  obtain ⟨_, _, _, _, _, asked⟩ := asked
  have he : Wakeless kernel moved := by
    rcases cases with ⟨-, -, hi⟩ | ⟨-, -, hi⟩ | ⟨-, hi⟩ | ⟨-, rfl⟩
    · have moves := wakeless_insertToReadyQueue hi
      rw [leaveSleepQueue_eq] at moves
      exact ⟨moves.deadline, List.Subset.trans moves.sleepQueue List.erase_subset⟩
    · have moves := wakeless_insertToReadyQueue hi
      exact ⟨moves.deadline, moves.sleepQueue⟩
    · exact wakeless_insertToReadyQueue hi
    · exact ⟨rfl, fun _ => id⟩
  rw [asked]
  exact ⟨he.deadline, he.sleepQueue⟩

theorem wakeless_resumeAll {threads : List ThreadId}
    (resumed : Wanted.resumeAll threads kernel = .ok kernel')
    : Wakeless kernel kernel' := by
  induction threads generalizing kernel with
  | nil => cases resumed; exact ⟨rfl, fun _ => id⟩
  | cons thread rest ih =>
      rw [Wanted.resumeAll, List.foldlM_cons] at resumed
      obtain ⟨middle, first, later⟩ := bind_ok.mp resumed
      have before := wakeless_resumeThread first
      have after := ih later
      exact ⟨after.deadline.trans before.deadline,
        List.Subset.trans after.sleepQueue before.sleepQueue⟩

theorem Compatible.wakeless {wakeups : List (HandlerId × Instant)}
    (compatible : Compatible wakeups kernel) (wakeless : Wakeless kernel kernel')
    : Compatible wakeups kernel' := by
  refine ⟨compatible.distinct, compatible.sides.imp fun sides hq => ?_⟩
  rw [wakeless.deadline]
  exact sides (wakeless.sleepQueue hq)

end Kernel

namespace Parked

variable {wanted : Wanted} {scheduler : Scheduler}

/-- Releasing the lock performs what is wanted and leaves the queues empty. -/
theorem completePending (parked : Parked wanted scheduler) (fuel : Nat) {rounds : Nat}
    (threads : wanted.threads.length < rounds) (wakeups : wanted.wakeups.length < rounds)
    : ∃ after,
        scheduler.completePending (fuel + 1) rounds
          = wanted.perform.map (fun raw => ⟨raw, after⟩)
        ∧ ∀ raw, Scheduler.Drained ⟨raw, after⟩ := by
  obtain ⟨fifos, hr, resumes, sleeps⟩ := parked.queued
  obtain ⟨middle, fifos', hr', emptied, resumed⟩ :=
    Scheduler.drain_eq fuel hr resumes (by simpa using threads)
  have others : fifos'.items .sleep = wanted.wakeups.map fun wakeup => .interrupt wakeup.1 := by
    rw [emptied, Function.update_of_ne (by decide), sleeps]
  obtain ⟨after, final, represents'', emptied', slept⟩ :=
    Scheduler.drain_eq fuel hr' others (by simpa using wakeups)
  refine ⟨after, ?_, fun raw => ⟨final, represents'', ?_⟩⟩
  · have commutes
        : Commutes (setDeadlines wanted.wakeups) (Wanted.resumeAll wanted.threads) :=
      .foldlM fun _ _ => commutes_setDeadlines (fun _ _ => commutes_resumeThread) _
    have compatible : Kernel.Compatible wanted.wakeups wanted.raw :=
      ⟨parked.distinct, parked.keepsSides⟩
    obtain ⟨raw, memory⟩ := scheduler
    obtain rfl : raw = wanted.raw.setDeadlines wanted.wakeups := parked.raw
    have first
        : (wanted.threads.map Suspendable.thread).foldlM
              (fun kernel item => Scheduler.completeNow (fuel + 1) .resume item kernel)
              (wanted.raw.setDeadlines wanted.wakeups)
          = (Wanted.resumeAll wanted.threads wanted.raw).map
              (setDeadlines wanted.wakeups) := by
      rw [List.foldlM_map]
      exact commutes wanted.raw
    rw [Scheduler.completePending, resumed, first, Wanted.perform]
    cases hp : Wanted.resumeAll wanted.threads wanted.raw with
    | error fault => rfl
    | ok kernel =>
        have moves := (compatible.wakeless (wakeless_resumeAll hp)).foldlM_eq
        refine (slept _).trans ?_
        rw [List.foldlM_map]
        exact congrArg (Except.map _) moves
  · intro queue
    rw [emptied', emptied]
    cases queue <;> simp

end Parked

namespace Wanted

theorem length_latest (handler : HandlerId) (wakeupTime : Instant)
    (wakeups : List (HandlerId × Instant))
    : (latest handler wakeupTime wakeups).length ≤ wakeups.length + 1 := by
  induction wakeups with
  | nil => simp [latest]
  | cons wakeup rest ih =>
      unfold latest
      split
      · simp
      · simpa using ih

theorem length_addThread (wanted : Wanted) (thread : ThreadId)
    : (wanted.addThread thread).threads.length ≤ wanted.threads.length + 1
      ∧ (wanted.addThread thread).wakeups = wanted.wakeups := by
  unfold addThread
  split <;> simp

theorem length_add (wanted : Wanted) (request : Request)
    : (wanted.add request).threads.length ≤ wanted.threads.length + 1
      ∧ (wanted.add request).wakeups.length ≤ wanted.wakeups.length + 1 := by
  cases request with
  | resumeThread thread =>
      have adds := wanted.length_addThread thread
      exact ⟨adds.1, by simp [add, adds.2]⟩
  | sendEvents thread events =>
      simp only [add]
      split
      · have adds := length_addThread { wanted with
          raw := wanted.raw.setEvents thread ((wanted.raw.events thread).sendEvents events).2 }
          thread
        exact ⟨adds.1, by simp [adds.2]⟩
      · simp
  | scheduleInterruptWakeup handler wakeupTime => simp [add, length_latest]

theorem length_foldl (wanted : Wanted) (requests : List Request)
    : (requests.foldl add wanted).threads.length ≤ wanted.threads.length + requests.length
      ∧ (requests.foldl add wanted).wakeups.length
        ≤ wanted.wakeups.length + requests.length := by
  induction requests generalizing wanted with
  | nil => simp
  | cons request rest ih =>
      have first := wanted.length_add request
      have later := ih (wanted.add request)
      simp only [List.foldl_cons, List.length_cons]
      omega

end Wanted

theorem Scheduler.notRepeated_of_request {scheduler after : Scheduler} {fuel rounds : Nat}
    {holder : ExecutionContext} {request : HandlerId × Request}
    (taken : .interrupt request.1 ≠ holder)
    (requested : scheduler.request fuel rounds (some holder) request = .ok after)
    : scheduler.NotRepeated request.2 := by
  obtain ⟨caller, request⟩ := request
  have refused := tryAcquireNestingLock_taken taken
  cases request with
  | resumeThread thread =>
      simp only [Scheduler.request, Scheduler.resumeThread, refused] at requested
      exact isLinked_of_pushPending requested
  | sendEvents thread events =>
      simp only [Scheduler.request, Scheduler.sendEvents, Scheduler.resumeThread, refused]
        at requested
      intro notify
      rw [if_pos notify] at requested
      have unlinked := isLinked_of_pushPending requested
      exact unlinked
  | scheduleInterruptWakeup handler wakeupTime =>
      simp only [Scheduler.request, Scheduler.scheduleInterruptWakeup, refused] at requested
      have unlinked := isLinked_of_pushPending requested
      exact unlinked

/-- Requests made while another context holds the lock, each finding its node free and
keeping the sides of the sleep queue, are all accepted, and releasing the lock performs each
distinct one once and empties the queues. An accepted sequence repeats no queued request.
-/
theorem deferredRequests_coalesce {fuel rounds : Nat} {scheduler : Scheduler}
    {holder : ExecutionContext} {requests : List (HandlerId × Request)}
    (drained : scheduler.Drained) (taken : ∀ request ∈ requests, .interrupt request.1 ≠ holder)
    (enough : requests.length < rounds)
    : (Along (Scheduler.request (fuel + 1) rounds (some holder))
          (fun scheduler request => scheduler.Parkable request.2) scheduler requests
        → ∃ parked,
            run (Scheduler.request (fuel + 1) rounds (some holder)) scheduler requests = .ok parked
            ∧ (parked.completePending (fuel + 1) rounds).map Scheduler.raw
              = scheduler.raw.performDistinct (requests.map Prod.snd)
            ∧ ∀ released,
                parked.completePending (fuel + 1) rounds = .ok released → released.Drained)
      ∧ ∀ parked,
          run (Scheduler.request (fuel + 1) rounds (some holder)) scheduler requests = .ok parked
          → Along (Scheduler.request (fuel + 1) rounds (some holder))
              (fun scheduler request => scheduler.NotRepeated request.2) scheduler requests := by
  constructor
  · intro parkable
    obtain ⟨fifos, hr, empty⟩ := drained
    have start : Parked { raw := scheduler.raw } scheduler :=
      ⟨rfl, ⟨fifos, hr, empty .resume, empty .sleep⟩, .nil⟩
    obtain ⟨parked, ran, holds⟩ := start.run_request taken parkable
    have bounds := Wanted.length_foldl { raw := scheduler.raw } (requests.map Prod.snd)
    simp only [List.length_nil, List.length_map, Nat.zero_add] at bounds
    obtain ⟨memory, completed, emptied⟩ := holds.completePending fuel
      (Nat.lt_of_le_of_lt bounds.1 enough) (Nat.lt_of_le_of_lt bounds.2 enough)
    refine ⟨parked, ran, ?_, ?_⟩
    · rw [completed]
      unfold performDistinct
      cases ((requests.map Prod.snd).foldl Wanted.add { raw := scheduler.raw }).perform <;> rfl
    · intro released done
      rw [completed] at done
      cases hp
          : ((requests.map Prod.snd).foldl Wanted.add { raw := scheduler.raw }).perform with
      | error fault => simp [hp, Except.map] at done
      | ok raw =>
          rw [hp] at done
          rw [← Except.ok.inj done]
          exact emptied raw
  · intro parked ran
    apply along_of_run ?_ ran
    intro request hm scheduler after requested
    exact Scheduler.notRepeated_of_request (taken request hm) requested

/-- Threads and interrupt handlers of their own priority. -/
def plainProgram : Program :=
  ⟨fun thread => .thread (UInt8.ofNat thread), fun _ => .thread 7,
    fun handler => .interrupt (UInt8.ofNat handler)⟩

def plainScheduler : Scheduler := ⟨start plainProgram, .new⟩

theorem plainScheduler_drained : plainScheduler.Drained :=
  ⟨Fifos.empty, represents_new, fun _ => rfl⟩

/-- Two handlers request a resumption and a wake-up while thread 2 holds the lock. -/
theorem deferredRequests_coalesce_two
    : ∃ parked,
        run (Scheduler.request 1 3 (some (.thread 2))) plainScheduler
            [(3, .resumeThread 5), (4, .scheduleInterruptWakeup 6 20)] = .ok parked
        ∧ (parked.completePending 1 3).map Scheduler.raw
          = plainScheduler.raw.performDistinct
              [.resumeThread 5, .scheduleInterruptWakeup 6 20] := by
  have parkable
      : Along (Scheduler.request 1 3 (some (.thread 2)))
          (fun scheduler request => scheduler.Parkable request.2) plainScheduler
          [(3, .resumeThread 5), (4, .scheduleInterruptWakeup 6 20)] := by
    refine .cons ⟨rfl, fun queue => by cases queue <;> decide⟩ rfl (.cons ?_ rfl trivial)
    exact ⟨⟨rfl, fun queue => by cases queue <;> decide⟩, fun hq => by cases hq⟩
  obtain ⟨parked, ran, hp, -⟩ :=
    (deferredRequests_coalesce plainScheduler_drained (by simp) (by decide)).1 parkable
  exact ⟨parked, ran, hp⟩

/-- Requests made while `holder` has the lock, and its release. -/
def Scheduler.heldSection (fuel rounds : Nat) (holder : ExecutionContext)
    (requests : List (HandlerId × Request)) (scheduler : Scheduler)
    : Except Fault Scheduler := do
  let parked ← run (Scheduler.request fuel rounds (some holder)) scheduler requests
  parked.completePending fuel rounds

/-- The second request for thread 5 raises `ItemAlreadyInQueue`. A request for thread 5 in a
later section finds its node at the head of the queue, and the release does not return. The
new deadline of a handler that sleeps already hides the sleepers behind it, so that an
earlier request is queued in the wrong place.
-/
theorem repeatedRequest_raises
    : run (Scheduler.request 1 3 (some (.thread 2))) plainScheduler
          [(3, .resumeThread 5), (4, .resumeThread 5)]
        = .error (.queue .itemAlreadyInQueue)
      ∧ (plainScheduler.heldSection 1 3 (.thread 2) [(3, .resumeThread 5)]).bind
            (Scheduler.heldSection 9 3 (.thread 2) [(3, .resumeThread 5)])
        = .error (.queue .outOfFuel)
      ∧ (let asleep :=
          run (Scheduler.request 1 3 none) plainScheduler
            [(3, .scheduleInterruptWakeup 6 10), (3, .scheduleInterruptWakeup 7 12)]
        (asleep.bind (Scheduler.heldSection 1 3 (.thread 2)
              [(3, .scheduleInterruptWakeup 8 20), (3, .scheduleInterruptWakeup 6 30)])).map
            (fun scheduler => scheduler.raw.sleepQueue)
          = .ok [.interrupt 8, .interrupt 7, .interrupt 6]
        ∧ (asleep.bind fun scheduler =>
            scheduler.raw.performDistinct
              [.scheduleInterruptWakeup 8 20, .scheduleInterruptWakeup 6 30]).map
            (fun kernel => kernel.sleepQueue)
          = .ok [.interrupt 7, .interrupt 8, .interrupt 6]) :=
  ⟨rfl, rfl, rfl, rfl⟩

end Scars

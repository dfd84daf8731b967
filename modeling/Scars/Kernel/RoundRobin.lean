import Mathlib.Data.List.Rotate
import Scars.Kernel.ReadyRuns
import Scars.Kernel.TimedWakeups

/-! Yields pass the processor around among the threads of the highest priority.
One yield rotates the running thread and its peers by one place, so as many yields as there are
threads in the circle restore the order.
-/

namespace Scars.Kernel

open Runs OrderedInsert

variable {kernel kernel' : Kernel} {thread : ThreadId} {fuel : Nat} {now : Instant}
  {peers lower : List ThreadId}

/-- A yield of the current thread: the system call notes the request, and the reschedule at its
end is executed at clock value `now`.
-/
def yieldAt (fuel : Nat) (kernel : Kernel) (now : Instant) : Except Fault Kernel :=
  run (perform fuel) kernel [.yieldCurrentThread, .executePendingReschedule now]

theorem wakeDue_undue {rounds : Nat} (undue : kernel.dueSleepers now = [])
    : ∃ alarm, wakeDue fuel now (rounds + 1) kernel = .ok { kernel with alarm := alarm } := by
  unfold wakeDue
  split
  · exact ⟨none, rfl⟩
  next head rest hq =>
    have waits : kernel.isDue now head = false := by
      by_contra due
      rw [Bool.not_eq_false] at due
      simp [dueSleepers, hq, List.takeWhile_cons_of_pos due] at undue
    cases dated : kernel.deadline head with
    | none => simp [isDue, dated] at waits
    | some wakeupTime =>
        have early : now < wakeupTime := by simpa [isDue, dated] using waits
        exact ⟨some wakeupTime, if_pos early⟩

/-- The kind of reschedule that a yield asks for, whatever was pending before. -/
theorem yields_to_equal (pending : Nat)
    : (pending ||| (RESCHEDULE_KIND_YIELD_TO_EQUAL ||| RESCHEDULE_KIND_YIELD_TO_HIGHER))
        &&& RESCHEDULE_KIND_YIELD_TO_EQUAL ≠ 0 := by
  intro none
  have bit := congrArg (fun kind : Nat => kind.testBit 1) none
  have asked : (RESCHEDULE_KIND_YIELD_TO_EQUAL ||| RESCHEDULE_KIND_YIELD_TO_HIGHER).testBit 1
      = true := by decide
  have tested : RESCHEDULE_KIND_YIELD_TO_EQUAL.testBit 1 = true := by decide
  simp [asked, tested] at bit

/-- A yield with nobody due is the choice of the next thread among those of at least the same
priority, in a kernel that differs in the alarm and the noted request.
-/
theorem yieldAt_undue (undue : kernel.dueSleepers now = [])
    : ∃ kind alarm,
        kind &&& RESCHEDULE_KIND_YIELD_TO_EQUAL ≠ 0
        ∧ kernel.yieldAt fuel now
          = { kernel with
              alarm := alarm
              pendingRescheduleKind := RESCHEDULE_KIND_NONE }.switchToNext kind := by
  let kind := kernel.pendingRescheduleKind
    ||| (RESCHEDULE_KIND_YIELD_TO_EQUAL ||| RESCHEDULE_KIND_YIELD_TO_HIGHER)
  have equal : kind &&& RESCHEDULE_KIND_YIELD_TO_EQUAL ≠ 0 := yields_to_equal _
  have asked : kind ≠ RESCHEDULE_KIND_NONE := by
    intro none
    rw [none] at equal
    exact equal rfl
  let noted : Kernel := { kernel with pendingRescheduleKind := RESCHEDULE_KIND_NONE }
  have he : noted.dueSleepers now = [] := undue
  obtain ⟨alarm, woken⟩ := wakeDue_undue he
  refine ⟨kind, alarm, equal, ?_⟩
  have executed
      : (kernel.setPendingReschedule
          (RESCHEDULE_KIND_YIELD_TO_EQUAL ||| RESCHEDULE_KIND_YIELD_TO_HIGHER)).perform fuel
            (.executePendingReschedule now)
        = ({ noted with alarm := alarm } : Kernel).switchToNext kind := by
    change Kernel.executePendingReschedule fuel now _ = _
    unfold executePendingReschedule
    dsimp only [setPendingReschedule]
    rw [if_neg asked]
    unfold reschedule
    change wakeDue fuel now _ noted >>= _ = _
    rw [woken]
    rfl
  change (perform fuel _ _ >>= pure) = _
  rw [executed, bind_pure]

/-- The running thread, which is not the idle one, and the first threads of the ready queue have
the highest active priority, and none of them holds a lock.
-/
structure Circle (kernel : Kernel) (peers lower : List ThreadId) : Prop where
  notIdle : kernel.currentThread ≠ IDLE_THREAD_ID
  queue : kernel.readyQueue = peers ++ lower
  equal : ∀ thread ∈ peers, kernel.priority thread = kernel.priority kernel.currentThread
  below : ∀ thread ∈ lower, kernel.priority thread < kernel.priority kernel.currentThread
  free : ∀ thread ∈ kernel.currentThread :: peers, kernel.holdsLock thread = false

theorem Circle.congr (circle : kernel.Circle peers lower) (threads : kernel'.thread = kernel.thread)
    (current : kernel'.currentThread = kernel.currentThread)
    (ready : kernel'.readyQueue = kernel.readyQueue)
    : kernel'.Circle peers lower := by
  have priority (thread : ThreadId) : kernel'.priority thread = kernel.priority thread := by
    unfold Kernel.priority
    rw [threads]
  refine ⟨current ▸ circle.notIdle, ready.trans circle.queue, ?_, ?_, ?_⟩
  · intro thread hm
    rw [priority, priority, current]
    exact circle.equal thread hm
  · intro thread hm
    rw [priority, priority, current]
    exact circle.below thread hm
  · intro thread hm
    unfold holdsLock
    rw [threads]
    exact circle.free thread (current ▸ hm)

/-- A thread without locks passes its equals and stops in front of the first lower one. -/
theorem insertPast_behind_peers (sound : kernel.LocksSound) (free : kernel.holdsLock thread = false)
    (equal : ∀ peer ∈ peers, kernel.priority peer = kernel.priority thread)
    (below : ∀ other ∈ lower, kernel.priority other < kernel.priority thread)
    : insertPast (kernel.goesBeforeReady thread) thread (peers ++ lower)
      = peers ++ thread :: lower := by
  have unlocked : (kernel.lockPriority thread).isValid = false :=
    (sound thread).isValid_iff.trans free
  refine insertPast_between (fun peer hm => ?_) fun other first => ?_
  · have he := equal peer hm
    simp [goesBeforeReady, unlocked, he, Priority.le_iff]
  · have slower := below other (List.mem_of_mem_head? first)
    simpa [goesBeforeReady, unlocked, Priority.le_iff, Priority.lt_iff] using slower

theorem mayReplaceCurrent_iff {kind : Nat} (equal : kind &&& RESCHEDULE_KIND_YIELD_TO_EQUAL ≠ 0)
    : kernel.mayReplaceCurrent kind thread = true
      ↔ kernel.priority kernel.currentThread ≤ kernel.priority thread := by
  unfold mayReplaceCurrent
  rw [if_pos equal, decide_eq_true_iff]

/-- The kernel in which the first peer runs and the thread it took over from stands behind the
last peer has the circle turned by one place.
-/
theorem Circle.turned {first : ThreadId} (circle : kernel.Circle (first :: peers) lower)
    (sound : kernel.Sound)
    (threads : kernel'.thread = kernel.thread) (current : kernel'.currentThread = first)
    (ready
      : kernel'.readyQueue
        = insertPast (kernel.goesBeforeReady kernel.currentThread) kernel.currentThread
            (peers ++ lower))
    : kernel'.Circle (peers ++ [kernel.currentThread]) lower := by
  have he := circle.equal first (by simp)
  have priority (thread : ThreadId) : kernel'.priority thread = kernel.priority thread := by
    unfold Kernel.priority
    rw [threads]
  have listed : first ∈ kernel.readyQueue := by simp [circle.queue]
  refine ⟨?_, ?_, ?_, ?_, ?_⟩
  · rw [current]
    exact ((sound.consistent.filed first).ready.mp listed).2
  · rw [ready, insertPast_behind_peers sound.locks (circle.free _ (by simp))
      (fun peer hm => circle.equal peer (by simp [hm])) circle.below]
    simp
  · intro thread hm
    rw [priority, priority, current, he]
    rcases List.mem_append.mp hm with peer | last
    · exact circle.equal thread (by simp [peer])
    · rw [List.mem_singleton.mp last]
  · intro thread hm
    rw [priority, priority, current, he]
    exact circle.below thread hm
  · intro thread hm
    have inside : thread ∈ kernel.currentThread :: first :: peers := by
      rw [current] at hm
      simp only [List.mem_cons, List.mem_append, List.not_mem_nil, or_false] at hm ⊢
      tauto
    unfold holdsLock
    rw [threads]
    exact circle.free thread inside

/-- The choice of the next thread moves the first peer to the front and the current thread
behind the last peer. Witness: cases on the peers; the insertion walks past the other peers and
stops at the lower threads.
-/
theorem Circle.switchToNext (circle : kernel.Circle peers lower) (sound : kernel.Sound)
    {kind : Nat} (equal : kind &&& RESCHEDULE_KIND_YIELD_TO_EQUAL ≠ 0)
    (switched : kernel.switchToNext kind = .ok kernel')
    : ∃ peers',
        kernel'.Circle peers' lower
        ∧ kernel'.currentThread :: peers' = peers ++ [kernel.currentThread] := by
  have queue := circle.queue
  rcases switchToNext_ok switched with ⟨refused, rfl⟩ | ⟨head, rest, hq, accepted, next⟩
  · cases peers with
    | nil => exact ⟨[], circle, rfl⟩
    | cons first others =>
        have refuses := refused first (by simp [queue])
        have he := circle.equal first (by simp)
        have accepts := (mayReplaceCurrent_iff equal).mpr
          (Priority.le_iff.mpr (Nat.le_of_eq (congrArg Priority.rank he.symm)))
        rw [refuses] at accepts
        cases accepts
  · have urgent := (mayReplaceCurrent_iff equal).mp accepted
    cases peers with
    | nil =>
        have listed : head ∈ lower := by
          rw [hq, List.nil_append] at queue
          simp [← queue]
        have slower := circle.below head listed
        rw [Priority.lt_iff] at slower
        rw [Priority.le_iff] at urgent
        omega
    | cons first others =>
        obtain ⟨rfl, rfl⟩ : head = first ∧ rest = others ++ lower := by
          simpa [hq] using queue
        rcases next with ⟨-, hi⟩ | ⟨he, -⟩
        · rcases insertToReadyQueue_ok hi with ⟨isIdle, -⟩ | ⟨-, -, rfl⟩
          · exact absurd isIdle circle.notIdle
          · refine ⟨others ++ [kernel.currentThread], ?_, rfl⟩
            exact circle.turned sound rfl rfl rfl
        · exact absurd (by simp [queue, ← he]) sound.consistent.current_unlisted.1

/-- A yield turns the circle by one place and leaves the sleepers alone. -/
theorem Circle.yieldAt (circle : kernel.Circle peers lower) (sound : kernel.Sound)
    (undue : kernel.dueSleepers now = [])
    : ∃ kernel' peers',
        kernel.yieldAt fuel now = .ok kernel'
        ∧ kernel'.Sound ∧ kernel'.Circle peers' lower
        ∧ kernel'.currentThread :: peers' = peers ++ [kernel.currentThread]
        ∧ kernel'.dueSleepers = kernel.dueSleepers := by
  obtain ⟨kind, alarm, equal, yields⟩ := yieldAt_undue undue
  let noted : Kernel :=
    { kernel with alarm := alarm, pendingRescheduleKind := RESCHEDULE_KIND_NONE }
  have notedSound : noted.Sound :=
    sound.scheduling (.of_eq rfl) (sound.consistent.congr (by constructor <;> rfl))
  obtain ⟨kernel', switched⟩ := notedSound.consistent.switchToNext_returns (Or.inl equal)
  have notedCircle : noted.Circle peers lower := circle.congr rfl rfl rfl
  obtain ⟨peers', turned, order⟩ := notedCircle.switchToNext notedSound equal switched
  obtain ⟨sleepers, deadlines, -⟩ := switchToNext_frame switched
  have yielded : kernel.yieldAt fuel now = .ok kernel' := yields.trans switched
  refine ⟨kernel', peers', yielded, ?_, turned, order, ?_⟩
  · obtain ⟨asked, asks, later⟩ := bind_ok.mp yielded
    obtain ⟨final, executed, rest⟩ := bind_ok.mp later
    cases rest
    exact (sound.perform asks).perform executed
  · funext time
    unfold dueSleepers isDue
    rw [sleepers, deadlines]

/-- Every number of yields turns the circle by as many places. Witness: induction on the clock
values of the yields.
-/
theorem Circle.yields (circle : kernel.Circle peers lower) (sound : kernel.Sound)
    {times : List Instant} (undue : ∀ now ∈ times, kernel.dueSleepers now = [])
    : ∃ kernel' peers',
        run (Kernel.yieldAt fuel) kernel times = .ok kernel'
        ∧ kernel'.Circle peers' lower
        ∧ kernel'.currentThread :: peers'
          = (kernel.currentThread :: peers).rotate times.length := by
  induction times generalizing kernel peers with
  | nil => exact ⟨kernel, peers, rfl, circle, by simp⟩
  | cons now later ih =>
      obtain ⟨middle, turnedPeers, yielded, middleSound, turned, order, sleepers⟩ :=
        circle.yieldAt sound (undue now (by simp))
      have undueLater : ∀ now ∈ later, middle.dueSleepers now = [] := by
        intro time hm
        rw [sleepers]
        exact undue time (by simp [hm])
      obtain ⟨kernel', peers', ran, final, rotated⟩ := ih turned middleSound undueLater
      refine ⟨kernel', peers', bind_ok.mpr ⟨middle, yielded, ran⟩, final, ?_⟩
      rw [rotated, order, List.length_cons, List.rotate_cons_succ]

/-- In every kernel that any operations lead to, when the running thread and its peers at the
front of the ready queue have the highest priority and hold no locks, and no sleeper is due: a
yield makes the first peer run and puts the running thread behind the last, in front of the
lower threads, which keep their places; every further yield does so again; and as many yields as
there are threads in the circle restore the running thread and the ready queue.
-/
theorem yields_round_robin {program : Program}
    (reached : Reached fuel program (fun _ _ => True) kernel)
    (circle : kernel.Circle peers lower) (times : List Instant)
    (undue : ∀ now ∈ times, kernel.dueSleepers now = [])
    : ∃ kernel',
        run (Kernel.yieldAt fuel) kernel times = .ok kernel'
        ∧ kernel'.currentThread :: kernel'.readyQueue
          = (kernel.currentThread :: peers).rotate times.length ++ lower
        ∧ (times.length = 1
          → kernel'.currentThread :: kernel'.readyQueue = peers ++ kernel.currentThread :: lower)
        ∧ (times.length = peers.length + 1
          → kernel'.currentThread = kernel.currentThread
            ∧ kernel'.readyQueue = kernel.readyQueue) := by
  obtain ⟨kernel', peers', ran, final, rotated⟩ :=
    circle.yields (Reached.sound reached) undue
  have order : kernel'.currentThread :: kernel'.readyQueue
      = (kernel.currentThread :: peers).rotate times.length ++ lower := by
    rw [← rotated, final.queue, List.cons_append]
  refine ⟨kernel', ran, order, fun once => ?_, fun around => ?_⟩
  · rw [order, once, List.rotate_cons_succ, List.rotate_zero, List.append_assoc]
    rfl
  · have whole : times.length = (kernel.currentThread :: peers).length := around
    rw [whole, List.rotate_length, List.cons_append, ← circle.queue] at order
    exact List.cons.inj order

/-- A run at whose end thread 2 is current and threads 3 and 4 of its priority are ready, in
front of thread 5 of a lower one.
-/
def threeEquals : Except Fault Kernel :=
  run (perform 1)
    (Kernel.start ⟨fun thread => .thread (if thread = 5 then 1 else 2), fun _ => .thread 2,
      fun _ => .interrupt 1⟩)
    [.start 2, .start 3, .start 4, .start 5, .executePendingReschedule 0]

/-- Threads 2, 3 and 4 yield in turn, and thread 5 stays behind. -/
theorem yields_round_robin_three
    : threeEquals.map (fun kernel => (kernel.currentThread, kernel.readyQueue))
        = .ok (2, [3, 4, 5])
      ∧ ∀ kernel,
          threeEquals = .ok kernel
          → ∃ kernel',
              run (Kernel.yieldAt 1) kernel [1, 2, 3] = .ok kernel'
              ∧ kernel'.currentThread = 2 ∧ kernel'.readyQueue = [3, 4, 5] := by
  refine ⟨rfl, fun kernel ran => ?_⟩
  have current : kernel.currentThread = 2 := view_of_ok (·.currentThread) ran rfl
  have queue : kernel.readyQueue = [3, 4, 5] := view_of_ok (·.readyQueue) ran rfl
  have sleepers : kernel.sleepQueue = [] := view_of_ok (·.sleepQueue) ran rfl
  have priorities : [2, 3, 4, 5].map kernel.priority
      = [.thread 2, .thread 2, .thread 2, .thread 1] :=
    view_of_ok (fun kernel => [2, 3, 4, 5].map kernel.priority) ran rfl
  have locks : [2, 3, 4].map kernel.holdsLock = [false, false, false] :=
    view_of_ok (fun kernel => [2, 3, 4].map kernel.holdsLock) ran rfl
  simp only [List.map_cons, List.map_nil, List.cons.injEq, and_true] at priorities locks
  have circle : kernel.Circle [3, 4] [5] := by
    constructor
    · rw [current]
      decide
    · exact queue
    · simp [current, priorities]
    · rw [current, priorities.1]
      simp only [List.mem_singleton, forall_eq, priorities]
      decide
    · simp [current, locks]
  have undue : ∀ now ∈ [1, 2, 3], kernel.dueSleepers now = [] := by
    simp [dueSleepers, sleepers]
  obtain ⟨kernel', yields, -, -, around⟩ := yields_round_robin
    (Reaches.here.run (fun _ _ _ => trivial) ran) circle [1, 2, 3] undue
  obtain ⟨restored, order⟩ := around rfl
  exact ⟨kernel', yields, restored.trans current, order.trans queue⟩

end Scars.Kernel

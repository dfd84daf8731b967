import Scars.Preemption.Draining
import Scars.Preemption.RescheduleRequests

/-! When no wake-up stays parked.
A pending reschedule is executed by the lowest interrupt context when it ends, or by the thread
whose section is released. A request that comes after both have looked stays pending.
-/

namespace Scars

open Runs Machine Memory

variable {memory memory' : Memory} {fuel : Nat} {now : Instant} {more rest : List Instr}
  {context : ExecutionContext} {instr : Instr}

/-- An instruction keeps the lock, takes it, or is the store that unlocks. -/
theorem Instr.perform_lock (hp : instr.perform fuel now context memory = .ok (memory', more))
    : memory'.preemptLock = memory.preemptLock
      ∨ (memory'.preemptLock = some context
        ∧ ∃ previous, tryAcquireNestingLock memory.preemptLock context = some previous)
      ∨ ∃ isInterrupt,
          instr = .unlock isInterrupt ∧ more = if isInterrupt then [] else [.checkPending] := by
  cases instr with
  | user => cases hp
  | access access => exact Or.inl (access.perform_ok hp).1.preemptLock
  | tryWith body =>
      rcases Section.perform_ok hp with ⟨previous, acquired, rfl, -⟩ | ⟨-, refused, -⟩
      · exact Or.inr (Or.inl ⟨rfl, previous, acquired⟩)
      · exact Or.inl (Section.refuse_ok refused).1.preemptLock
  | borrowMut =>
      obtain ⟨rfl, rfl⟩ := borrowMut_ok hp
      exact Or.inl rfl
  | locked op => exact Or.inl (op.perform_ok hp).1.preemptLock
  | drain queue =>
      obtain ⟨popped, pending, -, rfl, -⟩ := drain_ok hp
      exact Or.inl rfl
  | unlock isInterrupt => cases hp; exact Or.inr (Or.inr ⟨isInterrupt, rfl, rfl⟩)
  | pollExecutor handler =>
      obtain ⟨rfl, -⟩ := setRaw_ok hp
      exact Or.inl rfl
  | pollPending =>
      obtain ⟨polls, rfl, -⟩ := pollPending_ok hp
      exact Or.inl rfl
  | _ => cases hp; exact Or.inl rfl

/-- The lowest interrupt context still executes pending reschedules. -/
def swapAhead : List Frame → Bool
  | [] => false
  | [lowest] => lowest.code.contains .swapPending
  | _ :: below => swapAhead below

/-- The code is the part of `release_nesting_lock` behind the unlocking store. -/
def looksForReschedule (code : List Instr) : Bool :=
  code.contains .checkPending || code.contains .yieldPending

theorem looksForReschedule_append {left right : List Instr}
    : looksForReschedule (left ++ right)
      = (looksForReschedule left || looksForReschedule right) := by
  simp only [looksForReschedule, List.contains_eq_mem, List.mem_append, Bool.decide_or]
  ac_rfl

namespace Machine

variable {machine machine' : Machine} {program : Program} {code : List Instr}

/-- The lowest interrupt context has not executed pending reschedules yet, or the interrupted
thread holds the preemption lock.
-/
def rescheduleAhead (machine : Machine) : Bool :=
  swapAhead machine.frames
    || machine.preemptLock == some (.thread machine.raw.currentThread)

/-- Somebody will execute a pending reschedule. -/
def WillReschedule (machine : Machine) : Prop :=
  machine.rescheduleAhead = true
  ∨ (machine.frames = [] ∧ looksForReschedule machine.running = true)

/-- A reschedule is asked for while somebody will execute it. -/
def asksInTime (machine : Machine) : Event → Bool
  | .exec _ =>
      match machine.running with
      | instr :: _ => !instr.asks machine.raw || machine.rescheduleAhead
      | [] => true
  | _ => true

theorem rescheduleAhead_iff
    : machine.rescheduleAhead = true
      ↔ swapAhead machine.frames = true
        ∨ machine.preemptLock = some (.thread machine.raw.currentThread) := by
  simp [rescheduleAhead]

theorem swapAhead_enter (machine : Machine) (handler : HandlerId) (body : List Instr)
    (ahead : machine.frames = [] ∨ swapAhead machine.frames = true)
    : swapAhead (machine.enter handler body).frames = true := by
  unfold enter
  cases frames : machine.frames with
  | nil => simp [swapAhead, interruptExit]
  | cons frame below =>
      rw [frames] at ahead
      exact ahead.resolve_left (by simp)

theorem swapAhead_setRunning (ahead : swapAhead machine.frames = true)
    (kept : machine.running.contains .swapPending = true → code.contains .swapPending = true)
    : swapAhead (machine.setRunning code).frames = true := by
  unfold running at kept
  unfold setRunning
  rcases frames : machine.frames with - | ⟨frame, - | ⟨next, below⟩⟩
  · simp [frames, swapAhead] at ahead
  · rw [frames] at kept ahead
    exact kept ahead
  · rw [frames] at ahead
    exact ahead

theorem frames_setRunning (none : machine.frames = [])
    : (machine.setRunning code).frames = [] := by
  unfold setRunning
  simp [none]

theorem WillReschedule.setRunning (will : machine.WillReschedule)
    (kept : machine.running.contains .swapPending = true → code.contains .swapPending = true)
    (looking : looksForReschedule machine.running = true → looksForReschedule code = true)
    : (machine.setRunning code).WillReschedule := by
  unfold WillReschedule at will ⊢
  rw [rescheduleAhead_iff] at will ⊢
  rw [toMemory_setRunning, running_setRunning]
  rcases will with (swap | taken) | ⟨none, looks⟩
  · exact Or.inl (Or.inl (swapAhead_setRunning swap kept))
  · exact Or.inl (Or.inr taken)
  · exact Or.inr ⟨frames_setRunning none, looking looks⟩

/-- An interrupt context on top of a thread's section is outside of all sections, so it can
neither take nor free the lock, nor switch threads.
-/
theorem Exclusive.lock_of_interrupted (hx : machine.Exclusive) (active : machine.frames ≠ [])
    (hrun : machine.running = instr :: rest)
    (hp : instr.perform fuel now machine.context machine.toMemory = .ok (memory, more))
    (taken : machine.preemptLock = some (.thread machine.raw.currentThread))
    : memory.preemptLock = some (.thread memory.raw.currentThread) := by
  have held := hx.held
  rw [stack_eq, hrun] at held
  obtain ⟨frame, below, frames⟩ := List.exists_cons_of_ne_nil active
  have context : machine.context = .interrupt frame.handler := by
    unfold context
    rw [frames]
  have outside : Balanced 0 false (instr :: rest) := by
    rcases held with ⟨outside, -⟩ | ⟨own, -⟩
    · exact outside
    · rw [taken, context] at own
      simp at own
  have neutral := outside.neutral instr (by simp)
  have current : memory.raw.currentThread = machine.raw.currentThread := by
    rcases perform_currentThread hp with he | ⟨op, rfl, -⟩
    · exact he
    · cases neutral
  rw [current]
  rcases Instr.perform_lock hp with he | ⟨-, previous, acquired⟩ | ⟨_, rfl, -⟩
  · exact he.trans taken
  · rw [context, taken] at acquired
    simp [tryAcquireNestingLock] at acquired
  · cases neutral

theorem Exclusive.lock_of_refused (hx : machine.Exclusive) (lowest : machine.level = .lowest)
    (refused : tryAcquireNestingLock machine.preemptLock machine.context = none)
    : machine.preemptLock = some (.thread machine.raw.currentThread) := by
  obtain ⟨frame, active⟩ := frames_of_lowest lowest
  have context : machine.context = .interrupt frame.handler := by
    unfold context
    rw [active]
  rw [context] at refused
  cases taken : machine.preemptLock with
  | none => simp [taken, tryAcquireNestingLock] at refused
  | some holder =>
      have held := hx.held
      rw [taken] at held
      obtain ⟨code, depth, hm, -⟩ := held.mem
      rcases mem_stack hm with ⟨other, listed, rfl, -⟩ | ⟨rfl, -⟩
      · rw [active, List.mem_singleton] at listed
        subst listed
        simp [taken, tryAcquireNestingLock] at refused
      · rfl

section

variable (hx : machine.Exclusive) (hrun : machine.running = instr :: rest)
  (hp : instr.perform fuel now machine.context machine.toMemory = .ok (memory, more))

include hx hrun hp

/-- The executing thread keeps the lock, or goes on to look for a pending reschedule. -/
theorem Exclusive.thread_willReschedule (thread : machine.frames = [])
    (will : machine.WillReschedule)
    (checks
      : instr = .checkPending → machine.raw.pendingRescheduleKind ≠ RESCHEDULE_KIND_NONE)
    : memory.preemptLock = some (.thread memory.raw.currentThread)
      ∨ looksForReschedule (more ++ rest) = true
      ∨ instr.enters ≠ none := by
  have context : machine.context = .thread machine.raw.currentThread := by
    unfold context
    rw [thread]
  have current : memory.raw.currentThread = machine.raw.currentThread :=
    (hx.current_or_interrupt hrun hp).resolve_right (not_not.mpr thread)
  have ha := hx.running instr (by simp [hrun])
  rcases will with ahead | ⟨-, looks⟩
  · have taken : machine.preemptLock = some (.thread machine.raw.currentThread) := by
      rw [rescheduleAhead_iff, thread] at ahead
      exact ahead.resolve_left (by simp [swapAhead])
    rcases Instr.perform_lock hp with he | ⟨own, -⟩ | ⟨isInterrupt, rfl, rfl⟩
    · exact Or.inl (by rw [he, taken, current])
    · exact Or.inl (by rw [own, context, current])
    · refine Or.inr (Or.inl ?_)
      -- the unlock of a thread is followed by the check
      have level : machine.level = .thread := by
        unfold level
        rw [thread]
      rw [level] at ha
      cases isInterrupt with
      | true => cases ha
      | false => simp [looksForReschedule]
  · rw [hrun] at looks
    have later (looks : looksForReschedule rest = true)
        : looksForReschedule (more ++ rest) = true := by
      rw [looksForReschedule_append, looks, Bool.or_true]
    have split : looksForReschedule (instr :: rest)
        = (looksForReschedule [instr] || looksForReschedule rest) :=
      @looksForReschedule_append [instr] rest
    rw [split, Bool.or_eq_true] at looks
    rcases looks with first | looks
    · have isCheck : instr = .checkPending ∨ instr = .yieldPending := by
        simp only [looksForReschedule, List.contains_eq_mem, List.mem_singleton,
          Bool.or_eq_true, decide_eq_true_eq] at first
        exact first.imp Eq.symm Eq.symm
      rcases isCheck with rfl | rfl
      · cases hp
        rw [if_pos (checks rfl)]
        exact Or.inr (Or.inl (by simp [looksForReschedule]))
      · exact Or.inr (Or.inr (by simp [Instr.enters]))
    · exact Or.inr (Or.inl (later looks))

/-- Whoever was going to execute a pending reschedule still is, unless it just did. -/
theorem WillReschedule.goOn (will : machine.WillReschedule) (notNow : instr ≠ .swapPending)
    (checks
      : instr = .checkPending → machine.raw.pendingRescheduleKind ≠ RESCHEDULE_KIND_NONE)
    : (machine.goOn memory (more ++ rest) instr.enters).WillReschedule := by
  unfold WillReschedule
  rw [rescheduleAhead_iff, toMemory_goOn]
  by_cases thread : machine.frames = []
  · have next : (machine.setRunning (more ++ rest)).frames = [] := frames_setRunning thread
    cases enters : instr.enters with
    | none =>
        have left := hx.running_goOn hrun hp enters
        rw [enters] at left
        rw [left]
        rcases hx.thread_willReschedule hrun hp thread will checks with
          own | looks | entered
        · exact Or.inl (Or.inr own)
        · exact Or.inr ⟨next, looks⟩
        · exact absurd enters entered
    | some entered => exact Or.inl (Or.inl (swapAhead_enter _ _ _ (Or.inl next)))
  · have ahead := will.resolve_right fun outside => thread outside.1
    rw [rescheduleAhead_iff] at ahead
    rcases ahead with swap | taken
    · have kept : swapAhead (machine.setRunning (more ++ rest)).frames = true := by
        refine swapAhead_setRunning swap fun contains => ?_
        rw [hrun] at contains
        have hm : Instr.swapPending ∈ rest := by simpa [Ne.symm notNow] using contains
        simp [hm]
      cases enters : instr.enters with
      | none => exact Or.inl (Or.inl kept)
      | some entered => exact Or.inl (Or.inl (swapAhead_enter _ _ _ (Or.inr kept)))
    · exact Or.inl (Or.inr (hx.lock_of_interrupted thread hrun hp taken))

end

/-- A pending reschedule will be executed. -/
def RescheduleDue (machine : Machine) : Prop :=
  machine.raw.pendingRescheduleKind ≠ RESCHEDULE_KIND_NONE → machine.WillReschedule

/-- Every step in time keeps a pending reschedule under somebody's care. -/
theorem RescheduleDue.step (due : machine.RescheduleDue) (hx : machine.Exclusive)
    {event : Event} (inTime : machine.asksInTime event = true)
    (hs : machine.step fuel event = .ok machine')
    : machine'.RescheduleDue := by
  intro pending
  cases step_ok hs with
  | @instr now instr rest more memory hrun hp =>
      rw [toMemory_goOn] at pending
      have notNow : instr ≠ .swapPending := by
        rintro rfl
        cases hp
        exact pending rfl
      rcases Instr.perform_kind hp with he | asks | cleared | ⟨kind, rfl, refused⟩
      · rw [he] at pending
        exact (due pending).goOn hx hrun hp notNow fun _ => pending
      · unfold asksInTime at inTime
        rw [hrun] at inTime
        simp only [asks, Bool.not_true, Bool.false_or] at inTime
        refine WillReschedule.goOn hx hrun hp (Or.inl inTime) notNow ?_
        rintro rfl
        cases asks
      · exact absurd cleared pending
      · have ha := hx.running (.tryWith (.op (.reschedule kind))) (by simp [hrun])
        have taken := hx.lock_of_refused (level_of_switches ha rfl) refused
        have ahead : machine.WillReschedule := Or.inl (rescheduleAhead_iff.mpr (Or.inr taken))
        exact ahead.goOn hx hrun hp notNow nofun
  | @restore _ frame below active ended =>
      have will := (due pending).resolve_right fun outside => by simp [active] at outside
      rw [rescheduleAhead_iff, active] at will
      refine Or.inl (rescheduleAhead_iff.mpr (will.imp_left fun swap => ?_))
      cases below with
      | nil => simp [swapAhead, ended] at swap
      | cons next below => exact swap
  | @call call rest hrun ha =>
      rw [toMemory_setRunning] at pending
      refine (due pending).setRunning (fun contains => ?_) fun looks => ?_
      · rw [hrun] at contains
        simp only [List.contains_eq_mem, List.mem_append, decide_eq_true_eq] at contains ⊢
        exact Or.inr contains
      · rw [hrun] at looks
        rw [looksForReschedule_append, looks, Bool.or_true]
  | @finish rest hrun ha =>
      rw [toMemory_setRunning] at pending
      refine (due pending).setRunning (fun contains => ?_) fun looks => ?_
      · rw [hrun] at contains
        simpa using contains
      · rw [hrun] at looks
        simpa [looksForReschedule] using looks
  | fire ha =>
      have will := due pending
      unfold WillReschedule at will
      rw [rescheduleAhead_iff] at will
      rcases will with (swap | taken) | ⟨none, -⟩
      · exact Or.inl (rescheduleAhead_iff.mpr (Or.inl (swapAhead_enter _ _ _ (Or.inr swap))))
      · exact Or.inl (rescheduleAhead_iff.mpr (Or.inr taken))
      · exact Or.inl (rescheduleAhead_iff.mpr (Or.inl (swapAhead_enter _ _ _ (Or.inl none))))

end Machine

end Scars

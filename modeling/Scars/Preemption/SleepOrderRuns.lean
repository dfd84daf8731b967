import Scars.Preemption.SleepOrder

/-! The sleep queue is in order after each operation, in every run in which no deadline changes
behind the back of the holder of the lock.
-/

namespace Scars.Machine

open Memory Runs Machine

variable {machine machine' : Machine} {fuel : Nat} {program : Program} {memory : Memory}
  {code rest more : List Instr} {instr : Instr} {now : Instant} {handler : HandlerId}
  {access : Access} {deadline : Option Instant}

/-- Whether the code is about to insert the handler, by a deadline that was read before. -/
def insertsNext (handler : HandlerId) : List Instr → Bool
  | .locked (.insertSleeper other _) :: _ => other == handler
  | _ => false

/-- Whether the deadline of a handler may change now: the lock will be granted, or the handler is
neither queued nor about to be.
-/
def mayDate (handler : HandlerId) (machine : Machine) : Bool :=
  (tryAcquireNestingLock machine.preemptLock machine.context).isSome
    || !machine.raw.inSleepQueue (.interrupt handler)
      && machine.stack.all fun entry => !insertsNext handler entry.2

/-- Deadlines change while they may, and no interrupt is taken between a change of the deadline
of a queued handler and the acquisition of the lock.
-/
def keepsOrder (machine : Machine) : Event → Bool
  | .exec _ =>
      match machine.running with
      | .access (.setDeadline handler _) :: _ => machine.mayDate handler
      | _ => true
  | .fire _ =>
      match machine.running with
      | .tryWith (.op (.scheduleInterruptWakeup handler)) :: _ =>
          !machine.raw.inSleepQueue (.interrupt handler)
      | _ => true
  | _ => true

/-- The code inside a section that first takes the handler out of the sleep queue. -/
def takesOut (handler : HandlerId) : List Instr → Prop
  | .borrowMut :: .locked (.run (.scheduleInterruptWakeup other)) :: _ => other = handler
  | .locked (.run (.scheduleInterruptWakeup other)) :: _ => other = handler
  | _ => False

/-- The handler is about to leave the sleep queue, before anybody else completes an operation. -/
def Rescheduling (machine : Machine) (handler : HandlerId) : Prop :=
  (∃ rest,
    machine.running = .tryWith (.op (.scheduleInterruptWakeup handler)) :: rest
    ∧ (tryAcquireNestingLock machine.preemptLock machine.context).isSome = true)
  ∨ ∃ code, machine.HasCode code ∧ takesOut handler code

/-- Deadlines that were read are still current, and at most one handler is out of place. -/
structure SleepsInOrder (machine : Machine) : Prop where
  inserting
    : ∀ handler deadline rest,
        machine.HasCode (.locked (.insertSleeper handler deadline) :: rest)
        → machine.raw.deadline (.interrupt handler) = deadline
  inOrder
    : ∃ stale,
        machine.raw.InOrder stale ∧ ∀ handler, stale = some handler → machine.Rescheduling handler

theorem not_balanced_of_takesOut (takes : takesOut handler code) : ¬ Balanced 0 false code := by
  intro balanced
  unfold takesOut at takes
  split at takes
  · cases balanced.1
  · cases balanced.1
  · exact takes

/-- Inside a section, only the executing context can have a handler to take out. -/
theorem Rescheduling.running (rescheduling : machine.Rescheduling handler)
    (hx : machine.Exclusive) (hrun : machine.running = instr :: rest)
    (inside : instr.isNeutral = false)
    : takesOut handler machine.running := by
  rcases rescheduling with ⟨_, he, -⟩ | ⟨code, rfl | other, takes⟩
  · rw [hrun] at he
    cases he
    cases inside
  · exact takes
  · have depth := hx.depth_of_inside hrun inside
    exact absurd (hx.other_balanced depth other) (not_balanced_of_takesOut takes)

theorem SleepsInOrder.timed (order : machine.SleepsInOrder) (hx : machine.Exclusive)
    (hrun : machine.running = instr :: rest) (inside : instr.isNeutral = false)
    (completes : ∀ handler, ¬ takesOut handler (instr :: rest))
    : machine.raw.Timed := by
  obtain ⟨stale, inOrder, out⟩ := order.inOrder
  cases stale with
  | none => exact inOrder
  | some handler =>
      have takes := (out handler rfl).running hx hrun inside
      rw [hrun] at takes
      exact absurd takes (completes handler)

theorem Exclusive.mem_stack_of_inserts (hx : machine.Exclusive)
    (hasCode : machine.HasCode code) (inserts : insertsNext handler code = true)
    : ∃ context, (context, code) ∈ machine.stack := by
  rw [stack_eq]
  rcases hasCode with rfl | other
  · exact ⟨machine.context, by simp⟩
  · rcases otherCode_cases other with ⟨context, hm⟩ | ⟨thread, notCurrent, rfl⟩
    · exact ⟨context, by simp [hm]⟩
    · exfalso
      have outside := hx.others thread notCurrent
      unfold insertsNext at inserts
      split at inserts
      next starts => rw [starts] at outside; cases outside.1
      · cases inserts

/-- Only `deadline` is read right before an insertion, and nothing else changes then. -/
theorem deadline_of_inserts {context : ExecutionContext} {memory' : Memory}
    (hp : instr.perform fuel now context memory
      = .ok (memory', .locked (.insertSleeper handler deadline) :: more))
    : memory'.raw.deadline (.interrupt handler) = deadline := by
  by_cases inside : ∃ op, instr = .locked op
  · obtain ⟨op, rfl⟩ := inside
    cases Instr.perform_continues hp with
    | read => cases hp; rfl
  · have outer := Instr.perform_outer hp (not_exists.mp inside) _ (List.mem_cons_self ..)
    cases outer

section

variable (order : machine.SleepsInOrder) (hx : machine.Exclusive)
  (settled : machine.Settled) (keeps : machine.keepsOrder (.exec now) = true)
  (hrun : machine.running = instr :: rest)
  (hp : instr.perform fuel now machine.context machine.toMemory = .ok (memory, more))

include keeps hrun in
theorem mayDate_of_keepsOrder {wakeupTime : Instant}
    (dates : instr = .access (.setDeadline handler wakeupTime))
    : machine.mayDate handler = true := by
  subst dates
  unfold keepsOrder at keeps
  dsimp only at keeps
  rw [hrun] at keeps
  exact keeps

include order hx settled keeps hrun hp in
theorem SleepsInOrder.inserting_goOn {later : List Instr}
    (inserts
      : (machine.goOn memory (more ++ rest) instr.enters).HasCode
          (.locked (.insertSleeper handler deadline) :: later))
    : memory.raw.deadline (.interrupt handler) = deadline := by
  rcases (hx.hasCode_goOn hrun hp).mp inserts with
    he | other | ⟨entering, body, enters, he⟩
  · cases more with
    | nil =>
        have headed : ∀ next ∈ rest, next.isInner = false :=
          settled.headed _ (Or.inl hrun.symm)
        rw [List.nil_append] at he
        subst he
        cases headed _ (List.mem_cons_self ..)
    | cons first more =>
        obtain ⟨rfl, -⟩ := List.cons.inj he
        exact deadline_of_inserts hp
  · rw [← order.inserting handler deadline later (Or.inr other)]
    rcases Instr.perform_handlerDeadline hp handler with he | ⟨wakeupTime, dates, -⟩
    · exact he
    · -- nobody may change a deadline that was read
      exfalso
      rcases Bool.or_eq_true_iff.mp (mayDate_of_keepsOrder keeps hrun dates) with
        granted | away
      · exact absurd (hx.other_of_granted granted other).1 (Nat.lt_irrefl 0)
      · have inserts : insertsNext handler (.locked (.insertSleeper handler deadline) :: later)
            = true := beq_self_eq_true handler
        obtain ⟨context, hm⟩ := hx.mem_stack_of_inserts (Or.inr other) inserts
        have notNext := List.all_eq_true.mp (Bool.and_eq_true_iff.mp away).2 _ hm
        rw [inserts] at notNext
        cases notNext
  · have outer : (Instr.locked (.insertSleeper handler deadline)).isInner = false :=
      List.forall_mem_append.mpr ⟨isInner_body (body_of_enters enters), isInner_exit (exit_cases _)⟩
        _ (he ▸ List.mem_cons_self ..)
    cases outer

/-- A section that takes a handler out is still about to after an instruction of others. -/
theorem takesOut_borrowMut (takes : takesOut handler (.borrowMut :: rest))
    : takesOut handler rest := by
  unfold takesOut at takes
  split at takes
  next starts => cases starts; exact takes
  next starts => cases starts
  · exact takes.elim

include hx hrun hp in
theorem Rescheduling.goOn (rescheduling : machine.Rescheduling handler)
    (outer : ∀ op, instr ≠ .locked op)
    : (machine.goOn memory (more ++ rest) instr.enters).Rescheduling handler := by
  have all {code : List Instr}
      : (machine.goOn memory (more ++ rest) instr.enters).HasCode code ↔ _ :=
    hx.hasCode_goOn hrun hp
  rcases rescheduling with ⟨later, next, granted⟩ | ⟨code, rfl | other, takes⟩
  · rw [hrun] at next
    obtain ⟨rfl, rfl⟩ := List.cons.inj next
    rcases Section.perform_ok hp with ⟨previous, -, -, rfl⟩ | ⟨refused, -, -⟩
    · exact Or.inr ⟨_, all.mpr (Or.inl rfl), rfl⟩
    · rw [refused] at granted
      cases granted
  · rw [hrun] at takes
    cases instr with
    | borrowMut =>
        unfold Instr.perform at hp
        dsimp only at hp
        split at hp
        · cases hp
        · cases hp
          exact Or.inr ⟨_, all.mpr (Or.inl rfl), takesOut_borrowMut takes⟩
    | locked op => exact absurd rfl (outer op)
    | _ => exact takes.elim
  · exact Or.inr ⟨code, all.mpr (Or.inr (Or.inl other)), takes⟩

include hx in
theorem Rescheduling.not_granted (rescheduling : machine.Rescheduling handler)
    (granted : (tryAcquireNestingLock machine.preemptLock machine.context).isSome = true)
    (hrun : machine.running = .access access :: rest)
    : False := by
  rcases rescheduling with ⟨_, next, -⟩ | ⟨code, rfl | other, takes⟩
  · rw [hrun] at next
    cases next
  · rw [hrun] at takes
    exact takes
  · exact not_balanced_of_takesOut takes (hx.other_of_granted granted other)

end

theorem context_goOn (machine : Machine) (memory : Memory) (code : List Instr)
    (he : memory.raw.currentThread = machine.raw.currentThread)
    : (machine.goOn memory code none).context = machine.context := by
  unfold goOn setRunning context
  cases machine.frames with
  | nil => simp [he]
  | cons top below => rfl

/-- What the steps about sleepers rest on. -/
structure Orderly (machine : Machine) : Prop where
  exclusive : machine.Exclusive
  settled : machine.Settled
  dates : machine.DatesFirst
  requests : ∀ code, machine.HasCode code → RequestsNext code
  order : machine.SleepsInOrder

theorem start_orderly (program : Program) : (start program).Orderly where
  exclusive := start_exclusive program
  settled := start_settled program
  dates := start_datesFirst program
  requests code hasCode := by
    rw [start_hasCode program hasCode]
    exact ⟨nofun, trivial⟩
  order := {
    inserting := fun handler deadline rest hasCode => by
      cases start_hasCode program hasCode
    inOrder := ⟨none, (Kernel.start_punctual program).timed, nofun⟩
  }

section

variable (orderly : machine.Orderly) (keeps : machine.keepsOrder (.exec now) = true)

include orderly

theorem Orderly.timed_locked {op : Locked} (hrun : machine.running = .locked op :: rest)
    (hp
      : (Instr.locked op).perform fuel now machine.context machine.toMemory = .ok (memory, more))
    : memory.raw.Timed := by
  obtain ⟨hx, settled, dates, -, order⟩ := orderly
  by_cases takes : ∃ handler, op = .run (.scheduleInterruptWakeup handler)
  · obtain ⟨handler, rfl⟩ := takes
    obtain ⟨rfl, -⟩ := setRaw_ok hp
    obtain ⟨stale, inOrder, out⟩ := order.inOrder
    cases stale with
    | none => exact Kernel.Timed.leaveSleepQueue inOrder _
    | some other =>
        have takes := (out other rfl).running hx hrun rfl
        rw [hrun] at takes
        cases takes
        exact inOrder
  · have timed := order.timed hx hrun rfl fun handler out => takes ⟨handler, by
      unfold takesOut at out
      split at out
      next starts => cases starts
      next starts => cases starts; rw [out]
      · exact out.elim⟩
    refine op.perform_timed timed (settled.listed_locked hx hrun)
      (dates.code _ (Or.inl hrun.symm)).1 ?_ hp
    rintro handler deadline rfl
    exact order.inserting handler deadline rest (Or.inl hrun.symm)

/-- The handler whose deadline changes will be taken out of the queue next. -/
theorem Orderly.dates_granted {wakeupTime : Instant}
    (hrun : machine.running = .access (.setDeadline handler wakeupTime) :: rest)
    (granted : (tryAcquireNestingLock machine.preemptLock machine.context).isSome = true)
    (hp
      : (Instr.access (.setDeadline handler wakeupTime)).perform fuel now machine.context
        machine.toMemory = .ok (memory, more))
    : memory.raw.InOrder (some handler)
      ∧ (machine.goOn memory (more ++ rest) none).Rescheduling handler := by
  obtain ⟨hx, settled, -, requests, order⟩ := orderly
  have goesOn := hx.running_goOn hrun hp rfl
  have accessed
      : (Access.setDeadline handler wakeupTime).perform fuel machine.toMemory
        = .ok (memory, more) := hp
  have context := context_goOn machine memory (more ++ rest) (Access.perform_ok accessed).2.2.1
  obtain ⟨rfl, rfl⟩ := setRaw_ok hp
  obtain ⟨moving, listed, -⟩ := settled.listed
  obtain ⟨stale, inOrder, out⟩ := order.inOrder
  have timed : machine.raw.Timed := by
    cases stale with
    | none => exact inOrder
    | some other => exact ((out other rfl).not_granted hx granted hrun).elim
  obtain ⟨later, next⟩ := (requests _ (Or.inl hrun.symm)).1 handler rfl
  refine ⟨timed.setDeadline listed.nodup _, Or.inl ⟨later, goesOn.trans next, ?_⟩⟩
  rw [toMemory_goOn, context]
  exact granted

include keeps

/-- After an instruction, the queue is in order but for a handler that is about to leave it. -/
theorem Orderly.inOrder_goOn (hrun : machine.running = instr :: rest)
    (hp : instr.perform fuel now machine.context machine.toMemory = .ok (memory, more))
    : ∃ stale,
        memory.raw.InOrder stale
        ∧ ∀ handler,
            stale = some handler
            → (machine.goOn memory (more ++ rest) instr.enters).Rescheduling handler := by
  by_cases inside : ∃ op, instr = .locked op
  · obtain ⟨op, rfl⟩ := inside
    exact ⟨none, orderly.timed_locked hrun hp, nofun⟩
  have outer := not_exists.mp inside
  by_cases granted
      : (∃ handler wakeupTime, instr = .access (.setDeadline handler wakeupTime))
        ∧ (tryAcquireNestingLock machine.preemptLock machine.context).isSome = true
  · obtain ⟨⟨handler, wakeupTime, rfl⟩, granted⟩ := granted
    obtain ⟨inOrder, out⟩ := orderly.dates_granted hrun granted hp
    exact ⟨some handler, inOrder, fun other he => Option.some.inj he ▸ out⟩
  · obtain ⟨stale, inOrder, out⟩ := orderly.order.inOrder
    refine ⟨stale, inOrder.outer (Instr.perform_outerEffect hp outer) ?_,
      fun handler he => (out handler he).goOn orderly.exclusive hrun hp outer⟩
    intro handler wakeupTime dates
    have away := (Bool.or_eq_true_iff.mp (mayDate_of_keepsOrder keeps hrun dates)).resolve_left
      fun available => granted ⟨⟨handler, wakeupTime, dates⟩, available⟩
    simpa [Kernel.inSleepQueue] using (Bool.and_eq_true_iff.mp away).1

end

theorem SleepsInOrder.rewrite (order : machine.SleepsInOrder)
    (hrun : machine.running = .user :: rest) (outer : ∀ next ∈ code, next.isInner = false)
    : (machine.setRunning code).SleepsInOrder := by
  refine ⟨fun handler deadline later hasCode => ?_, ?_⟩
  · rw [toMemory_setRunning]
    rcases hasCode with he | other
    · rw [running_setRunning] at he
      subst he
      cases outer _ (List.mem_cons_self ..)
    · exact order.inserting handler deadline later
        (Or.inr ((otherCode_setRunning machine _ _).mp other))
  · obtain ⟨stale, inOrder, out⟩ := order.inOrder
    rw [toMemory_setRunning]
    refine ⟨stale, inOrder, fun handler he => ?_⟩
    rcases out handler he with ⟨_, next, -⟩ | ⟨left, rfl | other, takes⟩
    · rw [hrun] at next
      cases next
    · rw [hrun] at takes
      exact takes.elim
    · exact Or.inr ⟨left, Or.inr ((otherCode_setRunning machine _ _).mpr other), takes⟩

theorem SleepsInOrder.restore (order : machine.SleepsInOrder) {frame : Frame}
    {below : List Frame} (active : machine.frames = frame :: below) (ended : frame.code = [])
    : SleepsInOrder { machine with frames := below } := by
  have hrun : machine.running = [] := by
    unfold running
    rw [active]
    exact ended
  refine ⟨fun handler deadline later hasCode => ?_, ?_⟩
  · exact order.inserting handler deadline later
      (Or.inr ((otherCode_restore active).mpr hasCode))
  · obtain ⟨stale, inOrder, out⟩ := order.inOrder
    refine ⟨stale, inOrder, fun handler he => ?_⟩
    rcases out handler he with ⟨_, next, -⟩ | ⟨left, rfl | other, takes⟩
    · rw [hrun] at next
      cases next
    · rw [hrun] at takes
      exact takes.elim
    · exact Or.inr ⟨left, (otherCode_restore active).mp other, takes⟩

theorem SleepsInOrder.fire (order : machine.SleepsInOrder)
    (keeps : machine.keepsOrder (.fire handler) = true)
    : (machine.enter handler [.user]).SleepsInOrder := by
  refine ⟨fun other deadline later hasCode => ?_, ?_⟩
  · rcases hasCode_enter.mp hasCode with he | before
    · cases he
    · exact order.inserting other deadline later before
  · obtain ⟨stale, inOrder, out⟩ := order.inOrder
    cases stale with
    | none => exact ⟨none, inOrder, nofun⟩
    | some stale =>
        rcases out stale rfl with ⟨_, next, -⟩ | ⟨code, hasCode, takes⟩
        · -- the handler is not in the queue, so it is not out of place
          unfold keepsOrder at keeps
          dsimp only at keeps
          rw [next] at keeps
          have awake : .interrupt stale ∉ machine.raw.sleepQueue := by
            simpa [Kernel.inSleepQueue] using keeps
          exact ⟨none, Kernel.InOrder.awake inOrder awake, nofun⟩
        · refine ⟨some stale, inOrder, fun other he => ?_⟩
          cases he
          exact Or.inr ⟨code, hasCode_enter.mpr (Or.inr hasCode), takes⟩

/-- A step that keeps the order inserts sleepers in order. -/
theorem Orderly.step (orderly : machine.Orderly) {event : Event}
    (keeps : machine.keepsOrder event = true) (hs : machine.step fuel event = .ok machine')
    : machine'.Orderly := by
  obtain ⟨hx, settled, dates, requests, order⟩ := id orderly
  refine ⟨hx.step hs, settled.step hx hs, dates.step hx hs,
    keptByCode_requestsNext.step hx requests hs, ?_⟩
  cases step_ok hs with
  | @instr now instr rest more memory hrun hp =>
      refine ⟨fun handler deadline later hasCode => ?_, ?_⟩
      · rw [toMemory_goOn]
        exact order.inserting_goOn hx settled keeps hrun hp hasCode
      · rw [toMemory_goOn]
        exact orderly.inOrder_goOn keeps hrun hp
  | restore active ended => exact order.restore active ended
  | @call call rest hrun ha =>
      exact order.rewrite hrun (List.forall_mem_append.mpr
        ⟨fun next hm => isInner_of_neutral (neutral_call call next hm).1,
          List.forall_mem_cons.mpr ⟨rfl, settled.headed _ (Or.inl hrun.symm)⟩⟩)
  | @finish rest hrun ha =>
      exact order.rewrite hrun (settled.headed _ (Or.inl hrun.symm))
  | fire ha => exact order.fire keeps

/-- Every state of a run in which deadlines change while they may is orderly. -/
theorem orderly_of_reached
    (reached
      : Reaches (step fuel) (fun machine event => machine.keepsOrder event = true)
          (start program) machine)
    : machine.Orderly :=
  reached.invariant Orderly (start_orderly program) fun _ _ _ orderly keeps ran =>
    orderly.step keeps ran

/-- Once an operation of the scheduler is complete, no handler is out of place. -/
theorem Orderly.timed_completed (orderly : machine.Orderly)
    (completes : machine.running = .dropBorrow :: rest)
    (hs : machine.step fuel (.exec now) = .ok machine')
    : machine'.raw.Timed := by
  have timed := orderly.order.timed orderly.exclusive completes rfl fun handler takes => takes
  cases step_ok hs with
  | instr hrun hp =>
      rw [completes] at hrun
      cases hrun
      cases hp
      rw [toMemory_goOn]
      exact timed
  | restore => exact timed

/-- In a run in which deadlines change while they may, the sleep queue is in order when an
operation of the scheduler is complete, and the alarm is not late for any sleeper. Witness: a
handler is out of place only until the section it was changed for takes it out.
-/
theorem sleepQueue_inOrder
    (reached
      : Reaches (step fuel) (fun machine event => machine.keepsOrder event = true)
          (start program) machine)
    (completes : machine.running = .dropBorrow :: rest)
    (hs : machine.step fuel (.exec now) = .ok machine')
    : machine'.raw.Timed :=
  (orderly_of_reached reached).timed_completed completes hs

/-- The calls of `schedule_interrupt_wakeup` with some of their instructions. -/
def scheduleFor (handler : HandlerId) (wakeupTime : Instant) (steps : Nat) : List Event :=
  .call (.scheduleInterruptWakeup handler wakeupTime) :: List.replicate steps (.exec 0)

/-- Handler 3 moves itself behind handler 4, up to the end of its own section. -/
theorem sleepQueue_inOrder_moved
    : let program : Program :=
        ⟨fun thread => .thread thread.toUInt8, fun _ => .interrupt 4, fun _ => .interrupt 1⟩
      let events : List Event :=
        scheduleFor 3 10 14 ++ scheduleFor 4 20 14 ++ .fire 3 :: scheduleFor 3 30 6
      ∃ machine machine' : Machine,
        run (step 2) (start program) events = .ok machine
        ∧ machine.step 2 (.exec 0) = .ok machine'
        ∧ machine'.raw.sleepQueue = [.interrupt 4, .interrupt 3]
        ∧ machine'.raw.Timed := by
  intro program events
  obtain ⟨machine, machine', ended, hs⟩
      : ∃ machine machine',
          run (step 2) (start program) events = .ok machine
          ∧ machine.step 2 (.exec 0) = .ok machine' := by
    unfold program events
    exact ⟨_, _, rfl, rfl⟩
  have completes
      : machine.running = [.dropBorrow, .release ⟨true, none⟩, .user, .pollPending,
          .swapPending, .checkPolls] :=
    view_of_ok (fun machine : Machine => machine.running) ended (by unfold program events; rfl)
  have moved
      : (machine.step 2 (.exec 0)).map (fun machine => machine.raw.sleepQueue)
        = .ok [.interrupt 4, .interrupt 3] :=
    view_of_ok
      (fun machine : Machine =>
        (machine.step 2 (.exec 0)).map fun machine => machine.raw.sleepQueue)
      ended (by unfold program events; rfl)
  have checked : allows (step 2) keepsOrder (start program) events = true := by
    unfold program events
    rfl
  exact ⟨machine, machine', ended, hs,
    view_of_ok (fun machine : Machine => machine.raw.sleepQueue) hs moved,
    sleepQueue_inOrder (Reaches.run_allowed keepsOrder .here checked ended) completes hs⟩

/-- The idle thread puts handler 5 to sleep; meanwhile handler 3, which is queued, moves its own
deadline behind that of handler 4. The alarm is programmed for handler 5 and misses handler 4.
-/
theorem alarm_misses_sleeper
    : let program : Program :=
        ⟨fun thread => .thread thread.toUInt8, fun _ => .interrupt 4, fun _ => .interrupt 1⟩
      -- up to the `borrowMut` of the section for handler 5
      let before : List Event :=
        scheduleFor 3 10 14 ++ scheduleFor 4 20 14 ++ scheduleFor 5 25 3
      let interrupt : List Event :=
        .fire 3 :: scheduleFor 3 30 2 ++ .finish :: List.replicate 4 (.exec 0)
      (run (step 2) (start program)
          (before ++ interrupt ++ List.replicate 16 (.exec 0))).map
        (fun machine =>
          (machine.running,
            machine.raw.sleepQueue.map fun sleeper => (sleeper, machine.raw.deadline sleeper),
            machine.raw.alarm))
      = .ok ([.user],
          [(.interrupt 5, some 25), (.interrupt 4, some 20), (.interrupt 3, some 30)],
          some 25) := by
  rfl

end Scars.Machine

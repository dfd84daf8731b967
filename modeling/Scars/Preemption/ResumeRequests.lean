import Scars.Preemption.Filing
import Scars.Preemption.Frames
import Scars.Preemption.PendingSteps
import Scars.Preemption.Requests
import Scars.Kernel.Wakes

/-! Requests to resume a thread, from the moment they are made to the resumption.
A request is a step that some context has left, or waits in `pending_resume`. It is lost only
if a refused request finds its node in use, since that breaks the queue.
-/

namespace Scars

open Memory Runs

variable {memory memory' : Memory} {fuel : Nat} {now : Instant} {more rest : List Instr}
  {context : ExecutionContext} {instr : Instr} {thread : ThreadId}

namespace Scheduler

/-- Whether the node of the suspendable is free. -/
def nodeFree (scheduler : Scheduler) (suspendable : Suspendable) : Bool :=
  !scheduler.pending.isLinked suspendable
    && scheduler.pending.loadHead .resume != .item suspendable
    && scheduler.pending.loadHead .sleep != .item suspendable

theorem nodeFree_iff {scheduler : Scheduler} {suspendable : Suspendable}
    : scheduler.nodeFree suspendable = true ↔ scheduler.NodeFree suspendable := by
  unfold nodeFree NodeFree
  simp only [Bool.and_eq_true, Bool.not_eq_true', bne_iff_ne, and_assoc]
  refine and_congr_right fun _ => ⟨fun heads queue => ?_, fun heads => ⟨heads _, heads _⟩⟩
  cases queue with
  | resume => exact heads.1
  | sleep => exact heads.2

end Scheduler

/-- Whether a refused request finds the node that it needs free. -/
def Section.parksFree (memory : Memory) (body : Section) : Bool :=
  body.defers.elim true fun request => memory.toScheduler.nodeFree request.2

namespace Machine

/-- Requests that find the preemption lock taken are for suspendables whose node is free: they
are in no pending queue, and were not popped last from one.
-/
def parksFree (machine : Machine) : Event → Bool
  | .exec _ =>
      match machine.running with
      | .tryWith body :: _ =>
          (tryAcquireNestingLock machine.preemptLock machine.context).isSome
            || body.parksFree machine.toMemory
      | _ => true
  | _ => true

end Machine

/-- A refused request is pushed as on a FIFO queue. -/
def Section.PushesFifo (fuel : Nat) (memory : Memory) (body : Section) : Prop :=
  ∀ fifos queue suspendable pending,
    Represents memory.pending fifos
    → body.defers = some (queue, suspendable)
    → memory.pending.pushBack fuel queue suspendable = .ok pending
    → Represents pending (fifos.push queue suspendable)

/-- A push of a free node is one of a FIFO queue. -/
theorem Section.pushesFifo_of_parksFree {body : Section} (free : body.parksFree memory = true)
    : body.PushesFifo fuel memory := by
  intro fifos queue suspendable pending hr defers pushed
  rw [parksFree, defers] at free
  exact hr.of_pushBack ((Scheduler.nodeFree_iff.mp free).unlinked hr) pushed

namespace Machine

/-- If the step refuses a request, it is pushed as on a FIFO queue. -/
def PushesFifo (fuel : Nat) (machine : Machine) (event : Event) : Prop :=
  ∀ now body rest,
    event = .exec now
    → machine.running = .tryWith body :: rest
    → tryAcquireNestingLock machine.preemptLock machine.context = none
    → body.PushesFifo fuel machine.toMemory

theorem pushesFifo_of_parksFree {machine : Machine} {event : Event}
    (free : machine.parksFree event = true)
    : machine.PushesFifo fuel event := by
  rintro now body rest rfl hrun refused
  refine Section.pushesFifo_of_parksFree ?_
  simpa [parksFree, hrun, refused] using free

end Machine

/-- The pending queues are intact. -/
def Memory.Intact (memory : Memory) : Prop := ∃ fifos, Represents memory.pending fifos

/-- The thread waits in `pending_resume`. -/
def Memory.Parks (memory : Memory) (thread : ThreadId) : Prop :=
  ∃ fifos, Represents memory.pending fifos ∧ .thread thread ∈ fifos.items .resume

/-- The pending queues stay intact if a refused request is pushed as on a FIFO queue. -/
theorem Memory.Intact.perform (intact : memory.Intact)
    (fifo
      : ∀ body, instr = .tryWith body
        → tryAcquireNestingLock memory.preemptLock context = none
        → body.PushesFifo fuel memory)
    (hp : instr.perform fuel now context memory = .ok (memory', more))
    : memory'.Intact := by
  obtain ⟨fifos, hr⟩ := intact
  cases Instr.perform_pending hp with
  | same pending => exact ⟨fifos, by rwa [pending]⟩
  | deferred refused defers pushed _ =>
      exact ⟨_, fifo _ rfl refused _ _ _ _ hr defers pushed⟩
  | drained taken _ => exact ⟨_, (hr.of_popFront taken).2⟩
  | popped taken _ => exact ⟨_, (hr.of_popFront taken).2⟩

theorem Fifos.mem_push {κ α : Type} [DecidableEq κ] {fifos : Fifos κ α} {queue other : κ}
    {item pushed : α} (hm : item ∈ fifos.items queue)
    : item ∈ (fifos.push other pushed).items queue := by
  by_cases he : queue = other
  · subst he
    simp [Fifos.push, hm]
  · simpa [Fifos.push, he] using hm

theorem Fifos.mem_pop {κ α : Type} [DecidableEq κ] {fifos : Fifos κ α} {queue : κ} {item : α}
    (hm : item ∈ fifos.items queue) (other : κ)
    : item ∈ (fifos.pop other).2.items queue
      ∨ other = queue ∧ (fifos.pop other).1 = some item := by
  unfold Fifos.pop
  cases hq : fifos.items other with
  | nil => exact Or.inl hm
  | cons first rest =>
      by_cases he : queue = other
      · subst he
        rw [hq] at hm
        rcases List.mem_cons.mp hm with rfl | later
        · exact Or.inr ⟨rfl, rfl⟩
        · exact Or.inl (by simpa using later)
      · exact Or.inl (by simpa [he] using hm)

/-- A parked request stays, or becomes the next step of the context that drains the queue. -/
theorem Memory.Parks.perform (parks : memory.Parks thread)
    (fifo
      : ∀ body, instr = .tryWith body
        → tryAcquireNestingLock memory.preemptLock context = none
        → body.PushesFifo fuel memory)
    (hp : instr.perform fuel now context memory = .ok (memory', more))
    : memory'.Parks thread ∨ .locked (.complete .resume (.thread thread)) ∈ more := by
  obtain ⟨fifos, hr, hq⟩ := parks
  cases Instr.perform_pending hp with
  | same pending => exact Or.inl ⟨fifos, by rwa [pending], hq⟩
  | deferred refused defers pushed _ =>
      exact Or.inl ⟨_, fifo _ rfl refused _ _ _ _ hr defers pushed, Fifos.mem_push hq⟩
  | @drained queue taken _ =>
      obtain ⟨none, hr'⟩ := hr.of_popFront taken
      rcases Fifos.mem_pop hq queue with stays | ⟨-, popped⟩
      · exact Or.inl ⟨_, hr', stays⟩
      · rw [popped] at none
        cases none
  | @popped queue suspendable taken goesOn =>
      obtain ⟨first, hr'⟩ := hr.of_popFront taken
      rcases Fifos.mem_pop hq queue with stays | ⟨rfl, popped⟩
      · exact Or.inl ⟨_, hr', stays⟩
      · rw [popped] at first
        cases first
        exact Or.inr (by simp [goesOn])

/-- The thread that an instruction is about to resume. -/
def Instr.resumes : Instr → Option ThreadId
  | .tryWith (.op (.resumeThread thread)) => some thread
  | .locked (.run (.resumeThread thread)) => some thread
  | .locked (.complete .resume (.thread thread)) => some thread
  | _ => none

theorem resumes_cases (resumes : instr.resumes = some thread)
    : instr = .tryWith (.op (.resumeThread thread))
      ∨ instr = .locked (.run (.resumeThread thread))
      ∨ instr = .locked (.complete .resume (.thread thread)) := by
  unfold Instr.resumes at resumes
  split at resumes
  · cases resumes; exact Or.inl rfl
  · cases resumes; exact Or.inr (Or.inl rfl)
  · cases resumes; exact Or.inr (Or.inr rfl)
  · cases resumes

/-- A step towards a resumption leads to the next one, or is the resumption. -/
theorem Memory.Intact.resumes (intact : memory.Intact) (resumes : instr.resumes = some thread)
    (fifo
      : ∀ body, instr = .tryWith body
        → tryAcquireNestingLock memory.preemptLock context = none
        → body.PushesFifo fuel memory)
    (hp : instr.perform fuel now context memory = .ok (memory', more))
    : memory'.Parks thread
      ∨ .locked (.run (.resumeThread thread)) ∈ more
      ∨ (∃ op, instr = .locked op) ∧ memory'.raw.state thread ≠ .blocked := by
  rcases resumes_cases resumes with rfl | rfl | rfl
  · rcases Section.perform_ok hp with ⟨previous, -, -, rfl⟩ | ⟨refused, deferred, -⟩
    · exact Or.inr (Or.inl (by simp [Section.code]))
    · obtain ⟨fifos, hr⟩ := intact
      obtain ⟨pending, pushed, rfl⟩ := Memory.pushPending_ok deferred
      exact Or.inl ⟨_, fifo _ rfl refused _ _ _ _ hr rfl pushed, by simp [Fifos.push]⟩
  · obtain ⟨raw, resumed, rfl, -⟩ := withRaw_ok hp
    exact Or.inr (Or.inr ⟨⟨_, rfl⟩, Kernel.resumeThread_awake resumed⟩)
  · obtain ⟨raw, resumed, rfl, -⟩ := withRaw_ok hp
    exact Or.inr (Or.inr ⟨⟨_, rfl⟩, Kernel.resumeThread_awake resumed⟩)

namespace Machine

variable {machine machine' : Machine} {program : Program} {code : List Instr}

/-- A request to resume the thread is under way: it is parked, or a step of some context. -/
def ResumePending (machine : Machine) (thread : ThreadId) : Prop :=
  machine.Parks thread
  ∨ ∃ code, machine.HasCode code ∧ ∃ instr ∈ code, instr.resumes = some thread

/-- The pending queues are intact as long as refused requests are pushed as on FIFO queues. -/
theorem intact_step (intact : machine.Intact) {event : Event}
    (fifo : machine.PushesFifo fuel event) (hs : machine.step fuel event = .ok machine')
    : machine'.Intact := by
  rcases memory_step hs with he | ⟨now, instr, rest, more, rfl, hrun, hp⟩
  · rwa [he]
  · refine intact.perform (fun body he => ?_) hp
    subst he
    exact fifo now body rest rfl hrun

/-- The step is the resumption of the thread. -/
def Resumes (machine : Machine) (event : Event) (thread : ThreadId) : Prop :=
  ∃ now op rest,
    event = .exec now
    ∧ machine.running = .locked op :: rest
    ∧ (Instr.locked op).resumes = some thread

theorem parks_step (parked : machine.Parks thread) (hx : machine.Exclusive)
    {event : Event} (fifo : machine.PushesFifo fuel event)
    (hs : machine.step fuel event = .ok machine')
    : machine'.ResumePending thread := by
  cases step_ok hs with
  | @instr now instr rest more memory hrun hp =>
      have pushes (body : Section) (he : instr = .tryWith body)
          : tryAcquireNestingLock machine.preemptLock machine.context = none
            → body.PushesFifo fuel machine.toMemory := by
        subst he
        exact fifo now body rest rfl hrun
      rcases parked.perform pushes hp with stays | next
      · exact Or.inl (by rwa [toMemory_goOn])
      · exact Or.inr ⟨_, (hx.hasCode_goOn hrun hp).mpr (Or.inl rfl), _,
          List.mem_append_left _ next, rfl⟩
  | restore => exact Or.inl parked
  | call => exact Or.inl (by rwa [toMemory_setRunning])
  | finish => exact Or.inl (by rwa [toMemory_setRunning])
  | fire => exact Or.inl parked

/-- A request stays under way until the step that resumes the thread. -/
theorem ResumePending.step (pending : machine.ResumePending thread)
    (hx : machine.Exclusive) (intact : machine.Intact) {event : Event}
    (fifo : machine.PushesFifo fuel event) (hs : machine.step fuel event = .ok machine')
    : machine'.ResumePending thread
      ∨ machine.Resumes event thread ∧ machine'.raw.state thread ≠ .blocked := by
  rcases pending with parked | ⟨code, hasCode, instr, hm, resumes⟩
  · exact Or.inl (parks_step parked hx fifo hs)
  · have inKernel : instr ≠ .user := by
      rintro rfl
      cases resumes
    rcases hasCode_stays hx hs hasCode hm inKernel with
      ⟨code, stays, hm⟩ | ⟨now, rest, more, rfl, hrun, hp, left⟩
    · exact Or.inl (Or.inr ⟨code, stays, instr, hm, resumes⟩)
    · have pushes (body : Section) (he : instr = .tryWith body)
          : tryAcquireNestingLock machine.preemptLock machine.context = none
            → body.PushesFifo fuel machine.toMemory := by
        subst he
        exact fifo now body rest rfl hrun
      rcases intact.resumes resumes pushes hp with parked | next | ⟨⟨op, rfl⟩, awake⟩
      · exact Or.inl (Or.inl parked)
      · exact Or.inl (Or.inr ⟨_, left, _, List.mem_append_left _ next, rfl⟩)
      · exact Or.inr ⟨⟨now, op, rest, rfl, hrun, resumes⟩, awake⟩

end Machine

end Scars

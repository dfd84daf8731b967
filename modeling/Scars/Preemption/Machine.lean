import Scars.Preemption.Memory

/-! The machine: the code of all contexts, and what happens next.
An interrupt context is a frame on the interrupt stack; a thread keeps its code while another
one runs. An interrupt may be taken between any two instructions.
-/

namespace Scars

/-- An `interrupt_context` on the interrupt stack. -/
structure Frame where
  handler : HandlerId
  code : List Instr
  deriving DecidableEq, Repr

structure Machine extends Memory where
  code : ThreadId → List Instr
  /-- The active interrupt contexts, innermost first. -/
  frames : List Frame

namespace Machine

def start (program : Program) : Machine where
  toMemory := Memory.start program
  code := fun _ => [.user]
  frames := []

/-- `Scheduler::current_execution_context`. -/
def context (machine : Machine) : ExecutionContext :=
  match machine.frames with
  | [] => .thread machine.raw.currentThread
  | frame :: _ => .interrupt frame.handler

/-- The code of the executing context. -/
def running (machine : Machine) : List Instr :=
  match machine.frames with
  | [] => machine.code machine.raw.currentThread
  | frame :: _ => frame.code

def setRunning (code : List Instr) (machine : Machine) : Machine :=
  match machine.frames with
  | [] => { machine with
      code := Function.update machine.code machine.raw.currentThread code }
  | frame :: below => { machine with frames := { frame with code := code } :: below }

/-- Enters an `interrupt_context`. The lowest one ends with the polls and the reschedule. -/
def enter (handler : HandlerId) (body : List Instr) (machine : Machine) : Machine :=
  let code := body ++ if machine.frames.isEmpty then interruptExit else []
  { machine with frames := { handler, code } :: machine.frames }

/-- The code and the interrupt stack after an instruction. -/
def goOn (memory : Memory) (code : List Instr) (entered : Option (HandlerId × List Instr))
    (machine : Machine)
    : Machine :=
  let next : Machine := { machine.setRunning code with toMemory := memory }
  match entered with
  | none => next
  | some (handler, body) => next.enter handler body

/-- The executing context takes its next step, at clock value `now`. An interrupt context
without code left restores the previous one.
-/
def exec (fuel : Nat) (now : Instant) (machine : Machine) : Except Fault Machine :=
  match machine.running with
  | instr :: rest =>
      (instr.perform fuel now machine.context machine.toMemory).map fun (memory, more) =>
        machine.goOn memory (more ++ rest) instr.enters
  | [] =>
      match machine.frames with
      | [] => .error .notCallable
      | _ :: below => .ok { machine with frames := below }

inductive Event where
  /-- The executing context takes a step of kernel code. -/
  | exec (now : Instant)
  /-- User code makes a call. -/
  | call (call : Call)
  /-- A handler, or a closure run with the preemption lock held, ends. -/
  | finish
  /-- An interrupt is taken. -/
  | fire (handler : HandlerId)
  deriving DecidableEq, Repr

/-- Whether an interrupt can be taken: it is not active and more urgent than what runs. -/
def mayFire (handler : HandlerId) (machine : Machine) : Bool :=
  handler != SYSCALL_INTERRUPT_HANDLER
    && machine.frames.all (fun frame => frame.handler != handler)
    && match machine.frames with
      | [] => true
      | frame :: _ =>
          decide ((machine.raw.handler frame.handler).basePriority
            < (machine.raw.handler handler).basePriority)

def mayCall (call : Call) (machine : Machine) : Bool :=
  if machine.frames.isEmpty then call.inThread else call.inInterrupt

/-- Whether the user code that runs may end; the main function of a thread does not. -/
def mayFinish (rest : List Instr) (machine : Machine) : Bool :=
  !(machine.frames.isEmpty && rest.isEmpty)

def step (fuel : Nat) (machine : Machine) : Event → Except Fault Machine
  | .exec now => machine.exec fuel now
  | .call call =>
      match machine.running with
      | .user :: rest =>
          if machine.mayCall call then
            .ok (machine.setRunning (call.code ++ .user :: rest))
          else
            .error .notCallable
      | _ => .error .notCallable
  | .finish =>
      match machine.running with
      | .user :: rest =>
          if machine.mayFinish rest then .ok (machine.setRunning rest) else .error .notCallable
      | _ => .error .notCallable
  | .fire handler =>
      if machine.mayFire handler then
        .ok (machine.enter handler [.user])
      else
        .error .notCallable

variable {machine machine' : Machine} {fuel : Nat}

/-- What a step did to the machine. -/
inductive Steps (fuel : Nat) (machine : Machine) : Event → Machine → Prop where
  | instr {now : Instant} {instr : Instr} {rest more : List Instr} {memory : Memory}
      (running : machine.running = instr :: rest)
      (performed
        : instr.perform fuel now machine.context machine.toMemory = .ok (memory, more))
      : Steps fuel machine (.exec now) (machine.goOn memory (more ++ rest) instr.enters)
  | restore {now : Instant} {frame : Frame} {below : List Frame}
      (active : machine.frames = frame :: below) (ended : frame.code = [])
      : Steps fuel machine (.exec now) { machine with frames := below }
  | call {call : Call} {rest : List Instr} (running : machine.running = .user :: rest)
      (allowed : machine.mayCall call = true)
      : Steps fuel machine (.call call) (machine.setRunning (call.code ++ .user :: rest))
  | finish {rest : List Instr} (running : machine.running = .user :: rest)
      (allowed : machine.mayFinish rest = true)
      : Steps fuel machine .finish (machine.setRunning rest)
  | fire {handler : HandlerId} (allowed : machine.mayFire handler = true)
      : Steps fuel machine (.fire handler) (machine.enter handler [.user])

theorem exec_ok {now : Instant} (executed : machine.exec fuel now = .ok machine')
    : Steps fuel machine (.exec now) machine' := by
  unfold exec at executed
  split at executed
  next instr rest hrun =>
    cases hp : instr.perform fuel now machine.context machine.toMemory with
    | error fault => rw [hp] at executed; cases executed
    | ok result =>
        rw [hp] at executed
        cases executed
        exact .instr hrun hp
  next ended =>
    split at executed
    · cases executed
    next frame below active =>
      cases executed
      refine .restore active ?_
      simpa [running, active] using ended

theorem step_ok {event : Event} (hs : machine.step fuel event = .ok machine')
    : Steps fuel machine event machine' := by
  cases event with
  | exec now => exact exec_ok hs
  | call call =>
      unfold step at hs
      dsimp only at hs
      split at hs
      next rest hrun =>
        split at hs
        next ha => cases hs; exact .call hrun ha
        · cases hs
      · cases hs
  | finish =>
      unfold step at hs
      dsimp only at hs
      split at hs
      next rest hrun =>
        split at hs
        next ha => cases hs; exact .finish hrun ha
        · cases hs
      · cases hs
  | fire handler =>
      unfold step at hs
      dsimp only at hs
      split at hs
      next ha => cases hs; exact .fire ha
      · cases hs

end Machine

end Scars

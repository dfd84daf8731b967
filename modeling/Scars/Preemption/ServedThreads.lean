import Scars.Preemption.Frames
import Scars.Preemption.Serving

/-! The current thread is inside the call that the handler serves, at every instruction.
A switch is the last part of a service, and happens in the lowest interrupt context alone; so
whatever is left of a service concerns the thread that is current.
-/

namespace Scars.Machine

open Memory Runs Function

variable {machine machine' : Machine} {memory : Memory} {fuel : Nat} {now : Instant}
  {more rest code : List Instr} {instr : Instr} {program : Program} {context : ExecutionContext}
  {queue : WaitQueueId} {handler : HandlerId} {body : List Instr} {memory' : Memory}

/-- What interrupt contexts do on behalf of a thread is what the thread is inside of: the
current one for a service, and the one that is moved for its insertion.
-/
structure Serving (machine : Machine) : Prop where
  poised : ∀ code, machine.HasCode code → Poised code
  paired : ∀ code, machine.HasCode code → Paired code
  threads
    : ∀ thread, ∀ instr ∈ machine.code thread, instr.service = none ∧ instr.inserts = none
  served
    : ∀ frame ∈ machine.frames,
        ∀ instr ∈ frame.code,
          ∀ service,
            instr.service = some service
            → service.Awaited (machine.code machine.raw.currentThread)
  inserted
    : ∀ frame ∈ machine.frames,
        ∀ instr ∈ frame.code,
          ∀ waiter queue,
            instr.inserts = some (waiter, queue)
            → (Service.wait queue).Awaited (machine.code waiter)

theorem start_serving (program : Program) : (Machine.start program).Serving where
  poised code hasCode := by
    rw [start_hasCode program hasCode]
    exact ⟨nofun, trivial⟩
  paired code hasCode := by
    rw [start_hasCode program hasCode]
    exact ⟨nofun, trivial⟩
  threads _ := List.forall_mem_singleton.mpr ⟨rfl, rfl⟩
  served := nofun
  inserted := nofun

theorem Serving.current (serving : machine.Serving) (hrun : machine.running = instr :: rest)
    {service : Service} (serves : instr.service = some service)
    : service.Awaited (machine.code machine.raw.currentThread) := by
  cases frames : machine.frames with
  | nil =>
      rw [running_of_thread frames] at hrun
      have none := serving.threads machine.raw.currentThread instr (by simp [hrun])
      rw [none.1] at serves
      cases serves
  | cons frame below =>
      rw [running_of_frame frames] at hrun
      exact serving.served frame (by simp [frames]) instr (by simp [hrun]) service serves

theorem Serving.inserting (serving : machine.Serving) (hrun : machine.running = instr :: rest)
    {waiter : ThreadId} (inserts : instr.inserts = some (waiter, queue))
    : (Service.wait queue).Awaited (machine.code waiter) := by
  cases frames : machine.frames with
  | nil =>
      rw [running_of_thread frames] at hrun
      have none := serving.threads machine.raw.currentThread instr (by simp [hrun])
      rw [none.2] at inserts
      cases inserts
  | cons frame below =>
      rw [running_of_frame frames] at hrun
      exact serving.inserted frame (by simp [frames]) instr (by simp [hrun]) waiter queue
        inserts

/-- The first step of `wait_current_thread` goes on with the thread that was current. -/
theorem waitCurrentThread_more {ceiling : Priority}
    (hp
      : (Instr.locked (.run (.waitCurrentThread queue ceiling))).perform fuel now context memory
        = .ok (memory', more))
    : more = [.locked (.raisePriority memory.raw.currentThread queue ceiling)] := by
  unfold Instr.perform Locked.perform SectionOp.perform at hp
  dsimp only at hp
  split at hp
  · cases hp
  · obtain ⟨-, rfl⟩ := setRaw_ok hp
    rw [Kernel.handOver_fst]

/-- What an instruction goes on with inserts the thread that it is about, or the one that it
serves.
-/
theorem inserts_more (hp : instr.perform fuel now context memory = .ok (memory', more))
    : ∀ next ∈ more,
        ∀ waiter queue,
          next.inserts = some (waiter, queue)
          → instr.inserts = some (waiter, queue)
            ∨ instr.service = some (.wait queue) ∧ waiter = memory.raw.currentThread := by
  intro next hm waiter queue inserts
  by_cases inside : ∃ op, instr = .locked op
  · obtain ⟨op, rfl⟩ := inside
    cases Instr.perform_continues hp with
    | waits other =>
        have moved := waitCurrentThread_more hp
        rw [moved] at hm
        cases List.mem_singleton.mp hm
        cases inserts
        exact Or.inr ⟨rfl, rfl⟩
    | raised saved =>
        cases List.mem_singleton.mp hm
        exact Or.inl inserts
    | rescheduled =>
        rcases List.mem_pair.mp hm with rfl | rfl <;> cases inserts
    | nothing => cases hm
    | _ => cases List.mem_singleton.mp hm; cases inserts
  · have outer := Instr.perform_outer hp (not_exists.mp inside) next hm
    unfold Instr.inserts at inserts
    split at inserts
    · cases outer
    · cases outer
    · cases inserts

theorem inserts_of_neutral (neutral : instr.isNeutral = true) : instr.inserts = none := by
  unfold Instr.inserts
  split
  · cases neutral
  · cases neutral
  · rfl

theorem service_enters (enters : instr.enters = some (handler, body))
    : ∀ next ∈ body, ∀ service, next.service = some service → instr.callsFor = some service := by
  cases instr with
  | yieldPending =>
      cases enters
      exact List.forall_mem_singleton.mpr nofun
  | syscall call =>
      cases enters
      exact service_syscall call
  | pollExecutor handler =>
      cases enters
      exact List.forall_mem_singleton.mpr nofun
  | _ => cases enters

theorem neutral_enters (enters : instr.enters = some (handler, body))
    : ∀ next ∈ body, next.isNeutral = true := by
  rcases body_of_enters enters with rfl | ⟨call, rfl⟩
  · exact List.forall_mem_singleton.mpr rfl
  · exact isNeutral_syscall call

theorem neutral_exit (empty : Bool)
    : ∀ next ∈ (if empty then interruptExit else []), next.isNeutral = true := by
  cases empty <;> simp [interruptExit, Instr.isNeutral]

section

variable (serving : machine.Serving) (hx : machine.Exclusive)
  (hrun : machine.running = instr :: rest)
  (hp : instr.perform fuel now machine.context machine.toMemory = .ok (memory, more))

include serving hx hrun hp

/-- In a thread, only the code of the thread changes, and it goes on where the system call
returns to.
-/
theorem Serving.goOn_thread (idle : machine.frames = [])
    : (∀ thread,
        ∀ next ∈ (machine.goOn memory (more ++ rest) instr.enters).code thread,
          next.service = none ∧ next.inserts = none)
      ∧ (∀ frame ∈ (machine.goOn memory (more ++ rest) instr.enters).frames,
          ∀ next ∈ frame.code,
            ∀ service,
              next.service = some service
              → service.Awaited
                  ((machine.goOn memory (more ++ rest) instr.enters).code
                    memory.raw.currentThread))
      ∧ ∀ frame ∈ (machine.goOn memory (more ++ rest) instr.enters).frames,
          ∀ next ∈ frame.code, next.inserts = none := by
  have he : memory.raw.currentThread = machine.raw.currentThread :=
    (hx.current_or_interrupt hrun hp).resolve_right (by simp [idle])
  have own := hrun
  rw [running_of_thread idle] at own
  have continues := Instr.perform_continues hp
  rw [code_goOn, code_setRunning_of_thread idle]
  refine ⟨fun thread => ?_, fun frame hm next inside service serves => ?_,
    fun frame hm next inside => ?_⟩
  · by_cases current : thread = machine.raw.currentThread
    · subst current
      have before := serving.threads machine.raw.currentThread
      rw [own] at before
      obtain ⟨⟨serves, inserts⟩, later⟩ := List.forall_mem_cons.mp before
      rw [update_self]
      refine List.forall_mem_append.mpr
        ⟨fun next hm => ⟨continues.calm serves next hm, ?_⟩, later⟩
      cases hi : next.inserts with
      | none => rfl
      | some moved =>
          have led := inserts_more hp next hm moved.1 moved.2 hi
          simp [serves, inserts] at led
    · rw [update_of_ne current]
      exact serving.threads thread
  · rcases mem_frames_goOn hm with ⟨handler, body, enters, left⟩ | ⟨active, -⟩ | below
    · rw [left] at inside
      rcases List.mem_append.mp inside with inBody | inExit
      · have asks := service_enters enters next inBody service serves
        have awaited := (serving.paired _ (Or.inl hrun.symm)).1 service asks
        have nothing : more = [] := by
          cases instr with
          | syscall call => cases hp; rfl
          | _ => cases asks
        rw [he, update_self, nothing, List.nil_append]
        exact awaited
      · rw [calm_exit _ next inExit] at serves
        cases serves
    · exact absurd idle active
    · simp [idle] at below
  · rcases mem_frames_goOn hm with ⟨handler, body, enters, left⟩ | ⟨active, -⟩ | below
    · rw [left] at inside
      rcases List.mem_append.mp inside with inBody | inExit
      · exact inserts_of_neutral (neutral_enters enters next inBody)
      · exact inserts_of_neutral (neutral_exit _ next inExit)
    · exact absurd idle active
    · simp [idle] at below

/-- In an interrupt context, a switch leaves no part of a service behind. -/
theorem Serving.goOn_frame {top : Frame} {below : List Frame}
    (active : machine.frames = top :: below)
    : ∀ frame ∈ (machine.goOn memory (more ++ rest) instr.enters).frames,
        ∀ next ∈ frame.code,
          (∀ service,
            next.service = some service
            → service.Awaited (machine.code memory.raw.currentThread))
          ∧ ∀ waiter queue,
              next.inserts = some (waiter, queue)
              → (Service.wait queue).Awaited (machine.code waiter) := by
  have own := hrun
  rw [running_of_frame active] at own
  have continues := Instr.perform_continues hp
  have topActive : top ∈ machine.frames := by simp [active]
  intro frame hm next inside
  rcases mem_frames_goOn hm with ⟨handler, body, enters, left⟩ | ⟨-, left⟩ | lower
  · -- interrupt contexts enter those of executors alone
    rw [left] at inside
    have neutral : next.isNeutral = true := by
      rcases List.mem_append.mp inside with inBody | inExit
      · exact neutral_enters enters next inBody
      · exact neutral_exit _ next inExit
    refine ⟨fun service serves => ?_, fun waiter queue inserts => ?_⟩
    · rcases List.mem_append.mp inside with inBody | inExit
      · have asks := service_enters enters next inBody service serves
        have ha := hx.running instr (by simp [hrun])
        have threads : instr.isThreads = true := by
          cases instr with
          | syscall call => rfl
          | _ => cases asks
        rw [frames_of_thread (level_of_isThreads ha threads)] at active
        cases active
      · rw [calm_exit _ next inExit] at serves
        cases serves
    · rw [inserts_of_neutral neutral] at inserts
      cases inserts
  · rw [left] at inside
    refine ⟨fun service serves => ?_, fun waiter queue inserts => ?_⟩
    · rcases perform_currentThread hp with he | ⟨op, rfl, switches⟩
      · rw [he]
        rcases List.mem_append.mp inside with new | old
        · exact serving.current hrun (continues.service next new service serves)
        · exact serving.served top topActive next (by simp [own, old]) service serves
      · have poised := serving.poised _ (Or.inl hrun.symm)
        have none : next.service = none := by
          rcases List.mem_append.mp inside with new | old
          · exact continues.calm_locked next new
          · exact poised.1 (Or.inl switches) next old
        rw [none] at serves
        cases serves
    · rcases List.mem_append.mp inside with new | old
      · rcases inserts_more hp next new waiter queue inserts with before | ⟨serves, rfl⟩
        · exact serving.inserted top topActive instr (by simp [own]) waiter queue before
        · exact serving.current hrun serves
      · exact serving.inserted top topActive next (by simp [own, old]) waiter queue inserts
  · have lowerActive : frame ∈ machine.frames := List.mem_of_mem_tail lower
    refine ⟨fun service serves => ?_, serving.inserted frame lowerActive next inside⟩
    rcases perform_currentThread hp with he | ⟨op, rfl, switches⟩
    · rw [he]
      exact serving.served frame lowerActive next inside service serves
    · have ha := hx.running (.locked op) (by simp [hrun])
      obtain ⟨only, alone⟩ := frames_of_lowest (level_of_switches ha switches)
      simp [alone] at lower

end

theorem Serving.rewrite (serving : machine.Serving) (hrun : machine.running = .user :: rest)
    (calm : Calm more) (neutral : ∀ next ∈ more, next.inserts = none)
    (poised : ∀ code, (machine.setRunning (more ++ rest)).HasCode code → Poised code)
    (paired : ∀ code, (machine.setRunning (more ++ rest)).HasCode code → Paired code)
    : (machine.setRunning (more ++ rest)).Serving := by
  have memory := toMemory_setRunning machine (more ++ rest)
  cases frames : machine.frames with
  | nil =>
      rw [running_of_thread frames] at hrun
      have later : ∀ next ∈ rest, next.service = none ∧ next.inserts = none :=
        fun next hm =>
          serving.threads machine.raw.currentThread next (by simp [hrun, hm])
      have none : (machine.setRunning (more ++ rest)).frames = [] := by
        rw [frames_setRunning_eq, frames]
        rfl
      refine ⟨poised, paired, fun thread => ?_, by simp [none], by simp [none]⟩
      rw [code_setRunning_of_thread frames]
      by_cases current : thread = machine.raw.currentThread
      · subst current
        rw [update_self]
        exact List.forall_mem_append.mpr
          ⟨fun next hm => ⟨calm next hm, neutral next hm⟩, later⟩
      · rw [update_of_ne current]
        exact serving.threads thread
  | cons top below =>
      rw [running_of_frame frames] at hrun
      have code := code_setRunning_of_frame frames (more ++ rest)
      have all {frame : Frame} (hm : frame ∈ (machine.setRunning (more ++ rest)).frames)
          {next : Instr} (inside : next ∈ frame.code)
          : next ∈ more ∨ ∃ frame ∈ machine.frames, next ∈ frame.code := by
        rw [frames_setRunning_eq, frames] at hm
        rcases List.mem_cons.mp hm with rfl | later
        · rcases List.mem_append.mp inside with new | old
          · exact Or.inl new
          · exact Or.inr ⟨top, by simp [frames], by simp [hrun, old]⟩
        · exact Or.inr ⟨frame, by simp [frames, later], inside⟩
      constructor
      case poised => exact poised
      case paired => exact paired
      case threads => rw [code]; exact serving.threads
      case served =>
        intro frame hm next inside service serves
        rw [code, memory]
        rcases all hm inside with new | ⟨old, active, here⟩
        · rw [calm next new] at serves
          cases serves
        · exact serving.served old active next here service serves
      case inserted =>
        intro frame hm next inside waiter queue inserts
        rw [code]
        rcases all hm inside with new | ⟨old, active, here⟩
        · rw [neutral next new] at inserts
          cases inserts
        · exact serving.inserted old active next here waiter queue inserts

theorem Serving.step (serving : machine.Serving) (hx : machine.Exclusive) {event : Event}
    (hs : machine.step fuel event = .ok machine')
    : machine'.Serving := by
  have poised := keptByCode_poised.step hx serving.poised hs
  have paired := keptByCode_paired.step hx serving.paired hs
  cases step_ok hs with
  | @instr now instr rest more memory hrun hp =>
      cases frames : machine.frames with
      | nil =>
          obtain ⟨threads, served, none⟩ :=
            serving.goOn_thread hx hrun hp frames
          refine ⟨poised, paired, threads, ?_, fun frame hm next inside waiter queue inserts =>
            absurd (none frame hm next inside) (by simp [inserts])⟩
          rw [toMemory_goOn]
          exact served
      | cons top below =>
          have all := serving.goOn_frame hx hrun hp frames
          have code : (machine.goOn memory (more ++ rest) instr.enters).code = machine.code :=
            (code_goOn _).trans (code_setRunning_of_frame frames _)
          constructor
          case poised => exact poised
          case paired => exact paired
          case threads => rw [code]; exact serving.threads
          case served =>
            intro frame hm next inside
            rw [code, toMemory_goOn]
            exact (all frame hm next inside).1
          case inserted =>
            intro frame hm next inside
            rw [code]
            exact (all frame hm next inside).2
  | restore active ended =>
      exact ⟨poised, paired, serving.threads,
        fun frame hm => serving.served frame (by simp [active, hm]),
        fun frame hm => serving.inserted frame (by simp [active, hm])⟩
  | @call call rest hrun ha =>
      have neutral : ∀ next ∈ call.code ++ [.user], next.inserts = none := by
        refine List.forall_mem_append.mpr ⟨fun next hm => ?_, ?_⟩
        · exact inserts_of_neutral (neutral_call call next hm).1
        · exact List.forall_mem_singleton.mpr rfl
      have calm : Calm (call.code ++ [.user]) :=
        List.forall_mem_append.mpr ⟨calm_call call, List.forall_mem_singleton.mpr rfl⟩
      have he : call.code ++ .user :: rest = call.code ++ [.user] ++ rest := by simp
      rw [he] at poised paired ⊢
      exact serving.rewrite hrun calm neutral poised paired
  | @finish rest hrun ha =>
      exact serving.rewrite hrun (show Calm [] from nofun) nofun poised paired
  | fire ha =>
      refine ⟨poised, paired, serving.threads, ?_, ?_⟩
      · intro frame hm next inside service serves
        rcases List.mem_cons.mp hm with rfl | old
        · have none : next.service = none := by
            rcases List.mem_append.mp inside with user | exit
            · rw [List.mem_singleton.mp user]
              rfl
            · exact calm_exit _ next exit
          rw [none] at serves
          cases serves
        · exact serving.served frame old next inside service serves
      · intro frame hm next inside waiter queue inserts
        rcases List.mem_cons.mp hm with rfl | old
        · have none : next.inserts = none := by
            rcases List.mem_append.mp inside with user | exit
            · rw [List.mem_singleton.mp user]
              rfl
            · exact inserts_of_neutral (neutral_exit _ next exit)
          rw [none] at inserts
          cases inserts
        · exact serving.inserted frame old next inside waiter queue inserts

end Scars.Machine

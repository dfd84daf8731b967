import Scars.Arch.ReturnPath

/-! Contexts of threads over whole runs.
A preempted thread is resumed with what it is due, if the calls in the middle of the trap code keep
the registers used over them, the kernel's handler returns with interrupts disabled, and no system
call returns anything new.
-/

namespace Scars

open Rv32 Runs Function

variable {layout : TrapLayout} {after : Cpu}

namespace Hart

/-- The running thread has its context in `mscratch`, and the others' contexts hold what they are
due; a thread that was just resumed has what it was due.
-/
structure Switched (layout : TrapLayout) (hart : Hart) : Prop where
  current : hart.cpu.mem layout.currentThreadContext = hart.cpu.csr .mscratch
  context : layout.isContext (hart.cpu.csr .mscratch) = true
  contexts : ∀ other, (hart.due other).isSome = true → layout.isContext other = true
  idle : hart.due (hart.cpu.csr .mscratch) = none
  frames : ∀ other snapshot, hart.due other = some snapshot → Holds hart.cpu.mem other snapshot
  resumed : ∀ snapshot, hart.resumed = some snapshot → Restored hart.cpu snapshot

variable {hart : Hart} {context mcause mtval : Word} {calls : TrapCalls} {other : Word}

theorem Switched.ne_context (switched : Switched layout hart) {snapshot : Snapshot}
    (isDue : hart.due other = some snapshot)
    : other ≠ hart.cpu.csr .mscratch := by
  rintro rfl
  rw [switched.idle] at isDue
  cases isDue

theorem dueAfter_self
    : hart.dueAfter mcause calls (hart.cpu.csr .mscratch)
      = some (snapshot mcause calls.syscallResult hart.cpu) :=
  update_self _ _ _

theorem dueAfter_of_ne (hne : other ≠ hart.cpu.csr .mscratch)
    : hart.dueAfter mcause calls other = hart.due other :=
  update_of_ne hne _ _

/-- The words of the interrupted thread's context, and those of the other preempted threads, are
words of contexts after the trap.
-/
theorem inContext_self {slot : Nat} (small : slot < 31)
    : inContext (hart.dueAfter mcause calls) (slotAt (hart.cpu.csr .mscratch) slot) :=
  ⟨_, slot, by rw [dueAfter_self]; rfl, small, rfl⟩

theorem Switched.inContext (switched : Switched layout hart)
    (isDue : (hart.due other).isSome = true) {slot : Nat} (small : slot < 31)
    : inContext (hart.dueAfter mcause calls) (slotAt other slot) := by
  obtain ⟨snapshot, here⟩ := Option.isSome_iff_exists.mp isDue
  exact ⟨other, slot, by rwa [dueAfter_of_ne (switched.ne_context here)], small, rfl⟩

theorem Switched.isContext (switched : Switched layout hart) (other : Word)
    (isDue : (hart.dueAfter mcause calls other).isSome = true)
    : layout.isContext other = true := by
  by_cases own : other = hart.cpu.csr .mscratch
  · rw [own]
    exact switched.context
  · rw [dueAfter_of_ne own] at isDue
    exact switched.contexts other isDue

/-- What the entry of a trap leaves, if `_save_interrupt_threshold` keeps `t6`. -/
theorem Switched.enterTrap (switched : Switched layout hart) {taken threshold : Cpu}
    (takes : taken = takeTrap mcause mtval hart.cpu)
    (saves : calls.saveInterruptThreshold (atSave taken) = threshold)
    (abides
      : Abides
          (fun address => Hart.inContext (hart.dueAfter mcause calls) address
            ∨ address = layout.currentThreadContext)
          (atSave taken) threshold)
    (csr : threshold.csr = (atSave taken).csr) (gentle : threshold.reg t6 = (atSave taken).reg t6)
    : Entered layout hart.due (hart.cpu.csr .mscratch) ⟨hart.cpu.reg, hart.cpu.pc⟩
        (Scars.enterTrap layout calls taken)
      ∧ (Scars.enterTrap layout calls taken).mem layout.currentThreadContext
        = hart.cpu.csr .mscratch
      ∧ (Scars.enterTrap layout calls taken).reg a0 = hart.cpu.pc
      ∧ (Scars.enterTrap layout calls taken).reg a2 = mcause := by
  subst takes
  obtain ⟨base, scratch, mepc, cause⟩ := atSave_eq mcause mtval hart.cpu
  have entered : Scars.enterTrap layout calls (takeTrap mcause mtval hart.cpu)
      = run (saveTrapState layout ++ enterHandler) threshold := by
    rw [← saves]
    exact if_pos (layout.ne_zero _ switched.context)
  have callee {r : Reg} (hm : r ∈ calleeSlots.map Prod.fst)
      : threshold.reg r = hart.cpu.reg r := by
    have fixed : ∀ r ∈ calleeSlots.map Prod.fst, r ∈ calleeSaved ∧ r ≠ t6 ∧ r ≠ a0 := by decide
    obtain ⟨isSaved, notT6, notA0⟩ := fixed r hm
    exact (abides.reg r isSaved).trans (atSave_reg mcause mtval hart.cpu notT6 notA0)
  have t6 : threshold.reg t6 = hart.cpu.csr .mscratch := gentle.trans base
  rw [← csr] at scratch mepc cause
  have isContext : layout.isContext (threshold.reg Rv32.t6) = true := by
    rw [t6]
    exact switched.context
  obtain ⟨last, pc, top, old⟩ := run_saveTrapState_frame layout threshold isContext
  obtain ⟨pointer, argument, argument'⟩ := run_saveTrapState_reg layout threshold
  have kept := run_saveTrapState_other layout threshold
  rw [t6] at last pc old kept
  rw [entered]
  refine ⟨⟨⟨?_, ?_, last.trans scratch, pc.trans mepc⟩, ?_, pointer, top, old⟩, ?_,
    argument.trans mepc, argument'.trans cause⟩
  · intro pair hm
    rw [run_saveTrapState_callee layout threshold hm]
    exact callee (List.mem_map_of_mem hm)
  · intro pair hm
    have small := callerSlots_lt pair hm
    rw [kept, abides.mem _ (.inl (inContext_self (by omega)))]
    · exact atSave_mem mcause mtval hart.cpu hm
    · exact fun slot least most => slotAt_ne (by omega) (by omega) (by omega)
    · exact fun word fits =>
        layout.stack_apart _ pair.2 word switched.context (by omega) fits
  · intro other snapshot isDue hne
    have isSome : (hart.due other).isSome = true := by simp [isDue]
    have apart {slot slot' : Nat} (small : slot < 31) (small' : slot' < 31)
        : slotAt other slot ≠ slotAt (hart.cpu.csr .mscratch) slot' :=
      fun he => hne (layout.apart other _ slot slot' (switched.contexts other isSome)
        switched.context (by omega) (by omega) he)
    refine (switched.frames other snapshot isDue).kept fun slot small => ?_
    rw [kept, abides.mem _ (.inl (switched.inContext isSome small))]
    · exact atSave_mem_other mcause mtval hart.cpu fun slot' small' => apart small small'
    · exact fun slot' _ most => apart small (by omega)
    · exact fun word fits =>
        layout.stack_apart other slot word (switched.contexts other isSome) (by omega) fits
  · have apart {slot : Nat} (small : slot < 31)
        : layout.currentThreadContext ≠ slotAt (hart.cpu.csr .mscratch) slot :=
      (layout.current_apart _ slot switched.context (by omega)).symm
    rw [kept, abides.mem _ (.inr rfl)]
    · exact (atSave_mem_other mcause mtval hart.cpu fun slot small => apart small).trans
        switched.current
    · exact fun slot _ most => apart most
    · exact layout.current_stack

/-- What the handler leaves, if the result of a system call is what the thread has in `a0` and
`a3`: the word that is written is the one of `a3`.
-/
theorem Switched.kernelTrapHandler (switched : Switched layout hart) {called : Cpu}
    (entered
      : Entered layout hart.due (hart.cpu.csr .mscratch) ⟨hart.cpu.reg, hart.cpu.pc⟩ called)
    (current : called.mem layout.currentThreadContext = hart.cpu.csr .mscratch)
    (argument : called.reg a0 = hart.cpu.pc) (cause : called.reg a2 = mcause)
    (abides
      : Abides
          (fun address => Hart.inContext (hart.dueAfter mcause calls) address
            ∨ onIsrStack layout address)
          (enterTrapHandler layout called) (calls.kernel (enterTrapHandler layout called)))
    (result
      : isEcall mcause = true
        → hart.cpu.reg a0 = calls.syscallResult ∧ hart.cpu.reg a3 = calls.syscallResult)
    : Entered layout hart.due (hart.cpu.csr .mscratch)
        (snapshot mcause calls.syscallResult hart.cpu)
        (Scars.kernelTrapHandler layout calls called)
      ∧ (Scars.kernelTrapHandler layout calls called).mem layout.currentThreadContext
        = (calls.kernel (enterTrapHandler layout called)).mem layout.currentThreadContext := by
  have kernel {saved : Snapshot}
      (entered : Entered layout hart.due (hart.cpu.csr .mscratch) saved
        (enterTrapHandler layout called))
      : Entered layout hart.due (hart.cpu.csr .mscratch) saved
          (calls.kernel (enterTrapHandler layout called)) :=
    entered.abides abides (fun slot small => .inl (inContext_self small))
      (fun other isDue slot small => .inl (switched.inContext isDue small))
      (fun word small => .inr ⟨word, small, rfl⟩)
  by_cases isCall : isEcall mcause = true
  case pos =>
      obtain ⟨inA0, inA3⟩ := result isCall
      have he : snapshot mcause calls.syscallResult hart.cpu
          = ⟨hart.cpu.reg, hart.cpu.pc + 4⟩ := by
        rw [snapshot, if_pos isCall, ← inA0, update_eq_self]
      have hs : enterTrapHandler layout called
          = called.store (slotAt (hart.cpu.csr .mscratch) 29) (hart.cpu.pc + 4) := by
        rw [enterTrapHandler, cause, if_pos isCall, current, argument]
      have behind : Entered layout hart.due (hart.cpu.csr .mscratch)
          ⟨hart.cpu.reg, hart.cpu.pc + 4⟩ (enterTrapHandler layout called) := by
        rw [hs]
        exact entered.store switched.context switched.contexts (by decide) _
          (entered.spread.storePc _)
      have handled := kernel behind
      have returned : Scars.kernelTrapHandler layout calls called
          = calls.kernel (enterTrapHandler layout called) := by
        rw [Scars.kernelTrapHandler, cause, if_pos isCall, current, handled.spread.storeA3 inA3]
      rw [he, returned]
      exact ⟨handled, rfl⟩
  case neg =>
      have he : snapshot mcause calls.syscallResult hart.cpu = ⟨hart.cpu.reg, hart.cpu.pc⟩ := by
        rw [snapshot, if_neg isCall]
      have hs : enterTrapHandler layout called = called := by
        rw [enterTrapHandler, cause, if_neg isCall]
      have returned : Scars.kernelTrapHandler layout calls called
          = calls.kernel (enterTrapHandler layout called) := by
        rw [Scars.kernelTrapHandler, cause, if_neg isCall]
      rw [he, returned]
      refine ⟨kernel ?_, rfl⟩
      rwa [hs]

theorem Resumed.switched {due : Word → Option Snapshot} {next : Word} {cpu : Cpu}
    (resumed : Resumed layout due next cpu) (isNext : layout.isContext next = true)
    (contexts : ∀ other, (due other).isSome = true → layout.isContext other = true)
    : Switched layout
        { cpu
          returning := none
          due := update due (cpu.csr .mscratch) none
          resumed := due (cpu.csr .mscratch) } := by
  have still {other : Word} {snapshot : Snapshot}
      (isDue : update due (cpu.csr .mscratch) none other = some snapshot)
      : due other = some snapshot ∧ other ≠ next := by
    rw [resumed.scratch] at isDue
    by_cases he : other = next
    · rw [he, update_self] at isDue
      cases isDue
    · rw [update_of_ne he] at isDue
      exact ⟨isDue, he⟩
  refine ⟨?_, ?_, fun other isDue => ?_, update_self _ _ _, fun other snapshot isDue => ?_,
    fun snapshot isDue => ?_⟩
  · exact resumed.current.trans resumed.scratch.symm
  · rw [resumed.scratch]
    exact isNext
  · obtain ⟨snapshot, there⟩ := Option.isSome_iff_exists.mp isDue
    exact contexts other (by simp [(still there).1])
  · obtain ⟨wasDue, hne⟩ := still isDue
    exact resumed.others other snapshot wasDue hne
  · rw [resumed.scratch] at isDue
    exact resumed.restored snapshot isDue

theorem Switched.execute (switched : Switched layout hart)
    (conventional : Conventional layout hart (.execute after))
    : Switched layout { hart with cpu := after, resumed := none } := by
  obtain ⟨scratch, current, contexts⟩ := conventional
  refine ⟨?_, ?_, switched.contexts, ?_, fun other snapshot isDue => ?_, fun _ isNone => ?_⟩
  · exact current.trans (switched.current.trans scratch.symm)
  · rw [scratch]
    exact switched.context
  · rw [scratch]
    exact switched.idle
  · refine (switched.frames other snapshot isDue).kept fun slot small => ?_
    exact contexts _ ⟨other, slot, Option.isSome_iff_exists.mpr ⟨snapshot, isDue⟩, small, rfl⟩
  · cases isNone

/-- A thread runs and has what it is due, or a trap of a thread is on its way back. -/
def Kept (layout : TrapLayout) (hart : Hart) : Prop :=
  match hart.returning with
  | none => Switched layout hart
  | some (calls, place) =>
      hart.resumed = none ∧ Returning layout hart.due calls hart.cpu place

theorem Kept.running (kept : Kept layout hart) (runs : hart.returning = none)
    : Switched layout hart := by
  simpa only [Kept, runs] using kept

/-- A trap of the running thread leaves the kernel's handler with everything to return. -/
theorem Switched.trap (switched : Switched layout hart) (runs : hart.returning = none)
    (conventional : Conventional layout hart (.trap mcause mtval calls))
    (isGentle : gentle layout hart (.trap mcause mtval calls) = true) {after : Hart}
    (ok : hart.step layout (.trap mcause mtval calls) = .ok after)
    : Kept layout after := by
  have here : hart.interrupted layout = hart.cpu := by simp [interrupted, runs]
  simp only [gentle, here, Bool.and_eq_true, Bool.or_eq_true, Bool.not_eq_true', decide_eq_true_eq]
    at isGentle
  obtain ⟨⟨⟨⟨keptT6, masked⟩, keptOld⟩, keptNew⟩, result⟩ := isGentle
  simp only [Conventional, here] at conventional
  obtain ⟨abides, csr, kernel, isNext, abides', csr'⟩ := conventional
  obtain ⟨entered, current, argument, cause⟩ := switched.enterTrap rfl rfl abides csr keptT6
  obtain ⟨handled, next⟩ := switched.kernelTrapHandler entered current argument cause kernel
    (fun isCall => result.resolve_left (by simp [isCall]))
  rw [← next] at isNext
  rw [step, here, runs] at ok
  split at ok
  · cases ok
  split at ok
  · obtain rfl := Except.ok.inj ok
    refine ⟨rfl, _, _, _, _, ⟨handled, switched.context, switched.contexts, isNext, abides', csr',
      keptOld, keptNew, ?_⟩, rfl, [], rfl, rfl⟩
    simpa [interruptible] using masked
  · cases ok

/-- The way back goes on, and at its end a thread runs. -/
theorem Kept.advance {place : ReturnPlace} (fresh : hart.resumed = none)
    (returning : Returning layout hart.due calls hart.cpu place)
    : Kept layout (hart.advance layout calls place) := by
  match place, returning with
  | .enterUser (instr :: rest), ⟨_, _, _, _, after, he, executed⟩ =>
      exact ⟨fresh, _, _, _, _, after, he, executed.next⟩
  | .enterUser [], ⟨_, _, _, handled, after, he, executed⟩ =>
      have marked : hart.cpu.reg t5 = 0 := by
        have top := after.top
        rw [slotAt_zero, ← after.pointer] at top
        rw [executed.all, enterUser_marker, top]
      refine ⟨fresh, ?_⟩
      rw [if_pos marked]
      exact ⟨_, _, _, handled, after, he, [], rfl, executed.all⟩
  | .returnToThread (instr :: rest), ⟨_, _, _, _, after, he, executed⟩ =>
      exact ⟨fresh, _, _, _, _, after, he, executed.next⟩
  | .returnToThread [], ⟨_, _, _, handled, after, he, executed⟩ =>
      have restores : hart.cpu = atRestore layout handled := executed.all
      have switches := after.switches
      rw [← he, ← restores] at switches
      exact ⟨fresh, switches⟩
  | .switchThread (instr :: rest), ⟨resumes, contexts, masked, untouched⟩ =>
      rw [List.map_cons, List.mem_cons, not_or] at untouched
      rw [← Instr.exec_csr (Ne.symm untouched.1) hart.cpu] at masked
      exact ⟨fresh, resumes, contexts, masked, untouched.2⟩
  | .switchThread [], ⟨⟨next, isNext, resumed⟩, contexts, _, _⟩ =>
      exact Resumed.switched resumed isNext contexts

/-- Every step that obeys the conventions and is gentle keeps what the threads are due. -/
theorem Kept.step (kept : Kept layout hart) {event : HartEvent} {after : Hart}
    (conventional : Conventional layout hart event) (isGentle : gentle layout hart event = true)
    (ran : hart.step layout event = .ok after)
    : Kept layout after := by
  cases returning : hart.returning with
  | none =>
      have switched := kept.running returning
      cases event with
      | execute cpu =>
          simp only [Hart.step, returning, Option.isSome_none, Bool.false_eq_true, if_false] at ran
          obtain rfl := Except.ok.inj ran
          have executed := switched.execute conventional
          simpa only [Kept, returning] using executed
      | trap mcause mtval calls => exact switched.trap returning conventional isGentle ran
      | advance => simp [Hart.step, returning] at ran
  | some path =>
      obtain ⟨calls, place⟩ := path
      simp only [Kept, returning] at kept
      cases event with
      | execute cpu => simp [Hart.step, returning] at ran
      | trap mcause mtval calls =>
          have masked : interruptible hart.cpu = false := by
            simpa [interruptible] using kept.2.masked
          simp only [Hart.step, masked, returning, Bool.not_false, Bool.and_true,
            Option.isNone_some, Bool.and_false, Bool.or_false] at ran
          split at ran
          · cases ran
          · simp at ran
      | advance =>
          simp only [Hart.step, returning] at ran
          obtain rfl := Except.ok.inj ran
          exact .advance kept.1 kept.2

/-- The first thread is started with its context in `mscratch`, and no other thread ran. -/
theorem switched_start (isContext : layout.isContext context = true) (boot : Cpu)
    : Switched layout (start layout context boot) := by
  obtain ⟨scratch, current⟩ := startThread_eq layout context boot
  refine ⟨current.trans scratch.symm, ?_, fun _ isDue => ?_, rfl, fun _ _ isDue => ?_,
    fun _ isDue => ?_⟩
  · rw [start, scratch]
    exact isContext
  all_goals cases isDue

/-- Steps that obey the conventions and are gentle. -/
def Permitted (layout : TrapLayout) (hart : Hart) (event : HartEvent) : Prop :=
  Conventional layout hart event ∧ gentle layout hart event = true

theorem kept_of_reached (isContext : layout.isContext context = true) {boot : Cpu}
    (reached : Reaches (step layout) (Permitted layout) (start layout context boot) hart)
    : Kept layout hart :=
  reached.invariant (Kept layout) (switched_start isContext boot)
    fun _ _ _ kept permitted ran => kept.step permitted.1 permitted.2 ran

/-- A thread is resumed with the registers and the program counter of its trap, and the result of
an environment call, in every run in which the two functions for the interrupt threshold keep `t5`
and `t6`, the kernel's handler returns with interrupts disabled, and system calls return what is in
`a0` and `a3`.
-/
theorem resumed_as_interrupted (layout : TrapLayout) (context : Word)
    (isContext : layout.isContext context = true) (boot : Cpu) {hart : Hart}
    (reached
      : Reaches (step layout)
          (fun hart event => Conventional layout hart event ∧ gentle layout hart event = true)
          (start layout context boot) hart)
    : ∀ saved, hart.resumed = some saved → Restored hart.cpu saved := by
  intro saved isSaved
  have kept := kept_of_reached isContext reached
  cases returning : hart.returning with
  | none => exact (kept.running returning).resumed saved isSaved
  | some path =>
      simp only [Kept, returning] at kept
      rw [kept.1] at isSaved
      cases isSaved

/-- A boot memory in which each word holds its address, except that interrupts are to be enabled
in both threads.
-/
def booted : Cpu where
  file _ := 0
  csr _ := 0
  mem address := if address = slotAt 128 30 ∨ address = slotAt 256 30 then 0x1880 else address
  pc := 0

/-- The first of two threads is started. -/
def started : Hart := start .twoContexts 128 booted

/-- It executed up to an address, with another value in each register. -/
def executed : Hart :=
  { started with
    cpu := { started.cpu with file r := 0x1000 + BitVec.ofNat 32 r, pc := 0x200 } }

theorem reaches_executed {ha : Hart → HartEvent → Prop}
    (allows : ha started (.execute executed.cpu))
    : Reaches (step .twoContexts) ha started executed :=
  .step .here allows rfl

theorem conventional_executed : Conventional .twoContexts started (.execute executed.cpu) :=
  ⟨rfl, rfl, fun _ _ => rfl⟩

/-- What the thread that executed is due is kept, whatever is allowed later. -/
theorem switched_executed : Switched .twoContexts executed :=
  kept_of_reached (by decide) (reaches_executed ⟨conventional_executed, rfl⟩)

/-- The kernel makes a thread current, and returns a result if it was called. -/
def switchTo (layout : TrapLayout) (next result : Word) : TrapCalls where
  saveInterruptThreshold := id
  kernel cpu := cpu.store layout.currentThreadContext next
  syscallResult := result
  restoreInterruptThreshold := id

theorem Switched.switchTo (switched : Switched layout hart) {next : Word}
    (isNext : layout.isContext next = true) (result mcause mtval : Word)
    : Conventional layout hart (.trap mcause mtval (switchTo layout next result)) := by
  refine ⟨.refl _, rfl, ⟨fun _ _ => rfl, fun address kept => ?_⟩, ?_, .refl _, rfl⟩
  · refine update_of_ne (fun he => ?_) _ _
    rcases kept with ⟨other, slot, isDue, small, rfl⟩ | ⟨word, small, rfl⟩
    · exact layout.current_apart other slot (switched.isContext other isDue) (by omega) he
    · exact layout.current_stack word small he.symm
  · have current : ((Hart.switchTo layout next result).kernel
        (enterTrapHandler layout
          (Scars.enterTrap layout (Hart.switchTo layout next result)
            (takeTrap mcause mtval (hart.interrupted layout))))).mem layout.currentThreadContext
          = next :=
      update_self _ _ _
    exact current.symm ▸ isNext

/-- What is seen of a thread that is resumed, with what it was due. -/
def view (hart : Hart) : (Word × Word × Word) × Option (Word × Word × Word) :=
  ((hart.cpu.pc, hart.cpu.reg a0, hart.cpu.reg a3),
    hart.resumed.map fun saved => (saved.pc, saved.reg a0, saved.reg a3))

/-- A thread that is seen with something else than it was due is not restored. -/
theorem resumed_of_view {ran : Except HartFault Hart} {pc inA0 inA3 : Word}
    {due : Word × Word × Word} (seen : ran.map view = .ok ((pc, inA0, inA3), some due))
    : ∃ hart saved,
        ran = .ok hart
        ∧ hart.resumed = some saved
        ∧ (hart.cpu.pc = pc ∧ hart.cpu.reg a0 = inA0 ∧ hart.cpu.reg a3 = inA3)
        ∧ (saved.pc = due.1 ∧ saved.reg a0 = due.2.1 ∧ saved.reg a3 = due.2.2)
        ∧ (pc ≠ due.1 ∨ inA0 ≠ due.2.1 → ¬ Restored hart.cpu saved) := by
  obtain ⟨hart, ran, final⟩ := map_ok.mp seen
  simp only [view, Prod.mk.injEq, Option.map_eq_some_iff] at final
  obtain ⟨⟨rfl, rfl, rfl⟩, saved, isSaved, rfl⟩ := final
  refine ⟨hart, saved, ran, isSaved, ⟨rfl, rfl, rfl⟩, ⟨rfl, rfl, rfl⟩, fun differs restored => ?_⟩
  have inA0 := restored.reg a0 (by decide) (by decide) (by decide)
  exact differs.elim (fun other => other restored.pc) fun other => other inA0

/-- The way back from a trap, in so many steps. -/
def goBack (steps : Nat) : List HartEvent := .replicate steps .advance

theorem reaches_goBack {ha : Hart → HartEvent → Prop} {first after : Hart} {steps : Nat}
    (advances : ∀ hart, ha hart .advance) (reached : Reaches (step layout) ha first hart)
    (ran : run (step layout) hart (goBack steps) = .ok after)
    : Reaches (step layout) ha first after := by
  refine reached.run (fun state event hm => ?_) ran
  rw [List.eq_of_mem_replicate hm]
  exact advances state

/-- The first thread is preempted by the other one, and resumed when that is preempted. -/
def preempted : HartEvent := .trap 0x80000007 0 (switchTo .twoContexts 256 0)

def preemptedBack : HartEvent := .trap 0x80000007 0 (switchTo .twoContexts 128 0)

theorem resumed_as_interrupted_preempted
    : ∃ hart saved,
        run (step .twoContexts) started
          (.execute executed.cpu :: preempted :: goBack 59 ++ preemptedBack :: goBack 59)
          = .ok hart
        ∧ hart.resumed = some saved
        ∧ saved.pc = 0x200 ∧ saved.reg a0 = 0x100a
        ∧ Restored hart.cpu saved := by
  have isFirst : TrapLayout.twoContexts.isContext 128 = true := by decide
  have isSecond : TrapLayout.twoContexts.isContext 256 = true := by decide
  have seen : (run (step .twoContexts) executed
        (preempted :: goBack 59 ++ preemptedBack :: goBack 59)).map view
      = .ok ((0x200, 0x100a, 0x100d), some (0x200, 0x100a, 0x100d)) := by
    decide +kernel
  have between : (run (step .twoContexts) executed (preempted :: goBack 59)).map
        (fun hart => (hart.returning.isNone, gentle .twoContexts hart preemptedBack))
      = .ok (true, true) := by
    decide +kernel
  obtain ⟨hart, saved, ran, isSaved, -, ⟨duePc, dueA0, -⟩, -⟩ := resumed_of_view seen
  obtain ⟨second, before, after⟩ := run_append_ok ran
  obtain ⟨_, trapped, returned⟩ := bind_ok.mp before
  obtain ⟨_, trapped', returned'⟩ := bind_ok.mp after
  have advances (hart : Hart) : Permitted .twoContexts hart .advance := ⟨trivial, rfl⟩
  have reached : Reaches (step .twoContexts) (Permitted .twoContexts) started executed :=
    reaches_executed ⟨conventional_executed, rfl⟩
  have calm : gentle .twoContexts executed preempted = true := by decide +kernel
  have reached' := reaches_goBack advances
    (reached.step ⟨switched_executed.switchTo isSecond 0 _ 0, calm⟩ trapped) returned
  have checks := view_of_ok _ before between
  simp only [Prod.mk.injEq, Option.isNone_iff_eq_none] at checks
  have switched := (kept_of_reached isFirst reached').running checks.1
  have reached'' := reaches_goBack advances
    (reached'.step ⟨switched.switchTo isFirst 0 _ 0, checks.2⟩ trapped') returned'
  exact ⟨hart, saved, bind_ok.mpr ⟨executed, rfl, ran⟩, isSaved, duePc, dueA0,
    resumed_as_interrupted .twoContexts 128 isFirst _ reached'' saved isSaved⟩

/-- A system call that returns 7. -/
def called : HartEvent := .trap 11 0 (switchTo .twoContexts 128 7)

/-- A timer interrupt, for instance while the trap code runs. -/
def interrupting (calls : TrapCalls) : HartEvent := .trap 0x80000007 0 calls

/-- `_save_interrupt_threshold` uses `t6`. -/
def clobbers : TrapCalls := { TrapCalls.quiet with saveInterruptThreshold cpu := cpu.set t6 0 }

/-- An external interrupt whose handler enables interrupts and leaves them so. -/
def enabling : HartEvent :=
  .trap 0x8000000b 0
    { TrapCalls.quiet with
      kernel cpu := cpu.setCsr .mstatus (cpu.csr .mstatus ||| mieBit) }

/-- A system call's result is in `a3` and the argument still in `a0`; a thread is resumed at an
older address if `_save_interrupt_threshold` uses `t6`; and in the trap code itself, with its
registers, if interrupts are enabled there.
-/
theorem trap_loses_registers
    : (∃ hart saved,
        Reaches (step .twoContexts) (Conventional .twoContexts) started hart
        ∧ hart.resumed = some saved
        ∧ saved.reg a0 = 7 ∧ hart.cpu.reg a0 = 0x100a
        ∧ saved.reg a3 = 0x100d ∧ hart.cpu.reg a3 = 7
        ∧ ¬ Restored hart.cpu saved)
      ∧ (∃ hart saved,
        Reaches (step .twoContexts) (Conventional .twoContexts) started hart
        ∧ hart.resumed = some saved
        ∧ saved.pc = 0x200 ∧ hart.cpu.pc = 0xf4
        ∧ ¬ Restored hart.cpu saved)
      ∧ ∃ hart saved,
        Reaches (step .twoContexts) (Conventional .twoContexts) started hart
        ∧ hart.resumed = some saved
        ∧ saved.pc = 0x200 ∧ hart.cpu.pc = 0x20000400
        ∧ saved.reg a0 = 0x100a ∧ hart.cpu.reg a0 = 0x200
        ∧ ¬ Restored hart.cpu saved := by
  have advances (hart : Hart) : Conventional .twoContexts hart .advance := trivial
  have reached := reaches_executed conventional_executed
  refine ⟨?_, ?_, ?_⟩
  · have seen : (run (step .twoContexts) executed (called :: goBack 35)).map view
        = .ok ((0x204, 0x100a, 7), some (0x204, 7, 0x100d)) := by
      decide +kernel
    obtain ⟨hart, saved, ran, isSaved, ⟨-, inA0, inA3⟩, ⟨-, dueA0, dueA3⟩, lost⟩ :=
      resumed_of_view seen
    obtain ⟨_, trapped, returned⟩ := bind_ok.mp ran
    have conventional : Conventional .twoContexts executed called :=
      switched_executed.switchTo (by decide) 7 11 0
    exact ⟨hart, saved, reaches_goBack advances (reached.step conventional trapped) returned,
      isSaved, dueA0, inA0, dueA3, inA3, lost (by decide)⟩
  · have seen : (run (step .twoContexts) executed (interrupting clobbers :: goBack 59)).map view
        = .ok ((0xf4, 0x100a, 0x100d), some (0x200, 0x100a, 0x100d)) := by
      decide +kernel
    obtain ⟨hart, saved, ran, isSaved, ⟨pc, -⟩, ⟨duePc, -⟩, lost⟩ := resumed_of_view seen
    obtain ⟨_, trapped, returned⟩ := bind_ok.mp ran
    have conventional : Conventional .twoContexts executed (interrupting clobbers) := by
      refine ⟨⟨fun r isSaved => ?_, fun _ _ => rfl⟩, rfl, .refl _, by decide +kernel, .refl _, rfl⟩
      have notT6 : ∀ r ∈ calleeSaved, r ≠ t6 := by decide
      exact Cpu.reg_set_of_ne (notT6 r isSaved)
    exact ⟨hart, saved, reaches_goBack advances (reached.step conventional trapped) returned,
      isSaved, duePc, pc, lost (by decide)⟩
  · have seen : (run (step .twoContexts) executed
          (enabling :: goBack 8 ++ interrupting .quiet :: goBack 35)).map view
        = .ok ((0x20000400, 0x200, 0x100d), some (0x200, 0x100a, 0x100d)) := by
      decide +kernel
    have current : (run (step .twoContexts) executed (enabling :: goBack 8)).map
          (fun hart => TrapLayout.twoContexts.isContext
            ((enterTrapHandler .twoContexts (Scars.enterTrap .twoContexts .quiet
              (takeTrap 0x80000007 0 (hart.interrupted .twoContexts)))).mem
              TrapLayout.twoContexts.currentThreadContext))
        = .ok true := by
      decide +kernel
    obtain ⟨hart, saved, ran, isSaved, ⟨pc, inA0, -⟩, ⟨duePc, dueA0, -⟩, lost⟩ :=
      resumed_of_view seen
    obtain ⟨middle, before, after⟩ := run_append_ok ran
    obtain ⟨_, trapped, returned⟩ := bind_ok.mp before
    obtain ⟨_, trapped', returned'⟩ := bind_ok.mp after
    have conventional : Conventional .twoContexts executed enabling :=
      ⟨.refl _, rfl, ⟨fun _ _ => rfl, fun _ _ => rfl⟩, by decide +kernel, .refl _, rfl⟩
    have isNext := view_of_ok _ before current
    have conventional' : Conventional .twoContexts middle (interrupting .quiet) :=
      ⟨.refl _, rfl, .refl _, isNext, .refl _, rfl⟩
    have reached' := reaches_goBack advances (reached.step conventional trapped) returned
    exact ⟨hart, saved, reaches_goBack advances (reached'.step conventional' trapped') returned',
      isSaved, duePc, pc, dueA0, inA0, lost (by decide)⟩

end Hart

end Scars

import Mathlib.Algebra.Group.Nat.Defs
import Scars.Preemption.SleepOrderRuns

/-! The clock and the alarm of the E310x.
Both are 64-bit registers that are accessed by halves while the counter runs on. The alarm that the
kernel wants is in the registers afterwards.
-/

namespace Scars.E310x

open Machine

def ofHalves (low high : UInt32) : UInt64 := low.toUInt64 + (high.toUInt64 <<< 32)

def lowHalf (register : UInt64) : UInt32 := register.toUInt32

def highHalf (register : UInt64) : UInt32 := (register >>> 32).toUInt32

/-- The loop of `clock_ticks`, with the count at each access of a register. It returns the ticks
and the next access.
-/
def clockTicks (count : Nat → UInt64) : Nat → Nat → Option (UInt64 × Nat)
  | 0, _ => none
  | rounds + 1, access =>
      let mtimeh := highHalf (count access)
      let mtime := lowHalf (count (access + 1))
      -- the high half is read again to detect an overflow of the low one
      if mtimeh = highHalf (count (access + 2)) then
        some (ofHalves mtime mtimeh, access + 3)
      else
        clockTicks count rounds (access + 3)

/-- `mtimecmp` by its halves, and whether interrupts are enabled. -/
structure Timer where
  mtimecmp : UInt32
  mtimecmph : UInt32
  mie : Bool
  deriving DecidableEq, Repr

/-- The time from which the timer requests its interrupt. -/
def Timer.alarm (timer : Timer) : UInt64 := ofHalves timer.mtimecmp timer.mtimecmph

/-- `restore`, which enables interrupts if they were before. -/
def Timer.restore (restoreState : Bool) (timer : Timer) : Timer :=
  if restoreState then { timer with mie := true } else timer

/-- The registers after each access of `set_wakeup`. -/
def setWakeup (time : Option UInt64) (timer : Timer) : List Timer :=
  let time := time.getD (-1)
  let acquired := { timer with mie := false }
  let masked := { acquired with mtimecmph := -1 }
  let low := { masked with mtimecmp := lowHalf time }
  let high := { low with mtimecmph := highHalf time }
  [acquired, masked, low, high, high.restore timer.mie]

theorem toNat_ofHalves (low high : UInt32)
    : (ofHalves low high).toNat = low.toNat + high.toNat * 2 ^ 32 := by
  have lowBound := low.toNat_lt
  have highBound := high.toNat_lt
  simp [ofHalves, Nat.shiftLeft_eq]
  omega

theorem toNat_highHalf (register : UInt64)
    : (highHalf register).toNat = register.toNat / 2 ^ 32 := by
  have bound := register.toNat_lt
  simp [highHalf, Nat.shiftRight_eq_div_pow]
  omega

theorem ofHalves_eq (register : UInt64)
    : ofHalves (lowHalf register) (highHalf register) = register := by
  refine UInt64.toNat_inj.mp ?_
  have low : (lowHalf register).toNat = register.toNat % 2 ^ 32 := by simp [lowHalf]
  rw [toNat_ofHalves, toNat_highHalf, low]
  omega

/-- The counter never runs back. -/
def Forward (count : Nat → UInt64) : Prop :=
  ∀ earlier later, earlier ≤ later → count earlier ≤ count later

/-- The loop ends while it has rounds for every value of the high half that is left. Witness:
induction on the rounds; a round that fails saw the high half grow.
-/
theorem Forward.clockTicks_returns {count : Nat → UInt64} (runs : Forward count)
    {rounds access : Nat} (enough : 2 ^ 32 ≤ rounds + (highHalf (count access)).toNat)
    : ∃ reading next,
        clockTicks count rounds access = some (count reading, next)
        ∧ access ≤ reading ∧ reading < next := by
  have high (earlier : Nat)
      : (highHalf (count earlier)).toNat ≤ (highHalf (count (earlier + 1))).toNat := by
    rw [toNat_highHalf, toNat_highHalf]
    exact Nat.div_le_div_right (runs earlier (earlier + 1) (Nat.le_succ earlier))
  induction rounds generalizing access with
  | zero =>
      have bound := (highHalf (count access)).toNat_lt
      omega
  | succ rounds ih =>
      have before := high access
      have after : _ ≤ (highHalf (count (access + 2))).toNat := high (access + 1)
      simp only [clockTicks]
      split
      next he =>
        have between : highHalf (count access) = highHalf (count (access + 1)) := by
          refine UInt32.toNat_inj.mp (Nat.le_antisymm before ?_)
          rw [he]
          exact after
        refine ⟨access + 1, access + 3, ?_, by omega, by omega⟩
        rw [between, ofHalves_eq]
      next changed =>
        have hne := mt UInt32.toNat_inj.mp changed
        have next : _ ≤ (highHalf (count (access + 3))).toNat := high (access + 2)
        have fewer : 2 ^ 32 ≤ rounds + (highHalf (count (access + 3))).toNat := by omega
        obtain ⟨reading, last, returned, begun, ended⟩ := ih fewer
        exact ⟨reading, last, returned, by omega, ended⟩

/-- Whatever the counter does between the accesses, `clock_ticks` returns the count at one of
them, so no later call returns less.
-/
theorem clock_exact (count : Nat → UInt64) (runs : Forward count) (access : Nat)
    : ∃ reading next,
        clockTicks count (2 ^ 32) access = some (count reading, next)
        ∧ access ≤ reading ∧ reading < next
        ∧ ∀ later ticks last,
            next ≤ later
            → clockTicks count (2 ^ 32) later = some (ticks, last)
            → count reading ≤ ticks := by
  have returns (first : Nat) := runs.clockTicks_returns
    (Nat.le_add_right (2 ^ 32) (highHalf (count first)).toNat)
  obtain ⟨reading, next, returned, begun, ended⟩ := returns access
  refine ⟨reading, next, returned, begun, ended, fun later ticks last after again => ?_⟩
  obtain ⟨other, _, he, behind, _⟩ := returns later
  cases he.symm.trans again
  exact runs reading other (by omega)

/-- The low half overflows between the first two accesses. -/
def overflowing (access : Nat) : UInt64 := if access = 0 then 0x1FFFFFFFF else 0x200000000

theorem clock_exact_overflowing
    : ∃ reading next,
        clockTicks overflowing (2 ^ 32) 0 = some (overflowing reading, next) ∧ reading < next := by
  have runs : Forward overflowing := by
    intro earlier later before
    unfold overflowing
    split
    · split <;> decide
    · rw [if_neg (by omega)]
      decide
  obtain ⟨reading, next, returned, _, ended, _⟩ := clock_exact overflowing runs 0
  exact ⟨reading, next, returned, ended⟩

/-- Before the last turn of the low half `set_wakeup` has at each access an alarm that is the old
one, the new one, or too late to be reached. In the end it is the new one, and interrupts are
enabled as before.
-/
theorem setWakeup_alarms (time : Option UInt64) (timer : Timer) {now : UInt64}
    (early : now.toNat < (2 ^ 32 - 1) * 2 ^ 32)
    : (∀ moment ∈ setWakeup time timer,
        moment.alarm ≤ now → timer.alarm ≤ now ∨ ∃ alarm ≤ now, time = some alarm)
      ∧ ∃ final, (setWakeup time timer).getLast? = some final
          ∧ final.mie = timer.mie
          ∧ (final.alarm ≤ now ↔ ∃ alarm ≤ now, time = some alarm) := by
  have masked (low : UInt32) : ¬ ofHalves low (-1) ≤ now := by
    rw [UInt64.le_iff_toNat_le, toNat_ofHalves]
    have most : (-1 : UInt32).toNat = 2 ^ 32 - 1 := rfl
    omega
  have decides : time.getD (-1) ≤ now ↔ ∃ alarm ≤ now, time = some alarm := by
    cases time with
    | some alarm => simp
    | none =>
        have last : ofHalves (-1) (-1) = -1 := rfl
        simpa [last] using masked (-1)
  have set (mie : Bool)
      : (Timer.mk (lowHalf (time.getD (-1))) (highHalf (time.getD (-1))) mie).alarm
        = time.getD (-1) :=
    ofHalves_eq _
  simp only [setWakeup, List.forall_mem_cons, List.getLast?_cons_cons, List.getLast?_singleton]
  cases enabled : timer.mie
  all_goals
    refine ⟨⟨.inl, fun reached => absurd reached (masked _),
      fun reached => absurd reached (masked _), ?_, ?_, by simp⟩, _, rfl, rfl, ?_⟩
    · exact fun reached => .inr (decides.mp (set false ▸ reached))
    · exact fun reached => .inr (decides.mp (set _ ▸ reached))
    · exact Iff.trans (Iff.of_eq (congrArg (· ≤ now) (set _))) decides

/-- In every run in which deadlines change while they may, when an operation of the scheduler is
complete, `set_wakeup` with the kernel's alarm leaves a timer that requests its interrupt as soon
as any sleeper is due; on the way it requests none but for this alarm or the one before.
-/
theorem sleepers_signalled {fuel : Nat} {program : Program} {machine machine' : Machine}
    {rest : List Instr} {clock : Instant}
    (reached
      : Runs.Reaches (step fuel) (fun machine event => machine.keepsOrder event = true)
          (start program) machine)
    (completes : machine.running = .dropBorrow :: rest)
    (hs : machine.step fuel (.exec clock) = .ok machine')
    (timer : Timer) (now : UInt64) (early : now.toNat < (2 ^ 32 - 1) * 2 ^ 32)
    : let kernel := machine'.raw
      let time := kernel.alarm.map UInt64.ofNat
      (∀ moment ∈ setWakeup time timer,
        moment.alarm ≤ now → timer.alarm ≤ now ∨ ∃ alarm ≤ now, time = some alarm)
      ∧ ∃ final, (setWakeup time timer).getLast? = some final
          ∧ final.mie = timer.mie
          ∧ ∀ sleeper ∈ kernel.sleepQueue,
              kernel.wakeupTime sleeper ≤ now.toNat → final.alarm ≤ now := by
  intro kernel time
  have timed := (orderly_of_reached reached).timed_completed completes hs
  obtain ⟨requests, final, last, enabled, rings⟩ := setWakeup_alarms time timer early
  refine ⟨requests, final, last, enabled, fun sleeper hm due => rings.mpr ?_⟩
  obtain ⟨alarm, programmed, inTime⟩ := timed.alarmed sleeper hm
  refine ⟨UInt64.ofNat alarm, ?_, congrArg (Option.map UInt64.ofNat) programmed⟩
  rw [UInt64.le_iff_toNat_le, UInt64.toNat_ofNat']
  exact Nat.le_trans (Nat.mod_le _ _) (Nat.le_trans inTime due)

/-- The section in which handler 3 is put to sleep until 7, up to its last instruction. -/
def sleepingHandler : Except Fault Machine :=
  Runs.run (step 1)
    (.start ⟨fun _ => .thread 1, fun _ => .interrupt 4, fun _ => .interrupt 1⟩)
    (scheduleFor 3 7 6)

/-- Witness: the deadline 7 has passed at 8. -/
theorem sleepers_signalled_late
    : ∃ machine machine' final,
        sleepingHandler = .ok machine ∧ machine.step 1 (.exec 0) = .ok machine'
        ∧ machine'.raw.sleepQueue = [.interrupt 3]
        ∧ (setWakeup (machine'.raw.alarm.map UInt64.ofNat) ⟨0, 1, true⟩).getLast? = some final
        ∧ final.alarm ≤ 8 := by
  obtain ⟨machine, machine', ran, hs⟩
      : ∃ machine machine', sleepingHandler = .ok machine
          ∧ machine.step 1 (.exec 0) = .ok machine' :=
    ⟨_, _, rfl, rfl⟩
  have checked
      : Runs.allows (step 1) keepsOrder
          (.start ⟨fun _ => .thread 1, fun _ => .interrupt 4, fun _ => .interrupt 1⟩)
          (scheduleFor 3 7 6) = true := rfl
  have completes : machine.running.head? = some .dropBorrow :=
    Runs.view_of_ok (fun machine : Machine => machine.running.head?) ran rfl
  obtain ⟨rest, hrun⟩ := List.head?_eq_some_iff.mp completes
  have sleeps : (machine'.raw.sleepQueue, machine'.raw.wakeupTime (.interrupt 3))
      = ([.interrupt 3], 7) := by
    refine Runs.view_of_ok
      (fun machine : Machine =>
        (machine.raw.sleepQueue, machine.raw.wakeupTime (.interrupt 3))) hs ?_
    exact Runs.view_of_ok
      (fun machine : Machine => (machine.step 1 (.exec 0)).map fun machine =>
        (machine.raw.sleepQueue, machine.raw.wakeupTime (.interrupt 3))) ran rfl
  obtain ⟨queue, due⟩ := Prod.mk.inj sleeps
  obtain ⟨final, last, _, signalled⟩ :=
    (sleepers_signalled (Runs.Reaches.run_allowed _ .here checked ran) hrun hs
      ⟨0, 1, true⟩ 8 (by decide)).2
  refine ⟨machine, machine', final, ran, hs, queue, last,
    signalled (.interrupt 3) (by simp [queue]) ?_⟩
  rw [due]
  decide

end Scars.E310x

import Scars.Sync.ChannelSteps

/-! Channels lose no notification that is in time, over whole runs.
-/

namespace Scars

open Runs Function

namespace Channel

variable {T : Type} {parts : ChannelParts} {state state' : Channel T} {side : ChannelSide}
  {fuel : Nat} {thread : ThreadId} {place : ChannelPlace T}

section

variable (attended : state.Attended parts)
include attended

theorem Attended.test {call : ChannelCall T} {woken : Bool}
    (here : state.place state.current = .testing call woken)
    (tested : state.test parts fuel call = .ok state')
    : state'.Attended parts := by
  have outside := (attended.linked state.current).outside (by simp [here])
  have fails {result : ChannelResult T} (nothing : state.fifo.available call.side = 0)
      : (state.goOn (.returning result)).Attended parts := by
    refine attended.move attended.orderly (.of_outside outside rfl rfl) rfl (by simp) ?_
    intro side underWay
    rcases eq_or_ne side call.side with rfl | hne
    · exact Or.inl nothing
    · exact absurd underWay (not_underWay_testing here hne)
  cases call with
  | recv =>
      simp only [Channel.test] at tested
      split at tested
      next empty => exact attended.wait here (Fifo.available_of_isEmpty empty) tested
      next => exact attended.take here rfl tested
  | tryRecv =>
      simp only [Channel.test] at tested
      split at tested
      next empty => cases tested; exact fails (Fifo.available_of_isEmpty empty)
      next => exact attended.take here rfl tested
  | send item =>
      simp only [Channel.test] at tested
      split at tested
      next full => exact attended.wait here (Fifo.available_of_isFull full) tested
      next room => cases tested; exact attended.put here rfl (by simpa using room) item
  | trySend item =>
      simp only [Channel.test] at tested
      split at tested
      next full => cases tested; exact fails (Fifo.available_of_isFull full)
      next room => cases tested; exact attended.put here rfl (by simpa using room) item

theorem Attended.other {op : Op} (ran : state.monitors.step fuel (.other op) = .ok state'.monitors)
    (he : state'.fifo = state.fifo) (placed : state'.place = state.place)
    : state'.Attended parts := by
  have moves := attended.orderly.step_other_ok ran
  have insides : state'.monitors.place = state.monitors.place := by
    rw [moves.place, update_eq_self]
  constructor
  case orderly => exact attended.orderly.step (.other op) trivial ran
  case linked =>
    intro thread
    have before := attended.linked thread
    unfold Linked at before ⊢
    rw [placed, insides]
    exact before
  case bounded => rw [he]; exact attended.bounded
  case covered =>
    intro side wanted
    rw [Wanted, moves.spares.waitQueue, insides] at wanted
    rw [he]
    apply (attended.covered side wanted).mono
    intro thread underWay
    apply underWay.congr (congrFun placed thread) (congrFun insides thread)
    intro free
    rw [moves.spares.waitOwner, free]

theorem Attended.pass {op : Op} (outside : state.monitors.place state.current = .outside)
    (notWaiting : ∀ call, place ≠ .waiting call)
    (nothing : ∀ side, ¬ state.UnderWay side state.current)
    (hs : state.monitorStep fuel (.other op) place = .ok state')
    : state'.Attended parts := by
  obtain ⟨ran, he, placed⟩ := monitorStep_ok hs
  have moves := attended.orderly.step_other_ok ran
  rw [outside] at moves
  refine attended.move (attended.orderly.step (.other op) trivial ran) ⟨moves, placed⟩ he
    notWaiting ?_
  exact fun side underWay => absurd underWay (nothing side)

theorem Attended.advance (inTime : state.InTime parts .advance)
    (advanced : state.advance parts fuel = .ok state')
    : state'.Attended parts := by
  unfold Channel.advance at advanced
  split at advanced
  next => cases advanced
  next call woken here => exact attended.test here advanced
  next call here =>
    split at advanced
    next => cases advanced
    next => exact attended.enqueue here advanced
    next condvar lock inside =>
      obtain ⟨ran, he, placed⟩ := monitorStep_ok advanced
      refine attended.move (attended.orderly.step .relock trivial ran)
        ⟨Monitors.step_relock_ok ran, placed⟩ he (by simp) ?_
      intro side underWay
      -- the notified thread carries the notification to its next test
      refine Or.inr (.woken call (by rw [placed, update_self]) ?_)
      rcases underWay.place_cases with ⟨_, place⟩ | ⟨entered, place, mine⟩ | ⟨_, place, -⟩
      · simp [here] at place
      · rw [here] at place
        cases place
        exact mine
      · simp [here] at place
  next side result here => exact attended.notify here (inTime side result here) advanced
  next result here =>
    have outside := (attended.linked state.current).outside (by simp [here])
    refine attended.pass outside (by simp) (fun side underWay => ?_) advanced
    rcases underWay.place_cases with ⟨_, place⟩ | ⟨_, place, -⟩ | ⟨_, place, -⟩ <;>
      simp [here] at place

/-- A handler that cannot move an item changes nothing. -/
theorem Attended.handle {call : ChannelCall T} (inTime : state.InTime parts (.interrupt call))
    (handled : state.handle parts fuel call = .ok state')
    : state'.Attended parts := by
  have bounded := attended.bounded
  unfold Channel.handle at handled
  split at handled
  · cases handled
  cases call with
  | recv => cases handled
  | send item => cases handled
  | tryRecv =>
      dsimp only at handled
      split at handled
      next => cases handled; exact attended
      next filled =>
        obtain ⟨moved, taken, notified⟩ := bind_ok.mp handled
        obtain ⟨monitors, ran, rfl⟩ := bind_pure_ok.mp notified
        obtain ⟨-, -, capacity, used⟩ := take_ok taken
        refine attended.handled .senders (inTime (by simpa using filled)) ran rfl ?_ fun side => ?_
        · dsimp only
          omega
        · cases side <;> simp [Fifo.available, Fifo.free] <;> omega
  | trySend item =>
      dsimp only at handled
      split at handled
      next => cases handled; exact attended
      next room =>
        obtain ⟨monitors, ran, rfl⟩ := bind_pure_ok.mp handled
        have room : state.fifo.isFull = false := by simpa using room
        obtain ⟨capacity, used⟩ := Fifo.push_eq item room
        have notFull : state.fifo.used ≠ state.fifo.capacity := by simpa [Fifo.isFull] using room
        refine attended.handled .receivers (inTime room) ran rfl ?_ fun side => ?_
        · dsimp only
          omega
        · cases side <;> simp [Fifo.available, Fifo.free] <;> omega

/-- A step in time leaves both sides attended. -/
theorem Attended.step {event : ChannelEvent T} (inTime : state.InTime parts event)
    (hs : state.step parts fuel event = .ok state')
    : state'.Attended parts := by
  cases event with
  | call call =>
      simp only [Channel.step] at hs
      split at hs
      next here =>
        have outside := (attended.linked state.current).outside (by simp [here])
        refine attended.pass outside (by simp) (fun side underWay => ?_) hs
        rcases underWay.place_cases with ⟨_, place⟩ | ⟨_, place, -⟩ | ⟨_, place, -⟩ <;>
          simp [here] at place
      next => cases hs
  | advance => exact attended.advance inTime hs
  | interrupt call => exact attended.handle inTime hs
  | other op =>
      simp only [Channel.step] at hs
      split at hs
      · cases hs
      · obtain ⟨monitors, ran, rfl⟩ := bind_pure_ok.mp hs
        exact attended.other ran rfl rfl

end

theorem served_of_reaches {program : Program} {capacity : Nat}
    (reached
      : Reaches (step parts fuel) (InTime parts) (start program capacity : Channel T) state)
    : state.Served parts := by
  have attended : state.Attended parts :=
    reached.invariant (Attended parts) (start_attended program capacity)
      fun _ _ _ attended inTime hs => attended.step inTime hs
  exact fun side hq => attended.covered side (Or.inl hq)

end Channel

/-- In every run whose notifications are in time, no thread whose wait was answered is left
in a wait queue, and a blocked side of a channel is never short of notifications.
-/
theorem noLostWakeup_runs {T : Type} (parts : ChannelParts) (fuel : Nat) (program : Program)
    (capacity : Nat) (monitors : Monitors) (channel : Channel T)
    : (Reaches (Monitors.step fuel) Monitors.InTime (Monitors.start program) monitors
        → monitors.Delivered)
      ∧ (Reaches (Channel.step parts fuel) (Channel.InTime parts)
            (Channel.start program capacity) channel
          → channel.Served parts) := by
  constructor
  · intro reached
    exact Monitors.delivered_of_reaches reached
  · intro reached
    exact Channel.served_of_reaches reached

/-- Threads of their own priority and locks below the ceiling of the channel. -/
def pairProgram : Program :=
  ⟨fun thread => .thread (UInt8.ofNat thread), fun _ => .thread 7, fun _ => .interrupt 1⟩

def pairParts : ChannelParts := ⟨0, ⟨0, .thread 7⟩, ⟨1, .thread 7⟩, by decide⟩

/-- A step that notifies one thread, which waits, or none. -/
def Monitors.notifiesWaiter (before : Monitors) : MonitorEvent → Bool
  | .notifyOne condvar => !(before.kernel.waitQueue condvar.waiterQueue).isEmpty
  | .notifyAll _ => false
  | _ => true

/-- A step that is not the notification of a call. -/
def Channel.notifiesNobody (before : Channel T) : ChannelEvent T → Bool
  | .advance =>
      match before.place before.current with
      | .notifying _ _ => false
      | _ => true
  | .interrupt _ => false
  | _ => true

/-- Thread 2 waits and is notified by an interrupt handler; on a channel, it waits for an
item while thread 5 has put one and notifies next.
-/
theorem noLostWakeup_runs_pair
    : (let ran :=
        run (Monitors.step 1) (Monitors.start pairProgram)
          [.other (.start 2), .other (.executePendingReschedule 0), .other (.lock 0),
            .unlock pairParts.receivers 0, .wait, .notifyOne pairParts.receivers]
      ran.map (fun state => (state.kernel.state 2, state.answered 2)) = .ok (.ready, true)
      ∧ ∀ state, ran = .ok state → state.Delivered)
      ∧ (let ran :=
          run (Channel.step pairParts 1) (Channel.start pairProgram 1 : Channel Nat)
            [.other (.start 2), .other (.executePendingReschedule 0), .call .recv, .advance,
              .advance, .other (.start 5), .other (.executePendingReschedule 0),
              .call (.send 9), .advance]
        ran.map
            (fun state => (state.monitors.kernel.waitQueue 0, state.fifo.used, state.current))
          = .ok ([.thread 2], 1, 5)
        ∧ ∀ state, ran = .ok state → state.Served pairParts) := by
  refine ⟨⟨rfl, ?_⟩, rfl, ?_⟩
  · intro state ran
    apply (noLostWakeup_runs pairParts 1 pairProgram 1 state
      (Channel.start pairProgram 1 : Channel Nat)).1
    apply (Reaches.here.run_allowed Monitors.notifiesWaiter rfl ran).mono
    intro before event checked
    cases event with
    | notifyOne condvar => exact fun empty => by simp [Monitors.notifiesWaiter, empty] at checked
    | notifyAll condvar => cases checked
    | _ => trivial
  · intro state ran
    apply (noLostWakeup_runs pairParts 1 pairProgram 1 state.monitors state).2
    apply (Reaches.here.run_allowed Channel.notifiesNobody rfl ran).mono
    intro before event checked
    cases event with
    | advance =>
        exact fun side result place => by simp [Channel.notifiesNobody, place] at checked
    | interrupt call => cases checked
    | _ => trivial

/-- Thread 2 releases the lock in `recv` and is preempted before its wait syscall; thread 5
sends an item and notifies the empty queue; thread 2 then blocks, the item stays in the FIFO
and no notification is under way.
-/
theorem lateWaiter_loses_wakeup
    : let ran :=
        run (Channel.step pairParts 1) (Channel.start pairProgram 1 : Channel Nat)
          [.other (.start 2), .other (.executePendingReschedule 0), .call .recv,
            .other (.start 5), .advance, .other (.executePendingReschedule 0),
            .call (.send 9), .advance, .advance, .advance, .other (.delayUntil 100), .advance]
      ran.map
          (fun state => (state.monitors.kernel.waitQueue 0, state.fifo.used, state.current))
        = .ok ([.thread 2], 1, IDLE_THREAD_ID)
      ∧ ∀ state,
          ran = .ok state → ¬ state.monitors.Delivered ∧ ¬ state.Served pairParts := by
  refine ⟨rfl, fun state ran => ?_⟩
  have hq : state.monitors.kernel.waitQueue 0 = [.thread 2] :=
    view_of_ok (fun state : Channel Nat => state.monitors.kernel.waitQueue 0) ran rfl
  constructor
  · intro delivered
    have answered : state.monitors.answered 2 = true :=
      view_of_ok (fun state : Channel Nat => state.monitors.answered 2) ran rfl
    exact delivered 2 answered 0 (by simp [hq])
  · intro served
    have used : state.fifo.used = 1 :=
      view_of_ok (fun state : Channel Nat => state.fifo.used) ran rfl
    have owner : state.monitors.kernel.waitOwner (.thread 2) = some 0 :=
      view_of_ok (fun state : Channel Nat => state.monitors.kernel.waitOwner (.thread 2)) ran rfl
    have places
        : state.place
          = update (update (update (update
              (update (update (update (fun _ => .outside)
                2 (.testing .recv false)) 2 (.waiting .recv)) 5 (.testing (.send 9) false))
                5 (.notifying .receivers .sent)) 5 (.returning .sent)) 5 .outside)
                2 (.waiting .recv) :=
      view_of_ok (fun state : Channel Nat => state.place) ran rfl
    have enough := served .receivers (by simp [ChannelParts.condvar, pairParts, hq])
    obtain ⟨thread, underWay⟩ := AtLeast.exists_of_pos enough (by simp [Fifo.available, used])
    rcases eq_or_ne thread 2 with rfl | notReceiver
    · rcases underWay with ⟨_, place⟩ | ⟨_, _, _, _, _, _, free⟩ | ⟨_, place, _⟩
      · simp [places] at place
      · simp [owner] at free
      · simp [places] at place
    · have outside : state.place thread = .outside := by
        rw [places]
        by_cases sender : thread = 5 <;> simp [update, notReceiver, sender]
      rcases underWay.place_cases with ⟨_, place⟩ | ⟨_, place, _⟩ | ⟨_, place, _⟩ <;>
        simp [outside] at place

end Scars

import Scars.Sync.ChannelInvariant

/-! What the steps of a channel call do to the notifications under way.
-/

namespace Scars.Channel

open Runs Function

variable {T : Type} {parts : ChannelParts} {state state' : Channel T} {side : ChannelSide}
  {fuel : Nat} {thread : ThreadId} {place : ChannelPlace T} {call : ChannelCall T} {woken : Bool}
  {result : ChannelResult T}

theorem monitorStep_ok {event : MonitorEvent} (hs : state.monitorStep fuel event place = .ok state')
    : state.monitors.step fuel event = .ok state'.monitors ∧ state'.fifo = state.fifo
      ∧ state'.place = update state.place state.current place := by
  obtain ⟨monitors, ran, rfl⟩ := bind_pure_ok.mp hs
  exact ⟨ran, rfl, rfl⟩

theorem take_ok (taken : state.take = .ok state')
    : (∃ item,
        state'.place = update state.place state.current (.notifying .senders (.received item)))
      ∧ state'.monitors = state.monitors ∧ state'.fifo.capacity = state.fifo.capacity
      ∧ state'.fifo.used + 1 = state.fifo.used := by
  obtain ⟨⟨popped, fifo⟩, pops, returned⟩ := bind_ok.mp taken
  dsimp only at returned
  split at returned
  · cases returned
  next item =>
    cases returned
    obtain ⟨capacity, ⟨-, nothing, -⟩ | ⟨filled, -, used⟩⟩ := Fifo.pop_ok pops
    · cases nothing
    · exact ⟨⟨item, rfl⟩, rfl, capacity, by dsimp only; omega⟩

theorem Linked.outside (linked : state.Linked parts thread)
    (notWaiting : ∀ call, state.place thread ≠ .waiting call)
    : state.monitors.place thread = .outside := by
  unfold Linked at linked
  split at linked
  next call waits => exact absurd waits (notWaiting call)
  · exact linked

theorem Linked.of_inside (linked : state.Linked parts thread) {condvar : Condvar}
    {lock : LockId} (inside : state.monitors.place thread = .waiting condvar lock)
    : ∃ call, state.place thread = .waiting call ∧ condvar = parts.condvar call.side := by
  unfold Linked at linked
  split at linked
  next call waits =>
    rw [inside] at linked
    rcases linked with released | waiting
    · cases released
    · cases waiting
      exact ⟨call, waits, rfl⟩
  · simp [inside] at linked

theorem not_underWay_testing (here : state.place thread = .testing call woken)
    (other : side ≠ call.side)
    : ¬ state.UnderWay side thread := by
  intro underWay
  rcases underWay.place_cases with ⟨result, place⟩ | ⟨waiting, place, mine⟩ | ⟨tests, place, mine⟩
  · simp [here] at place
  · simp [here] at place
  · rw [here] at place
    cases place
    exact other mine.symm

section

variable (attended : state.Attended parts)
include attended

section

variable (here : state.place state.current = .testing call woken)
include here

/-- Moving an item: one notification of the own side may be used up, and one for the other
side is under way.
-/
theorem Attended.shift {other : ChannelSide} (opposite : other ≠ call.side)
    (monitors : state'.monitors = state.monitors)
    (placed
      : state'.place = update state.place state.current (.notifying other result))
    (bounded : state'.fifo.used ≤ state'.fifo.capacity)
    (own : state'.fifo.available call.side = state.fifo.available call.side - 1)
    (others : state'.fifo.available other = state.fifo.available other + 1)
    : state'.Attended parts := by
  have outside := (attended.linked state.current).outside (by simp [here])
  have moves : state.Moves (.notifying other result) .outside state' :=
    .of_outside outside monitors placed
  constructor
  case orderly => rw [monitors]; exact attended.orderly
  case linked =>
    apply moves.linked attended.linked
    exact .of_outside (by simp [moves.place_current]) moves.monitors.place_current
  case bounded => exact bounded
  case covered =>
    intro side wanted
    have enough := attended.covered side (moves.wanted (by simp) wanted)
    rcases eq_or_ne side call.side with rfl | hne
    · rw [own]
      exact enough.lose fun thread notCurrent underWay =>
        moves.underWay_of_ne underWay notCurrent
    · have isOther : side = other := by
        cases side <;> cases other <;> cases call <;> simp_all [ChannelCall.side]
      subst isOther
      rw [others]
      have lacked := not_underWay_testing here hne
      apply enough.gain _ lacked (.sent result moves.place_current)
      intro thread underWay
      apply moves.underWay_of_ne underWay
      rintro rfl
      exact lacked underWay

theorem Attended.take (mine : call.side = .receivers) (taken : state.take = .ok state')
    : state'.Attended parts := by
  obtain ⟨⟨item, placed⟩, monitors, capacity, used⟩ := take_ok taken
  have bounded := attended.bounded
  refine attended.shift here (by simp [mine]) monitors placed (by omega) ?_ ?_
  · simp only [mine, Fifo.available]
    omega
  · simp only [Fifo.available, Fifo.free]
    omega

theorem Attended.put (mine : call.side = .senders) (room : state.fifo.isFull = false) (item : T)
    : (state.put item).Attended parts := by
  obtain ⟨capacity, used⟩ := Fifo.push_eq item room
  have bounded := attended.bounded
  have notFull : state.fifo.used ≠ state.fifo.capacity := by simpa [Fifo.isFull] using room
  refine attended.shift here (by simp [mine]) rfl rfl ?_ ?_ ?_
  · change (state.fifo.push item).2.used ≤ (state.fifo.push item).2.capacity
    omega
  · have stored : (state.put item).fifo = (state.fifo.push item).2 := rfl
    simp only [mine, Fifo.available, Fifo.free, stored]
    omega
  · exact used

/-- A side whose condition holds has nothing to wait for, so entering its wait needs no
notification.
-/
theorem Attended.wait (nothing : state.fifo.available call.side = 0)
    (hs
      : state.monitorStep fuel (.unlock (parts.condvar call.side) parts.fifoLock)
        (.waiting call) = .ok state')
    : state'.Attended parts := by
  obtain ⟨ran, he, placed⟩ := monitorStep_ok hs
  have moves : state.Moves (.waiting call)
      (.released (parts.condvar call.side) parts.fifoLock) state' :=
    ⟨Monitors.step_unlock_ok ran, placed⟩
  constructor
  case orderly => exact attended.orderly.step (.unlock _ _) trivial ran
  case linked =>
    apply moves.linked attended.linked
    exact .of_waiting moves.place_current (Or.inl moves.monitors.place_current)
  case bounded => rw [he]; exact attended.bounded
  case covered =>
    intro side wanted
    rcases eq_or_ne side call.side with rfl | hne
    · rw [he, nothing]
      exact .zero
    · refine moves.covered attended he ?_ ?_ wanted
      · rintro lock he
        injection he with sameCondvar
        exact hne (waiterQueue_injective (by rw [sameCondvar]))
      · exact fun underWay => absurd underWay (not_underWay_testing here hne)

end

/-- The current thread goes on without touching the FIFO or a queue, and either keeps its
notification or has nothing to wait for.
-/
theorem Attended.move (orderly : state'.monitors.Orderly)
    (moves : state.Moves place .outside state') (he : state'.fifo = state.fifo)
    (notWaiting : ∀ call, place ≠ .waiting call)
    (keeps
      : ∀ side,
          state.UnderWay side state.current
          → state.fifo.available side = 0 ∨ state'.UnderWay side state.current)
    : state'.Attended parts := by
  constructor
  case orderly => exact orderly
  case linked =>
    apply moves.linked attended.linked
    apply Linked.of_outside _ moves.monitors.place_current
    rw [moves.place_current]
    exact notWaiting
  case bounded => rw [he]; exact attended.bounded
  case covered =>
    intro side wanted
    rcases Nat.eq_zero_or_pos (state.fifo.available side) with none | some
    · rw [he, none]
      exact .zero
    · refine moves.covered attended he (by simp) (fun underWay => ?_) wanted
      exact (keeps side underWay).resolve_left (by omega)

/-- The wait syscall: the thread was on its way into the queue, so its side was wanted. -/
theorem Attended.enqueue (here : state.place state.current = .waiting call)
    (hs : state.monitorStep fuel .wait (.waiting call) = .ok state')
    : state'.Attended parts := by
  obtain ⟨ran, he, placed⟩ := monitorStep_ok hs
  obtain ⟨condvar, lock, released, places, waited⟩ := Monitors.step_wait_ok ran
  obtain ⟨-, owners, ⟨passes, queues⟩, -, -⟩ :=
    attended.orderly.consistent.waitCurrentThread_effect waited
  have mine : condvar = parts.condvar call.side ∧ lock = parts.fifoLock := by
    have linked := attended.linked state.current
    simp only [Linked, here] at linked
    simpa [released] using linked
  obtain ⟨rfl, rfl⟩ := mine
  have samePlace : state'.place = state.place := by
    rw [placed, ← here, update_eq_self]
  have notUnderWay (side : ChannelSide) : ¬ state.UnderWay side state.current := by
    intro underWay
    cases underWay with
    | sent result place => simp [here] at place
    | taken entered place mine condvar lock inside => simp [released] at inside
    | woken entered place => simp [here] at place
  constructor
  case orderly => exact attended.orderly.step .wait trivial ran
  case linked =>
    intro thread
    rcases eq_or_ne thread state.current with rfl | hne
    · refine .of_waiting ((congrFun samePlace _).trans here) (Or.inr ?_)
      rw [places, update_self]
    · have before := attended.linked thread
      unfold Linked at before ⊢
      rw [samePlace, places, update_of_ne hne]
      exact before
  case bounded => rw [he]; exact attended.bounded
  case covered =>
    intro side wanted
    rw [he]
    have wantedBefore : state.Wanted parts side := by
      rcases eq_or_ne side call.side with rfl | otherSide
      · exact Or.inr ⟨_, _, released⟩
      · rcases wanted with hq | ⟨thread, lock, isReleased⟩
        · refine Or.inl fun empty => hq ?_
          rw [queues, update_of_ne, empty]
          exact fun he => otherSide (waiterQueue_injective he)
        · rw [places] at isReleased
          rcases eq_or_ne thread state.current with rfl | hne
          · simp at isReleased
          · rw [update_of_ne hne] at isReleased
            exact Or.inr ⟨thread, lock, isReleased⟩
    apply (attended.covered side wantedBefore).mono
    intro thread underWay
    have hne : thread ≠ state.current := by
      rintro rfl
      exact notUnderWay side underWay
    apply underWay.congr (congrFun samePlace thread)
    · rw [places, update_of_ne hne]
    · intro free
      rw [owners, update_of_ne (by simpa using hne), free]

/-- Whoever is in the queue of a side is a thread that waits there for a notification. -/
theorem Attended.exists_waiter {head : Suspendable}
    (hq : head ∈ state.monitors.kernel.waitQueue (parts.condvar side).waiterQueue)
    : ∃ waiter call condvar lock,
        head = .thread waiter ∧ state.place waiter = .waiting call ∧ call.side = side
        ∧ state.monitors.place waiter = .waiting condvar lock := by
  have owner := (attended.orderly.filed.owner _ head).mp hq
  cases head with
  | interrupt handler => simp [attended.orderly.filed.threads handler] at owner
  | thread waiter =>
      obtain ⟨condvar, lock, inside, isQueue⟩ := attended.orderly.placed waiter _ owner
      obtain ⟨call, place, rfl⟩ := (attended.linked waiter).of_inside inside
      exact ⟨waiter, call, _, lock, rfl, place, waiterQueue_injective isQueue, inside⟩

section

variable {notified : ChannelSide} (inTime : state.monitors.NobodyLate (parts.condvar notified))
  (ran
    : state.monitors.step fuel (.notifyOne (parts.condvar notified)) = .ok state'.monitors)
include inTime ran

/-- A notification in time either takes a waiter out of the queue, which then carries it, or
finds that nobody wants it.
-/
theorem Attended.gains (wanted : state'.Wanted parts notified)
    : state.Wanted parts notified
      ∧ ∃ waiter call,
          state.place waiter = .waiting call
          ∧ ¬ state.UnderWay notified waiter
          ∧ (state'.place waiter = state.place waiter → state'.UnderWay notified waiter) := by
  obtain ⟨insides, notifies⟩ := Monitors.step_notifyOne_ok ran
  obtain ⟨-, ⟨empty, unchanged⟩ | ⟨head, rest, hq, -, owners⟩⟩ :=
    attended.orderly.filed.notifyNext notifies
  · -- nobody wants the notification
    rw [Wanted, unchanged, insides] at wanted
    rcases wanted with found | ⟨thread, lock, released⟩
    · exact absurd empty found
    · exact absurd rfl (inTime empty thread _ lock released)
  · have hm : head ∈ state.monitors.kernel.waitQueue
        (parts.condvar notified).waiterQueue := by simp [hq]
    obtain ⟨waiter, call, condvar, lock, rfl, place, mine, inside⟩ := attended.exists_waiter hm
    have linked := (attended.orderly.filed.owner _ (.thread waiter)).mp hm
    refine ⟨Or.inl (by simp [hq]), waiter, call, place, fun underWay => ?_, fun he => ?_⟩
    · cases underWay with
      | sent result sends => simp [place] at sends
      | taken call waits mine condvar lock inside free => simp [linked] at free
      | woken call tests => simp [place] at tests
    · refine .taken call (he.trans place) mine condvar lock ?_ ?_
      · rw [insides, inside]
      · rw [owners, update_self]

omit inTime

/-- The other notifications stay under way. -/
theorem Attended.keeps {thread : ThreadId} (he : state'.place thread = state.place thread)
    (underWay : state.UnderWay side thread)
    : state'.UnderWay side thread := by
  obtain ⟨insides, notifies⟩ := Monitors.step_notifyOne_ok ran
  have releases := attended.orderly.filed.releases_notifyNext attended.orderly.consistent notifies
  refine underWay.congr he (congrFun insides thread) fun free => ?_
  rcases releases.owner (.thread thread) with same | ⟨-, left⟩
  · rw [same, free]
  · exact left

/-- A side that is not notified is wanted only if it was. -/
theorem Attended.wanted_of_ne (otherSide : side ≠ notified) (wanted : state'.Wanted parts side)
    : state.Wanted parts side := by
  obtain ⟨insides, notifies⟩ := Monitors.step_notifyOne_ok ran
  obtain ⟨-, noted⟩ := attended.orderly.filed.notifyNext notifies
  rcases wanted with found | ⟨thread, lock, released⟩
  · refine Or.inl fun empty => found ?_
    rcases noted with ⟨-, unchanged⟩ | ⟨head, rest, -, queues, -⟩
    · rw [unchanged, empty]
    · rw [queues, update_of_ne, empty]
      exact fun he => otherSide (waiterQueue_injective he)
  · rw [insides] at released
    exact Or.inr ⟨thread, lock, released⟩

end

/-- The notification of a thread's call goes over to the waiter it takes out. -/
theorem Attended.notify {notified : ChannelSide}
    (here : state.place state.current = .notifying notified result)
    (inTime : state.monitors.NobodyLate (parts.condvar notified))
    (hs
      : state.monitorStep fuel (.notifyOne (parts.condvar notified)) (.returning result)
        = .ok state')
    : state'.Attended parts := by
  obtain ⟨ran, he, placed⟩ := monitorStep_ok hs
  have insides := (Monitors.step_notifyOne_ok ran).1
  have outside := (attended.linked state.current).outside (by simp [here])
  have placeOf {thread : ThreadId} (hne : thread ≠ state.current)
      : state'.place thread = state.place thread := by
    rw [placed, update_of_ne hne]
  constructor
  case orderly => exact attended.orderly.step (.notifyOne _) inTime ran
  case linked =>
    intro thread
    rcases eq_or_ne thread state.current with rfl | hne
    · exact .of_outside (by simp [placed]) (by rw [insides, outside])
    · have before := attended.linked thread
      unfold Linked at before ⊢
      rw [placeOf hne, insides]
      exact before
  case bounded => rw [he]; exact attended.bounded
  case covered =>
    intro side wanted
    rw [he]
    rcases eq_or_ne side notified with rfl | otherSide
    · obtain ⟨wanted, waiter, call, place, lacked, gains⟩ := attended.gains inTime ran wanted
      have notCurrent : waiter ≠ state.current := by
        rintro rfl
        simp [here] at place
      exact (attended.covered side wanted).pass (fun _ hne => attended.keeps ran (placeOf hne))
        lacked (gains (placeOf notCurrent))
    · apply (attended.covered side (attended.wanted_of_ne ran otherSide wanted)).mono
      intro thread underWay
      refine attended.keeps ran (placeOf ?_) underWay
      rintro rfl
      rcases underWay.place_cases with ⟨_, place⟩ | ⟨_, place, -⟩ | ⟨_, place, -⟩
      · rw [here] at place
        cases place
        exact otherSide rfl
      · simp [here] at place
      · simp [here] at place

/-- A handler moves an item and notifies the other side at once. -/
theorem Attended.handled (notified : ChannelSide)
    (inTime : state.monitors.NobodyLate (parts.condvar notified))
    (ran
      : state.monitors.step fuel (.notifyOne (parts.condvar notified)) = .ok state'.monitors)
    (placed : state'.place = state.place) (bounded : state'.fifo.used ≤ state'.fifo.capacity)
    (moved
      : ∀ side,
          state'.fifo.available side
          ≤ state.fifo.available side + if side = notified then 1 else 0)
    : state'.Attended parts := by
  have insides := (Monitors.step_notifyOne_ok ran).1
  have keeps (side : ChannelSide) (thread : ThreadId) (underWay : state.UnderWay side thread)
      : state'.UnderWay side thread :=
    attended.keeps ran (congrFun placed thread) underWay
  constructor
  case orderly => exact attended.orderly.step (.notifyOne _) inTime ran
  case linked =>
    intro thread
    have before := attended.linked thread
    unfold Linked at before ⊢
    rw [placed, insides]
    exact before
  case bounded => exact bounded
  case covered =>
    intro side wanted
    refine AtLeast.fewer ?_ (moved side)
    split
    next he =>
      subst he
      obtain ⟨wanted, waiter, call, place, lacked, gains⟩ := attended.gains inTime ran wanted
      exact (attended.covered side wanted).gain (keeps side) lacked (gains (congrFun placed waiter))
    next otherSide =>
      exact (attended.covered side (attended.wanted_of_ne ran otherSide wanted)).mono (keeps side)

end

end Scars.Channel

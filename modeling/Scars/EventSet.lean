/-! The event masks of a thread and the bits the kernel reserves in them.
Each definition is one atomic access, or one decision taken on loaded values.
-/

namespace Scars

/-- A mask of events, one bit per event. -/
abbrev Events := BitVec 32

namespace Events

/-- `EXECUTOR_WAKEUP_EVENT`, the lowest reserved bit; the user's events are below it. -/
def EXECUTOR_WAKEUP_EVENT : Events := 1#32 <<< 28

def SCHEDULER_WAKEUP_EVENT : Events := 1#32 <<< 29

def SCHEDULER_NOTIFY_EVENT : Events := 1#32 <<< 30

/-- `REQUIRE_ALL_EVENTS`, a flag of a request that is never sent. -/
def REQUIRE_ALL_EVENTS : Events := 1#32 <<< 31

/-- Whether a requested mask asks for all its events. -/
def requireAll (events : Events) : Bool := events &&& REQUIRE_ALL_EVENTS != 0

/-- A mask without the `REQUIRE_ALL_EVENTS` flag. -/
def withoutFlag (events : Events) : Events := events &&& ~~~REQUIRE_ALL_EVENTS

end Events

structure EventSet where
  waitedEventsMask : Events := 0
  sentEventsMask : Events := 0
  deriving DecidableEq, Repr

namespace EventSet

def setWakeupEvent (self : EventSet) : EventSet :=
  { self with sentEventsMask := self.sentEventsMask ||| Events.SCHEDULER_WAKEUP_EVENT }

def setResumeEvent (self : EventSet) : EventSet :=
  { self with sentEventsMask := self.sentEventsMask ||| Events.SCHEDULER_NOTIFY_EVENT }

def setWaitedEvents (events : Events) (self : EventSet) : EventSet :=
  { self with waitedEventsMask := events }

/-- `read_and_clear_matching_sent_events`: the matching events, and the masks without them. -/
def readAndClearMatchingSentEvents (events : Events) (self : EventSet)
    : Events × EventSet :=
  (self.sentEventsMask &&& events,
    { self with sentEventsMask := self.sentEventsMask &&& ~~~events })

def clearWaitedEvents (self : EventSet) : EventSet :=
  { self with waitedEventsMask := 0 }

def willNotBlock (requireAll : Bool) (sentEvents events : Events) : Bool :=
  (!requireAll && sentEvents &&& events != 0) || sentEvents &&& events == events

def shouldNotify (requireAll : Bool) (receivedEvents receivingEvents : Events) : Bool :=
  (!requireAll && receivedEvents != 0)
    || (receivedEvents != 0 && receivedEvents == receivingEvents)

/-- The first half of `send_events`: the `fetch_or`, and the sent events it returns. -/
def sendFetchOr (events : Events) (self : EventSet) : Events × EventSet :=
  let sentEvents := self.sentEventsMask ||| events.withoutFlag
  (sentEvents, { self with sentEventsMask := sentEvents })

/-- The second half of `send_events`: load the waited mask and decide whether to notify. -/
def sendCheck (sentEvents : Events) (self : EventSet) : Bool :=
  let receivingEvents := self.waitedEventsMask.withoutFlag
  shouldNotify self.waitedEventsMask.requireAll (receivingEvents &&& sentEvents)
    receivingEvents

/-- `EventSet::send_events` with nothing in between. -/
def sendEvents (events : Events) (self : EventSet) : Bool × EventSet :=
  let (sentEvents, self) := self.sendFetchOr events
  (self.sendCheck sentEvents, self)

end EventSet

end Scars

import Scars.Kernel.QueueRuns
import Scars.Kernel.EventAgreement
import Scars.Kernel.ThresholdRuns
import Scars.Kernel.LockReleases
import Scars.Kernel.RoundRobin
import Scars.Kernel.LockCeiling
import Scars.Kernel.WorkConservation
import Scars.Kernel.Suspension
import Scars.Kernel.CeilingNesting
import Scars.Sync.GuardRuns
import Scars.Sync.RingBuffer
import Scars.Sync.ChannelRuns
import Scars.Sync.DeliveryRuns
import Scars.Sync.RendezvousRuns
import Scars.Sync.InterruptLock
import Scars.Cell.BorrowRuns
import Scars.Cell.OnceCell
import Scars.Task.SlotRuns
import Scars.Task.Pool
import Scars.Task.JoinRuns
import Scars.Task.NotifyingRuns
import Scars.Preemption.Coalescing
import Scars.Preemption.NothingParked
import Scars.Preemption.SleepOrderRuns
import Scars.Preemption.NotificationRuns
import Scars.Preemption.TimeoutRuns
import Scars.Preemption.EventWakeupRuns
import Scars.Task.BlockOnRuns
import Scars.Arch.NestedInterrupts
import Scars.Arch.ContextRuns
import Scars.LocalStorage
import Scars.Duration
import Scars.Kernel.ListRuns
import Scars.Hal.AlarmClock

import Scars.Kernel.DueSleepers
import Scars.Kernel.Dormancy
import Scars.Kernel.PriorityOrder

/-! Lock holders are separated by their base priorities.
Of two threads that hold locks, one has a base priority above every lock of the other; the running
thread is that one against all others. A thread that becomes current keeps this up if its priority
is above the lock ceiling.
-/

namespace Scars.Kernel

open Runs OrderedInsert Function PriorityStatus ThreadExecutionState

/-- A thread holds a ceiling lock, as the owner of a scoped lock or inside a section. -/
def Holds (kernel : Kernel) (thread : ThreadId) (ceiling : Priority) : Prop :=
  (∃ lock,
    (kernel.lock lock).owner = some thread ∧ (kernel.lock lock).ceilingPriority = ceiling)
  ∨ ∃ opened ∈ (kernel.thread thread).sections, opened.ceiling = ceiling

/-- The rank of the base priority. -/
def baseRank (kernel : Kernel) (thread : ThreadId) : Nat :=
  (kernel.thread thread).basePriority.rank

/-- The base priority of a thread is above all locks that others hold. -/
def Outranks (kernel : Kernel) (thread : ThreadId) : Prop :=
  ∀ other, other ≠ thread → kernel.lockKey other ≤ kernel.baseRank thread

/-- Who may hold locks at the same time. -/
structure Separated (kernel : Kernel) : Prop where
  idle : kernel.lockKey IDLE_THREAD_ID = 0
  awake : ∀ thread, (kernel.state thread).Dormant → kernel.lockKey thread = 0
  pairs
    : ∀ left right,
        left ≠ right
        → kernel.lockKey right ≤ kernel.baseRank left
          ∨ kernel.lockKey left ≤ kernel.baseRank right
  current : kernel.currentThread = IDLE_THREAD_ID ∨ kernel.Outranks kernel.currentThread

variable {kernel kernel' : Kernel} {thread : ThreadId}

theorem start_separated (program : Program) : (Kernel.start program).Separated where
  idle := rfl
  awake _ _ := rfl
  pairs _ _ _ := Or.inl (Nat.zero_le _)
  current := Or.inl rfl

theorem rank_lockPriority (kernel : Kernel) (thread : ThreadId)
    : kernel.lockKey thread
      = max (kernel.thread thread).lockPriorities.1.rank
          (kernel.thread thread).lockPriorities.2.rank :=
  rank_max _ _

/-- The scoped locks of a thread are below its lock priority, by their order in its list. -/
theorem HoldsSoundly.ceilingKey_lt (sound : kernel.HoldsSoundly thread) {lock : LockId}
    (held : lock ∈ (kernel.thread thread).scopedLocks)
    : kernel.ceilingKey lock + 1 ≤ kernel.lockKey thread := by
  have owned := sound.owned
  have descending := sound.descending
  rw [rank_lockPriority, owned]
  cases locks : (kernel.thread thread).scopedLocks with
  | nil => simp [locks] at held
  | cons head rest =>
      rw [locks] at held descending
      have below := descending.le_head lock held
      simp only [ownedStatus, rank_valid, ceilingKey] at below ⊢
      omega

theorem LocksSound.rank_lt_lockKey (sound : kernel.LocksSound) {ceiling : Priority}
    (holds : kernel.Holds thread ceiling)
    : ceiling.rank + 1 ≤ kernel.lockKey thread := by
  rcases holds with ⟨lock, owner, rfl⟩ | ⟨opened, hm, rfl⟩
  · exact (sound thread).ceilingKey_lt (((sound thread).owner lock).mp owner)
  · have below := ((sound thread).nested.le opened hm).1
    rw [rank_lockPriority]
    omega

theorem LocksSound.baseRank_lt_lockKey (sound : kernel.LocksSound)
    (holds : 0 < kernel.lockKey thread)
    : kernel.baseRank thread + 1 ≤ kernel.lockKey thread := by
  have nested := (sound thread).nested
  have owned := (sound thread).owned
  cases sections : (kernel.thread thread).sections with
  | cons innermost rest =>
      have below := (nested.le innermost (by simp [sections])).2
      rw [rank_lockPriority]
      simp only [baseRank]
      omega
  | nil =>
      cases locks : (kernel.thread thread).scopedLocks with
      | cons head rest =>
          have hm : head ∈ (kernel.thread thread).scopedLocks := by simp [locks]
          have above := (sound thread).above head hm
          have below := (sound thread).ceilingKey_lt hm
          simp only [baseRank]
          omega
      | nil =>
          rw [sections] at nested
          rw [locks] at owned
          have noSection : (kernel.thread thread).lockPriorities.1 = .invalid := nested
          rw [rank_lockPriority, noSection, owned] at holds
          simp [ownedStatus] at holds

theorem rank_priority (kernel : Kernel) (thread : ThreadId)
    : (kernel.priority thread).rank + 1
      = max (kernel.baseRank thread + 1) (kernel.lockKey thread) :=
  Priority.rank_maxValid _ _

theorem readyKey_eq (kernel : Kernel) (thread : ThreadId)
    : kernel.readyKey thread = 2 * (kernel.priority thread).rank
        + if kernel.lockKey thread = 0 then 0 else 1 := by
  unfold readyKey lockKey
  cases kernel.lockPriority thread <;> rfl

/-- The first ready thread has a base priority above all locks of others, if its active priority is
above the lock ceiling. Witness: a blocked holder is below the ceiling; a ready one comes later; if
the head owes its priority to a lock, the separation decides.
-/
theorem Sound.outranks_head (sound : kernel.Sound) (separated : kernel.Separated)
    {head : ThreadId} {rest : List ThreadId} (hq : kernel.readyQueue = head :: rest)
    (above : kernel.ceilingRank ≤ (kernel.priority head).rank)
    : kernel.Outranks head := by
  intro other hne
  rcases Nat.eq_zero_or_pos (kernel.lockKey other) with none | holds
  · omega
  have base := sound.locks.baseRank_lt_lockKey holds
  have active := rank_priority kernel other
  have headActive := rank_priority kernel head
  have pair := separated.pairs head other hne.symm
  have filed := sound.consistent.filed other
  have notIdle : other ≠ IDLE_THREAD_ID := by
    rintro rfl
    exact absurd separated.idle (by omega)
  have headBase : kernel.lockKey head = 0
      ∨ kernel.baseRank head + 1 ≤ kernel.lockKey head :=
    (Nat.eq_zero_or_pos _).imp id sound.locks.baseRank_lt_lockKey
  have underCeiling
      (listed : other = kernel.currentThread ∨ other ∈ kernel.blockedList)
      : kernel.lockKey other ≤ kernel.baseRank head := by
    have below := sound.ordered.lockKey_le_ceiling listed
    omega
  cases state : kernel.state other with
  | created => exact absurd (separated.awake other (Or.inl state)) (by omega)
  | started => exact absurd (separated.awake other (Or.inr (Or.inl state))) (by omega)
  | suspended => exact absurd (separated.awake other (Or.inr (Or.inr state))) (by omega)
  | running => exact underCeiling (Or.inl ((sound.consistent.running other).mp state))
  | blocked => exact underCeiling (Or.inr (filed.blocked.mpr ⟨state, notIdle⟩))
  | ready =>
      have hm : other ∈ kernel.readyQueue := filed.ready.mpr ⟨state, notIdle⟩
      have ready := sound.ordered.ready
      rw [hq] at ready hm
      have later := ready.le_head other hm
      rw [readyKey_eq, readyKey_eq, if_neg (by omega)] at later
      split at later <;> omega

/-- A blocking thread hands over to the idle thread or to one that outranks all holders. -/
theorem Sound.handOver_outranks (sound : kernel.Sound) (separated : kernel.Separated)
    : kernel.handOver.2.currentThread = IDLE_THREAD_ID
      ∨ kernel.Outranks kernel.handOver.2.currentThread := by
  have handed : kernel.handOver.2.currentThread = kernel.takeNextAboveLocks.1 := rfl
  rw [handed]
  rcases kernel.takeNextAboveLocks_cases with ⟨head, rest, hq, above, taken⟩ | ⟨-, taken⟩
  · rw [taken]
    refine Or.inr (sound.outranks_head separated hq ?_)
    have default := rank_unwrapOrDefault kernel.locksPriorityCeiling
    rw [Priority.lt_iff] at above
    simp only [locksCeiling] at above
    simp only [ceilingRank]
    omega
  · rw [taken]
    exact Or.inl rfl

theorem Outranks.congr (outranks : kernel.Outranks thread)
    (threads : kernel'.thread = kernel.thread)
    : kernel'.Outranks thread := by
  intro other hne
  rw [lockKey_congr (congrFun threads other)]
  simpa only [baseRank, threads] using outranks other hne

theorem Separated.scheduling (separated : kernel.Separated)
    (scheduling : kernel.Scheduling kernel') (leaves : kernel.Leaves Dormant kernel')
    (current
      : kernel'.currentThread = kernel.currentThread
        ∨ kernel'.currentThread = IDLE_THREAD_ID ∨ kernel.Outranks kernel'.currentThread)
    : kernel'.Separated := by
  have locks (thread : ThreadId) : kernel'.lockKey thread = kernel.lockKey thread :=
    lockKey_congr (congrFun scheduling.thread thread)
  have bases (thread : ThreadId) : kernel'.baseRank thread = kernel.baseRank thread := by
    simp only [baseRank, scheduling.thread]
  constructor
  case idle => rw [locks]; exact separated.idle
  case awake =>
    intro thread dormant
    rw [locks]
    exact separated.awake thread (leaves thread dormant)
  case pairs =>
    intro left right hne
    rw [locks, locks, bases, bases]
    exact separated.pairs left right hne
  case current =>
    rcases current with he | isIdle | outranks
    · rw [he]
      exact separated.current.imp id fun outranks => outranks.congr scheduling.thread
    · exact Or.inl isIdle
    · exact Or.inr (outranks.congr scheduling.thread)

/-- A lock operation of a thread other than the idle one. Witness: the running thread
outranks all other holders whatever it holds itself.
-/
theorem Separated.updateCurrent (separated : kernel.Separated)
    (hc : kernel.Consistent) {raw : RawThread} (he : kernel.SameLists kernel')
    (threads : kernel'.thread = update kernel.thread kernel.currentThread raw)
    (base : raw.basePriority = (kernel.thread kernel.currentThread).basePriority)
    (notIdle : kernel.currentThread ≠ IDLE_THREAD_ID)
    : kernel'.Separated := by
  have outranks := separated.current.resolve_left notIdle
  have locks {thread : ThreadId} (hne : thread ≠ kernel.currentThread)
      : kernel'.lockKey thread = kernel.lockKey thread := by
    refine lockKey_congr ?_
    rw [threads, update_of_ne hne]
  have bases (thread : ThreadId) : kernel'.baseRank thread = kernel.baseRank thread := by
    simp only [baseRank, threads]
    rcases eq_or_ne thread kernel.currentThread with rfl | hne
    · rw [update_self, base]
    · rw [update_of_ne hne]
  constructor
  case idle => rw [locks notIdle.symm]; exact separated.idle
  case awake =>
    intro thread dormant
    have wasDormant : (kernel.state thread).Dormant := he.leaves thread dormant
    have hne : thread ≠ kernel.currentThread := by
      rintro rfl
      have runs := (hc.running kernel.currentThread).mpr rfl
      simp [Dormant, runs] at wasDormant
    rw [locks hne]
    exact separated.awake thread wasDormant
  case pairs =>
    intro left right hne
    rw [bases, bases]
    rcases eq_or_ne left kernel.currentThread with rfl | notLeft
    · rw [locks hne.symm]
      exact Or.inl (outranks right hne.symm)
    · rcases eq_or_ne right kernel.currentThread with rfl | notRight
      · rw [locks hne]
        exact Or.inr (outranks left hne)
      · rw [locks notLeft, locks notRight]
        exact separated.pairs left right hne
  case current =>
    refine Or.inr ?_
    rw [he.current]
    intro other hne
    rw [bases, locks hne]
    exact outranks other hne

end Scars.Kernel

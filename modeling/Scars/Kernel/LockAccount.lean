import Scars.Kernel.State

/-! What a context keeps about the ceilings it holds, for threads and handlers alike.
The scoped locks are a list sorted by ceiling, released in any order; the sections a stack in which
each one saves the nesting priority it found.
-/

namespace Scars

open OrderedInsert PriorityStatus

/-- The lock operations of a context: scoped locks and `CeilingLock::with` sections. -/
inductive LockOp where
  | lock (lock : LockId)
  | unlock (lock : LockId)
  | enter (ceiling : Priority)
  | leave
  deriving DecidableEq, Repr

/-- The scoped locks acquired and not released, and the ceilings of the sections entered and
not left, by the history of operations alone.
-/
structure Held where
  locks : List LockId := []
  sections : List Priority := []
  deriving DecidableEq, Repr

namespace Held

def after (held : Held) : LockOp → Held
  | .lock lock => { held with locks := lock :: held.locks }
  | .unlock lock => { held with locks := held.locks.erase lock }
  | .enter ceiling => { held with sections := ceiling :: held.sections }
  | .leave => { held with sections := held.sections.tail }

def ceilings (ceilingOf : LockId → Priority) (held : Held) : List Priority :=
  held.locks.map ceilingOf ++ held.sections

end Held

namespace Priority

/-- The maximum of a base priority and some ceilings. -/
def highest (base : Priority) (ceilings : List Priority) : Priority := ceilings.foldl max base

variable {ceilings : List Priority}

theorem rank_highest_le {base : Priority} {bound : Nat}
    : (highest base ceilings).rank ≤ bound
      ↔ base.rank ≤ bound ∧ ∀ ceiling ∈ ceilings, ceiling.rank ≤ bound := by
  unfold highest
  induction ceilings generalizing base with
  | nil => simp
  | cons ceiling rest ih =>
      rw [List.foldl_cons, ih, rank_max, Nat.max_le]
      simp [and_assoc]

theorem eq_highest {priority base : Priority}
    (bounds
      : ∀ bound,
          priority.rank ≤ bound
          ↔ base.rank ≤ bound ∧ ∀ ceiling ∈ ceilings, ceiling.rank ≤ bound)
    : priority = highest base ceilings := by
  apply rank_injective
  apply Nat.le_antisymm
  · exact (bounds _).mpr (rank_highest_le.mp (Nat.le_refl _))
  · exact rank_highest_le.mpr ((bounds _).mp (Nat.le_refl _))

end Priority

/-- The fields of a thread or an interrupt handler that its lock operations work on. -/
structure LockAccount where
  base : Priority
  /-- The nesting priority outside of all sections. -/
  initial : PriorityStatus
  lockPriorities : PriorityStatus × PriorityStatus
  locks : List LockId
  sections : List CeilingSection
  deriving DecidableEq, Repr

namespace LockAccount

variable {ceilingOf : LockId → Priority} {account : LockAccount} {held : Held}

def lockPriority (account : LockAccount) : PriorityStatus :=
  account.lockPriorities.1.max account.lockPriorities.2

def priority (account : LockAccount) : Priority := account.base.maxValid account.lockPriority

/-- The ceiling of the first lock of a list. -/
def ownedStatus (ceilingOf : LockId → Priority) : List LockId → PriorityStatus
  | [] => .invalid
  | head :: _ => .valid (ceilingOf head)

/-- The account with other scoped locks. -/
def withLocks (ceilingOf : LockId → Priority) (locks : List LockId) (account : LockAccount)
    : LockAccount :=
  { account with
    locks := locks
    lockPriorities := (account.lockPriorities.1, ownedStatus ceilingOf locks) }

/-- The account after a lock operation. -/
def after (ceilingOf : LockId → Priority) (account : LockAccount) : LockOp → LockAccount
  | .lock lock =>
      account.withLocks ceilingOf
        (insertPast (fun held => decide (ceilingOf lock < ceilingOf held)) lock account.locks)
  | .unlock lock => account.withLocks ceilingOf (account.locks.erase lock)
  | .enter ceiling =>
      { account with
        sections :=
          { ceiling := ceiling, savedPriority := account.lockPriorities.1 } :: account.sections
        lockPriorities :=
          (account.lockPriorities.1.max (.valid (ceiling.max account.base)),
            account.lockPriorities.2) }
  | .leave =>
      match account.sections with
      | [] => account
      | innermost :: rest =>
          { account with
            sections := rest
            lockPriorities := (innermost.savedPriority, account.lockPriorities.2) }

/-- The nesting priority inside these sections, innermost first: each one raised the priority
it saved to its own ceiling and at least to the base priority.
-/
def Nested (base : Priority) (initial : PriorityStatus)
    : List CeilingSection → PriorityStatus → Prop
  | [], status => status = initial
  | innermost :: rest, status =>
      Nested base initial rest innermost.savedPriority
      ∧ status = innermost.savedPriority.max (.valid (innermost.ceiling.max base))

/-- The lock priorities agree with the locks and sections. -/
structure Sound (ceilingOf : LockId → Priority) (account : LockAccount) : Prop where
  initial : account.initial = .invalid ∨ account.initial = .valid account.base
  nested : Nested account.base account.initial account.sections account.lockPriorities.1
  owned : account.lockPriorities.2 = ownedStatus ceilingOf account.locks
  descending : Descending (fun lock => (ceilingOf lock).rank) account.locks
  unrepeated : account.locks.Nodup

/-- An account records what its history says is held. -/
structure Records (account : LockAccount) (held : Held) : Prop where
  locks : account.locks.Perm held.locks
  sections : account.sections.map CeilingSection.ceiling = held.sections

/-- An operation may be applied: a lock is not taken twice, and only an open section is left. -/
def Applies (account : LockAccount) : LockOp → Prop
  | .lock lock => lock ∉ account.locks
  | .leave => account.sections ≠ []
  | _ => True

theorem after_base (op : LockOp) : (account.after ceilingOf op).base = account.base := by
  cases op with
  | leave => unfold after; dsimp only; split <;> rfl
  | _ => rfl

theorem after_initial (op : LockOp)
    : (account.after ceilingOf op).initial = account.initial := by
  cases op with
  | leave => unfold after; dsimp only; split <;> rfl
  | _ => rfl

theorem Sound.after (sound : account.Sound ceilingOf) {op : LockOp} (applies : account.Applies op)
    : (account.after ceilingOf op).Sound ceilingOf := by
  cases op with
  | lock lock =>
      refine ⟨sound.initial, sound.nested, rfl, ?_, nodup_insertPast applies sound.unrepeated⟩
      refine sound.descending.insertPast ?_ ?_
      · intro other passes
        exact Nat.le_of_lt (Priority.lt_iff.mp (of_decide_eq_true passes))
      · intro other stops
        exact Nat.le_of_not_lt (mt Priority.lt_iff.mpr (of_decide_eq_false stops))
  | unlock lock =>
      exact ⟨sound.initial, sound.nested, rfl, sound.descending.sublist List.erase_sublist,
        sound.unrepeated.erase lock⟩
  | enter ceiling =>
      exact ⟨sound.initial, ⟨sound.nested, rfl⟩, sound.owned, sound.descending,
        sound.unrepeated⟩
  | leave =>
      have nested := sound.nested
      cases opened : account.sections with
      | nil => exact absurd opened applies
      | cons innermost rest =>
          rw [opened] at nested
          simp only [LockAccount.after, opened]
          exact ⟨sound.initial, nested.1, sound.owned, sound.descending, sound.unrepeated⟩

theorem Records.after (records : account.Records held) (op : LockOp)
    : (account.after ceilingOf op).Records (held.after op) := by
  cases op with
  | lock lock =>
      exact ⟨(insertPast_perm _ _ _).trans (records.locks.cons lock), records.sections⟩
  | unlock lock => exact ⟨records.locks.erase lock, records.sections⟩
  | enter ceiling => exact ⟨records.locks, congrArg (ceiling :: ·) records.sections⟩
  | leave =>
      have sections := records.sections
      cases opened : account.sections with
      | nil =>
          rw [opened] at sections
          simp only [LockAccount.after, opened]
          refine ⟨records.locks, ?_⟩
          simp [Held.after, opened, ← sections]
      | cons innermost rest =>
          rw [opened] at sections
          simp only [LockAccount.after, opened]
          refine ⟨records.locks, ?_⟩
          simp [Held.after, ← sections]

theorem Sound.after_unlock_of_free (sound : account.Sound ceilingOf) {lock : LockId}
    (free : lock ∉ account.locks)
    : account.after ceilingOf (.unlock lock) = account := by
  simp only [LockAccount.after, withLocks, List.erase_of_not_mem free, ← sound.owned]

/-- A bound on the base priority and on all sections bounds the nesting priority. Witness:
induction on the sections.
-/
theorem Nested.rank_le_iff {base : Priority} {initial status : PriorityStatus}
    {sections : List CeilingSection} {bound : Nat} (nested : Nested base initial sections status)
    (above : base.rank ≤ bound) (initially : initial.rank ≤ base.rank + 1)
    : status.rank ≤ bound + 1 ↔ ∀ opened ∈ sections, opened.ceiling.rank ≤ bound := by
  induction sections generalizing status with
  | nil =>
      rw [show status = initial from nested]
      simp only [List.not_mem_nil, false_imp_iff, implies_true, iff_true]
      omega
  | cons innermost rest ih =>
      obtain ⟨saved, rfl⟩ := nested
      have raised
          : max innermost.ceiling.rank base.rank + 1 ≤ bound + 1
            ↔ innermost.ceiling.rank ≤ bound := by
        omega
      rw [rank_max, rank_valid, Priority.rank_max, Nat.max_le,
        ih saved, List.forall_mem_cons, raised, and_comm]

theorem rank_ownedStatus_le_iff {locks : List LockId} (bound : Nat)
    (descending : Descending (fun lock => (ceilingOf lock).rank) locks)
    : (ownedStatus ceilingOf locks).rank ≤ bound + 1
      ↔ ∀ lock ∈ locks, (ceilingOf lock).rank ≤ bound := by
  cases locks with
  | nil => simp [ownedStatus]
  | cons head rest =>
      rw [ownedStatus, rank_valid, Nat.add_le_add_iff_right]
      constructor
      · intro first lock hm
        exact Nat.le_trans (descending.le_head lock hm) first
      · exact fun all => all head (by simp)

theorem Sound.priority_eq (sound : account.Sound ceilingOf) (records : account.Records held)
    : account.priority = .highest account.base (held.ceilings ceilingOf) := by
  apply Priority.eq_highest
  intro bound
  have initially : account.initial.rank ≤ account.base.rank + 1 := by
    rcases sound.initial with none | base
    · simp [none]
    · simp [base]
  have active : account.priority.rank + 1
      = max (account.base.rank + 1)
          (max account.lockPriorities.1.rank account.lockPriorities.2.rank) := by
    rw [← rank_max]
    exact Priority.rank_maxValid account.base account.lockPriority
  have owned := rank_ownedStatus_le_iff bound sound.descending
  rw [← sound.owned] at owned
  have ceilings
      : (∀ ceiling ∈ held.ceilings ceilingOf, ceiling.rank ≤ bound)
        ↔ (∀ lock ∈ account.locks, (ceilingOf lock).rank ≤ bound)
          ∧ ∀ opened ∈ account.sections, opened.ceiling.rank ≤ bound := by
    simp only [Held.ceilings, ← records.sections, List.forall_mem_append, List.forall_mem_map,
      records.locks.mem_iff]
  rw [ceilings, ← owned]
  constructor
  · intro below
    have above : account.base.rank ≤ bound := by omega
    refine ⟨above, by omega, (sound.nested.rank_le_iff above initially).mp ?_⟩
    omega
  · rintro ⟨above, locks, sections⟩
    have nesting := (sound.nested.rank_le_iff above initially).mpr sections
    omega

theorem Sound.released (sound : account.Sound ceilingOf) (records : account.Records {})
    : account.lockPriorities = (account.initial, .invalid) := by
  have locks : account.locks = [] := records.locks.eq_nil
  have sections : account.sections = [] := List.map_eq_nil_iff.mp records.sections
  have nested := sound.nested
  have owned := sound.owned
  rw [sections] at nested
  rw [locks] at owned
  exact Prod.ext nested owned

end LockAccount

end Scars

import Scars.Cell.BorrowFlag

/-! The borrow flag tells exactly which guards are alive, in every run of every cell type.
The tried borrows answer by it, except that `RefCell::try_borrow` tests the wrong sign.
-/

namespace Scars.Borrowing

open Runs

variable {isizeMax : Nat} {kind : CellKind} {cell cell' : Borrowing} {answer : Bool}
  {attempt : Int → Except BorrowPanic (Option Int)} {guard : BorrowKind}
  {take : Int → Except BorrowPanic Int} {flag : Int} {refuses : Int → Bool} {result : Option Int}

/-- Either one mutable guard is alive alone, or the flag counts the shared ones. -/
inductive Tracks (cell : Borrowing) : Prop where
  | mutably (flag : cell.flag = -1) (guards : cell.guards = [.exclusive])
  | shared (none : .exclusive ∉ cell.guards) (count : cell.flag = cell.guards.length)

/-- What an operation can do to a cell and its guards. -/
inductive Changes (cell : Borrowing) : BorrowOp → Bool → Borrowing → Prop where
  | refused {op} : Changes cell op false cell
  | shares {op} (unique : 0 ≤ cell.flag)
    : Changes cell op true (cell.withGuard .shared (cell.flag + 1))
  | excludes {op} (free : cell.flag = 0)
    : Changes cell op true (cell.withGuard .exclusive (-1))
  | drops {index flag} (dropped : BorrowRef.drop cell.flag = .ok flag)
    : Changes cell (.dropGuard index) true ⟨flag, cell.guards.eraseIdx index⟩

theorem newImmutable_ok {flag flag' : Int}
    (taken : BorrowRef.newImmutable isizeMax flag = .ok flag')
    : 0 ≤ flag ∧ flag' = flag + 1 := by
  unfold BorrowRef.newImmutable at taken
  split at taken
  · cases taken
  next unique =>
    split at taken
    · cases taken
    · exact ⟨Int.not_lt.mp unique, (Except.ok.inj taken).symm⟩

theorem newMutable_ok {flag flag' : Int} (taken : BorrowRef.newMutable flag = .ok flag')
    : flag = 0 ∧ flag' = -1 := by
  unfold BorrowRef.newMutable at taken
  split at taken
  · cases taken
  next free => exact ⟨not_ne_iff.mp free, (Except.ok.inj taken).symm⟩

theorem tryWith_ok (tried : tryWith refuses take flag = .ok result)
    : (refuses flag = true ∧ result = none)
      ∨ refuses flag = false ∧ ∃ flag', take flag = .ok flag' ∧ result = some flag' := by
  unfold tryWith at tried
  split at tried
  next refused => exact Or.inl ⟨refused, (Except.ok.inj tried).symm⟩
  next accepted =>
    obtain ⟨flag', taken, rfl⟩ := map_ok.mp tried
    exact Or.inr ⟨eq_false_of_ne_true accepted, flag', taken, rfl⟩

theorem borrow_eq (kind : CellKind)
    : (kind.type isizeMax).borrow = BorrowRef.newImmutable isizeMax := by
  cases kind <;> rfl

theorem borrowMut_eq (kind : CellKind)
    : (kind.type isizeMax).borrowMut = BorrowRef.newMutable := by
  cases kind <;> rfl

theorem tryBorrowMut_eq (kind : CellKind)
    : (kind.type isizeMax).tryBorrowMut = tryWith (· != 0) BorrowRef.newMutable := by
  cases kind <;> rfl

theorem tryBorrow_eq {tryBorrow : Int → Except BorrowPanic (Option Int)}
    (offered : (kind.type isizeMax).tryBorrow = some tryBorrow)
    : (kind = .refCell
        ∧ tryBorrow = tryWith RefCell.isImmutablyBorrowed (BorrowRef.newImmutable isizeMax))
      ∨ (kind = .lockedRefCell
        ∧ tryBorrow
          = tryWith (fun flag => decide (flag < 0)) (BorrowRef.newImmutable isizeMax)) := by
  cases kind with
  | refCell => exact Or.inl ⟨rfl, (Option.some.inj offered).symm⟩
  | lockedRefCell => exact Or.inr ⟨rfl, (Option.some.inj offered).symm⟩
  | pinRefCell => cases offered
  | lockedPinRefCell => cases offered

theorem changes_of_newImmutable {op : BorrowOp}
    (taken : BorrowRef.newImmutable isizeMax cell.flag = .ok flag)
    : Changes cell op true (cell.withGuard .shared flag) := by
  obtain ⟨unique, rfl⟩ := newImmutable_ok taken
  exact .shares unique

theorem changes_of_newMutable {op : BorrowOp} (taken : BorrowRef.newMutable cell.flag = .ok flag)
    : Changes cell op true (cell.withGuard .exclusive flag) := by
  obtain ⟨free, rfl⟩ := newMutable_ok taken
  exact .excludes free

/-- A tried borrow gives a guard, by the change that taking it makes, or leaves all as it is. -/
theorem changes_tried {op : BorrowOp} {flag : Option Int}
    (taken : ∀ flag', flag = some flag' → Changes cell op true (cell.withGuard guard flag'))
    (returned : cell.tried guard flag = (answer, cell'))
    : Changes cell op answer cell' := by
  cases flag with
  | none =>
      cases returned
      exact .refused
  | some flag' =>
      cases returned
      exact taken flag' rfl

theorem changes_tryBorrow (offered : (kind.type isizeMax).tryBorrow = some attempt)
    (tried : attempt cell.flag = .ok result) (flag : Int) (given : result = some flag)
    : Changes cell .tryBorrow true (cell.withGuard .shared flag) := by
  obtain ⟨refuses, rfl⟩ : ∃ refuses,
      attempt = tryWith refuses (BorrowRef.newImmutable isizeMax) := by
    rcases tryBorrow_eq offered with ⟨-, he⟩ | ⟨-, he⟩
    · exact ⟨_, he⟩
    · exact ⟨_, he⟩
  rcases tryWith_ok tried with ⟨-, rfl⟩ | ⟨-, flag', taken, rfl⟩
  · cases given
  · exact changes_of_newImmutable (Option.some.inj given ▸ taken)

theorem changes_perform {op : BorrowOp} (hp : cell.perform isizeMax kind op = .ok (answer, cell'))
    : Changes cell op answer cell' := by
  cases op with
  | borrow =>
      obtain ⟨flag, taken, returned⟩ := bind_ok.mp hp
      cases returned
      exact changes_of_newImmutable (borrow_eq kind ▸ taken)
  | tryBorrow =>
      simp only [perform] at hp
      split at hp
      next attempt offered =>
        obtain ⟨result, tried, returned⟩ := bind_ok.mp hp
        exact changes_tried (changes_tryBorrow offered tried) (Except.ok.inj returned)
      · cases hp
        exact .refused
  | borrowMut =>
      obtain ⟨flag, taken, returned⟩ := bind_ok.mp hp
      cases returned
      exact changes_of_newMutable (borrowMut_eq kind ▸ taken)
  | tryBorrowMut =>
      obtain ⟨result, tried, returned⟩ := bind_ok.mp hp
      rw [tryBorrowMut_eq] at tried
      refine changes_tried (fun flag given => ?_) (Except.ok.inj returned)
      rcases tryWith_ok tried with ⟨-, rfl⟩ | ⟨-, flag', taken, rfl⟩
      · cases given
      · exact changes_of_newMutable (Option.some.inj given ▸ taken)
  | cloneGuard index =>
      obtain ⟨flag, taken, returned⟩ := bind_ok.mp hp
      cases returned
      exact changes_of_newImmutable taken
  | dropGuard index =>
      obtain ⟨flag, dropped, returned⟩ := bind_ok.mp hp
      cases returned
      exact .drops dropped

section

variable (tracks : cell.Tracks)
include tracks

/-- Every allowed operation keeps the flag exact. Witness: cases on the change; a drop finds the
kind of its guard by the sign, because a mutable guard is alone.
-/
theorem Tracks.step {op : BorrowOp} (ha : cell.Allows isizeMax kind op)
    (hp : cell.perform isizeMax kind op = .ok (answer, cell'))
    : cell'.Tracks := by
  cases changes_perform hp with
  | refused => exact tracks
  | shares unique =>
      cases tracks with
      | mutably flag guards => omega
      | shared none count =>
          exact .shared (by simp [withGuard, none]) (by simp [withGuard, count])
  | excludes free =>
      cases tracks with
      | mutably flag guards => omega
      | shared none count =>
          have nobody : cell.guards = [] := List.length_eq_zero_iff.mp (by omega)
          exact .mutably rfl (by simp [withGuard, nobody])
  | @drops index flag dropped =>
      have alive : index < cell.guards.length := ha
      unfold BorrowRef.drop at dropped
      cases tracks with
      | mutably minus guards =>
          rw [if_pos (by omega)] at dropped
          cases dropped
          have only : index = 0 := by simpa [guards] using alive
          exact .shared (by simp [guards, only]) (by simp [guards, only])
      | shared none count =>
          rw [if_neg (by omega), if_pos (by omega)] at dropped
          cases dropped
          refine .shared (fun hm => none (List.mem_of_mem_eraseIdx hm)) ?_
          simp only [List.length_eraseIdx_of_lt alive, count]
          omega

theorem Tracks.exclusive_iff
    : .exclusive ∈ cell.guards ↔ cell.flag < 0 := by
  cases tracks with
  | mutably flag guards => simp [flag, guards]
  | shared none count => simp [none, count]

theorem Tracks.shared_iff : .shared ∈ cell.guards ↔ 0 < cell.flag := by
  cases tracks with
  | mutably flag guards => simp [flag, guards]
  | shared none count =>
      rw [count, Int.natCast_pos, List.length_pos_iff_exists_mem]
      constructor
      · exact fun hm => ⟨_, hm⟩
      · rintro ⟨guard, hm⟩
        cases guard with
        | shared => exact hm
        | exclusive => exact absurd hm none

theorem Tracks.free_iff : cell.guards = [] ↔ cell.flag = 0 := by
  cases tracks with
  | mutably flag guards => simp [flag, guards]
  | shared none count => rw [count, Int.natCast_eq_zero, List.length_eq_zero_iff]

/-- The flag is -1 exactly while one mutable guard is alive, and the number of shared guards
otherwise.
-/
theorem Tracks.counts
    : (cell.flag = -1 ↔ cell.guards.count .exclusive = 1)
      ∧ (cell.flag ≠ -1 → cell.flag = cell.guards.count .shared) := by
  cases tracks with
  | mutably flag guards => simp [flag, guards]
  | shared none count =>
      have noExclusive : cell.guards.count .exclusive = 0 := List.count_eq_zero.mpr none
      have allShared : cell.guards.count .shared = cell.guards.length := by
        refine List.count_eq_length.mpr fun guard hm => ?_
        cases guard with
        | shared => rfl
        | exclusive => exact absurd hm none
      rw [noExclusive, allShared, count]
      exact ⟨by omega, fun _ => rfl⟩

end

/-- A tried borrow answers by the guards alone: a shared one fails exactly while a mutable guard is
alive, a mutable one while any guard is, and neither panics below the maximal number of guards.
-/
def AnswersExactly (isizeMax : Nat) (kind : CellKind) (cell : Borrowing) : BorrowOp → Prop
  | .tryBorrow =>
      ((∃ cell', cell.perform isizeMax kind .tryBorrow = .ok (false, cell'))
        ↔ .exclusive ∈ cell.guards)
      ∧ (cell.guards.length < isizeMax
        → ∃ result, cell.perform isizeMax kind .tryBorrow = .ok result)
  | .tryBorrowMut =>
      ((∃ cell', cell.perform isizeMax kind .tryBorrowMut = .ok (false, cell'))
        ↔ cell.guards ≠ [])
      ∧ (cell.guards.length < isizeMax
        → ∃ result, cell.perform isizeMax kind .tryBorrowMut = .ok result)
  | _ => True

/-- A tried borrow that its test refuses fails; another one panics or succeeds as the borrow
itself does.
-/
theorem tryWith_bind
    : ((tryWith refuses take cell.flag >>= fun flag => pure (cell.tried guard flag))
        : Except BorrowPanic (Bool × Borrowing))
      = if refuses cell.flag then .ok (false, cell)
        else (take cell.flag).map fun flag => (true, cell.withGuard guard flag) := by
  unfold tryWith
  split
  · rfl
  · cases take cell.flag with
    | error panic => rfl
    | ok flag => rfl

theorem fails_iff {refuses : Bool} {taken : Except BorrowPanic Int}
    : (∃ cell',
        (if refuses then .ok (false, cell)
          else taken.map fun flag => (true, cell.withGuard guard flag))
          = (.ok (false, cell') : Except BorrowPanic (Bool × Borrowing)))
      ↔ refuses = true := by
  constructor
  · rintro ⟨cell', failed⟩
    by_contra accepted
    rw [if_neg accepted] at failed
    obtain ⟨flag, -, he⟩ := map_ok.mp failed
    cases he
  · exact fun refused => ⟨cell, if_pos refused⟩

theorem perform_tryBorrowMut
    : cell.perform isizeMax kind .tryBorrowMut
      = if cell.flag != 0 then .ok (false, cell)
        else (BorrowRef.newMutable cell.flag).map fun flag =>
          (true, cell.withGuard .exclusive flag) := by
  simp only [perform, tryBorrowMut_eq]
  exact tryWith_bind

theorem perform_tryBorrow (offered : (kind.type isizeMax).tryBorrow = some attempt)
    : cell.perform isizeMax kind .tryBorrow
      = attempt cell.flag >>= fun flag => pure (cell.tried .shared flag) := by
  simp only [perform, offered]

theorem Tracks.tryBorrowMut_exact (tracks : cell.Tracks)
    : cell.AnswersExactly isizeMax kind .tryBorrowMut := by
  constructor
  · rw [perform_tryBorrowMut, fails_iff, bne_iff_ne, ne_eq, ne_eq, tracks.free_iff]
  · intro _
    rw [perform_tryBorrowMut]
    by_cases free : cell.flag = 0
    · refine ⟨(true, cell.withGuard .exclusive (-1)), ?_⟩
      simp [free, BorrowRef.newMutable, Except.map]
    · exact ⟨(false, cell), if_pos (bne_iff_ne.mpr free)⟩

theorem Tracks.newImmutable_eq (tracks : cell.Tracks) (unique : 0 ≤ cell.flag)
    (room : cell.guards.length < isizeMax)
    : BorrowRef.newImmutable isizeMax cell.flag = .ok (cell.flag + 1) := by
  cases tracks with
  | mutably flag guards => omega
  | shared none count =>
      unfold BorrowRef.newImmutable
      rw [if_neg (by omega), if_neg (by omega)]

theorem Tracks.tryBorrow_exact (tracks : cell.Tracks)
    (offered
      : (kind.type isizeMax).tryBorrow
        = some (tryWith (fun flag => decide (flag < 0)) (BorrowRef.newImmutable isizeMax)))
    : cell.AnswersExactly isizeMax kind .tryBorrow := by
  constructor
  · rw [perform_tryBorrow offered, tryWith_bind, fails_iff, decide_eq_true_iff,
      tracks.exclusive_iff]
  · intro room
    rw [perform_tryBorrow offered, tryWith_bind]
    by_cases mutably : cell.flag < 0
    · exact ⟨(false, cell), if_pos (decide_eq_true mutably)⟩
    · refine ⟨(true, cell.withGuard .shared (cell.flag + 1)), ?_⟩
      rw [if_neg (by simpa using mutably), tracks.newImmutable_eq (Int.not_lt.mp mutably) room]
      rfl

/-- `RefCell::try_borrow`, which no mutable guard can see, answers exactly while no shared guard
is alive. Witness: its test refuses exactly the cells with a shared guard.
-/
theorem Tracks.refCell_tryBorrow_iff (tracks : cell.Tracks) (unique : .exclusive ∉ cell.guards)
    : cell.AnswersExactly isizeMax .refCell .tryBorrow ↔ .shared ∉ cell.guards := by
  have offered : (CellKind.refCell.type isizeMax).tryBorrow
      = some (tryWith RefCell.isImmutablyBorrowed (BorrowRef.newImmutable isizeMax)) := rfl
  have fails : (∃ cell', cell.perform isizeMax .refCell .tryBorrow = .ok (false, cell'))
      ↔ .shared ∈ cell.guards := by
    rw [perform_tryBorrow offered, tryWith_bind, fails_iff, tracks.shared_iff]
    exact decide_eq_true_iff
  constructor
  · intro exactly shared
    exact unique (exactly.1.mp (fails.mpr shared))
  · intro free
    refine ⟨⟨fun failed => absurd (fails.mp failed) free, fun some => absurd some unique⟩, ?_⟩
    intro room
    have nonnegative : 0 ≤ cell.flag := Int.not_lt.mp (mt tracks.exclusive_iff.mpr unique)
    have unshared : RefCell.isImmutablyBorrowed cell.flag = false :=
      decide_eq_false (mt tracks.shared_iff.mpr free)
    refine ⟨(true, cell.withGuard .shared (cell.flag + 1)), ?_⟩
    rw [perform_tryBorrow offered, tryWith_bind, if_neg (by simp [unshared]),
      tracks.newImmutable_eq nonnegative room]
    rfl

/-- An operation of a run. -/
def step (isizeMax : Nat) (kind : CellKind) (cell : Borrowing) (op : BorrowOp)
    : Except BorrowPanic Borrowing :=
  (cell.perform isizeMax kind op).map (·.2)

theorem reaches_tracks (reached : Reaches (step isizeMax kind) (Allows isizeMax kind) {} cell)
    : cell.Tracks := by
  refine reached.invariant Tracks (.shared (by simp) rfl) ?_
  intro before op after tracks ha hs
  obtain ⟨⟨answer, cell'⟩, hp, rfl⟩ := map_ok.mp hs
  exact tracks.step ha hp

/-- In every run that the types allow, the flag is -1 exactly while one mutable guard is alive and
the number of shared guards otherwise. Every tried borrow answers exactly by the guards, unless it
is `RefCell::try_borrow` while a shared guard is alive.
-/
theorem borrow_tracking_exact_iff
    (reached : Reaches (step isizeMax kind) (Allows isizeMax kind) {} cell)
    : ((cell.flag = -1 ↔ cell.guards.count .exclusive = 1)
        ∧ (cell.flag ≠ -1 → cell.flag = cell.guards.count .shared))
      ∧ ∀ op,
          cell.Allows isizeMax kind op
          → (cell.AnswersExactly isizeMax kind op
            ↔ ¬ (kind = .refCell ∧ op = .tryBorrow ∧ .shared ∈ cell.guards)) := by
  have tracks := reaches_tracks reached
  refine ⟨tracks.counts, fun op ha => ?_⟩
  cases op with
  | tryBorrow =>
      obtain ⟨offers, unique⟩ := ha
      obtain ⟨attempt, offered⟩ := Option.isSome_iff_exists.mp offers
      rcases tryBorrow_eq offered with ⟨rfl, -⟩ | ⟨rfl, rfl⟩
      · simpa using tracks.refCell_tryBorrow_iff (unique rfl)
      · simpa using tracks.tryBorrow_exact offered
  | tryBorrowMut => simpa using tracks.tryBorrowMut_exact
  | borrow => simp [AnswersExactly]
  | borrowMut => simp [AnswersExactly]
  | cloneGuard index => simp [AnswersExactly]
  | dropGuard index => simp [AnswersExactly]

/-- Two shared guards of a `LockedRefCell`, one of them a clone that outlives the first: the
flag counts them, and a tried mutable borrow answers exactly.
-/
theorem borrow_tracking_exact_iff_clones
    : let ran := run (step 100 .lockedRefCell) {} [.borrow, .cloneGuard 0, .dropGuard 1]
      ran = .ok ⟨1, [.shared]⟩
      ∧ AnswersExactly 100 .lockedRefCell ⟨1, [.shared]⟩ .tryBorrowMut := by
  refine ⟨rfl, ?_⟩
  have borrows : Allows 100 .lockedRefCell {} .borrow := by simp [Allows, CellKind.type]
  have borrowed : step 100 .lockedRefCell {} .borrow = .ok ⟨1, [.shared]⟩ := rfl
  have clones : Allows 100 .lockedRefCell ⟨1, [.shared]⟩ (.cloneGuard 0) := by simp [Allows]
  have cloned : step 100 .lockedRefCell ⟨1, [.shared]⟩ (.cloneGuard 0)
      = .ok ⟨2, [.shared, .shared]⟩ := rfl
  have drops : Allows 100 .lockedRefCell ⟨2, [.shared, .shared]⟩ (.dropGuard 1) := by
    simp [Allows]
  have dropped : step 100 .lockedRefCell ⟨2, [.shared, .shared]⟩ (.dropGuard 1)
      = .ok ⟨1, [.shared]⟩ := rfl
  have tries : Allows 100 .lockedRefCell ⟨1, [.shared]⟩ .tryBorrowMut := by
    simp [Allows, CellKind.type]
  have reached := ((Reaches.here.step borrows borrowed).step clones cloned).step drops dropped
  exact ((borrow_tracking_exact_iff reached).2 .tryBorrowMut tries).mpr (by decide)

/-- A second shared borrow that is tried on a `RefCell` fails while only a shared guard is
alive.
-/
theorem refCell_tryBorrow_refused
    : run (step 100 .refCell) {} [.borrow] = .ok ⟨1, [.shared]⟩
      ∧ (⟨1, [.shared]⟩ : Borrowing).perform 100 .refCell .tryBorrow
        = .ok (false, ⟨1, [.shared]⟩) :=
  ⟨rfl, rfl⟩

end Scars.Borrowing

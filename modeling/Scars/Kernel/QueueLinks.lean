import Scars.Foundation.Outcome
import Scars.Kernel.QueueChain

/-! What the nodes of atomic queues link, in whatever order they are: nothing is linked, or found
by a pop, that was not pushed.
-/

namespace Scars

open Outcome (Meets)

variable {κ α : Type}

/-- Only items of one kind are linked behind another node. -/
def LinksOnly (kind : α → Prop) (memory : QueueMemory κ α) : Prop :=
  ∀ ptr item, (memory.node ptr).next = some item → kind item

variable {queue : κ} {memory memory' : QueueMemory κ α} {kind : α → Prop}

/-- A new queue links nothing. -/
theorem linksOnly_new : LinksOnly kind (QueueMemory.new : QueueMemory κ α) := by
  simp [LinksOnly, QueueMemory.new]

/-- What is linked is of every wider kind. -/
theorem LinksOnly.mono {wider : α → Prop} (links : LinksOnly kind memory)
    (implies : ∀ item, kind item → wider item)
    : LinksOnly wider memory :=
  fun ptr item linked => implies item (links ptr item linked)

variable [DecidableEq κ] [DecidableEq α] {fuel : Nat} {popped : Option α}

section

variable (links : LinksOnly kind memory)
include links

/-- Owner flags are no links. -/
theorem LinksOnly.storeOwned (ptr : NodePtr κ α) (owned : Bool)
    : LinksOnly kind (memory.storeOwned ptr owned) := by
  intro other item linked
  refine links other item ?_
  by_cases he : other = ptr
  · subst he
    simpa [QueueMemory.storeOwned] using linked
  · simpa [QueueMemory.storeOwned, he] using linked

/-- A stored link leads to an item of the kind. -/
theorem LinksOnly.storeNext (ptr : NodePtr κ α) {next : Option α}
    (fits : ∀ item, next = some item → kind item)
    : LinksOnly kind (memory.storeNext ptr next) := by
  intro other item linked
  by_cases he : other = ptr
  · subst he
    exact fits item (by simpa [QueueMemory.storeNext] using linked)
  · refine links other item ?_
    simpa [QueueMemory.storeNext, he] using linked

/-- The loop of `push_back` links the new item only, by induction on its rounds. -/
theorem LinksOnly.pushLoop {item : α} (fits : kind item)
    (pushed : QueueMemory.pushLoop queue item fuel memory = .ok memory')
    : LinksOnly kind memory' := by
  induction fuel generalizing memory with
  | zero => cases pushed
  | succ fuel ih =>
      unfold QueueMemory.pushLoop at pushed
      dsimp only at pushed
      split at pushed
      · cases pushed
        exact links.storeNext _ fun other (he : some item = some other) =>
          Option.some.inj he ▸ fits
      next next lagging =>
        have moved : LinksOnly kind (memory.storeTail queue (.item next)) := links
        exact ih moved pushed

/-- A push keeps the kind of what is linked, if the item is of it. -/
theorem LinksOnly.pushBack {item : α} (fits : kind item)
    (pushed : memory.pushBack fuel queue item = .ok memory')
    : LinksOnly kind memory' := by
  unfold QueueMemory.pushBack at pushed
  dsimp only at pushed
  split at pushed
  · cases pushed
  · have initialized : LinksOnly kind (memory.initOnce queue) := links
    have cut := (initialized.storeOwned (.item item) true).storeNext (.item item)
      fun other (he : none = some other) => nomatch he
    exact cut.pushLoop fits pushed

/-- The loop of `pop_front` finds an item of the kind, by induction on its rounds. -/
theorem LinksOnly.popLoop (taken : QueueMemory.popLoop queue fuel memory = .ok (popped, memory'))
    : LinksOnly kind memory' ∧ ∀ item, popped = some item → kind item := by
  induction fuel generalizing memory with
  | zero => cases taken
  | succ fuel ih =>
      unfold QueueMemory.popLoop at taken
      dsimp only at taken
      split at taken
      · split at taken
        · cases taken
          exact ⟨links, nofun⟩
        next next lagging =>
          have moved : LinksOnly kind (memory.storeTail queue (.item next)) := links
          exact ih moved taken
      · split at taken
        · exact ih links taken
        next next linked =>
          have fits : kind next := links _ next linked
          have moved : LinksOnly kind (memory.storeHead queue (.item next)) := links
          split at taken
          · cases taken
            refine ⟨moved.storeOwned _ false, ?_⟩
            rintro item ⟨⟩
            exact fits
          · cases taken

/-- A pop finds an item of the kind. -/
theorem LinksOnly.popFront (taken : memory.popFront fuel queue = .ok (popped, memory'))
    : LinksOnly kind memory' ∧ ∀ item, popped = some item → kind item := by
  have initialized : LinksOnly kind (memory.initOnce queue) := links
  exact initialized.popLoop taken

end

namespace QueueMemory

/-- Links are no owner flags. -/
theorem storeNext_isLinked (ptr : NodePtr κ α) (next : Option α) (item : α)
    : (memory.storeNext ptr next).isLinked item = memory.isLinked item := by
  by_cases he : .item item = ptr
  · subst he
    simp [storeNext, isLinked]
  · simp [storeNext, isLinked, he]

/-- The loop of `push_back` leaves the owner flags alone, by induction on its rounds. -/
theorem pushLoop_flags (item : α) (fuel : Nat) (memory : QueueMemory κ α)
    : Meets (fun memory' => ∀ other, memory'.isLinked other = memory.isLinked other)
        (· = .outOfFuel) (pushLoop queue item fuel memory) := by
  induction fuel generalizing memory with
  | zero => exact rfl
  | succ fuel ih =>
      unfold pushLoop
      dsimp only
      split
      · exact fun other => storeNext_isLinked _ _ other
      next next lagging => exact ih (memory.storeTail queue (.item next))

/-- A push of a free item takes its node and no other. -/
theorem pushBack_flags {item : α} (free : memory.isLinked item = false) (fuel : Nat) (queue : κ)
    : Meets (fun memory' => ∀ other, other ≠ item → memory'.isLinked other = memory.isLinked other)
        (· = .outOfFuel) (memory.pushBack fuel queue item) := by
  have free' : (memory.initOnce queue).isLinked item = false := free
  unfold pushBack
  dsimp only
  rw [free', if_neg Bool.false_ne_true]
  refine (pushLoop_flags item fuel _).mono fun memory' he other hne => ?_
  rw [he, storeNext_isLinked]
  simp [storeOwned, isLinked, initOnce, hne]

/-- The loop of `pop_front` takes no node, by induction on its rounds. -/
theorem popLoop_flags (fuel : Nat) (memory : QueueMemory κ α)
    : Meets (fun result => ∀ other, memory.isLinked other = false → result.2.isLinked other = false)
        (· ≠ .itemAlreadyInQueue) (popLoop queue fuel memory) := by
  induction fuel generalizing memory with
  | zero =>
      intro taken
      cases taken
  | succ fuel ih =>
      unfold popLoop
      dsimp only
      split
      · split
        · exact fun _ free => free
        next next lagging => exact ih (memory.storeTail queue (.item next))
      · split
        · exact ih memory
        next next linked =>
          split
          · intro other free
            by_cases he : other = next
            · simp [storeOwned, isLinked, he]
            · simpa [storeOwned, isLinked, he, storeHead] using free
          · intro taken
            cases taken

/-- A pop takes no node, and does not complain of one that is taken. -/
theorem popFront_flags (fuel : Nat) (queue : κ) (memory : QueueMemory κ α)
    : Meets (fun result => ∀ other, memory.isLinked other = false → result.2.isLinked other = false)
        (· ≠ .itemAlreadyInQueue) (memory.popFront fuel queue) :=
  popLoop_flags fuel (memory.initOnce queue)

end QueueMemory

end Scars

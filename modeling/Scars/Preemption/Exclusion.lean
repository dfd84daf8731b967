import Scars.Preemption.Instructions

/-! The preemption lock belongs to the one context that is inside a section.
The contexts form a stack, with the current thread at the bottom. At most one of them is inside
a section, the lock names it, and the scheduler is borrowed only while it says so.
-/

namespace Scars

open Memory

variable {memory memory' : Memory} {fuel : Nat} {now : Instant} {more rest : List Instr}
  {lock : Option ExecutionContext} {borrowed : Bool} {context : ExecutionContext}
  {stack : CodeStack} {below : CodeStack} {instr : Instr} {code : List Instr}

/-- Contexts with the code they have left, the executing one first. -/
abbrev CodeStack := List (ExecutionContext × List Instr)

/-- Nobody on the stack is inside a section, or only the holder of the lock is, and no context
above the holder shares its name.
-/
def Owned (lock : Option ExecutionContext) (borrowed : Bool) : CodeStack → Prop
  | [] => lock = none ∧ borrowed = false
  | (context, code) :: below =>
      (Balanced 0 false code ∧ lock ≠ some context ∧ Owned lock borrowed below)
      ∨ (lock = some context ∧ (∃ depth, Balanced (depth + 1) borrowed code)
        ∧ ∀ entry ∈ below, Balanced 0 false entry.2)

theorem Owned.free (held : Owned none borrowed stack)
    : borrowed = false ∧ ∀ entry ∈ stack, Balanced 0 false entry.2 := by
  induction stack with
  | nil => exact ⟨held.2, by simp⟩
  | cons entry below ih =>
      rcases held with ⟨balanced, -, held⟩ | ⟨taken, -⟩
      · refine ⟨(ih held).1, fun other hm => ?_⟩
        rcases List.mem_cons.mp hm with rfl | later
        · exact balanced
        · exact (ih held).2 other later
      · cases taken

theorem owned_of_free (balanced : ∀ entry ∈ stack, Balanced 0 false entry.2)
    : Owned none false stack := by
  induction stack with
  | nil => exact ⟨rfl, rfl⟩
  | cons entry below ih =>
      exact Or.inl ⟨balanced entry (by simp), by simp,
        ih fun other hm => balanced other (by simp [hm])⟩

theorem Owned.mem {holder : ExecutionContext} (held : Owned (some holder) borrowed stack)
    : ∃ code depth, (holder, code) ∈ stack ∧ Balanced (depth + 1) borrowed code := by
  induction stack with
  | nil => cases held.1
  | cons entry below ih =>
      rcases held with ⟨-, -, held⟩ | ⟨taken, ⟨depth, balanced⟩, -⟩
      · obtain ⟨code, depth, hm, balanced⟩ := ih held
        exact ⟨code, depth, by simp [hm], balanced⟩
      · cases taken
        exact ⟨entry.2, depth, by simp, balanced⟩

theorem Owned.inside (held : Owned lock borrowed stack) {entry : ExecutionContext × List Instr}
    (hm : entry ∈ stack) (inside : 0 < sectionDepth entry.2)
    : lock = some entry.1 := by
  induction stack with
  | nil => cases hm
  | cons top below ih =>
      rcases held with ⟨balanced, -, held⟩ | ⟨taken, -, outside⟩
      · rcases List.mem_cons.mp hm with rfl | later
        · rw [balanced.sectionDepth_eq] at inside
          omega
        · exact ih held later
      · rcases List.mem_cons.mp hm with rfl | later
        · exact taken
        · rw [(outside entry later).sectionDepth_eq] at inside
          omega

theorem Owned.push (held : Owned lock borrowed stack) (balanced : Balanced 0 false code)
    (other : lock ≠ some context)
    : Owned lock borrowed ((context, code) :: stack) :=
  Or.inl ⟨balanced, other, held⟩

theorem Owned.pop (held : Owned lock borrowed ((context, []) :: stack))
    : Owned lock borrowed stack := by
  rcases held with ⟨-, -, held⟩ | ⟨-, ⟨depth, balanced⟩, -⟩
  · exact held
  · cases balanced.1

/-- Code that keeps the balance of the executing context, at any depth. -/
theorem Owned.replace {code code' : List Instr}
    (held : Owned lock borrowed ((context, code) :: below))
    (balanced : ∀ depth borrowed, Balanced depth borrowed code → Balanced depth borrowed code')
    : Owned lock borrowed ((context, code') :: below) := by
  rcases held with ⟨outside, other, held⟩ | ⟨taken, ⟨depth, inside⟩, outside⟩
  · exact Or.inl ⟨balanced _ _ outside, other, held⟩
  · exact Or.inr ⟨taken, ⟨depth, balanced _ _ inside⟩, outside⟩

theorem Owned.holder (held : Owned lock borrowed ((context, code) :: below))
    (inside : 0 < sectionDepth code)
    : lock = some context ∧ (∃ depth, Balanced (depth + 1) borrowed code)
      ∧ ∀ entry ∈ below, Balanced 0 false entry.2 := by
  rcases held with ⟨balanced, -, -⟩ | holds
  · rw [balanced.sectionDepth_eq] at inside
    omega
  · exact holds

theorem Owned.neutral (held : Owned lock borrowed ((context, instr :: rest) :: below))
    (neutral : instr.isNeutral = true)
    (goesOn
      : ∀ next ∈ more, next.isNeutral = true ∧ (next.isExit = true → instr.isExit = true))
    : Owned lock borrowed ((context, more ++ rest) :: below) := by
  refine held.replace fun depth borrowed balanced => ?_
  obtain ⟨exits, rfl, after⟩ := (balanced_neutral neutral).mp balanced
  refine after.append fun next hm => ?_
  obtain ⟨isNeutral, isExit⟩ := goesOn next hm
  exact ⟨isNeutral, fun exit => exits (isExit exit)⟩

theorem Owned.plain (held : Owned lock borrowed ((context, instr :: rest) :: below))
    (neutral : instr.isNeutral = true) (plain : ∀ next ∈ more, next.isPlain = true)
    : Owned lock borrowed ((context, more ++ rest) :: below) := by
  refine held.neutral neutral fun next hm => ?_
  have isPlain := plain next hm
  simp only [Instr.isPlain, Bool.and_eq_true, Bool.not_eq_true'] at isPlain
  exact ⟨isPlain.1.1, fun exit => absurd exit (ne_true_of_eq_false isPlain.1.2)⟩

/-- An acquired section: the context found the lock free, or it is inside a section already. -/
theorem Owned.acquire {body : Section} {previous : Option ExecutionContext}
    (held : Owned lock borrowed ((context, .tryWith body :: rest) :: below))
    (thread : context.isInterrupt = false → below = [])
    (acquired : tryAcquireNestingLock lock context = some previous)
    : Owned (some context) borrowed
        ((context, body.code ++ [.release ⟨context.isInterrupt, previous⟩] ++ rest) :: below) := by
  rcases held with ⟨balanced, other, held⟩ | ⟨rfl, ⟨depth, balanced⟩, outside⟩
  · -- nobody else can be inside a section
    have free : previous = none ∧ lock = none := by
      cases context with
      | thread current =>
          rw [thread rfl] at held
          obtain ⟨rfl, -⟩ := held
          cases acquired
          exact ⟨rfl, rfl⟩
      | interrupt handler =>
          unfold tryAcquireNestingLock at acquired
          dsimp only at acquired
          split at acquired
          next available =>
            cases acquired
            have none := available.resolve_right other
            exact ⟨none, none⟩
          · cases acquired
    obtain ⟨rfl, rfl⟩ := free
    obtain ⟨rfl, outside⟩ := held.free
    exact Or.inr ⟨rfl, ⟨0, balanced.2.2.append_section (by simp)⟩, outside⟩
  · -- the lock is the context's own
    have own : previous = some context := by
      cases context <;> simpa [tryAcquireNestingLock] using acquired.symm
    obtain ⟨-, rfl, balanced⟩ := balanced
    refine Or.inr ⟨rfl, ⟨depth + 1, balanced.append_section ?_⟩, outside⟩
    simp [own]

/-- An instruction leaves at most one context inside a section, with the lock and the borrow to
match. Witness: by cases on the instruction; those of a section are executed by the holder.
-/
theorem Owned.perform
    (held : Owned memory.preemptLock memory.borrowed ((context, instr :: rest) :: below))
    (thread : context.isInterrupt = false → below = [])
    (hp : instr.perform fuel now context memory = .ok (memory', more))
    : Owned memory'.preemptLock memory'.borrowed ((context, more ++ rest) :: below) := by
  cases instr with
  | user => cases hp
  | access access =>
      obtain ⟨he, -, -, plain⟩ := access.perform_ok hp
      rw [he.preemptLock, he.borrowed]
      exact held.plain rfl fun next hm => (plain next hm).1
  | tryWith body =>
      rcases Section.perform_ok hp with ⟨previous, acquired, rfl, rfl⟩ | ⟨-, refused, rfl⟩
      · exact held.acquire thread acquired
      · obtain ⟨he, -⟩ := Section.refuse_ok refused
        rw [he.preemptLock, he.borrowed]
        exact held.plain rfl (by simp)
  | borrowMut =>
      unfold Instr.perform at hp
      dsimp only at hp
      split at hp
      · cases hp
      · cases hp
        rcases held with ⟨⟨inside, -⟩, -⟩ | ⟨taken, ⟨depth, -, -, balanced⟩, outside⟩
        · cases inside
        · exact Or.inr ⟨taken, ⟨depth, balanced⟩, outside⟩
  | locked op =>
      obtain ⟨he, -, steps, -⟩ := op.perform_ok hp
      rw [he.preemptLock, he.borrowed]
      refine held.replace fun depth borrowed balanced => ?_
      refine balanced.2.append_locked balanced.1 fun next hm => ?_
      obtain ⟨step, -, rfl⟩ := steps next hm
      exact ⟨step, rfl⟩
  | drain queue =>
      obtain ⟨popped, pending, -, rfl, rfl⟩ := drain_ok hp
      refine held.replace fun depth borrowed balanced => ?_
      obtain ⟨inside, rfl, balanced⟩ := balanced
      cases popped with
      | none => exact balanced
      | some suspendable => exact ⟨inside, inside, rfl, balanced⟩
  | dropBorrow =>
      cases hp
      rcases held with ⟨⟨inside, -⟩, -⟩ | ⟨taken, ⟨depth, -, -, balanced⟩, outside⟩
      · cases inside
      · exact Or.inr ⟨taken, ⟨depth, balanced⟩, outside⟩
  | release restoreState =>
      cases hp
      rcases held with
        ⟨⟨inside, -⟩, -⟩ | ⟨taken, ⟨depth, -, notBorrowed, outermost, balanced⟩, outside⟩
      · cases inside
      · unfold releaseNestingLock
        split
        next first =>
          have single : depth = 0 := by
            have := outermost.mp first
            omega
          subst single
          refine Or.inr ⟨taken, ⟨0, ?_⟩, outside⟩
          rw [notBorrowed]
          exact ⟨by omega, rfl, by omega, rfl, by omega, rfl, by omega, rfl, rfl, rfl, balanced⟩
        next inner =>
          refine Or.inr ⟨taken, ⟨depth - 1, ?_⟩, outside⟩
          have nested : depth ≠ 0 := fun zero => inner (outermost.mpr (by omega))
          rw [notBorrowed, show depth - 1 + 1 = depth + 1 - 1 by omega]
          exact balanced
  | unlock isInterrupt =>
      cases hp
      rcases held with ⟨⟨inside, -⟩, -⟩ | ⟨taken, ⟨depth, -, notBorrowed, balanced⟩, outside⟩
      · cases inside
      · dsimp only
        rw [notBorrowed]
        apply owned_of_free
        intro entry hm
        rcases List.mem_cons.mp hm with rfl | below
        · cases isInterrupt with
          | true => exact balanced
          | false => exact ⟨nofun, rfl, balanced⟩
        · exact outside entry below
  | checkPending =>
      cases hp
      refine held.plain rfl ?_
      split
      · exact List.forall_mem_singleton.mpr rfl
      · simp
  | yieldPending => cases hp; exact held.plain rfl (by simp)
  | syscall call => cases hp; exact held.plain rfl (by simp)
  | endWait queue => cases hp; exact held.plain rfl (by simp)
  | pollExecutor handler =>
      obtain ⟨rfl, rfl⟩ := setRaw_ok hp
      exact held.plain rfl (List.forall_mem_singleton.mpr rfl)
  | pollPending =>
      obtain ⟨polls, rfl, rfl | ⟨handler, rfl⟩⟩ := pollPending_ok hp
      · exact held.plain rfl (by simp)
      · refine held.neutral rfl fun next hm => ?_
        simp only [List.mem_cons, List.not_mem_nil, or_false] at hm
        rcases hm with rfl | rfl <;> exact ⟨rfl, fun _ => rfl⟩
  | swapPending =>
      cases hp
      refine held.neutral rfl fun next hm => ?_
      simp only [List.mem_ite_nil_left, List.mem_singleton] at hm
      rw [hm.2]
      exact ⟨rfl, nofun⟩
  | checkPolls =>
      cases hp
      refine held.neutral rfl fun next hm => ?_
      unfold checkPolls interruptExit at hm
      simp only [List.mem_ite_nil_left, List.mem_cons, List.not_mem_nil, or_false] at hm
      rcases hm.2 with rfl | rfl | rfl <;> exact ⟨rfl, fun _ => rfl⟩

end Scars

import Mathlib.Data.List.Basic

/-! The exchange that a rendezvous performs, without its locks.
One party offers an argument and waits for the result; the other asks for an argument,
computes and answers. In each round the two values pass through two one-place slots.
-/

namespace Exchange

variable {A R : Type} {consuming : List (A × (A → R))} {accepting : List (A → R)}
  {entering : List A}

/-- What the calling party is doing. -/
inductive CallStage (A R : Type) where
  | idle
  | offering (arg : A)
  | waiting
  | returning (result : R)

/-- What the answering party is doing. -/
inductive AnswerStage (A R : Type) where
  | idle
  | asking (closure : A → R)
  | computing (closure : A → R) (arg : A)
  | answering (result : R)

/-- The closures of the answering party that no argument was given to yet. -/
def AnswerStage.pending : AnswerStage A R → List (A → R)
  | asking closure => [closure]
  | _ => []

/-- The answering party is between two rounds. -/
def AnswerStage.Between : AnswerStage A R → Prop
  | idle => True
  | asking _ => True
  | computing _ _ => False
  | answering _ => False

/-- The slots, the two parties, and the history of the exchange. -/
structure State (A R : Type) where
  arg : Option A
  result : Option R
  call : CallStage A R
  answer : AnswerStage A R
  entered : List A
  accepted : List (A → R)
  consumed : List (A × (A → R))
  returned : List R

def start : State A R := ⟨none, none, .idle, .idle, [], [], [], []⟩

inductive Steps (state : State A R) : State A R → Prop
  | calls {arg} (here : state.call = .idle)
    : Steps state { state with call := .offering arg, entered := state.entered ++ [arg] }
  | offers {arg} (here : state.call = .offering arg)
    : Steps state { state with call := .waiting, arg := some arg }
  | takes {result} (here : state.call = .waiting) (found : state.result = some result)
    : Steps state { state with call := .returning result, result := none }
  | returns {result} (here : state.call = .returning result)
    : Steps state { state with call := .idle, returned := state.returned ++ [result] }
  | accepts {closure} (here : state.answer = .idle)
    : Steps state { state with
        answer := .asking closure, accepted := state.accepted ++ [closure] }
  | consumes {closure arg} (here : state.answer = .asking closure) (found : state.arg = some arg)
    : Steps state { state with
        answer := .computing closure arg, arg := none
        consumed := state.consumed ++ [(arg, closure)] }
  | computes {closure arg} (here : state.answer = .computing closure arg)
    : Steps state { state with answer := .answering (closure arg) }
  | answers {result} (here : state.answer = .answering result)
    : Steps state { state with answer := .idle, result := some result }

/-- How the slots and the stages of the parties go together, and which argument, closures and
pairing belong to the round in progress.
-/
inductive Phase
    : CallStage A R → AnswerStage A R → Option A → Option R
      → List A → List (A → R) → List (A × (A → R)) → Prop
  | idle {answer} (between : answer.Between) : Phase .idle answer none none [] answer.pending []
  | offering {answer arg} (between : answer.Between)
    : Phase (.offering arg) answer none none [arg] answer.pending []
  | offered {answer arg} (between : answer.Between)
    : Phase .waiting answer (some arg) none [arg] answer.pending []
  | computing {closure arg}
    : Phase .waiting (.computing closure arg) none none [arg] [closure] [(arg, closure)]
  | answering {closure arg}
    : Phase .waiting (.answering (closure arg)) none none [arg] [closure] [(arg, closure)]
  | answered {answer closure arg} (between : answer.Between)
    : Phase .waiting answer none (some (closure arg)) [arg] (closure :: answer.pending)
        [(arg, closure)]
  | returning {answer closure arg} (between : answer.Between)
    : Phase (.returning (closure arg)) answer none none [arg] (closure :: answer.pending)
        [(arg, closure)]

/-- The history is made of complete rounds and of the round in progress. -/
def Paired (state : State A R) : Prop :=
  ∃ (rounds : List (A × (A → R))) (entering : List A) (accepting : List (A → R))
      (consuming : List (A × (A → R))),
    Phase state.call state.answer state.arg state.result entering accepting consuming
    ∧ state.entered = rounds.map Prod.fst ++ entering
    ∧ state.accepted = rounds.map Prod.snd ++ accepting
    ∧ state.consumed = rounds ++ consuming
    ∧ state.returned = rounds.map fun round => round.2 round.1

theorem paired_start : Paired (start : State A R) :=
  ⟨[], [], [], [], .idle trivial, rfl, rfl, rfl, rfl⟩

theorem Phase.accepts {call : CallStage A R} {arg : Option A} {result : Option R}
    (phase : Phase call .idle arg result entering accepting consuming) (closure : A → R)
    : Phase call (.asking closure) arg result entering (accepting ++ [closure]) consuming := by
  have asked : (AnswerStage.asking closure).Between := trivial
  cases phase with
  | idle => exact .idle asked
  | offering => exact .offering asked
  | offered => exact .offered asked
  | answered => exact .answered asked
  | returning => exact .returning asked

/-- One step keeps the pairing. Witness: each step belongs to one or two phases and leads to
the next; a return completes the round.
-/
theorem Paired.step {state next : State A R} (paired : Paired state) (hs : Steps state next)
    : Paired next := by
  obtain ⟨arg, result, call, answer, entered, accepted, consumed, returned⟩ := state
  obtain ⟨rounds, entering, accepting, consuming, phase, hentered, haccepted, hconsumed,
    hreturned⟩ := paired
  dsimp only at phase hentered haccepted hconsumed hreturned
  cases hs with
  | @calls value here =>
      cases here
      cases phase with
      | idle between =>
          exact ⟨rounds, [value], _, [], .offering between, by simp [hentered], haccepted,
            hconsumed, hreturned⟩
  | offers here =>
      cases here
      cases phase with
      | offering between =>
          exact ⟨rounds, _, _, _, .offered between, hentered, haccepted, hconsumed, hreturned⟩
  | takes here found =>
      cases here
      cases found
      cases phase with
      | answered between =>
          exact ⟨rounds, _, _, _, .returning between, hentered, haccepted, hconsumed, hreturned⟩
  | returns here =>
      cases here
      cases phase with
      | @returning _ closure value between =>
          exact ⟨rounds ++ [(value, closure)], [], _, [], .idle between, by simp [hentered],
            by simp [haccepted], by simp [hconsumed], by simp [hreturned]⟩
  | @accepts closure here =>
      cases here
      exact ⟨rounds, entering, accepting ++ [closure], consuming, phase.accepts closure, hentered,
        by simp [haccepted], hconsumed, hreturned⟩
  | consumes here found =>
      cases here
      cases found
      cases phase with
      | offered between =>
          exact ⟨rounds, _, _, _, .computing, hentered, haccepted, by simp [hconsumed], hreturned⟩
  | computes here =>
      cases here
      cases phase with
      | computing =>
          exact ⟨rounds, _, _, _, .answering, hentered, haccepted, hconsumed, hreturned⟩
      | idle between | offering between | offered between | answered between | returning between =>
          cases between
  | answers here =>
      cases here
      have idle : (AnswerStage.idle : AnswerStage A R).Between := trivial
      cases phase with
      | answering =>
          exact ⟨rounds, _, _, _, .answered idle, hentered, haccepted, hconsumed, hreturned⟩
      | idle between | offering between | offered between | answered between | returning between =>
          cases between

/-- The round in progress has at most one pair, made of its first argument and closure. -/
theorem Phase.consuming_isPrefix {call : CallStage A R} {answer : AnswerStage A R} {arg : Option A}
    {result : Option R} (phase : Phase call answer arg result entering accepting consuming)
    : consuming <+: entering.zip accepting := by
  cases phase <;> simp

theorem Phase.arg_of_offering {answer : AnswerStage A R} {arg : Option A} {result : Option R}
    {offered : A} (phase : Phase (.offering offered) answer arg result entering accepting consuming)
    : arg = none := by
  cases phase with
  | offering => rfl

theorem Phase.result_of_answering {call : CallStage A R} {arg : Option A} {result : Option R}
    {answered : R}
    (phase : Phase call (.answering answered) arg result entering accepting consuming)
    : result = none := by
  cases phase with
  | answering => rfl
  | idle between | offering between | offered between | answered between | returning between =>
      cases between

variable {state : State A R}

/-- Each argument is consumed with the closure of the same round. -/
theorem Paired.consumed_isPrefix (paired : Paired state)
    : state.consumed <+: state.entered.zip state.accepted := by
  obtain ⟨rounds, entering, accepting, consuming, phase, entered, accepted, consumed, _⟩ := paired
  rw [entered, accepted, consumed, List.zip_append (by simp), List.zip_map', List.map_id']
  exact (List.prefix_append_right_inj rounds).mpr phase.consuming_isPrefix

/-- Each result returned is that of a consumed argument under the closure it was given to. -/
theorem Paired.returned_isPrefix (paired : Paired state)
    : state.returned <+: state.consumed.map fun round => round.2 round.1 := by
  obtain ⟨rounds, _, _, consuming, _, _, _, consumed, returned⟩ := paired
  rw [returned, consumed, List.map_append]
  exact List.prefix_append _ _

theorem Paired.arg_of_offering (paired : Paired state) {arg : A} (here : state.call = .offering arg)
    : state.arg = none := by
  obtain ⟨_, _, _, _, phase, _⟩ := paired
  exact Phase.arg_of_offering (here ▸ phase)

theorem Paired.result_of_answering (paired : Paired state) {result : R}
    (here : state.answer = .answering result)
    : state.result = none := by
  obtain ⟨_, _, _, _, phase, _⟩ := paired
  exact Phase.result_of_answering (here ▸ phase)

end Exchange

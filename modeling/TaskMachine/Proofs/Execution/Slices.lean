/-
An execution that is cut into turns does what it would have done in one. A turn
ends after an instruction, with the whole state of the task on its stack, and the
next turn begins with that stack; what was charged for in one turn is not counted
in the next, but that decides only where the cuts are. So if an execution without
a limit comes to an end, turns with a limit come to the same end, with the same
stack and the same state of the host, and each cut is at a place that the
execution without a limit has passed.

The host is any that answers from a state of its own.
-/

import Mathlib.Logic.Relation
import TaskMachine.Execution.Solo
import TaskMachine.Proofs.Execution.Charges

namespace TaskMachine.Stack

variable {State : Type} {host : Host (StateM State)} {stack next last : Stack}
  {state middle final : State} {status : Status} {limit allowance fuel charged spent cost : Nat}

/-! ### Single instructions -/

/-- An instruction leads from one stack and state of the host to others, and the execution goes
on. -/
def Goes (host : Host (StateM State)) (here there : Stack × State) : Prop :=
  ∃ cost, here.1.step host here.2 = (.proceed there.1 cost, there.2)

theorem answer_bind {Answer Result : Type} (ask : StateM State Answer)
    (use : Answer → StateM State Result) (state : State) :
    (ask >>= use) state = use (ask state).1 (ask state).2 := rfl

/-- An execution that goes on after an instruction was charged for it, whatever the host. -/
theorem step_charged (goes : stack.step host state = (.proceed next cost, middle)) : 0 < cost := by
  have charge {stack : Stack} {charge : Nat} {state : State}
      (same : ((.proceed stack charge, state) : Progress × State) = (.proceed next cost, middle)) :
      charge = cost := (Progress.proceed.inj (congrArg Prod.fst same)).2
  have stopped {stack : Stack} {status : Status} {state : State}
      (same : ((.stop stack status, state) : Progress × State) = (.proceed next cost, middle)) :
      False := absurd (congrArg Prod.fst same) nofun
  rw [step] at goes
  cases acts : stack.act with
  | proceed after charged =>
    rw [acts] at goes
    exact charge goes ▸ act_charged acts
  | stop after status =>
    rw [acts] at goes
    exact (stopped goes).elim
  | spawn after function destination =>
    rw [acts] at goes
    exact charge goes ▸ Nat.one_pos
  | receive after destination =>
    rw [acts] at goes
    simp only [answer_bind] at goes
    cases message : (host.receive state).1 with
    | none =>
      rw [message] at goes
      exact (stopped goes).elim
    | some value =>
      rw [message] at goes
      exact charge goes ▸ Nat.one_pos
  | invoke after hook =>
    rw [acts] at goes
    exact charge goes ▸ Nat.one_pos

/-! ### Executions -/

/-- An execution that stops at an instruction stops there with any limit. -/
theorem advance_of_stop (stops : stack.step host state = (.stop next status, middle))
    (limit fuel charged : Nat) :
    stack.advance host limit (fuel + 1) charged state = (some (next, status), middle) := by
  rw [advance, answer_bind, stops]
  rfl

/-- An execution that goes on after an instruction is cut there if it has reached its limit. -/
theorem advance_of_proceed (goes : stack.step host state = (.proceed next cost, middle))
    (limit fuel charged : Nat) :
    stack.advance host limit (fuel + 1) charged state =
      if 0 < limit ∧ limit ≤ charged + cost then (some (next, .yielded), middle)
      else next.advance host limit fuel (charged + cost) middle := by
  rw [advance, answer_bind, goes]
  show (if 0 < limit ∧ limit ≤ charged + cost then
      pure (some (next, .yielded)) else next.advance host limit fuel (charged + cost) :
      StateM State (Option (Stack × Status))) middle = _
  split <;> rfl

/-- What one turn does of an execution that comes to an end without a limit: it comes to the same
end, or it is cut at a place on the way, and fewer instructions are left from there. -/
theorem advance_cut
    (exits : stack.advance host 0 fuel spent state = (some (last, status), final))
    (below : charged < limit) (enough : limit ≤ charged + allowance) :
    stack.advance host limit allowance charged state = (some (last, status), final) ∨
      ∃ next middle left spent, left < fuel ∧
        stack.advance host limit allowance charged state = (some (next, .yielded), middle) ∧
        Relation.ReflTransGen (Goes host) (stack, state) (next, middle) ∧
        next.advance host 0 left spent middle = (some (last, status), final) := by
  induction fuel generalizing stack state charged allowance spent with
  | zero => exact absurd (congrArg Prod.fst exits) nofun
  | succ fuel inductionHypothesis =>
    obtain ⟨allowance, rfl⟩ : ∃ more, allowance = more + 1 := ⟨allowance - 1, by omega⟩
    cases steps : stack.step host state with
    | mk progress middle =>
      cases progress with
      | stop next stopped =>
        rw [advance_of_stop steps] at exits
        exact Or.inl ((advance_of_stop steps limit allowance charged).trans exits)
      | proceed next cost =>
        rw [advance_of_proceed steps, if_neg (by simp)] at exits
        rw [advance_of_proceed steps]
        have positive := step_charged steps
        have onward : Relation.ReflTransGen (Goes host) (stack, state) (next, middle) :=
          .single ⟨cost, steps⟩
        by_cases reached : 0 < limit ∧ limit ≤ charged + cost
        · rw [if_pos reached]
          exact Or.inr ⟨next, middle, fuel, _, Nat.lt_succ_self fuel, rfl, onward, exits⟩
        · rw [if_neg reached]
          have unreached : charged + cost < limit := by omega
          have stillEnough : limit ≤ charged + cost + allowance := by omega
          rcases inductionHypothesis exits unreached stillEnough with
            ends | ⟨cut, paused, left, spent, fewer, yields, path, rest⟩
          · exact Or.inl ends
          · exact Or.inr ⟨cut, paused, left, spent, Nat.lt_succ_of_lt fewer, yields,
              onward.trans path, rest⟩

/-! ### Turns -/

/-- One turn after another, each of which begins with the stack that the one before has left. All
but the last one are cut, and `cuts` is what they leave. -/
inductive Turns (host : Host (StateM State)) (limit fuel : Nat) :
    Stack → State → List (Stack × State) → Stack → Status → State → Prop
  | last {stack last : Stack} {state final : State} {status : Status}
      (exits : stack.execute host limit fuel state = (some (last, status), final)) :
      Turns host limit fuel stack state [] last status final
  | cut {stack next last : Stack} {state middle final : State} {status : Status}
      {cuts : List (Stack × State)}
      (yields : stack.execute host limit fuel state = (some (next, .yielded), middle))
      (rest : Turns host limit fuel next middle cuts last status final) :
      Turns host limit fuel stack state ((next, middle) :: cuts) last status final

/-- The turns are fewer than the instructions, because each turn but the last one executes an
instruction at least. -/
theorem turns_of_advance (limited : 0 < limit) (patience : Nat)
    (exits : stack.advance host 0 fuel spent state = (some (last, status), final)) :
    ∃ cuts, Turns host limit patience stack state cuts last status final ∧
      ∀ cut ∈ cuts, Relation.ReflTransGen (Goes host) (stack, state) cut := by
  induction fuel using Nat.strongRecOn generalizing stack state spent with
  | _ fuel inductionHypothesis =>
    have turn : stack.execute host limit patience = stack.advance host limit limit 0 := by
      rw [execute, if_neg (Nat.ne_of_gt limited)]
    rcases advance_cut exits limited (Nat.le_of_eq (Nat.zero_add limit).symm) with
      ends | ⟨next, middle, left, spent, fewer, yields, path, rest⟩
    · refine ⟨[], .last ?_, fun cut member => absurd member List.not_mem_nil⟩
      rw [turn, ends]
    · obtain ⟨cuts, turns, passed⟩ := inductionHypothesis left fewer rest
      refine ⟨(next, middle) :: cuts, .cut ?_ turns, fun cut member => ?_⟩
      · rw [turn, yields]
      · rcases List.mem_cons.mp member with rfl | later
        · exact path
        · exact path.trans (passed cut later)

/-- Turns with a limit come to the end that the execution comes to without one: a number of them
are cut, each at a place that the execution without a limit passes, and then one ends with the
same status, the same stack and the same state of the host. -/
theorem turns_of_execute (limited : 0 < limit) (patience : Nat)
    (exits : stack.execute host 0 fuel state = (some (last, status), final)) :
    ∃ cuts, Turns host limit patience stack state cuts last status final ∧
      ∀ cut ∈ cuts, Relation.ReflTransGen (Goes host) (stack, state) cut := by
  rw [execute, if_pos rfl] at exits
  exact turns_of_advance limited patience exits

/-! ### A call that is cut -/

/-- A function that calls another with a message and returns what that one returns. -/
def relaying : Function :=
  { identity := 1
    constants := #[.function { identity := 0, constants := #[], code := #[.returning 0 1] }]
    code := #[.loadConstant 0 0, .receive 1, .call 0 1 1, .returning 0 1] }

/-- With the value that the function is to receive, and no other. -/
def relayed : Solo := { nextId := ⟨7⟩, inbox := [.bool true], events := [] }

/-- The call is charged two units and leaps over a limit of three, so the first turn is cut where
the function that is called begins. The last turn ends as the execution without a limit does. -/
theorem relaying_turns : ∃ cuts, cuts ≠ [] ∧
    Turns Solo.host 3 0 (.entering relaying) relayed cuts
      ⟨{ Frame.entering relaying [.bool true, .bool true] none with pc := 4 }, []⟩
      (.ended [.bool true]) { relayed with inbox := [] } := by
  obtain ⟨cuts, turns, _⟩ := turns_of_execute (by decide : 0 < 3) 0
    (rfl : (Stack.entering relaying).execute Solo.host 0 5 relayed =
      (some (⟨{ Frame.entering relaying [.bool true, .bool true] none with pc := 4 }, []⟩,
        .ended [.bool true]), { relayed with inbox := [] }))
  refine ⟨cuts, ?_, turns⟩
  rintro rfl
  cases turns with
  | last exits => exact absurd (congrArg (fun turn => turn.1.map Prod.snd) exits) nofun

end TaskMachine.Stack

/-
The shape of call stacks. No program counter leaves its function's code, though
it may stand at the end; the frame that a task began with lands nowhere; and of
two frames that lie on each other, the lower one has called the upper one. The
call is the instruction that it stands behind, it names the registers in which
the results land, and the first of these holds the function that is executed,
for nothing has touched the registers of the lower frame since.

No move of an instruction breaks that, faults and all, and no value that the
embedder stores in the frame on top.
-/

import TaskMachine.Proofs.Execution.Moves

namespace TaskMachine

/-- The one frame has called the other, and waits behind the call for it. -/
def Frame.HasCalled (caller callee : Frame) : Prop :=
  ∃ instruction : Instruction,
    0 < caller.pc ∧ caller.function.code[caller.pc - 1]? = some instruction ∧
      instruction.opcode? = some .call ∧ instruction.a < registerCount ∧
        callee.landing = some ⟨instruction.a, instruction.c⟩ ∧
          caller.registers[instruction.a]? = some (.function callee.function)

/-- Frames lie on each other as calls have put them there. -/
inductive Frame.Stacked : Frame → List Frame → Prop
  | entry {frame : Frame} (within : frame.pc ≤ frame.function.code.size)
      (unlanded : frame.landing = none) : Stacked frame []
  | called {frame caller : Frame} {callers : List Frame}
      (within : frame.pc ≤ frame.function.code.size) (calls : caller.HasCalled frame)
      (below : Stacked caller callers) : Stacked frame (caller :: callers)

namespace Stack

variable {stack next last : Stack}

/-- The stack is as calls make it. -/
def Formed (stack : Stack) : Prop := stack.top.Stacked stack.callers

/-- What can become of a stack: it begins with a function, and then it is executed, turn after turn,
each with a host and a limit of its own, however the last turn has ended; and the embedder stores
values in it. -/
inductive Reachable : Stack → Prop
  | entering (function : Function) : Reachable (.entering function)
  | execute {State : Type} {host : Host (StateM State)} {state final : State} {limit fuel : Nat}
      {stack next : Stack} {status : Status} (reachable : Reachable stack)
      (runs : stack.execute host limit fuel state = (some (next, status), final)) : Reachable next
  | write {register : Register} {value : Value} {stack next : Stack} (reachable : Reachable stack)
      (writes : stack.write? register value = some next) : Reachable next

theorem formed_entering (function : Function) : (entering function).Formed :=
  .entry (Nat.zero_le _) rfl

/-- A frame that goes on stays where it lies. -/
theorem stacked_continues {frame next : Frame} {callers : List Frame}
    (stacked : frame.Stacked callers) (continues : frame.Continues next) :
    next.Stacked callers := by
  have within (before : frame.pc ≤ frame.function.code.size) :
      next.pc ≤ next.function.code.size := by
    rw [continues.function]
    exact continues.within before
  cases stacked with
  | entry before unlanded => exact .entry (within before) (continues.landing.trans unlanded)
  | called before calls below =>
    obtain ⟨instruction, past, present, call, bound, landing, register⟩ := calls
    refine .called (within before) ⟨instruction, past, present, call, bound,
      continues.landing.trans landing, ?_⟩ below
    rw [continues.function]
    exact register

theorem Formed.moves (formed : stack.Formed) (moves : stack.Moves next) : next.Formed := by
  cases moves with
  | stays continues => exact stacked_continues formed continues
  | @calls instruction function arguments isAt callee length handed =>
    obtain ⟨bound, _⟩ := Vector.getElem?_eq_some_iff.mp callee
    have calls : stack.top.past.HasCalled
        (.entering function arguments (some ⟨instruction.a, instruction.c⟩)) :=
      ⟨instruction, Nat.succ_pos _, isAt.present, isAt.opcode, bound, rfl, callee⟩
    exact .called (Nat.zero_le _) calls
      (stacked_continues formed (Frame.continues_past isAt.present))
  | @returns instruction caller callers isAt called registers =>
    have stacked : stack.top.Stacked (caller :: callers) := called ▸ formed
    cases stacked with
    | called _ _ below =>
      -- Its registers do not count for a frame that has nothing above it.
      exact stacked_continues below ⟨rfl, rfl, id⟩

theorem Formed.reaches (formed : stack.Formed)
    (reaches : Relation.ReflTransGen Becomes stack last) : last.Formed := by
  induction reaches with
  | refl => exact formed
  | tail _ becomes inductionHypothesis => exact inductionHypothesis.moves becomes.moves

/-- To store a value in a register is to go on. -/
theorem Formed.write {register : Register} {value : Value} (formed : stack.Formed)
    (writes : stack.write? register value = some next) : next.Formed := by
  rw [write?] at writes
  split at writes
  · obtain rfl := Option.some.inj writes
    exact stacked_continues formed ((Frame.Continues.refl stack.top).store _ _)
  · exact absurd writes nofun

/-- Whatever becomes of a stack, it is as calls make it. -/
theorem Reachable.formed (reachable : stack.Reachable) : stack.Formed := by
  induction reachable with
  | entering function => exact formed_entering function
  | execute _ runs inductionHypothesis =>
    exact inductionHypothesis.reaches (reaches_of_execute runs)
  | write _ writes inductionHypothesis => exact inductionHypothesis.write writes

/-- A function that waits for a message. -/
def listening : Function := { identity := 0, constants := #[], code := #[.receive 2] }

/-- A function that calls it with what is in its last register. -/
def asking : Function :=
  { identity := 1
    constants := #[.function listening]
    code := #[.loadConstant 8 0, .call 8 1 3] }

/-- The function that was called waits for its message, and holds what the embedder gave it. -/
def called : Stack :=
  ⟨.entering listening [.nil, .bool true] (some ⟨8, 3⟩),
    [{ (Frame.entering asking [] none).store 8 (.function listening) with pc := 2 }]⟩

/-- The stack came about by a call, in a turn that ended in waiting, and a value that was stored
after it. -/
theorem called_formed : called.Formed ∧ called.callers ≠ [] := by
  have waits : (entering asking).execute Solo.host 0 3 ⟨⟨7⟩, [], []⟩ = (some
      (⟨.entering listening [] (some ⟨8, 3⟩), called.callers⟩, .suspended .message),
      ⟨⟨7⟩, [], []⟩) := rfl
  have writes : Stack.write? ⟨.entering listening [] (some ⟨8, 3⟩), called.callers⟩ ⟨1⟩
      (.bool true) = some called := rfl
  have reachable : called.Reachable := ((Reachable.entering asking).execute waits).write writes
  exact ⟨reachable.formed, nofun⟩

end Stack

end TaskMachine

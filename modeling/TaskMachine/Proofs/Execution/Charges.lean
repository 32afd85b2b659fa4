/-
Every instruction is charged for. So an execution with a limit stops within as
many instructions as the limit has units, and only one without a limit can be
left unfinished. What the host keeps in each of its answers is kept by a whole
execution.
-/

import TaskMachine.Execution.Run
import TaskMachine.Proofs.After

namespace TaskMachine

/-! ### Single instructions -/

/-- A call costs something, and a pause is for a while or for no longer than others take their
turns: to wait for a message is what a receive is for. -/
def Request.Regular : Request → Prop
  | .enter _ _ cost => 0 < cost
  | .pause _ status => status = .yielded ∨ ∃ after, status = .suspended (.timer after)
  | _ => True

namespace Frame

/-- What is asked for, if anything, is regular. -/
def Regular (outcome : Except Fault Request) : Prop :=
  ∀ request, outcome = .ok request → request.Regular

theorem regular_ok {request : Request} (regular : request.Regular) : Regular (.ok request) :=
  fun _ same => Except.ok.inj same ▸ regular

theorem regular_error (fault : Fault) : Regular (.error fault) := fun _ same => absurd same nofun

theorem regular_bind {Result : Type} {first : Except Fault Result}
    {next : Result → Except Fault Request} (each : ∀ result, Regular (next result)) :
    Regular (first >>= next) := by
  cases first with
  | error fault => exact regular_error fault
  | ok result => exact each result

theorem regular_proceed (outcome : Except Fault Frame) : Regular (outcome.map .proceed) := by
  cases outcome with
  | error fault => exact regular_error fault
  | ok frame => exact regular_ok trivial

theorem regular_branch (frame : Frame) (instruction : Instruction) (outcome : Except Fault Bool) :
    Regular (frame.branch instruction outcome).2 := by
  cases outcome with
  | error fault => exact regular_error fault
  | ok holds =>
    rw [branch]
    cases frame.jumpAhead? with
    | none => exact regular_error _
    | some offset =>
      simp only
      split
      · exact regular_proceed _
      · exact regular_ok trivial

theorem regular_arithmetic (frame : Frame) (instruction : Instruction)
    (operation : Float → Float → Float) : Regular (frame.arithmetic instruction operation) :=
  regular_bind fun _ => regular_bind fun _ => regular_bind fun _ => regular_ok trivial

theorem regular_yielding (frame : Frame) (instruction : Instruction) :
    Regular (frame.yielding instruction) := by
  rw [yielding]
  split
  · exact regular_ok (Or.inl rfl)
  · exact regular_bind fun _ => regular_ok (Or.inr ⟨_, rfl⟩)
  · exact regular_bind fun _ => regular_ok trivial
  · exact regular_error _

theorem regular_calling (frame : Frame) (instruction : Instruction) :
    Regular (frame.calling instruction) := by
  refine regular_bind fun _ => regular_bind fun _ => regular_bind fun _ => regular_ok ?_
  show 0 < if 0 < instruction.b then 2 else 1
  split <;> decide

theorem regular_perform (frame : Frame) (instruction : Instruction) (opcode : Opcode) :
    Regular (frame.perform instruction opcode).2 := by
  cases opcode with
  | ret => exact regular_ok trivial
  | yield => exact regular_yielding frame instruction
  | move => exact regular_bind fun _ => regular_bind fun _ => regular_ok trivial
  | loadConstant => exact regular_bind fun _ => regular_bind fun _ => regular_ok trivial
  | call => exact regular_calling frame instruction
  | spawn =>
    exact regular_bind fun _ => regular_bind fun _ => regular_bind fun _ => regular_ok trivial
  | add | subtract | multiply | divide => exact regular_arithmetic frame instruction _
  | not => exact regular_bind fun _ => regular_bind fun _ => regular_ok trivial
  | equal | less | lessEqual => exact regular_branch frame instruction _
  | jump => exact regular_proceed _
  | hook =>
    refine regular_bind fun value => ?_
    cases value.hook? with
    | none => exact regular_error _
    | some hook => exact regular_ok trivial
  | inspect =>
    exact regular_bind fun _ => regular_bind fun _ => regular_bind fun _ => regular_ok trivial

theorem regular_next (frame : Frame) : Regular frame.next.2 := by
  rw [next]
  split
  · exact regular_error _
  · simp only
    split
    · exact regular_error _
    · exact regular_perform _ _ _

end Frame

namespace Stack

/-- An execution that goes on is charged for it. -/
theorem act_charged {stack after : Stack} {cost : Nat} (acts : stack.act = .proceed after cost) :
    0 < cost := by
  have regular := stack.top.regular_next
  rw [act] at acts
  split at acts
  · exact absurd acts nofun
  · rename_i request asks
    rw [asks] at regular
    cases request with
    | proceed => obtain ⟨_, rfl⟩ := Action.proceed.inj acts; exact Nat.one_pos
    | enter frame callee cost' =>
      obtain ⟨_, rfl⟩ := Action.proceed.inj acts
      exact regular _ rfl
    | leave frame first count =>
      simp only [leave] at acts
      split at acts
      · split at acts <;> exact absurd acts nofun
      · split at acts
        · obtain ⟨_, rfl⟩ := Action.proceed.inj acts
          exact Nat.two_pos
        · split at acts
          · obtain ⟨_, rfl⟩ := Action.proceed.inj acts
            exact Nat.two_pos
          · exact absurd acts nofun
    | pause | spawn | receive | invoke => exact absurd acts nofun

/-- No instruction stops to wait for a message, but for one that has looked for it. -/
theorem act_stop {stack after : Stack} {status : Status} (acts : stack.act = .stop after status) :
    status ≠ .suspended .message := by
  have regular := stack.top.regular_next
  rw [act] at acts
  split at acts
  · obtain ⟨-, rfl⟩ := Action.stop.inj acts
    exact nofun
  · rename_i request asks
    rw [asks] at regular
    cases request with
    | pause frame paused =>
      obtain ⟨-, rfl⟩ := Action.stop.inj acts
      rcases regular _ rfl with rfl | ⟨_, rfl⟩ <;> exact nofun
    | leave frame first count =>
      simp only [leave] at acts
      split at acts
      · split at acts <;> (obtain ⟨-, rfl⟩ := Action.stop.inj acts; exact nofun)
      · split at acts
        · exact absurd acts nofun
        · split at acts
          · exact absurd acts nofun
          · obtain ⟨-, rfl⟩ := Action.stop.inj acts
            exact nofun
    | proceed | enter | spawn | receive | invoke => exact absurd acts nofun

/-! ### Whole executions -/

section

variable {Failure State : Type} {host : Host (EStateM Failure State)} {kept : State → Prop}
  {failure : Failure → State → Prop} {state : State}

/-- The host keeps something in each of its answers. -/
structure Keeps (host : Host (EStateM Failure State)) (kept : State → Prop)
    (failure : Failure → State → Prop) : Prop where
  spawn : ∀ function state, kept state → After (host.spawn function) state (fun _ => kept) failure
  receive : ∀ state, kept state → After host.receive state (fun _ => kept) failure
  invoke : ∀ hook stack state, kept state →
    After (host.invoke hook stack) state (fun _ => kept) failure

theorem Keeps.after_step (keeps : Keeps host kept failure) (stack : Stack) (holds : kept state) :
    After (stack.step host) state
      (fun progress next => kept next ∧
        ∀ after cost, progress = .proceed after cost → 0 < cost) failure := by
  rw [step]
  cases acts : stack.act with
  | proceed after cost =>
    refine After.pure ⟨holds, fun after' cost' same => ?_⟩
    obtain ⟨_, rfl⟩ := Progress.proceed.inj same
    exact act_charged acts
  | stop => exact After.pure ⟨holds, fun _ _ => nofun⟩
  | spawn after function destination =>
    refine After.bind ((keeps.spawn function state holds).imp fun child next holds => ?_)
    refine After.pure ⟨holds, fun after' cost' same => ?_⟩
    obtain ⟨_, rfl⟩ := Progress.proceed.inj same
    exact Nat.one_pos
  | receive after destination =>
    refine After.bind ((keeps.receive state holds).imp fun message next holds => ?_)
    cases message with
    | none => exact After.pure ⟨holds, fun _ _ => nofun⟩
    | some value =>
      refine After.pure ⟨holds, fun after' cost' same => ?_⟩
      obtain ⟨_, rfl⟩ := Progress.proceed.inj same
      exact Nat.one_pos
  | invoke after hook =>
    refine After.bind ((keeps.invoke hook after state holds).imp fun _ next holds => ?_)
    refine After.pure ⟨holds, fun after' cost' same => ?_⟩
    obtain ⟨_, rfl⟩ := Progress.proceed.inj same
    exact Nat.one_pos

/-- While an execution goes on, it has been charged less than its limit, and each instruction
brings it nearer. -/
theorem Keeps.after_advance (keeps : Keeps host kept failure) {limit fuel charged : Nat}
    {stack : Stack} (holds : kept state) (below : limit = 0 ∨ charged < limit) :
    After (stack.advance host limit fuel charged) state
      (fun result next => kept next ∧ (result = none → limit = 0 ∨ charged + fuel < limit))
      failure := by
  induction fuel generalizing charged stack state with
  | zero => exact After.pure ⟨holds, fun _ => below⟩
  | succ fuel inductionHypothesis =>
    refine After.bind ((keeps.after_step stack holds).imp fun progress next stepped => ?_)
    obtain ⟨holds, costs⟩ := stepped
    cases progress with
    | stop after status => exact After.pure ⟨holds, nofun⟩
    | proceed after cost =>
      have positive := costs after cost rfl
      by_cases reached : 0 < limit ∧ limit ≤ charged + cost
      · simp only [reached, and_self, if_true]
        exact After.pure ⟨holds, nofun⟩
      · simp only [reached, if_false]
        refine (inductionHypothesis holds (by omega)).imp fun result final known => ?_
        exact ⟨known.1, fun unfinished => by have := known.2 unfinished; omega⟩

/-- Only an execution without a limit is left unfinished. -/
theorem Keeps.after_execute (keeps : Keeps host kept failure) (limit fuel : Nat) (stack : Stack)
    (holds : kept state) :
    After (stack.execute host limit fuel) state
      (fun result next => kept next ∧ (result = none → limit = 0)) failure := by
  refine (keeps.after_advance holds ?_).imp fun result next known => ⟨known.1, fun unfinished => ?_⟩
  · omega
  · have bound := known.2 unfinished
    split at bound <;> omega

end

end Stack

end TaskMachine

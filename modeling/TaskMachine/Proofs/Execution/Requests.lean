/-
What an instruction can ask for. Whatever the instruction is, the frame that is
in a request is the one that executes it, further on in the same call: it runs
the same function, it still lands where it landed, and its program counter has
not left the code. Only a call makes a frame, and only a return gives one up, so
`Frame.Asks` tells of these two which instruction has asked for them.
-/

import TaskMachine.Execution.Run

namespace TaskMachine

namespace Frame

variable {frame next : Frame} {instruction : Instruction} {opcode : Opcode}

/-! ### Operands -/

theorem register_eq_ok_iff {index : Nat} {value : Value} :
    frame.register index = .ok value ↔ frame.registers[index]? = some value := by
  rw [register, place]
  split
  · rename_i bound
    rw [Vector.getElem?_eq_getElem bound]
    show Except.ok frame.registers[index] = .ok value ↔ _
    simp
  · rename_i bound
    rw [Vector.getElem?_eq_none (Nat.le_of_not_lt bound)]
    exact iff_of_false nofun nofun

theorem callable_eq_ok_iff {value : Value} {function : Function} :
    callable value = .ok function ↔ value = .function function := by
  cases value <;> simp [callable, Value.function?]

/-- What is read one after another is there all together. -/
theorem getElem?_of_mapM {Item Result : Type} {read : Item → Except Fault Result}
    {items : List Item} {results : List Result} (reads : items.mapM read = .ok results) :
    results.length = items.length ∧ ∀ (index : Nat) (item : Item), items[index]? = some item →
      ∃ result, results[index]? = some result ∧ read item = .ok result := by
  induction items generalizing results with
  | nil =>
    obtain rfl := Except.ok.inj reads
    exact ⟨rfl, nofun⟩
  | cons first rest inductionHypothesis =>
    rw [List.mapM_cons] at reads
    cases head : read first with
    | error fault =>
      rw [head] at reads
      exact absurd reads nofun
    | ok result =>
      cases tail : rest.mapM read with
      | error fault =>
        rw [head, tail] at reads
        exact absurd reads nofun
      | ok others =>
        rw [head, tail] at reads
        obtain rfl := Except.ok.inj reads
        obtain ⟨length, each⟩ := inductionHypothesis tail
        refine ⟨congrArg (· + 1) length, fun index item there => ?_⟩
        cases index with
        | zero => exact ⟨result, rfl, Option.some.inj there ▸ head⟩
        | succ index => exact each index item there

/-! ### Further on in a call -/

/-- The frame is about to execute an instruction of a given operation. -/
structure IsAt (frame : Frame) (opcode : Opcode) (instruction : Instruction) : Prop where
  present : frame.function.code[frame.pc]? = some instruction
  opcode : instruction.opcode? = some opcode

/-- The frame past the instruction that it is about to execute. -/
def past (frame : Frame) : Frame := { frame with pc := frame.pc + 1 }

/-- The one frame is the other one, further on in the same call. -/
structure Continues (frame next : Frame) : Prop where
  function : next.function = frame.function
  landing : next.landing = frame.landing
  within : frame.pc ≤ frame.function.code.size → next.pc ≤ frame.function.code.size

theorem Continues.refl (frame : Frame) : frame.Continues frame := ⟨rfl, rfl, id⟩

theorem Continues.trans {last : Frame} (first : frame.Continues next)
    (second : next.Continues last) : frame.Continues last where
  function := second.function.trans first.function
  landing := second.landing.trans first.landing
  within := fun within => first.function ▸ second.within (first.function.symm ▸ first.within within)

/-- To store a value is to go on. -/
theorem Continues.store (continues : frame.Continues next) (place : Fin registerCount)
    (value : Value) : frame.Continues (next.store place value) :=
  ⟨continues.function, continues.landing, continues.within⟩

theorem continues_past (present : frame.function.code[frame.pc]? = some instruction) :
    frame.Continues frame.past :=
  ⟨rfl, rfl, fun _ => (Array.getElem?_eq_some_iff.mp present).1⟩

theorem continues_jump {offset : Int} (jumps : frame.jump offset = .ok next) :
    frame.Continues next := by
  simp only [jump] at jumps
  split at jumps
  · rename_i within
    obtain rfl := Except.ok.inj jumps
    exact ⟨rfl, rfl, fun _ => Int.toNat_le.mpr within.2⟩
  · exact absurd jumps nofun

theorem continues_jumpAhead {offset : Int} (ahead : frame.jumpAhead? = some offset) :
    frame.Continues frame.past := by
  rw [jumpAhead?] at ahead
  cases present : frame.function.code[frame.pc]? with
  | none =>
    rw [present] at ahead
    exact absurd ahead nofun
  | some following => exact continues_past present

/-! ### Requests -/

/-- What the instruction of a frame can ask for. -/
inductive Asks (frame : Frame) : Request → Prop
  | proceed {next : Frame} (continues : frame.Continues next) : Asks frame (.proceed next)
  | enter {instruction : Instruction} {function : Function} {arguments : List Value} (cost : Nat)
      (isAt : frame.IsAt .call instruction)
      (callee : frame.registers[instruction.a]? = some (.function function))
      (length : arguments.length = instruction.b)
      (handed : ∀ index < instruction.b, index < registerCount ∧
        frame.registers[instruction.a + 1 + index]? = arguments[index]?) :
      Asks frame (.enter frame.past
        (.entering function arguments (some ⟨instruction.a, instruction.c⟩)) cost)
  | leave {instruction : Instruction} (isAt : frame.IsAt .ret instruction) :
      Asks frame (.leave frame.past instruction.a instruction.b)
  | pause (continues : frame.Continues frame.past) (status : Status) :
      Asks frame (.pause frame.past status)
  | spawn (continues : frame.Continues frame.past) (function : Function)
      (destination : Fin registerCount) : Asks frame (.spawn frame.past function destination)
  | receive (continues : frame.Continues frame.past) (destination : Fin registerCount) :
      Asks frame (.receive frame.past destination)
  | invoke (continues : frame.Continues frame.past) (hook : Hook) :
      Asks frame (.invoke frame.past hook)

/-- What is asked for, if anything, can be asked for. -/
def Asked (frame : Frame) (outcome : Except Fault Request) : Prop :=
  ∀ request, outcome = .ok request → frame.Asks request

theorem asked_ok {request : Request} (asks : frame.Asks request) : frame.Asked (.ok request) :=
  fun _ same => Except.ok.inj same ▸ asks

theorem asked_error (frame : Frame) (fault : Fault) : frame.Asked (.error fault) :=
  fun _ same => absurd same nofun

theorem asked_bind {Result : Type} {first : Except Fault Result}
    {next : Result → Except Fault Request}
    (each : ∀ result, first = .ok result → frame.Asked (next result)) :
    frame.Asked (first >>= next) := by
  cases first with
  | error fault => exact frame.asked_error fault
  | ok result => exact each result rfl

/-- A value is computed, and kept in a register. -/
theorem asked_store {first : Except Fault (Fin registerCount)} {value : Value}
    (continues : frame.Continues next) :
    frame.Asked (first >>= fun place => .ok (.proceed (next.store place value))) :=
  asked_bind fun place _ => asked_ok (.proceed (continues.store place value))

theorem asked_jump {offset : Int} (continues : frame.Continues next) :
    frame.Asked ((next.jump offset).map .proceed) := by
  cases jumps : next.jump offset with
  | error fault => exact frame.asked_error fault
  | ok target => exact asked_ok (.proceed (continues.trans (continues_jump jumps)))

theorem asked_branch (continues : frame.Continues next) (outcome : Except Fault Bool) :
    frame.Continues (next.branch instruction outcome).1 ∧
      frame.Asked (next.branch instruction outcome).2 := by
  cases outcome with
  | error fault => exact ⟨continues, frame.asked_error fault⟩
  | ok holds =>
    rw [branch]
    cases ahead : next.jumpAhead? with
    | none => exact ⟨continues, frame.asked_error _⟩
    | some offset =>
      have further : frame.Continues next.past := continues.trans (continues_jumpAhead ahead)
      simp only
      split
      · exact ⟨further, asked_jump further⟩
      · exact ⟨further, asked_ok (.proceed further)⟩

theorem asked_yielding (continues : frame.Continues frame.past) :
    frame.Asked (frame.past.yielding instruction) := by
  rw [yielding]
  split
  · exact asked_ok (.pause continues _)
  · exact asked_bind fun _ _ => asked_ok (.pause continues _)
  · exact asked_bind fun _ _ => asked_ok (.receive continues _)
  · exact frame.asked_error _

theorem asked_calling (isAt : frame.IsAt .call instruction) :
    frame.Asked (frame.past.calling instruction) := by
  refine asked_bind fun value called => asked_bind fun function is =>
    asked_bind fun arguments reads => asked_ok ?_
  obtain ⟨length, each⟩ := getElem?_of_mapM reads
  rw [List.length_range] at length
  rw [callable_eq_ok_iff.mp is] at called
  refine .enter _ isAt (register_eq_ok_iff.mp called) length fun index within => ?_
  obtain ⟨argument, there, read⟩ := each index index (List.getElem?_range within)
  rw [place] at read
  split at read
  · rename_i bound
    exact ⟨bound, (register_eq_ok_iff.mp read).trans there.symm⟩
  · exact absurd read nofun

theorem asked_perform (isAt : frame.IsAt opcode instruction) :
    frame.Continues (frame.past.perform instruction opcode).1 ∧
      frame.Asked (frame.past.perform instruction opcode).2 := by
  have continues := continues_past isAt.present
  cases opcode with
  | ret => exact ⟨continues, asked_ok (.leave isAt)⟩
  | yield => exact ⟨continues, asked_yielding continues⟩
  | move | loadConstant | not =>
    exact ⟨continues, asked_bind fun _ _ => asked_store continues⟩
  | call => exact ⟨continues, asked_calling isAt⟩
  | spawn =>
    exact ⟨continues, asked_bind fun _ _ => asked_bind fun _ _ => asked_bind fun _ _ =>
      asked_ok (.spawn continues _ _)⟩
  | add | subtract | multiply | divide =>
    exact ⟨continues, asked_bind fun _ _ => asked_bind fun _ _ => asked_store continues⟩
  | equal | less | lessEqual => exact asked_branch continues _
  | jump => exact ⟨continues, asked_jump continues⟩
  | hook =>
    refine ⟨continues, asked_bind fun value _ => ?_⟩
    cases value.hook? with
    | none => exact frame.asked_error _
    | some hook => exact asked_ok (.invoke continues hook)
  | inspect =>
    exact ⟨continues, asked_bind fun _ _ => asked_bind fun _ _ => asked_bind fun _ _ =>
      asked_ok (.proceed continues)⟩

/-- A frame that faults is left further on in its call, and one that does not asks for something
that its instruction can ask for. -/
theorem asked_next (frame : Frame) : frame.Continues frame.next.1 ∧ frame.Asked frame.next.2 := by
  rw [next]
  split
  · exact ⟨.refl frame, frame.asked_error _⟩
  · rename_i instruction present
    simp only
    split
    · exact ⟨continues_past present, frame.asked_error _⟩
    · rename_i opcode known
      exact asked_perform ⟨present, known⟩

end Frame

end TaskMachine

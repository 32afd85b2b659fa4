/-
What an instruction leaves behind that cannot be executed. If it faults, it has
asked the host for nothing and stored nothing: all that is left of it is where
the program counter stands. That is behind the instruction, or behind the jump
too if a comparison was to jump out of the code, or where it was if there is no
instruction. If it looks for a message and there is none, nothing at all is left.

Only a return to a caller does more before it faults, because the results land
one after another.
-/

import TaskMachine.Proofs.Execution.Formed
import TaskMachine.Proofs.Execution.Ground

namespace TaskMachine

/-- Whether an operation is a comparison, which a jump has to follow. -/
def Opcode.compares : Opcode → Bool
  | .equal | .less | .lessEqual => true
  | _ => false

namespace Frame

variable {frame left : Frame} {instruction : Instruction} {opcode : Opcode} {fault : Fault}

/-! ### Faults that are no matter of where to go -/

/-- It is not an address that is at fault, if anything is. -/
def KeepsToCode {Result : Type} (outcome : Except Fault Result) : Prop :=
  outcome ≠ .error .invalidInstructionAddress

section

variable {Read Result : Type} {outcome : Except Fault Result}

theorem KeepsToCode.error (keeps : KeepsToCode outcome) (faults : outcome = .error fault) :
    fault ≠ .invalidInstructionAddress := by
  rintro rfl
  exact keeps faults

theorem keepsToCode_ok (result : Result) : KeepsToCode (.ok result) := nofun

theorem keepsToCode_error (other : fault ≠ .invalidInstructionAddress) :
    KeepsToCode (.error fault : Except Fault Result) :=
  fun same => other (Except.error.inj same)

theorem keepsToCode_bind {first : Except Fault Read} {next : Read → Except Fault Result}
    (keeps : KeepsToCode first) (each : ∀ read, KeepsToCode (next read)) :
    KeepsToCode (first >>= next) := by
  cases first with
  | error fault => exact fun same => keeps (congrArg Except.error (Except.error.inj same))
  | ok read => exact each read

theorem keepsToCode_register (frame : Frame) (index : Nat) :
    KeepsToCode (frame.register index) := by
  rw [register, place]
  split
  · exact keepsToCode_ok _
  · exact keepsToCode_error (by decide)

theorem keepsToCode_operand (frame : Frame) (rk : Nat) : KeepsToCode (frame.operand rk) := by
  rw [operand]
  split
  · exact keepsToCode_register frame rk
  · rw [constant]
    split <;> exact nofun

theorem keepsToCode_numeric (value : Value) : KeepsToCode (numeric value) := by
  rw [numeric]
  split <;> exact nofun

theorem keepsToCode_compared (frame : Frame) (instruction : Instruction) :
    KeepsToCode (frame.compared instruction) :=
  keepsToCode_bind (keepsToCode_operand frame _) fun _ =>
    keepsToCode_bind (keepsToCode_operand frame _) fun _ => keepsToCode_ok _

theorem keepsToCode_numbersCompare (frame : Frame) (instruction : Instruction)
    (test : Float → Float → Bool) : KeepsToCode (frame.numbersCompare instruction test) :=
  keepsToCode_bind (keepsToCode_compared frame instruction) fun _ =>
    keepsToCode_bind (keepsToCode_numeric _) fun _ =>
      keepsToCode_bind (keepsToCode_numeric _) fun _ => keepsToCode_ok _

end

/-! ### Where a fault leaves a frame -/

/-- A jump that faults leads out of the code. -/
theorem jump_eq_error {offset : Int} (faults : frame.jump offset = .error fault) :
    fault = .invalidInstructionAddress ∧
      ¬ (0 ≤ frame.pc + offset ∧ frame.pc + offset ≤ frame.function.code.size) := by
  simp only [jump] at faults
  split at faults
  · cases faults
  · rename_i outside
    exact ⟨(Except.error.inj faults).symm, outside⟩

/-- A jump is at the program counter, and it leads out of the code. -/
def JumpsOut (frame : Frame) : Prop :=
  ∃ offset, frame.jumpAhead? = some offset ∧
    ¬ (0 ≤ frame.past.pc + offset ∧ frame.past.pc + offset ≤ frame.function.code.size)

/-- A comparison whose operands are right faults in front of what should be a jump, or behind a jump
that leads out of the code. -/
theorem branch_eq_error {outcome : Except Fault Bool} (keeps : KeepsToCode outcome)
    (faults : frame.branch instruction outcome = (left, .error fault)) :
    left = frame ∧ fault ≠ .invalidInstructionAddress ∨
      left = frame.past ∧ fault = .invalidInstructionAddress ∧ frame.JumpsOut := by
  cases outcome with
  | error wrong =>
    obtain ⟨rfl, same⟩ := Prod.mk.inj faults
    exact Or.inl ⟨rfl, Except.error.inj same ▸ keeps.error rfl⟩
  | ok holds =>
    rw [branch] at faults
    cases ahead : frame.jumpAhead? with
    | none =>
      simp only [ahead] at faults
      obtain ⟨rfl, same⟩ := Prod.mk.inj faults
      exact Or.inl ⟨rfl, Except.error.inj same ▸ (by decide)⟩
    | some offset =>
      simp only [ahead] at faults
      split at faults
      · obtain ⟨rfl, same⟩ := Prod.mk.inj faults
        cases jumps : Frame.jump { frame with pc := frame.pc + 1 } offset with
        | ok target =>
          rw [jumps] at same
          cases same
        | error wrong =>
          rw [jumps] at same
          obtain rfl := Except.error.inj same
          obtain ⟨address, outside⟩ := jump_eq_error jumps
          exact Or.inr ⟨rfl, address, offset, ahead, outside⟩
      · cases (Prod.mk.inj faults).2

theorem perform_eq_error (faults : frame.perform instruction opcode = (left, .error fault)) :
    left = frame ∧ (opcode.compares = true → fault ≠ .invalidInstructionAddress) ∨
      left = frame.past ∧ fault = .invalidInstructionAddress ∧ opcode.compares = true ∧
        frame.JumpsOut := by
  have compares {outcome : Except Fault Bool} (is : opcode.compares = true)
      (keeps : KeepsToCode outcome)
      (faults : frame.branch instruction outcome = (left, .error fault)) :
      left = frame ∧ (opcode.compares = true → fault ≠ .invalidInstructionAddress) ∨
        left = frame.past ∧ fault = .invalidInstructionAddress ∧ opcode.compares = true ∧
          frame.JumpsOut := by
    rcases branch_eq_error keeps faults with ⟨same, otherwise⟩ | ⟨same, address, out⟩
    · exact Or.inl ⟨same, fun _ => otherwise⟩
    · exact Or.inr ⟨same, address, is, out⟩
  cases opcode with
  | equal =>
    exact compares rfl (keepsToCode_bind (keepsToCode_compared frame instruction) fun _ =>
      keepsToCode_ok _) faults
  | less | lessEqual => exact compares rfl (keepsToCode_numbersCompare frame instruction _) faults
  | _ => exact Or.inl ⟨(Prod.mk.inj faults).1.symm, nofun⟩

/-- Where the program counter of a frame is left by a fault. -/
inductive FaultsAt (frame : Frame) (fault : Fault) : Nat → Prop
  /-- There is no instruction. -/
  | nowhere (absent : frame.function.code[frame.pc]? = none) : FaultsAt frame fault frame.pc
  /-- A comparison is to take the jump behind it, which leads out of the code. -/
  | astray {opcode : Opcode} {instruction : Instruction} (isAt : frame.IsAt opcode instruction)
      (compares : opcode.compares = true) (address : fault = .invalidInstructionAddress)
      (out : frame.past.JumpsOut) : FaultsAt frame fault (frame.pc + 2)
  /-- There is anything else amiss with the instruction. -/
  | behind {instruction : Instruction} (present : frame.function.code[frame.pc]? = some instruction)
      (otherwise : ∀ opcode, frame.IsAt opcode instruction → opcode.compares = true →
        fault ≠ .invalidInstructionAddress) : FaultsAt frame fault (frame.pc + 1)

/-- What is left of a frame by a fault is the frame, at another instruction. -/
theorem next_eq_error (faults : frame.next = (left, .error fault)) :
    left = { frame with pc := left.pc } ∧ frame.FaultsAt fault left.pc := by
  rw [next] at faults
  split at faults
  · rename_i absent
    obtain ⟨rfl, -⟩ := Prod.mk.inj faults
    exact ⟨rfl, .nowhere absent⟩
  · rename_i instruction present
    simp only at faults
    split at faults
    · rename_i unknown
      obtain ⟨rfl, -⟩ := Prod.mk.inj faults
      exact ⟨rfl, .behind present fun _ isAt =>
        absurd (isAt.opcode.symm.trans unknown) (Option.some_ne_none _)⟩
    · rename_i opcode known
      have performs : frame.past.perform instruction opcode = (left, .error fault) := faults
      rcases perform_eq_error performs with
        ⟨rfl, otherwise⟩ | ⟨rfl, address, compares, out⟩
      · refine ⟨rfl, .behind present fun other isAt => ?_⟩
        rwa [Option.some.inj (isAt.opcode.symm.trans known)]
      · exact ⟨rfl, .astray ⟨present, known⟩ compares address out⟩

end Frame

namespace Stack

variable {State : Type} {host : Host (StateM State)} {stack next : Stack} {state final : State}
  {status : Status} {fault : Fault}

/-- The frame on top is about to return to one that has called it. -/
def ReturnsToCaller (stack : Stack) : Prop :=
  stack.callers ≠ [] ∧ ∃ instruction, stack.top.IsAt .ret instruction

/-- An instruction has faulted and left no trace: the host was asked for nothing, and nothing but
the program counter on top has moved. -/
structure Traceless (stack next : Stack) (fault : Fault) : Prop where
  unasked : stack.act.query? = none
  callers : next.callers = stack.callers
  function : next.top.function = stack.top.function
  registers : next.top.registers = stack.top.registers
  landing : next.top.landing = stack.top.landing
  pc : stack.top.FaultsAt fault next.top.pc

theorem traceless_of_act (stays : ¬ stack.ReturnsToCaller)
    (acts : stack.act = .stop next (.faulted fault)) : stack.Traceless next fault := by
  have unasked : stack.act.query? = none := by rw [acts]; rfl
  have asked := stack.top.asked_next.2
  have regular := stack.top.regular_next
  rw [act] at acts
  split at acts
  · rename_i frame wrong faults
    obtain ⟨rfl, same⟩ := Action.stop.inj acts
    obtain rfl := Status.faulted.inj same
    obtain ⟨alone, pc⟩ := Frame.next_eq_error faults
    have function : frame.function = stack.top.function := by rw [alone]
    have registers : frame.registers = stack.top.registers := by rw [alone]
    have landing : frame.landing = stack.top.landing := by rw [alone]
    exact ⟨unasked, rfl, function, registers, landing, pc⟩
  · rename_i frame request asks
    rw [asks] at asked regular
    cases asked request rfl with
    | leave isAt =>
      cases called : stack.callers with
      | nil =>
        simp only [leave, called] at acts
        split at acts
        · cases (Action.stop.inj acts).2
        · obtain ⟨rfl, -⟩ := Action.stop.inj acts
          refine ⟨unasked, called.symm, rfl, rfl, rfl, .behind isAt.present fun opcode also => ?_⟩
          obtain rfl := Option.some.inj (also.opcode.symm.trans isAt.opcode)
          exact fun compares => absurd compares (by decide)
      | cons caller callers =>
        exact absurd ⟨by rw [called]; exact List.cons_ne_nil _ _, _, isAt⟩ stays
    | pause continues paused =>
      obtain ⟨-, rfl⟩ := Action.stop.inj acts
      rcases regular _ rfl with same | ⟨_, same⟩ <;> cases same
    | proceed | enter | spawn | receive | invoke => cases acts

/-- An execution stops at an instruction that does not need the host, or at one that has looked for
a message in vain. -/
theorem stop_of_step (steps : stack.step host state = (.stop next status, final)) :
    stack.act = .stop next status ∧ final = state ∨
      (next = stack ∧ status = .suspended .message) ∧ stack.act.query? = some .receive ∧
        host.receive state = (none, final) := by
  rw [step] at steps
  cases acts : stack.act with
  | stop after stopped =>
    rw [acts] at steps
    obtain ⟨same, rfl⟩ := Prod.mk.inj steps
    obtain ⟨rfl, rfl⟩ := Progress.stop.inj same
    exact Or.inl ⟨rfl, rfl⟩
  | receive after destination =>
    rw [acts] at steps
    simp only [answer_bind] at steps
    cases received : host.receive state with
    | mk message middle =>
      rw [received] at steps
      cases message with
      | some value => cases congrArg Prod.fst steps
      | none =>
        obtain ⟨same, rfl⟩ := Prod.mk.inj steps
        obtain ⟨rfl, rfl⟩ := Progress.stop.inj same
        exact Or.inr ⟨⟨rfl, rfl⟩, rfl, rfl⟩
  | proceed | spawn | invoke =>
    rw [acts] at steps
    cases congrArg Prod.fst steps

/-- An instruction that faults leaves no trace, neither on the stack nor on the host, unless it
returns to a caller. One that waits for a message leaves the stack as it was, and the host too if it
is not changed by being asked for a message that it does not have. -/
theorem leaves_no_trace (steps : stack.step host state = (.stop next status, final)) :
    (∀ fault, status = .faulted fault → ¬ stack.ReturnsToCaller →
      stack.Traceless next fault ∧ final = state) ∧
    (status = .suspended .message →
      next = stack ∧ stack.act.query? = some .receive ∧ (host.receive state).1 = none ∧
        ((∀ state, (host.receive state).1 = none → (host.receive state).2 = state) →
          final = state)) := by
  rcases stop_of_step steps with ⟨acts, rfl⟩ | ⟨⟨rfl, rfl⟩, asks, received⟩
  · refine ⟨fun fault faulted stays => ?_, fun waits => absurd waits (act_stop acts)⟩
    rw [faulted] at acts
    exact ⟨traceless_of_act stays acts, rfl⟩
  · refine ⟨fun _ => nofun, fun _ => ⟨rfl, asks, by rw [received], fun idle => ?_⟩⟩
    have unchanged := idle state (by rw [received])
    rwa [received] at unchanged

/-! ### A comparison that leads astray -/

/-- The call of a function that compares two registers and jumps out of its code if they are
equal, and so they are. -/
def straying : Stack :=
  ⟨.entering ⟨2, #[], #[.equal 0 0 1, .jump 5]⟩ [] (some ⟨8, 2⟩), [waking.top.past]⟩

/-- The call when it has faulted, behind the jump. -/
def strayed : Stack := { straying with top := { straying.top with pc := 2 } }

/-- A host on its own is not changed by being asked for a message that it does not have. -/
theorem receive_eq_none {solo : Solo} (nothing : (Solo.host.receive solo).1 = none) :
    (Solo.host.receive solo).2 = solo := by
  obtain ⟨nextId, inbox, events⟩ := solo
  cases inbox with
  | nil => rfl
  | cons value rest => exact absurd nothing nofun

/-- The comparison leaves no trace, and neither does a task that looks for a message in vain. -/
theorem straying_leaves_no_trace :
    straying.Traceless strayed .invalidInstructionAddress ∧
      ∃ next final, (entering listening).step Solo.host ⟨⟨7⟩, [], []⟩ =
        (.stop next (.suspended .message), final) ∧
          next = entering listening ∧ final = ⟨⟨7⟩, [], []⟩ := by
  have faults : straying.step Solo.host relayed =
    (.stop strayed (.faulted .invalidInstructionAddress), relayed) := rfl
  have looks : (entering listening).step Solo.host ⟨⟨7⟩, [], []⟩ =
    (.stop (entering listening) (.suspended .message), ⟨⟨7⟩, [], []⟩) := rfl
  have stays : ¬ straying.ReturnsToCaller := by
    rintro ⟨_, instruction, present, opcode⟩
    obtain rfl := Option.some.inj present
    exact absurd opcode (by decide)
  obtain ⟨same, -, -, unchanged⟩ := (leaves_no_trace looks).2 rfl
  exact ⟨((leaves_no_trace faults).1 _ rfl stays).1, _, _, looks, same,
    unchanged fun _ => receive_eq_none⟩

end Stack

end TaskMachine

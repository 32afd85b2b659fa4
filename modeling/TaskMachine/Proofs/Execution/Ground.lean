/-
A function does not know who has called it. Take the frames of a call and of all
that it has called, and put them on other callers, or on none: every instruction
does to them there what it does to them here, asks the host for the same, and
stops for the same reason, until the lowest of them returns. So the executions of
two calls of one function, with the same registers, are both that of the frames
on their own, and keep in step.

They part at the return, and there they agree on the results: what a task without
callers ends with is what lands in the registers of a caller, as much of it as
the caller wants.

A callback could tell the callers apart, for it is shown the stack; the host has
to be one whose callbacks look at the frame on top only. Where its results land
is nothing that they are shown.
-/

import Mathlib.Logic.Function.Iterate
import TaskMachine.Proofs.Execution.Calls

namespace TaskMachine

/-! ### Frames -/

/-- The frame, landing elsewhere. -/
def Frame.landingAt (frame : Frame) (landing : Option Landing) : Frame := { frame with landing }

/-- The request, with the frame that has asked landing elsewhere. -/
def Request.landingAt (landing : Option Landing) : Request → Request
  | .proceed frame => .proceed (frame.landingAt landing)
  | .enter frame callee cost => .enter (frame.landingAt landing) callee cost
  | .leave frame first count => .leave (frame.landingAt landing) first count
  | .pause frame status => .pause (frame.landingAt landing) status
  | .spawn frame function destination => .spawn (frame.landingAt landing) function destination
  | .receive frame destination => .receive (frame.landingAt landing) destination
  | .invoke frame hook => .invoke (frame.landingAt landing) hook

namespace Frame

variable {left right : Frame} {landing : Option Landing}

/-- The frames differ at most in where they land. -/
structure Alike (left right : Frame) : Prop where
  function : left.function = right.function
  pc : left.pc = right.pc
  registers : left.registers = right.registers

theorem Alike.eq (alike : left.Alike right) : right = left.landingAt right.landing := by
  obtain ⟨function, pc, registers⟩ := alike
  rw [landingAt, function, pc, registers]

/-- To read something first is to read the same, if what is done with it is the same. -/
theorem bind_landingAt {Result Read : Type} {first : Except Fault Read}
    {elsewhere here : Read → Except Fault Result} {relanded : Result → Result}
    (each : ∀ read, elsewhere read = relanded <$> here read) :
    (first >>= elsewhere) = relanded <$> (first >>= here) := by
  cases first with
  | error fault => rfl
  | ok read => exact each read

theorem jump_landingAt (frame : Frame) (offset : Int) :
    (frame.landingAt landing).jump offset = (·.landingAt landing) <$> frame.jump offset := by
  by_cases within : 0 ≤ (frame.pc : Int) + offset ∧
      (frame.pc : Int) + offset ≤ frame.function.code.size
  · rw [show frame.jump offset = .ok _ from if_pos within]
    exact if_pos within
  · rw [show frame.jump offset = .error _ from if_neg within]
    exact if_neg within

theorem map_jump_landingAt (frame : Frame) (offset : Int) :
    ((frame.landingAt landing).jump offset).map Request.proceed =
      Request.landingAt landing <$> (frame.jump offset).map .proceed := by
  rw [jump_landingAt]
  cases frame.jump offset <;> rfl

theorem branch_landingAt (frame : Frame) (instruction : Instruction)
    (outcome : Except Fault Bool) :
    (frame.landingAt landing).branch instruction outcome =
      ((frame.branch instruction outcome).1.landingAt landing,
        Request.landingAt landing <$> (frame.branch instruction outcome).2) := by
  cases outcome with
  | error fault => rfl
  | ok holds =>
    have same : (frame.landingAt landing).jumpAhead? = frame.jumpAhead? := rfl
    simp only [branch, same]
    cases frame.jumpAhead? with
    | none => rfl
    | some offset =>
      simp only
      split
      · exact congrArg (Prod.mk _) (map_jump_landingAt frame.past offset)
      · rfl

theorem yielding_landingAt (frame : Frame) (instruction : Instruction) :
    (frame.landingAt landing).yielding instruction =
      Request.landingAt landing <$> frame.yielding instruction := by
  simp only [yielding]
  split
  · rfl
  · exact bind_landingAt fun _ => rfl
  · exact bind_landingAt fun _ => rfl
  · rfl

theorem perform_landingAt (frame : Frame) (instruction : Instruction) (opcode : Opcode) :
    (frame.landingAt landing).perform instruction opcode =
      ((frame.perform instruction opcode).1.landingAt landing,
        Request.landingAt landing <$> (frame.perform instruction opcode).2) := by
  cases opcode with
  | ret => rfl
  | yield => exact congrArg (Prod.mk _) (yielding_landingAt frame instruction)
  | move | loadConstant | not =>
    exact congrArg (Prod.mk _) (bind_landingAt fun _ => bind_landingAt fun _ => rfl)
  | call =>
    exact congrArg (Prod.mk _) (bind_landingAt fun _ => bind_landingAt fun _ =>
      bind_landingAt fun _ => rfl)
  | spawn | add | subtract | multiply | divide | inspect =>
    exact congrArg (Prod.mk _) (bind_landingAt fun _ => bind_landingAt fun _ =>
      bind_landingAt fun _ => rfl)
  | equal | less | lessEqual => exact branch_landingAt frame instruction _
  | jump => exact congrArg (Prod.mk _) (map_jump_landingAt frame _)
  | hook =>
    refine congrArg (Prod.mk _) (bind_landingAt fun value => ?_)
    cases value.hook? <;> rfl

/-- An instruction does not depend on where its frame lands. -/
theorem next_landingAt (frame : Frame) (landing : Option Landing) :
    (frame.landingAt landing).next =
      (frame.next.1.landingAt landing, Request.landingAt landing <$> frame.next.2) := by
  have present : (frame.landingAt landing).function.code[(frame.landingAt landing).pc]? =
      frame.function.code[frame.pc]? := rfl
  simp only [next, present]
  cases frame.function.code[frame.pc]? with
  | none => rfl
  | some instruction =>
    simp only
    cases instruction.opcode? with
    | none => rfl
    | some opcode => exact perform_landingAt frame.past instruction opcode

theorem land_landingAt (caller returning : Frame) (source destination count : Nat) :
    (caller.landingAt landing).land returning source destination count =
      ((caller.land returning source destination count).1.landingAt landing,
        (caller.land returning source destination count).2) := by
  induction count generalizing caller source destination with
  | zero => rfl
  | succ count inductionHypothesis =>
    simp only [land]
    cases returning.register source with
    | error fault => rfl
    | ok value =>
      cases place destination with
      | error fault => rfl
      | ok place => exact inductionHypothesis (caller.store place value) _ _

/-- Registers that can be read land, if there is room for them. -/
theorem land_eq_ok (caller : Frame) {returning : Frame} {source destination count : Nat}
    (reads : ∀ offset < count, ∃ value, returning.register (source + offset) = .ok value)
    (room : destination + count ≤ registerCount) :
    ∃ landed, caller.land returning source destination count = (landed, .ok ()) := by
  induction count generalizing caller source destination with
  | zero => exact ⟨caller, rfl⟩
  | succ count inductionHypothesis =>
    obtain ⟨value, read⟩ := reads 0 count.succ_pos
    have placed : place destination = .ok ⟨destination, by omega⟩ := dif_pos (by omega)
    simp only [land, show returning.register source = .ok value from read, placed]
    refine inductionHypothesis _ (fun offset less => ?_) (by omega)
    rw [show source + 1 + offset = source + (offset + 1) by omega]
    exact reads (offset + 1) (Nat.succ_lt_succ less)

/-- Of the values that a frame returns, those that are wanted land, if there is room for them. -/
theorem land_run (caller : Frame) {returning : Frame} {first count wanted destination : Nat}
    {values : List Value} (runs : returning.run first count = .ok values)
    (room : destination + min count wanted ≤ registerCount) :
    ∃ landed, caller.land returning first destination (min count wanted) = (landed, .ok ()) ∧
      caller.Receives landed destination (values.take wanted) := by
  obtain ⟨length, each⟩ := getElem?_of_mapM runs
  rw [List.length_range] at length
  have read (offset : Nat) (less : offset < count) : ∃ value, values[offset]? = some value ∧
      returning.register (first + offset) = .ok value :=
    each offset offset (List.getElem?_range less)
  obtain ⟨landed, lands⟩ := land_eq_ok caller
    (fun offset less => (read offset (Nat.lt_min.mp less).1).imp fun _ there => there.2) room
  obtain ⟨results, resultsLength, taken, receives⟩ := receives_of_land lands
  refine ⟨landed, lands, ?_⟩
  have same : results = values.take wanted := by
    refine List.ext_getElem? fun offset => ?_
    by_cases less : offset < min count wanted
    · obtain ⟨value, there, reads⟩ := read offset (Nat.lt_min.mp less).1
      rw [← taken offset less, List.getElem?_take_of_lt (Nat.lt_min.mp less).2, there]
      exact register_eq_ok_iff.mp reads
    · rw [List.getElem?_eq_none (by omega),
        List.getElem?_eq_none (by rw [List.length_take]; omega)]
  exact same ▸ receives

end Frame

/-! ### Stacks -/

/-- What frames lie on: other frames, if there are any, and where in them the lowest one lands. -/
structure Ground where
  landing : Option Landing
  callers : List Frame

/-- A frame above so many others on the ground. Only the lowest one is on the ground itself. -/
def Ground.level (ground : Ground) (frame : Frame) : List Frame → Frame
  | [] => frame.landingAt ground.landing
  | _ :: _ => frame

/-- The frames that wait, with the ground below them. -/
def Ground.below (ground : Ground) : List Frame → List Frame
  | [] => ground.callers
  | caller :: callers => ground.level caller callers :: ground.below callers

namespace Stack

/-- The stack on a ground. -/
def on (stack : Stack) (ground : Ground) : Stack :=
  ⟨ground.level stack.top stack.callers, ground.below stack.callers⟩

/-- The frame on top, of so many, is about to return. -/
def AtReturn (depth : Nat) (stack : Stack) : Prop :=
  stack.depth = depth ∧ ∃ instruction, stack.top.IsAt .ret instruction

end Stack

/-- What an instruction does, on a ground. -/
def Action.on (ground : Ground) : Action → Action
  | .proceed stack cost => .proceed (stack.on ground) cost
  | .stop stack status => .stop (stack.on ground) status
  | .spawn stack function destination => .spawn (stack.on ground) function destination
  | .receive stack destination => .receive (stack.on ground) destination
  | .invoke stack hook => .invoke (stack.on ground) hook

/-- Where an execution stands, on a ground. -/
def Progress.on (ground : Ground) : Progress → Progress
  | .proceed stack cost => .proceed (stack.on ground) cost
  | .stop stack status => .stop (stack.on ground) status

/-- The callbacks of a host look at the frame on top of a stack, and not at those below. -/
def Host.LooksAtTop {State : Type} (host : Host (StateM State)) : Prop :=
  ∀ (hook : Hook) (left right : Stack), left.top.Alike right.top →
    host.invoke hook left = host.invoke hook right

namespace Stack

variable {State : Type} {host : Host (StateM State)} {ground : Ground} {alone : Stack}
  {state : State}

theorem alike_on (stack : Stack) (ground : Ground) : (stack.on ground).top.Alike stack.top := by
  obtain ⟨top, callers⟩ := stack
  cases callers <;> exact ⟨rfl, rfl, rfl⟩

theorem length_below (callers : List Frame) :
    (ground.below callers).length = callers.length + ground.callers.length := by
  induction callers with
  | nil => exact (Nat.zero_add _).symm
  | cons caller callers inductionHypothesis =>
    rw [Ground.below, List.length_cons, List.length_cons, inductionHypothesis]
    omega

theorem atReturn_on {depth : Nat} :
    (alone.on ground).AtReturn (depth + ground.callers.length) ↔ alone.AtReturn depth := by
  have same := alone.alike_on ground
  have deep : (alone.on ground).depth = alone.depth + ground.callers.length := by
    rw [Stack.depth, Stack.depth, on, length_below]
    omega
  have isAt (instruction : Instruction) : (alone.on ground).top.IsAt .ret instruction ↔
      alone.top.IsAt .ret instruction := by
    constructor
    · rintro ⟨present, opcode⟩
      exact ⟨by rwa [same.function, same.pc] at present, opcode⟩
    · rintro ⟨present, opcode⟩
      exact ⟨by rwa [same.function, same.pc], opcode⟩
  simp only [AtReturn, deep, isAt, Nat.add_right_cancel_iff]

theorem keep_on (stack : Stack) (destination : Fin registerCount) (value : Value) :
    (stack.on ground).keep destination value = (stack.keep destination value).on ground := by
  obtain ⟨top, callers⟩ := stack
  cases callers <;> rfl

/-- What returns to a frame above the ground does the same on the ground. -/
theorem leave_on (returning caller : Frame) (callers : List Frame) (first count : Nat) :
    leave returning first count (ground.below (caller :: callers)) =
      (leave returning first count (caller :: callers)).on ground := by
  simp only [Ground.below, leave]
  cases returning.landing with
  | none => rfl
  | some landing =>
    have lands : (ground.level caller callers).land returning first landing.register
        (min count landing.count) =
        (ground.level (caller.land returning first landing.register
            (min count landing.count)).1 callers,
          (caller.land returning first landing.register (min count landing.count)).2) := by
      cases callers with
      | nil => exact Frame.land_landingAt caller returning _ _ _
      | cons => rfl
    simp only [lands]
    cases caller.land returning first landing.register (min count landing.count) with
    | mk landed outcome => cases outcome <;> rfl

/-- An instruction does the same on any ground, unless it returns to it. -/
theorem act_on (stays : ¬ alone.AtReturn 1) : (alone.on ground).act = alone.act.on ground := by
  obtain ⟨top, callers⟩ := alone
  have asked := top.asked_next.2
  cases callers with
  | nil =>
    simp only [act, on, Ground.level, Ground.below, Frame.next_landingAt]
    cases next : top.next with
    | mk frame outcome =>
      cases outcome with
      | error fault => rfl
      | ok request =>
        rw [next] at asked
        cases request with
        | leave frame first count =>
          cases asked _ rfl with
          | leave isAt => exact absurd ⟨rfl, _, isAt⟩ stays
        | _ => rfl
  | cons caller callers =>
    simp only [act, on, Ground.level]
    cases top.next with
    | mk frame outcome =>
      cases outcome with
      | error fault => rfl
      | ok request =>
        cases request with
        | leave frame first count => exact leave_on frame caller callers first count
        | _ => rfl

/-- And with the host's part in it. -/
theorem step_on (ground : Ground) (state : State) (looks : host.LooksAtTop)
    (stays : ¬ alone.AtReturn 1) :
    (alone.on ground).step host state =
      ((alone.step host state).1.on ground, (alone.step host state).2) := by
  rw [step, step, act_on stays]
  cases alone.act with
  | proceed | stop => rfl
  | spawn next function destination =>
    simp only [Action.on, keep_on]
    rfl
  | receive next destination =>
    simp only [Action.on, answer_bind, keep_on]
    cases (host.receive state).1 <;> rfl
  | invoke next hook =>
    simp only [Action.on, looks hook _ next (next.alike_on ground)]
    rfl

/-! ### Executions -/

/-- The stack and the world after the next instruction, whether the execution goes on or not. -/
def pass (host : Host (StateM State)) (here : Stack × State) : Stack × State :=
  ((here.1.step host here.2).1.stack, (here.1.step host here.2).2)

/-- After so many instructions, a stack on the ground is what it would be on its own. -/
theorem pass_on (ground : Ground) (looks : host.LooksAtTop) {count : Nat}
    (stays : ∀ earlier < count, ¬ ((pass host)^[earlier] (alone, state)).1.AtReturn 1) :
    (pass host)^[count] (alone.on ground, state) =
      ((((pass host)^[count] (alone, state)).1.on ground),
        ((pass host)^[count] (alone, state)).2) := by
  induction count with
  | zero => rfl
  | succ count inductionHypothesis =>
    have before := inductionHypothesis fun earlier less =>
      stays earlier (Nat.lt_succ_of_lt less)
    have step := step_on ground ((pass host)^[count] (alone, state)).2 looks
      (stays count count.lt_succ_self)
    rw [Function.iterate_succ_apply', Function.iterate_succ_apply', before, pass, step, pass]
    cases (((pass host)^[count] (alone, state)).1.step host
      ((pass host)^[count] (alone, state)).2).1 <;> rfl

/-- A stack that does not return to the ground does not return on its own. -/
theorem stays_of_on (looks : host.LooksAtTop) {depth count : Nat}
    (deep : depth = 1 + ground.callers.length)
    (stays : ∀ earlier < count,
      ¬ ((pass host)^[earlier] (alone.on ground, state)).1.AtReturn depth) :
    ∀ earlier < count, ¬ ((pass host)^[earlier] (alone, state)).1.AtReturn 1 := by
  intro earlier
  induction earlier using Nat.strongRecOn with
  | _ earlier inductionHypothesis =>
    intro less returns
    have before := pass_on ground looks fun index sooner =>
      inductionHypothesis index sooner (Nat.lt_trans sooner less)
    refine stays earlier less ?_
    rw [before, deep]
    exact atReturn_on.mpr returns

theorem advance_on (ground : Ground) (looks : host.LooksAtTop) {fuel charged : Nat}
    (stays : ∀ earlier < fuel, ¬ ((pass host)^[earlier] (alone, state)).1.AtReturn 1) :
    (alone.on ground).advance host 0 fuel charged state =
      (((alone.advance host 0 fuel charged state).1.map fun ended => (ended.1.on ground, ended.2)),
        (alone.advance host 0 fuel charged state).2) := by
  induction fuel generalizing alone state charged with
  | zero => rfl
  | succ fuel inductionHypothesis =>
    have stay : ¬ alone.AtReturn 1 := stays 0 fuel.succ_pos
    have step := step_on ground state looks stay
    cases steps : alone.step host state with
    | mk progress middle =>
      rw [steps] at step
      cases progress with
      | stop next status => rw [advance_of_stop steps, advance_of_stop step]; rfl
      | proceed next cost =>
        rw [advance_of_proceed steps, advance_of_proceed step]
        have unlimited : ¬ (0 < 0 ∧ 0 ≤ charged + cost) := fun limited => Nat.lt_irrefl 0 limited.1
        rw [if_neg unlimited, if_neg unlimited]
        refine inductionHypothesis fun earlier less => ?_
        have passed : pass host (alone, state) = (next, middle) := by
          rw [pass, steps]
          rfl
        have later := stays (earlier + 1) (Nat.succ_lt_succ less)
        rwa [Function.iterate_succ_apply, passed] at later

/-- A turn without a limit is the same on any ground. -/
theorem execute_on (ground : Ground) (looks : host.LooksAtTop) {count : Nat}
    (stays : ∀ earlier < count, ¬ ((pass host)^[earlier] (alone, state)).1.AtReturn 1) :
    (alone.on ground).execute host 0 count state =
      (((alone.execute host 0 count state).1.map fun ended => (ended.1.on ground, ended.2)),
        (alone.execute host 0 count state).2) :=
  advance_on ground looks stays

/-! ### Two executions -/

/-- The stacks are the same frames on two grounds: the same ones above the level at which they
began, and at that level two that differ only in where they land. -/
def InStep (left right : Ground) (there other : Stack) : Prop :=
  ∃ alone : Stack, there = alone.on left ∧ other = alone.on right

/-- What a stack lies on, if only the frame on top is above ground. -/
def footing (stack : Stack) : Ground := ⟨stack.top.landing, stack.callers⟩

end Stack

/-- What an instruction asks the host for. -/
inductive Query where
  | spawn (function : Function)
  | receive
  | invoke (hook : Hook)

/-- What is asked for, if anything. -/
def Action.query? : Action → Option Query
  | .proceed _ _ => none
  | .stop _ _ => none
  | .spawn _ function _ => some (.spawn function)
  | .receive _ _ => some .receive
  | .invoke _ hook => some (.invoke hook)

/-- Why the execution has stopped, if it has. -/
def Progress.status? : Progress → Option Status
  | .proceed _ _ => none
  | .stop _ status => some status

/-- What can be seen of an execution when it comes to the next instruction. -/
structure Deed where
  instruction : Option Instruction
  query : Option Query
  status : Option Status

namespace Stack

variable {State : Type} {host : Host (StateM State)} {ground : Ground}
  {alone left right next other : Stack} {state : State} {count : Nat}

/-- The next instruction, what it asks the host for, and why it stops if it does. -/
def deed (host : Host (StateM State)) (here : Stack × State) : Deed where
  instruction := here.1.top.function.code[here.1.top.pc]?
  query := here.1.act.query?
  status := (here.1.step host here.2).1.status?

theorem deed_on (ground : Ground) (state : State) (looks : host.LooksAtTop)
    (stays : ¬ alone.AtReturn 1) :
    deed host (alone.on ground, state) = deed host (alone, state) := by
  have same := alone.alike_on ground
  have query (action : Action) : (action.on ground).query? = action.query? := by
    cases action <;> rfl
  have status (progress : Progress) : (progress.on ground).status? = progress.status? := by
    cases progress <;> rfl
  simp only [deed, act_on stays, step_on ground state looks stays, query, status, same.function,
    same.pc]

/-- Two executions that keep in step for so many instructions, from one state of the world. -/
structure KeepStep (host : Host (StateM State)) (left right : Stack) (state : State)
    (count : Nat) : Prop where
  /-- They do and ask for the same, instruction by instruction. -/
  deeds : ∀ earlier < count, deed host ((pass host)^[earlier] (left, state)) =
    deed host ((pass host)^[earlier] (right, state))
  /-- They come to the same frames above the level at which they began. -/
  frames : InStep left.footing right.footing ((pass host)^[count] (left, state)).1
    ((pass host)^[count] (right, state)).1
  worlds : ((pass host)^[count] (left, state)).2 = ((pass host)^[count] (right, state)).2
  /-- They come to the return from that level together. -/
  returns : ((pass host)^[count] (left, state)).1.AtReturn left.depth ↔
    ((pass host)^[count] (right, state)).1.AtReturn right.depth
  /-- A turn without a limit ends for both or for none, and for the same reason. -/
  turns : (left.execute host 0 count state).2 = (right.execute host 0 count state).2 ∧
    Option.Rel (fun ended other =>
        InStep left.footing right.footing ended.1 other.1 ∧ ended.2 = other.2)
      (left.execute host 0 count state).1 (right.execute host 0 count state).1

/-- The frame on top of a stack, on its own. -/
theorem on_footing (alike : left.top.Alike right.top) :
    (⟨left.top, []⟩ : Stack).on right.footing = right := by
  show (⟨left.top.landingAt right.top.landing, right.callers⟩ : Stack) = right
  rw [← alike.eq]

/-- On any two grounds a frame is executed as it is on its own. -/
theorem keepStep_on (looks : host.LooksAtTop) (frame : Frame) (one other : Ground)
    (stays : ∀ earlier < count,
      ¬ ((pass host)^[earlier] ((⟨frame, []⟩ : Stack), state)).1.AtReturn 1) :
    KeepStep host ((⟨frame, []⟩ : Stack).on one) ((⟨frame, []⟩ : Stack).on other) state count := by
  have passes (ground : Ground) := pass_on ground looks stays
  have deep (ground : Ground) :
      ((⟨frame, []⟩ : Stack).on ground).depth = 1 + ground.callers.length := Nat.add_comm _ _
  constructor
  case deeds =>
    intro earlier less
    have sooner := fun index (before : index < earlier) => stays index (Nat.lt_trans before less)
    rw [pass_on one looks sooner, pass_on other looks sooner,
      deed_on one _ looks (stays earlier less), deed_on other _ looks (stays earlier less)]
  case frames =>
    rw [passes one, passes other]
    exact ⟨_, rfl, rfl⟩
  case worlds => rw [passes one, passes other]
  case returns => rw [passes one, passes other, deep, deep, atReturn_on, atReturn_on]
  case turns =>
    have turned (ground : Ground) := execute_on ground looks stays
    rw [turned one, turned other]
    refine ⟨rfl, ?_⟩
    cases ((⟨frame, []⟩ : Stack).execute host 0 count state).1 with
    | none => exact .none
    | some ended => exact .some ⟨⟨ended.1, rfl, rfl⟩, rfl⟩

/-- Where the one stack ends with values, those of them that are wanted land for the other. -/
theorem lands_of_ended {landing : Landing} {caller : Frame} {callers : List Frame} {ended : Stack}
    {values : List Value} {final : State}
    (inStep : InStep left.footing right.footing next other) (first : left.callers = [])
    (called : right.callers = caller :: callers) (lands : right.top.landing = some landing)
    (returns : next.AtReturn left.depth)
    (ends : next.step host state = (.stop ended (.ended values), final))
    (room : landing.register + min values.length landing.count ≤ registerCount) :
    ∃ landed, other.step host state = (.proceed ⟨landed, callers⟩ 2, final) ∧
      caller.Receives landed landing.register (values.take landing.count) := by
  obtain ⟨⟨frame, waiting⟩, rfl, rfl⟩ := inStep
  have alone : (⟨frame, waiting⟩ : Stack).AtReturn 1 := by
    rw [show left.depth = 1 + left.footing.callers.length from Nat.add_comm _ _] at returns
    exact atReturn_on.mp returns
  obtain ⟨single, ret, isReturn⟩ := alone
  obtain rfl : waiting = [] := List.eq_nil_of_length_eq_zero (Nat.succ.inj single)
  have acts (ground : Ground) : ((⟨frame, []⟩ : Stack).on ground).act =
      leave (frame.past.landingAt ground.landing) ret.a ret.b ground.callers :=
    act_of_isAt ⟨isReturn.present, isReturn.opcode⟩
  have ended : (frame.past.landingAt left.top.landing).run ret.a ret.b = .ok values ∧
      state = final := by
    rw [step, acts, footing, first, leave] at ends
    cases runs : (frame.past.landingAt left.top.landing).run ret.a ret.b with
    | error fault =>
      simp only [runs] at ends
      cases (Progress.stop.inj (congrArg Prod.fst ends)).2
    | ok returned =>
      simp only [runs] at ends
      have same := (Progress.stop.inj (congrArg Prod.fst ends)).2
      exact ⟨congrArg Except.ok (Status.ended.inj same), congrArg Prod.snd ends⟩
  obtain ⟨runs, rfl⟩ := ended
  have length : values.length = ret.b := by
    rw [(Frame.getElem?_of_mapM runs).1, List.length_range]
  rw [length] at room
  -- Which of the two grounds a frame lies on does not show in its registers.
  have same : (frame.past.landingAt right.top.landing).run ret.a ret.b = .ok values := runs
  obtain ⟨landed, landing, receives⟩ := Frame.land_run caller same room
  refine ⟨landed, ?_, receives⟩
  have relanded : (frame.past.landingAt right.top.landing).landing = some _ := lands
  simp only [step, acts, footing, called, leave, relanded, landing]
  rfl

theorem keepStep_of_alike (looks : host.LooksAtTop) (alike : left.top.Alike right.top)
    (stays : ∀ earlier < count,
      ¬ ((pass host)^[earlier] (left, state)).1.AtReturn left.depth) :
    KeepStep host left right state count := by
  have onLeft : (⟨left.top, []⟩ : Stack).on left.footing = left := on_footing ⟨rfl, rfl, rfl⟩
  have deep : left.depth = 1 + left.footing.callers.length := Nat.add_comm _ _
  have alone : ∀ earlier < count,
      ¬ ((pass host)^[earlier] ((⟨left.top, []⟩ : Stack), state)).1.AtReturn 1 :=
    stays_of_on looks deep (by rwa [onLeft])
  have keep := keepStep_on looks left.top left.footing right.footing alone
  rwa [onLeft, on_footing alike] at keep

/-- What a call does and comes to does not depend on who has called. Two stacks with like frames on
top keep in step for as long as the one does not return from that frame; and if it is on its own,
and ends with values, then the other one lands as many of them in its caller as there are and as are
wanted, provided that the registers are there, and goes on in the caller. -/
theorem callers_unseen (looks : host.LooksAtTop) (alike : left.top.Alike right.top)
    (stays : ∀ earlier < count,
      ¬ ((pass host)^[earlier] (left, state)).1.AtReturn left.depth) :
    KeepStep host left right state count ∧
      ∀ (landing : Landing) (caller : Frame) (callers : List Frame) (ended : Stack)
        (values : List Value) (final : State),
        left.callers = [] → right.callers = caller :: callers →
          right.top.landing = some landing →
          ((pass host)^[count] (left, state)).1.AtReturn left.depth →
          ((pass host)^[count] (left, state)).1.step host ((pass host)^[count] (left, state)).2 =
            (.stop ended (.ended values), final) →
          landing.register + min values.length landing.count ≤ registerCount →
            ∃ landed, ((pass host)^[count] (right, state)).1.step host
                ((pass host)^[count] (right, state)).2 = (.proceed ⟨landed, callers⟩ 2, final) ∧
              caller.Receives landed landing.register (values.take landing.count) := by
  have keep := keepStep_of_alike looks alike stays
  refine ⟨keep, fun landing caller callers ended values final first called lands returns ends
    room => ?_⟩
  rw [← keep.worlds]
  exact lands_of_ended keep.frames first called lands returns ends room

/-- A host that writes down callbacks, with the frame that was on top. -/
def onlooker : Host (StateM Solo) :=
  { Solo.host with invoke := fun hook stack => Solo.invoke hook ⟨stack.top.landingAt none, []⟩ }

theorem looksAtTop_onlooker : onlooker.LooksAtTop := fun hook left right alike => by
  show Solo.invoke hook ⟨left.top.landingAt none, []⟩ =
    Solo.invoke hook ⟨right.top.landingAt none, []⟩
  rw [alike.eq]
  rfl

/-- The call of a function that is about to give up its turn and to return, with no caller. -/
def solitary : Stack := ⟨(rested 0 .nil).top.landingAt none, []⟩

/-- It ends with three values, and where it was called two of them land. -/
theorem rested_unseen : KeepStep onlooker solitary (rested 0 .nil) ⟨⟨7⟩, [], []⟩ 2 ∧
    ∃ landed, (rested 2 (.bool true)).step onlooker ⟨⟨7⟩, [], []⟩ =
        (.proceed ⟨landed, []⟩ 2, ⟨⟨7⟩, [], []⟩) ∧
      waking.top.past.Receives landed 8 [.bool true, .bool true] := by
  have alike : solitary.top.Alike (rested 0 .nil).top := ⟨rfl, rfl, rfl⟩
  have stays : ∀ earlier < 2,
      ¬ ((pass onlooker)^[earlier] (solitary, ⟨⟨7⟩, [], []⟩)).1.AtReturn solitary.depth := by
    rintro (_ | _ | _) less ⟨_, instruction, present, opcode⟩
    · obtain rfl := Option.some.inj present
      exact absurd opcode (by decide)
    · obtain rfl := Option.some.inj present
      exact absurd opcode (by decide)
    · omega
  obtain ⟨keep, lands⟩ := callers_unseen looksAtTop_onlooker alike stays
  exact ⟨keep, lands ⟨8, 2⟩ _ _ _ _ _ rfl rfl rfl ⟨rfl, .returning 0 3, rfl, rfl⟩ rfl (by decide)⟩

end Stack

end TaskMachine

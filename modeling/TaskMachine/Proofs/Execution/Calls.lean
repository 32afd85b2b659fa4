/-
What a call leaves behind. The frame that has called, and everything below it,
lies still for as long as there is a frame on top of it, whatever the function
that was called does, how often it is cut, what it waits for, and which functions
it calls in turn. Only its return reaches the frame below, and all that it
changes there are the registers in which the results land.

The frame that was called brings its landing along, which nothing changes
either. So what counts is that some frames lie on the ground that the call has
left, and that the lowest of them lands where the call has said.
-/

import TaskMachine.Proofs.Execution.Moves

namespace TaskMachine

namespace Frame

variable {frame caller returning landed : Frame} {instruction other : Instruction}
  {opcode opcode' : Opcode}

/-! ### Single frames -/

theorem IsAt.unique (isAt : frame.IsAt opcode instruction) (also : frame.IsAt opcode' other) :
    instruction = other :=
  Option.some.inj (isAt.present.symm.trans also.present)

theorem next_of_isAt (isAt : frame.IsAt opcode instruction) :
    frame.next = frame.past.perform instruction opcode := by
  simp only [next, isAt.present, isAt.opcode]
  rfl

theorem registers_entering (function : Function) (arguments : List Value)
    (landing : Option Landing) {index : Nat} (bound : index < registerCount) :
    (entering function arguments landing).registers[index]? =
      some ((arguments[index]?).getD .nil) := by
  rw [Vector.getElem?_eq_getElem bound]
  exact congrArg some (Vector.getElem_ofFn bound)

/-- The frame is another one but for results that have landed in its registers. -/
structure Receives (frame landed : Frame) (first : Nat) (results : List Value) : Prop where
  same : landed = { frame with registers := landed.registers }
  stored : ∀ offset < results.length, landed.registers[first + offset]? = results[offset]?
  kept : ∀ place : Nat, (∀ offset < results.length, place ≠ first + offset) →
    landed.registers[place]? = frame.registers[place]?

theorem registers_store_self (frame : Frame) (place : Fin registerCount) (value : Value) :
    (frame.store place value).registers[place.val]? = some value :=
  Vector.getElem?_set_self place.isLt

theorem registers_store_other (frame : Frame) (place : Fin registerCount) (value : Value)
    {index : Nat} (differ : index ≠ place.val) :
    (frame.store place value).registers[index]? = frame.registers[index]? :=
  Vector.getElem?_set_ne place.isLt differ.symm

theorem val_of_place {index : Nat} {place : Fin registerCount}
    (is : Frame.place index = .ok place) : place.val = index := by
  rw [Frame.place] at is
  split at is
  · exact congrArg Fin.val (Except.ok.inj is).symm
  · cases is

/-- If all results land, they are so many registers of the frame that returns. -/
theorem receives_of_land {source destination count : Nat}
    (lands : caller.land returning source destination count = (landed, .ok ())) :
    ∃ results : List Value, results.length = count ∧
      (∀ offset < count, returning.registers[source + offset]? = results[offset]?) ∧
        caller.Receives landed destination results := by
  induction count generalizing caller source destination with
  | zero =>
    obtain ⟨rfl, _⟩ := Prod.mk.inj lands
    exact ⟨[], rfl, fun _ less => absurd less (Nat.not_lt_zero _), rfl,
      fun _ less => absurd less (Nat.not_lt_zero _), fun _ _ => rfl⟩
  | succ count inductionHypothesis =>
    rw [land] at lands
    split at lands
    · rename_i value place reads is
      obtain ⟨results, length, taken, receives⟩ := inductionHypothesis lands
      obtain rfl := val_of_place is
      refine ⟨value :: results, congrArg (· + 1) length, fun offset within => ?_, ?_⟩
      · cases offset with
        | zero => exact register_eq_ok_iff.mp reads
        | succ offset =>
          rw [show source + (offset + 1) = source + 1 + offset by omega]
          exact taken offset (by omega)
      refine ⟨receives.same, fun offset within => ?_, fun index differ => ?_⟩
      · cases offset with
        | zero =>
          -- The later results go to the registers behind this one.
          show landed.registers[place.val]? = some value
          rw [receives.kept place (fun offset _ => by omega)]
          exact registers_store_self caller place value
        | succ offset =>
          rw [show place.val + (offset + 1) = place.val + 1 + offset by omega]
          exact receives.stored offset (Nat.lt_of_succ_lt_succ within)
      · rw [receives.kept index fun offset within =>
          (by have := differ (offset + 1) (Nat.succ_lt_succ within); omega)]
        exact registers_store_other caller place value (differ 0 (Nat.succ_pos _))
    · cases (Prod.mk.inj lands).2
    · cases (Prod.mk.inj lands).2

end Frame

namespace Stack

variable {stack next last first : Stack} {landing : Landing} {ground : List Frame}
  {call ret : Instruction}

/-! ### Frames that lie still -/

/-- Some frames lie on a ground of others, and the lowest of them lands in given registers. -/
def LiesOn (stack : Stack) (landing : Landing) (ground : List Frame) : Prop :=
  ∃ above lowest, stack.top :: stack.callers = above ++ lowest :: ground ∧
    lowest.landing = some landing

/-- An instruction leaves the ground and the landing as they are, unless it uncovers the ground. -/
theorem LiesOn.moves (lies : stack.LiesOn landing ground) (moves : stack.Moves next)
    (covered : ground.length < next.depth) : next.LiesOn landing ground := by
  obtain ⟨above, lowest, frames, lands⟩ := lies
  cases above with
  | nil =>
    obtain ⟨rfl, rfl⟩ := List.cons.inj frames
    cases moves with
    | stays continues => exact ⟨[], _, rfl, continues.landing.trans lands⟩
    | calls isAt => exact ⟨[_], stack.top.past, rfl, lands⟩
    | returns _ called =>
      rw [called] at covered
      exact absurd covered (Nat.lt_irrefl _)
  | cons top above =>
    obtain ⟨rfl, callers⟩ := List.cons.inj frames
    cases moves with
    | @stays frame continues => exact ⟨frame :: above, lowest, congrArg _ callers, lands⟩
    | @calls instruction function arguments =>
      exact ⟨.entering function arguments (some ⟨instruction.a, instruction.c⟩) ::
        stack.top.past :: above, lowest, congrArg (_ :: _ :: ·) callers, lands⟩
    | returns _ called registers =>
      rw [called] at callers
      cases above with
      | nil =>
        obtain ⟨rfl, rfl⟩ := List.cons.inj callers
        exact ⟨[], _, rfl, lands⟩
      | cons caller above =>
        obtain ⟨rfl, rfl⟩ := List.cons.inj callers
        exact ⟨_ :: above, lowest, rfl, lands⟩

/-- An instruction, after which the stack has more than so many frames. -/
def BecomesDeeper (depth : Nat) (stack next : Stack) : Prop :=
  stack.Becomes next ∧ depth < next.depth

theorem LiesOn.reaches (lies : stack.LiesOn landing ground)
    (reaches : Relation.ReflTransGen (BecomesDeeper ground.length) stack last) :
    last.LiesOn landing ground := by
  induction reaches with
  | refl => exact lies
  | tail _ becomes inductionHypothesis => exact inductionHypothesis.moves becomes.1.moves becomes.2

/-! ### Calls and returns -/

/-- A call that has made a frame has put it on the one that called. -/
theorem Becomes.called (becomes : stack.Becomes first) (isCall : stack.top.IsAt .call call)
    (deeper : stack.depth < first.depth) :
    ∃ function arguments, first = ⟨.entering function arguments (some ⟨call.a, call.c⟩),
        stack.top.past :: stack.callers⟩ ∧
      arguments.length = call.b ∧ ∀ index < call.b, index < registerCount ∧
        stack.top.registers[call.a + 1 + index]? = arguments[index]? := by
  cases becomes.moves with
  | stays => exact absurd deeper (Nat.lt_irrefl _)
  | @calls instruction function arguments isAt callee length handed =>
    obtain rfl := isAt.unique isCall
    exact ⟨function, arguments, rfl, length, handed⟩
  | returns _ called =>
    rw [depth, called] at deeper
    exact absurd deeper (by simp only [depth, List.length_cons]; omega)

theorem act_of_isAt (isReturn : stack.top.IsAt .ret ret) :
    stack.act = leave stack.top.past ret.a ret.b stack.callers := by
  rw [act, Frame.next_of_isAt isReturn]
  rfl

/-- A return after which the execution goes on has landed all results that are wanted. -/
theorem Goes.landed {State : Type} {host : Host (StateM State)} {state final : State}
    {caller : Frame} {callers : List Frame} (goes : Goes host (last, state) (next, final))
    (isReturn : last.top.IsAt .ret ret) (called : last.callers = caller :: callers)
    (lands : last.top.landing = some landing) :
    next.callers = callers ∧ ∃ results : List Value, results.length = min ret.b landing.count ∧
      (∀ offset < results.length, last.top.registers[ret.a + offset]? = results[offset]?) ∧
        caller.Receives next.top landing.register results := by
  have acts := called ▸ act_of_isAt isReturn
  have pastLands : last.top.past.landing = some landing := lands
  obtain ⟨cost, steps⟩ := goes
  cases landing : caller.land last.top.past ret.a landing.register (min ret.b landing.count) with
  | mk landed answer =>
    simp only [step, acts, leave, pastLands, landing] at steps
    cases answer with
    | error fault => cases congrArg Prod.fst steps
    | ok =>
      obtain ⟨rfl, _⟩ := Progress.proceed.inj (congrArg Prod.fst steps)
      obtain ⟨results, length, taken, receives⟩ := Frame.receives_of_land landing
      exact ⟨rfl, results, length, length.symm ▸ taken, receives⟩

/-- A call changes only the registers in which its results land. The function that is called finds
its arguments in its registers, and nil in the others. Until it returns, whatever happens on top of
it, the frame that called stays past the call, with everything below it. And its return, if all
results land, brings that frame back, changed in as many registers as there are results for and
wanted. -/
theorem call_lands (isCall : stack.top.IsAt .call call) (begins : stack.Becomes first)
    (deeper : stack.depth < first.depth) :
    ((∀ index < call.b, ∃ value, stack.top.registers[call.a + 1 + index]? = some value ∧
        first.top.registers[index]? = some value) ∧
      ∀ index < registerCount, call.b ≤ index → first.top.registers[index]? = some .nil) ∧
    ∀ last, Relation.ReflTransGen (BecomesDeeper stack.depth) first last →
      (∃ above, last.callers = above ++ stack.top.past :: stack.callers) ∧
      ∀ (ret : Instruction) (next : Stack) (State : Type) (host : Host (StateM State))
        (state final : State), last.depth = stack.depth + 1 → last.top.IsAt .ret ret →
          Goes host (last, state) (next, final) →
            next.callers = stack.callers ∧ ∃ results : List Value,
              results.length = min ret.b call.c ∧
              (∀ offset < results.length,
                last.top.registers[ret.a + offset]? = results[offset]?) ∧
              stack.top.past.Receives next.top call.a results := by
  obtain ⟨function, arguments, rfl, length, handed⟩ := begins.called isCall deeper
  refine ⟨⟨fun index within => ?_, fun index bound behind => ?_⟩, fun last reaches => ?_⟩
  · obtain ⟨bound, same⟩ := handed index within
    rw [List.getElem?_eq_getElem (length.symm ▸ within)] at same
    refine ⟨_, same, ?_⟩
    rw [Frame.registers_entering function arguments _ bound,
      List.getElem?_eq_getElem (length.symm ▸ within)]
    rfl
  · rw [Frame.registers_entering function arguments _ bound,
      List.getElem?_eq_none (length.symm ▸ behind)]
    rfl
  have begins : LiesOn ⟨.entering function arguments (some ⟨call.a, call.c⟩),
      stack.top.past :: stack.callers⟩ ⟨call.a, call.c⟩ (stack.top.past :: stack.callers) :=
    ⟨[], _, rfl, rfl⟩
  obtain ⟨above, lowest, frames, lands⟩ := begins.reaches reaches
  cases above with
  | nil =>
    obtain ⟨rfl, callers⟩ := List.cons.inj frames
    exact ⟨⟨[], callers⟩, fun ret next State host state final _ isReturn goes =>
      goes.landed isReturn callers lands⟩
  | cons top above =>
    have callers : last.callers = above ++ lowest :: stack.top.past :: stack.callers :=
      (List.cons.inj frames).2
    refine ⟨⟨above ++ [lowest], by rw [callers, List.append_assoc]; rfl⟩,
      fun ret next State host state final single => ?_⟩
    -- With one frame more than before the call, none can lie on the one that was called.
    have deep : last.callers.length = above.length + (stack.callers.length + 2) := by
      rw [callers, List.length_append]
      rfl
    have same : last.callers.length + 1 = stack.callers.length + 1 + 1 := single
    omega

/-- A function that gives up its turn with a value in its second register, and returns three. -/
def resting : Function :=
  { identity := 0, constants := #[], code := #[.moveRegister 1 0, .yieldNow, .returning 0 3] }

/-- The frame of a function that is about to call it, in a register that holds a truth value. -/
def waking : Stack :=
  ⟨{ Frame.entering ⟨1, #[], #[.call 8 1 2]⟩ [] none with
    registers := ((Vector.replicate 10 .nil).set 8 (.function resting)).set 9 (.bool true) }, []⟩

/-- The stack at an instruction of the function that was called. -/
def rested (pc : Nat) (second : Value) : Stack :=
  ⟨{ Frame.entering resting [.bool true] (some ⟨8, 2⟩) with
    pc, registers := ((Vector.replicate 10 .nil).set 0 (.bool true)).set 1 second },
    [waking.top.past]⟩

/-- The frame that called, after the return. -/
def awake : Stack :=
  ⟨{ waking.top.past with
    registers := ((Vector.replicate 10 .nil).set 8 (.bool true)).set 9 (.bool true) }, []⟩

/-- Two of the three results land, after a turn that was given up in between. -/
theorem resting_lands : ∃ results : List Value, results.length = 2 ∧
    results[1]? = some (.bool true) ∧ waking.top.past.Receives awake.top 8 results := by
  have calls : waking.step Solo.host ⟨⟨7⟩, [], []⟩ = (.proceed (rested 0 .nil) 2, ⟨⟨7⟩, [], []⟩) :=
    rfl
  have moves : (rested 0 .nil).step Solo.host ⟨⟨7⟩, [], []⟩ =
      (.proceed (rested 1 (.bool true)) 1, ⟨⟨7⟩, [], []⟩) := rfl
  have rests : (rested 1 (.bool true)).step Solo.host ⟨⟨7⟩, [], []⟩ =
      (.stop (rested 2 (.bool true)) .yielded, ⟨⟨7⟩, [], []⟩) := rfl
  have returns : Goes Solo.host (rested 2 (.bool true), ⟨⟨7⟩, [], []⟩)
      (awake, ⟨⟨7⟩, [], []⟩) := ⟨2, rfl⟩
  have deeper (pc : Nat) (second : Value) : waking.depth < (rested pc second).depth :=
    Nat.lt_succ_self 1
  have run : Relation.ReflTransGen (BecomesDeeper waking.depth) (rested 0 .nil)
      (rested 2 (.bool true)) :=
    .tail (.single ⟨⟨_, _, _, congrArg (·.1.stack) moves⟩, deeper _ _⟩)
      ⟨⟨_, _, _, congrArg (·.1.stack) rests⟩, deeper _ _⟩
  have isCall : waking.top.IsAt .call (.call 8 1 2) := ⟨rfl, rfl⟩
  obtain ⟨_, lands⟩ :=
    (call_lands isCall ⟨_, _, _, congrArg (·.1.stack) calls⟩ (deeper _ _)).2 _ run
  obtain ⟨_, results, length, taken, receives⟩ :=
    lands (.returning 0 3) _ _ _ _ _ rfl ⟨rfl, rfl⟩ returns
  exact ⟨results, length, (taken 1 (length ▸ Nat.one_lt_two)).symm, receives⟩

end Stack

end TaskMachine

/-
How long a turn is. Every instruction is charged one unit, and a call that hands
over arguments and a return to a caller one more each. The units are added up in
three places, two of which are in the middle of an instruction, so the sum can
leap over the limit; but only by one, because the last instruction began below
it. As no instruction is for free, a turn with a limit has an end, whatever the
program and the host do.
-/

import TaskMachine.Proofs.Execution.Ground

namespace TaskMachine

/-- What an instruction is charged after which the execution goes on, if that does not depend on
what the host answers. -/
def Action.cost? : Action → Option Nat
  | .proceed _ cost => some cost
  | .stop _ _ => none
  | .spawn _ _ _ | .receive _ _ | .invoke _ _ => some 1

/-- A call that can be made enters a function, and costs a unit more if there are arguments. -/
theorem Frame.enters_of_calling {frame : Frame} {instruction : Instruction} {request : Request}
    (calls : frame.calling instruction = .ok request) :
    ∃ callee, request = .enter frame callee (if 0 < instruction.b then 2 else 1) := by
  rw [calling] at calls
  cases reads : frame.register instruction.a with
  | error fault =>
    rw [reads] at calls
    exact absurd calls nofun
  | ok value =>
    rw [reads] at calls
    cases is : callable value with
    | error fault =>
      simp only [is, bind, Except.bind] at calls
      exact absurd calls nofun
    | ok function =>
      simp only [is, bind, Except.bind] at calls
      split at calls
      · exact absurd calls nofun
      · exact ⟨_, (Except.ok.inj calls).symm⟩

namespace Stack

variable {State : Type} {host : Host (StateM State)} {stack next : Stack}
  {state middle final : State} {status : Status} {limit spent cost last : Nat}

/-! ### Single instructions -/

/-- The units that the next instruction is charged: one, and one more if it is a call that hands
over arguments or a return to a caller. -/
def charge (stack : Stack) : Nat :=
  match stack.top.function.code[stack.top.pc]? with
  | none => 1
  | some instruction =>
    match instruction.opcode? with
    | some .call => if 0 < instruction.b then 2 else 1
    | some .ret => if stack.callers.isEmpty then 1 else 2
    | _ => 1

theorem charge_pos (stack : Stack) : 0 < stack.charge := by
  rw [charge]
  repeat' split
  all_goals decide

theorem charge_le (stack : Stack) : stack.charge ≤ 2 := by
  rw [charge]
  repeat' split
  all_goals decide

theorem charge_of_isAt {opcode : Opcode} {instruction : Instruction}
    (isAt : stack.top.IsAt opcode instruction) :
    stack.charge = match opcode with
      | .call => if 0 < instruction.b then 2 else 1
      | .ret => if stack.callers.isEmpty then 1 else 2
      | _ => 1 := by
  simp only [charge, isAt.present, isAt.opcode]
  cases opcode <;> rfl

/-- An instruction after which the execution goes on is one of those that there are. -/
theorem isAt_of_act (costs : stack.act.cost? = some cost) :
    ∃ opcode instruction, stack.top.IsAt opcode instruction := by
  cases present : stack.top.function.code[stack.top.pc]? with
  | none =>
    rw [act, Frame.next, present] at costs
    cases costs
  | some instruction =>
    cases known : instruction.opcode? with
    | none =>
      simp only [act, Frame.next, present, known] at costs
      cases costs
    | some opcode => exact ⟨opcode, instruction, present, known⟩

/-- A call is charged for the arguments that it hands over. -/
theorem charge_of_call {instruction : Instruction} (isAt : stack.top.IsAt .call instruction)
    (costs : stack.act.cost? = some cost) : cost = if 0 < instruction.b then 2 else 1 := by
  have next : stack.top.next = (stack.top.past, stack.top.past.calling instruction) :=
    Frame.next_of_isAt isAt
  rw [act, next] at costs
  cases calls : stack.top.past.calling instruction with
  | error fault =>
    rw [calls] at costs
    cases costs
  | ok request =>
    obtain ⟨callee, rfl⟩ := Frame.enters_of_calling calls
    rw [calls] at costs
    exact (Option.some.inj costs).symm

/-- A return to a caller costs two units. -/
theorem charge_of_return {instruction : Instruction} (isAt : stack.top.IsAt .ret instruction)
    (costs : stack.act.cost? = some cost) : cost = if stack.callers.isEmpty then 1 else 2 := by
  rw [act_of_isAt isAt] at costs
  cases called : stack.callers with
  | nil =>
    simp only [called, leave] at costs
    split at costs <;> cases costs
  | cons caller callers =>
    simp only [called, leave] at costs
    split at costs
    · exact (Option.some.inj costs).symm
    · split at costs
      · exact (Option.some.inj costs).symm
      · cases costs

/-- Whatever else goes on costs one unit. -/
theorem charge_of_other {opcode : Opcode} {instruction : Instruction}
    (isAt : stack.top.IsAt opcode instruction) (noCall : opcode ≠ .call) (noReturn : opcode ≠ .ret)
    (costs : stack.act.cost? = some cost) : cost = 1 := by
  obtain ⟨_, asked⟩ := stack.top.asked_next
  have same {other : Opcode} {also : Instruction} (there : stack.top.IsAt other also) :
      opcode = other := by
    obtain rfl := isAt.unique there
    exact Option.some.inj (isAt.opcode.symm.trans there.opcode)
  rw [act] at costs
  split at costs
  · cases costs
  · rename_i request asks
    rw [asks] at asked
    cases asked request rfl with
    | enter cost isCall => exact absurd (same isCall) noCall
    | leave isReturn => exact absurd (same isReturn) noReturn
    | pause => cases costs
    | proceed | spawn | receive | invoke => exact (Option.some.inj costs).symm

/-- The charge for an instruction after which the execution goes on. -/
theorem cost_of_act (costs : stack.act.cost? = some cost) : cost = stack.charge := by
  obtain ⟨opcode, instruction, isAt⟩ := isAt_of_act costs
  rw [charge_of_isAt isAt]
  cases opcode with
  | call => exact charge_of_call isAt costs
  | ret => exact charge_of_return isAt costs
  | _ => exact charge_of_other isAt nofun nofun costs

/-- The charge for an instruction of an execution that goes on does not depend on the host. -/
theorem cost_of_step (goes : stack.step host state = (.proceed next cost, middle)) :
    cost = stack.charge := by
  refine cost_of_act ?_
  have charged {after : Stack} {charge : Nat} {world : State}
      (same : ((.proceed after charge, world) : Progress × State) = (.proceed next cost, middle)) :
      some charge = some cost := congrArg some (Progress.proceed.inj (congrArg Prod.fst same)).2
  rw [step] at goes
  cases acts : stack.act with
  | proceed | spawn | invoke =>
    rw [acts] at goes
    exact charged goes
  | stop after status =>
    rw [acts] at goes
    cases congrArg Prod.fst goes
  | receive after destination =>
    rw [acts] at goes
    simp only [answer_bind] at goes
    cases message : (host.receive state).1 with
    | none =>
      rw [message] at goes
      cases congrArg Prod.fst goes
    | some value =>
      rw [message] at goes
      exact charged goes

/-! ### Executions -/

/-- The units that so many instructions are charged, one after another. -/
def charged (host : Host (StateM State)) : Nat → Stack × State → Nat
  | 0, _ => 0
  | count + 1, here => here.1.charge + charged host count (pass host here)

/-- A turn that has cost so many units before comes to an instruction, the first one being number
zero: those before it are passed, and leave the turn below its limit. -/
structure Comes (host : Host (StateM State)) (limit spent : Nat) (start : Stack × State)
    (last : Nat) : Prop where
  goes : ∀ earlier < last, Goes host ((pass host)^[earlier] start) ((pass host)^[earlier + 1] start)
  below : spent + charged host last start < limit

/-- A turn ends at an instruction because the task stops there, or it is cut behind that
instruction, because that one has brought it to the limit, or a unit beyond. No instruction brings
it nearer by more than two. -/
inductive Ends (host : Host (StateM State)) (limit spent : Nat) (start : Stack × State)
    (last : Nat) : Stack × Status → State → Prop
  | stops {next : Stack} {status : Status} {final : State}
      (steps : ((pass host)^[last] start).1.step host ((pass host)^[last] start).2 =
        (.stop next status, final)) : Ends host limit spent start last (next, status) final
  | cut {next : Stack} {final : State}
      (goes : Goes host ((pass host)^[last] start) (next, final))
      (reached : limit ≤ spent + charged host (last + 1) start)
      (leaps : spent + charged host (last + 1) start ≤ limit + 1)
      (many : limit ≤ spent + 2 * (last + 1)) :
      Ends host limit spent start last (next, .yielded) final

theorem pass_of_step {progress : Progress} (steps : stack.step host state = (progress, middle)) :
    pass host (stack, state) = (progress.stack, middle) := by
  rw [pass, steps]

/-- What comes after an instruction comes one instruction later for the whole. -/
theorem Comes.later (steps : stack.step host state = (.proceed next stack.charge, middle))
    (comes : Comes host limit (spent + stack.charge) (next, middle) last) :
    Comes host limit spent (stack, state) (last + 1) := by
  have passed : pass host (stack, state) = (next, middle) := pass_of_step steps
  refine ⟨fun earlier less => ?_, ?_⟩
  · cases earlier with
    | zero =>
      rw [Function.iterate_succ_apply, passed]
      exact ⟨_, steps⟩
    | succ earlier =>
      rw [Function.iterate_succ_apply, Function.iterate_succ_apply, passed]
      exact comes.goes earlier (Nat.lt_of_succ_lt_succ less)
  · rw [charged, passed, ← Nat.add_assoc]
    exact comes.below

theorem Ends.later {ended : Stack × Status}
    (steps : stack.step host state = (.proceed next stack.charge, middle))
    (ends : Ends host limit (spent + stack.charge) (next, middle) last ended final) :
    Ends host limit spent (stack, state) (last + 1) ended final := by
  have passed : pass host (stack, state) = (next, middle) := pass_of_step steps
  have place : (pass host)^[last + 1] (stack, state) = (pass host)^[last] (next, middle) := by
    rw [Function.iterate_succ_apply, passed]
  have units : spent + charged host (last + 1 + 1) (stack, state) =
      spent + stack.charge + charged host (last + 1) (next, middle) := by
    rw [charged, passed, Nat.add_assoc]
  cases ends with
  | stops stops => exact .stops (place ▸ stops)
  | cut goes reached leaps many =>
    have few := stack.charge_le
    exact .cut (place ▸ goes) (units ▸ reached) (units ▸ leaps) (by omega)

/-- A turn that is below its limit ends after as many instructions as units are left. -/
theorem ends_of_below (below : spent < limit) (stack : Stack) (state : State) :
    ∃ last ended final, spent + last < limit ∧ Comes host limit spent (stack, state) last ∧
      Ends host limit spent (stack, state) last ended final ∧
      ∀ fuel, last < fuel → stack.advance host limit fuel spent state = (some ended, final) := by
  induction left : limit - spent using Nat.strongRecOn generalizing spent stack state with
  | _ left inductionHypothesis =>
    cases steps : stack.step host state with
    | mk progress middle =>
      cases progress with
      | stop next status =>
        refine ⟨0, (next, status), middle, below, ⟨nofun, below⟩, .stops steps, ?_⟩
        rintro (_ | fuel) enough
        · exact absurd enough (Nat.lt_irrefl 0)
        · exact advance_of_stop steps limit fuel spent
      | proceed next cost =>
        obtain rfl := cost_of_step steps
        have costs := stack.charge_pos
        have few := stack.charge_le
        have goes : Goes host (stack, state) (next, middle) := ⟨_, steps⟩
        by_cases reached : limit ≤ spent + stack.charge
        · have leaps : spent + stack.charge ≤ limit + 1 := by omega
          refine ⟨0, (next, .yielded), middle, below, ⟨nofun, below⟩,
            .cut goes reached leaps (by omega), ?_⟩
          rintro (_ | fuel) enough
          · exact absurd enough (Nat.lt_irrefl 0)
          · rw [advance_of_proceed steps, if_pos ⟨by omega, reached⟩]
        · have unreached : spent + stack.charge < limit := Nat.lt_of_not_le reached
          obtain ⟨last, ended, final, soon, comes, ends, result⟩ := inductionHypothesis
            (limit - (spent + stack.charge)) (by omega) unreached next middle rfl
          refine ⟨last + 1, ended, final, by omega, comes.later steps, ends.later steps, ?_⟩
          rintro (_ | fuel) enough
          · exact absurd enough (Nat.not_lt_zero _)
          · rw [advance_of_proceed steps, if_neg (fun limited => reached limited.2)]
            exact result fuel (Nat.lt_of_succ_lt_succ enough)

/-- The limit bounds every turn. It ends within as many instructions as the limit has units, and no
patience is needed to see that. Before the last of them fewer units were charged than the limit has.
If the turn is cut there, it is charged the limit or a unit more, and the instructions are at least
half as many. -/
theorem ends_within_limit (host : Host (StateM State)) (limited : 0 < limit) (stack : Stack)
    (state : State) :
    ∃ last ended final, last < limit ∧
      (∀ fuel, last < fuel → stack.advance host limit fuel 0 state = (some ended, final)) ∧
      (∀ patience, stack.execute host limit patience state = (some ended, final)) ∧
      Comes host limit 0 (stack, state) last ∧
      Ends host limit 0 (stack, state) last ended final := by
  obtain ⟨last, ended, final, soon, comes, ends, result⟩ := ends_of_below limited stack state
  rw [Nat.zero_add] at soon
  refine ⟨last, ended, final, soon, result, fun patience => ?_, comes, ends⟩
  rw [execute, if_neg (Nat.ne_of_gt limited)]
  exact result limit soon

/-- With a limit of three, the turn is cut where the function is entered that is called, after three
instructions that are charged four units. -/
theorem relaying_leaps : charged Solo.host 3 (.entering relaying, relayed) = 4 ∧
    ∃ last next final, last < 3 ∧ Comes Solo.host 3 0 (.entering relaying, relayed) last ∧
      Ends Solo.host 3 0 (.entering relaying, relayed) last (next, .yielded) final := by
  obtain ⟨last, ⟨next, status⟩, final, soon, _, turn, comes, ends⟩ :=
    ends_within_limit Solo.host (by decide : 0 < 3) (.entering relaying) relayed
  have cut : ((Stack.entering relaying).execute Solo.host 3 0 relayed).1.map Prod.snd =
      some .yielded := rfl
  rw [turn 0] at cut
  obtain rfl : status = .yielded := Option.some.inj cut
  exact ⟨rfl, last, next, final, soon, comes, ends⟩

end Stack

end TaskMachine

/-
What a thread owes. A completion is owed by the thread that its task was sent to
until it is filled, whether the thread has promised that already or has not yet
taken the task in. A turn makes no new debts, and it pays those that it strikes
out, but for one case: a thread that has seen that nothing is left to refuse is
about to close, and what is sent to it then is lost when it does. Such completions
are `late`.
-/

import TaskMachine.Proofs.Pool.Books

namespace TaskMachine

/-- The promises that have come due and were not looked at. -/
def Phase.due : Phase → List (Nat × Outcome)
  | counting due _ | filling _ _ due _ => due
  | _ => []

/-- The completion that is about to be filled. -/
def Phase.filling? : Phase → Option Nat
  | filling completion _ _ _ => some completion
  | _ => none

/-- Whether a thread that has kept what has come due goes on or stops, and does nothing else. -/
def Phase.Plain : Phase → Prop
  | counting _ next | filling _ _ _ next =>
    next = .checking ∨ next = .waiting ∨ next = .parked ∨ next = .stopped
  | _ => True

theorem Phase.Plain.filling?_eq_none {next : Phase} {due : List (Nat × Outcome)}
    (plain : (counting due next).Plain) : next.filling? = none := by
  rcases plain with rfl | rfl | rfl | rfl <;> rfl

namespace Books

/-- The thread has promised to fill the completion. -/
def Promises (books : Books) (completion : Nat) : Prop :=
  (∃ promise : Nat, books.promises[promise]? = some (some completion)) ∨
    books.phase.filling? = some completion

/-- The thread is the one to fill the completion. -/
def Owes (books : Books) (completion : Nat) : Prop :=
  (∃ command ∈ books.commands, command.completion = completion) ∨ books.Promises completion

/-- The books are in order, if some completions were sent too late and there are so many in all. -/
structure Balanced (books : Books) (late : List Nat) (size : Nat) : Prop where
  plain : books.phase.Plain
  known : ∀ completion, books.Owes completion → completion < size
  late_iff : ∀ command ∈ books.commands, command.completion ∈ late ↔ books.phase = .closing
  unpromised : ∀ completion ∈ late, ¬ books.Promises completion
  opened : books.isOpen = true → books.phase.aim ≠ .stopped
  closed : books.isOpen = false → books.phase.aim = .stopped ∧ books.commands = [] ∧
    ∀ promise completion : Nat, books.promises[promise]? = some (some completion) →
      ∃ outcome, (promise, outcome) ∈ books.phase.due

variable {books next : Books} {stopping : Bool} {filled : Option (Nat × Outcome)}
  {late tardy : List Nat} {size completion : Nat} {command : Command}

/-- A thread that is not about to stop is open. -/
theorem Balanced.isOpen (balanced : books.Balanced late size)
    (goesOn : books.phase.aim ≠ .stopped) : books.isOpen = true := by
  cases isOpen : books.isOpen with
  | true => rfl
  | false => exact absurd (balanced.closed isOpen).1 goesOn

/-- A thread that has stopped owes nothing. -/
theorem Balanced.not_owes (balanced : books.Balanced late size) (stopped : books.phase = .stopped) :
    ¬ books.Owes completion := by
  have isClosed : books.isOpen = false := by
    cases isOpen : books.isOpen with
    | true => exact absurd (congrArg Phase.aim stopped) (balanced.opened isOpen)
    | false => rfl
  obtain ⟨_, empty, due⟩ := balanced.closed isClosed
  rintro (⟨command, member, _⟩ | ⟨promise, promised⟩ | filling)
  · rw [empty] at member
    exact absurd member List.not_mem_nil
  · obtain ⟨outcome, member⟩ := due promise completion promised
    rw [stopped] at member
    exact absurd member List.not_mem_nil
  · rw [stopped] at filling
    exact absurd filling nofun

/-- A thread that has stopped makes no turn. -/
theorem Turn.not_stopped (turn : Turn stopping books next filled) : books.phase ≠ .stopped := by
  intro stopped
  cases turn <;> simp_all

/-! ### What a turn does to debts -/

/-- What is owed does not hang on the phase, but for a completion that is about to be filled. -/
theorem Owes.moved {phase : Phase} (owed : books.Owes completion)
    (idle : books.phase.filling? = none) : ({ books with phase } : Books).Owes completion := by
  rcases owed with told | promised | filling
  · exact Or.inl told
  · exact Or.inr (Or.inl promised)
  · exact absurd (idle.symm.trans filling) nofun

theorem Owes.of_moved {phase : Phase} (owed : ({ books with phase } : Books).Owes completion)
    (idle : phase.filling? = none) : books.Owes completion := by
  have back : ({ ({ books with phase } : Books) with phase := books.phase } : Books).Owes
      completion := owed.moved idle
  exact back

/-- A thread that does not see the pool shut down does not go on to refuse tasks. -/
theorem Turn.goesOn (turn : Turn false books next filled) (plain : books.phase.Plain)
    (before : books.phase ≠ .draining ∧ books.phase ≠ .closing) :
    next.phase ≠ .draining ∧ next.phase ≠ .closing := by
  cases turn with
  | look | receive | tick | skip | countOff | fill | wake | close => exact ⟨nofun, nofun⟩
  | takeIn => exact before
  | counted phase =>
    rw [phase] at plain
    rcases plain with rfl | rfl | rfl | rfl <;> exact ⟨nofun, nofun⟩
  | drain phase | drained phase => exact absurd phase before.1

/-- A turn makes no new debts. -/
theorem Turn.owes (turn : Turn stopping books next filled) (balanced : books.Balanced late size)
    (owed : next.Owes completion) : books.Owes completion := by
  cases turn with
  | look => exact owed.of_moved (by split <;> rfl)
  | receive | tick | skip | fill | wake | drained => exact owed.of_moved rfl
  | counted phase => exact owed.of_moved (phase ▸ balanced.plain : Phase.Plain _).filling?_eq_none
  | takeIn phase commands =>
    rcases owed with ⟨command, member, rfl⟩ | ⟨promise, promised⟩ | filling
    · exact Or.inl ⟨command, commands ▸ List.mem_cons_of_mem _ member, rfl⟩
    · rw [Array.getElem?_push] at promised
      split at promised
      · obtain rfl := Option.some.inj (Option.some.inj promised)
        exact Or.inl ⟨_, commands ▸ List.mem_cons_self, rfl⟩
      · exact Or.inr (Or.inl ⟨promise, promised⟩)
    · exact Or.inr (Or.inr filling)
  | countOff phase kept =>
    rcases owed with told | ⟨promise, promised⟩ | filling
    · exact Or.inl told
    · refine Or.inr (Or.inl ⟨promise, ?_⟩)
      rw [Array.getElem?_setIfInBounds] at promised
      split at promised
      · split at promised
        · exact absurd promised nofun
        · exact absurd promised nofun
      · exact promised
    · obtain rfl := Option.some.inj filling
      exact Or.inr (Or.inl ⟨_, Option.join_eq_some_iff.mp kept⟩)
  | drain phase commands =>
    rcases owed with ⟨command, member, rfl⟩ | promised
    · exact Or.inl ⟨command, commands ▸ List.mem_cons_of_mem _ member, rfl⟩
    · exact Or.inr promised
  | close phase =>
    rcases owed with ⟨command, member, _⟩ | promised | filling
    · exact absurd member List.not_mem_nil
    · exact Or.inr (Or.inl promised)
    · exact absurd filling nofun

/-- A turn fills only what is owed and not late. -/
theorem Turn.fills {outcome : Outcome}
    (turn : Turn stopping books next (some (completion, outcome)))
    (balanced : books.Balanced late size) : books.Owes completion ∧ completion ∉ late := by
  cases turn with
  | fill phase =>
    have promises : books.Promises completion := Or.inr (by rw [phase]; rfl)
    exact ⟨Or.inr promises, fun tardy => balanced.unpromised _ tardy promises⟩
  | drain phase commands =>
    refine ⟨Or.inl ⟨_, commands ▸ List.mem_cons_self, rfl⟩, fun tardy => ?_⟩
    have closing := (balanced.late_iff _ (commands ▸ List.mem_cons_self)).mp tardy
    exact absurd (phase.symm.trans closing) nofun

/-- What is owed and not late is owed after a turn, or it is filled. -/
theorem Turn.kept (turn : Turn stopping books next filled) (balanced : books.Balanced late size)
    (owed : books.Owes completion) :
    next.Owes completion ∨ (∃ outcome, filled = some (completion, outcome)) ∨
      completion ∈ late := by
  cases turn with
  | look phase | receive phase | tick phase | counted phase | skip phase | drained phase =>
    exact Or.inl (owed.moved (by rw [phase]; rfl))
  | wake phase =>
    exact Or.inl (owed.moved (by rcases phase with phase | phase <;> rw [phase] <;> rfl))
  | takeIn phase commands =>
    rcases owed with ⟨command, member, rfl⟩ | ⟨promise, promised⟩ | filling
    · rw [commands] at member
      rcases List.mem_cons.mp member with rfl | member
      · exact Or.inl (Or.inr (Or.inl ⟨books.promises.size, Array.getElem?_push_size⟩))
      · exact Or.inl (Or.inl ⟨command, member, rfl⟩)
    · obtain ⟨within, _⟩ := Array.getElem?_eq_some_iff.mp promised
      refine Or.inl (Or.inr (Or.inl ⟨promise, ?_⟩))
      rw [Array.getElem?_push, if_neg (Nat.ne_of_lt within), promised]
    · exact Or.inl (Or.inr (Or.inr filling))
  | @countOff place _ _ _ _ phase kept =>
    rcases owed with told | ⟨promise, promised⟩ | filling
    · exact Or.inl (Or.inl told)
    · by_cases is : place = promise
      · subst is
        rw [promised] at kept
        exact Or.inl (Or.inr (Or.inr kept.symm))
      · refine Or.inl (Or.inr (Or.inl ⟨promise, ?_⟩))
        rw [Array.getElem?_setIfInBounds, if_neg is, promised]
    · rw [phase] at filling
      exact absurd filling nofun
  | fill phase =>
    rcases owed with told | promised | filling
    · exact Or.inl (Or.inl told)
    · exact Or.inl (Or.inr (Or.inl promised))
    · rw [phase] at filling
      obtain rfl := Option.some.inj filling
      exact Or.inr (Or.inl ⟨_, rfl⟩)
  | drain phase commands =>
    rcases owed with ⟨command, member, rfl⟩ | promised
    · rw [commands] at member
      rcases List.mem_cons.mp member with rfl | member
      · exact Or.inr (Or.inl ⟨_, rfl⟩)
      · exact Or.inl (Or.inl ⟨command, member, rfl⟩)
    · exact Or.inl (Or.inr promised)
  | close phase =>
    rcases owed with ⟨command, member, rfl⟩ | promised | filling
    · exact Or.inr (Or.inr ((balanced.late_iff command member).mpr phase))
    · exact Or.inl (Or.inr (Or.inl promised))
    · rw [phase] at filling
      exact absurd filling nofun

/-! ### What a turn does to the order of the books -/

/-- The books stay in order when only the phase changes, and it goes on to the same end. -/
theorem Balanced.moved {phase : Phase} (balanced : books.Balanced late size) (plain : phase.Plain)
    (idle : phase.filling? = none)
    (closing : ∀ command ∈ books.commands, books.phase = .closing ↔ phase = .closing)
    (aim : phase.aim = .stopped ↔ books.phase.aim = .stopped)
    (due : phase.aim = .stopped → ∀ promise completion : Nat,
      books.promises[promise]? = some (some completion) →
        ∀ outcome, (promise, outcome) ∈ books.phase.due → (promise, outcome) ∈ phase.due) :
    ({ books with phase } : Books).Balanced late size where
  plain := plain
  known := fun completion owed => balanced.known completion (owed.of_moved idle)
  late_iff := fun command member =>
    (balanced.late_iff command member).trans (closing command member)
  unpromised := fun completion tardy promises => by
    rcases promises with promised | filling
    · exact balanced.unpromised completion tardy (Or.inl promised)
    · exact absurd (idle.symm.trans filling) nofun
  opened := fun isOpen stops => balanced.opened isOpen (aim.mp stops)
  closed := fun isClosed => by
    obtain ⟨stops, empty, kept⟩ := balanced.closed isClosed
    refine ⟨aim.mpr stops, empty, fun promise completion promised => ?_⟩
    obtain ⟨outcome, member⟩ := kept promise completion promised
    exact ⟨outcome, due (aim.mpr stops) promise completion promised outcome member⟩

/-- A thread that is not about to stop goes on. -/
theorem Balanced.goesOn {phase : Phase} (balanced : books.Balanced late size) (plain : phase.Plain)
    (idle : phase.filling? = none)
    (closing : ∀ command ∈ books.commands, books.phase = .closing ↔ phase = .closing)
    (before : books.phase.aim ≠ .stopped) (goesOn : phase.aim ≠ .stopped) :
    ({ books with phase } : Books).Balanced late size :=
  balanced.moved plain idle closing (iff_of_false goesOn before) fun stops => absurd stops goesOn

/-- A task that is taken in is promised to be answered. -/
theorem Balanced.takeIn {command : Command} {rest : List Command}
    (balanced : books.Balanced late size) (phase : books.phase = .receiving)
    (commands : books.commands = command :: rest) :
    ({ books with commands := rest, promises := books.promises.push (some command.completion) } :
      Books).Balanced late size := by
  have opened := balanced.isOpen (by rw [phase]; exact nofun)
  have timely {told : Command} (member : told ∈ books.commands) : told.completion ∉ late := by
    rw [balanced.late_iff told member, phase]
    exact nofun
  have turn : Turn false books _ none := .takeIn phase commands
  refine ⟨balanced.plain, fun completion owed => balanced.known completion
      (turn.owes balanced owed), fun told member => ?_, fun completion tardy promises => ?_,
    balanced.opened, fun isClosed => absurd (opened.symm.trans isClosed) nofun⟩
  · exact balanced.late_iff told (commands ▸ List.mem_cons_of_mem _ member)
  · rcases promises with ⟨promise, promised⟩ | filling
    · rw [Array.getElem?_push] at promised
      split at promised
      · obtain rfl := Option.some.inj (Option.some.inj promised)
        exact timely (commands ▸ List.mem_cons_self) tardy
      · exact balanced.unpromised completion tardy (Or.inl ⟨promise, promised⟩)
    · exact balanced.unpromised completion tardy (Or.inr filling)

/-- A promise that has come due is counted off, and others that have come due still have. -/
theorem Balanced.countOff {place promise : Nat} {outcome : Outcome} {due : List (Nat × Outcome)}
    {after : Phase} (balanced : books.Balanced late size)
    (phase : books.phase = .counting ((place, outcome) :: due) after)
    (kept : books.promises[place]?.join = some promise) :
    ({ books with
        promises := books.promises.setIfInBounds place none
        phase := .filling promise outcome due after } : Books).Balanced late size := by
  have plain := balanced.plain
  rw [phase] at plain
  have left {other completion : Nat}
      (promised : (books.promises.setIfInBounds place none)[other]? = some (some completion)) :
      place ≠ other ∧ books.promises[other]? = some (some completion) := by
    rw [Array.getElem?_setIfInBounds] at promised
    split at promised
    · split at promised <;> exact absurd promised nofun
    · exact ⟨‹_›, promised⟩
  have turn : Turn false books _ none := .countOff phase kept
  refine ⟨plain, fun completion owed => balanced.known completion (turn.owes balanced owed),
    fun told member => ?_, fun completion tardy promises => ?_, fun isOpen => ?_,
    fun isClosed => ?_⟩
  · rw [balanced.late_iff told member, phase]
    exact iff_of_false nofun nofun
  · refine balanced.unpromised completion tardy (Or.inl ?_)
    rcases promises with ⟨other, promised⟩ | filling
    · exact ⟨other, (left promised).2⟩
    · obtain rfl := Option.some.inj filling
      exact ⟨place, Option.join_eq_some_iff.mp kept⟩
  · have goesOn := balanced.opened isOpen
    rw [phase] at goesOn
    exact goesOn
  · obtain ⟨stops, empty, dues⟩ := balanced.closed isClosed
    rw [phase] at stops dues
    refine ⟨stops, empty, fun other completion promised => ?_⟩
    obtain ⟨differ, before⟩ := left promised
    obtain ⟨found, member⟩ := dues other completion before
    refine ⟨found, (List.mem_cons.mp member).resolve_left fun is => differ ?_⟩
    exact (congrArg Prod.fst is).symm

/-- When a thread closes, all its promises come due. -/
theorem Balanced.close (balanced : books.Balanced late size) :
    ({ books with
        commands := []
        isOpen := false
        phase := .counting books.allDue .stopped } : Books).Balanced late size where
  plain := Or.inr (Or.inr (Or.inr rfl))
  known := fun completion owed => by
    rcases owed with ⟨command, member, _⟩ | promised | filling
    · exact absurd member List.not_mem_nil
    · exact balanced.known completion (Or.inr (Or.inl promised))
    · exact absurd filling nofun
  late_iff := fun told member => absurd member List.not_mem_nil
  unpromised := fun completion tardy promises => by
    rcases promises with promised | filling
    · exact balanced.unpromised completion tardy (Or.inl promised)
    · exact absurd filling nofun
  opened := nofun
  closed := fun _ => by
    refine ⟨rfl, rfl, fun promise completion promised => ⟨.error .shutdown, ?_⟩⟩
    obtain ⟨within, _⟩ := Array.getElem?_eq_some_iff.mp promised
    exact List.mem_map.mpr ⟨promise, List.mem_range.mpr within, rfl⟩

/-- The books stay in order. -/
theorem Turn.balanced (turn : Turn stopping books next filled)
    (balanced : books.Balanced late size) : next.Balanced late size := by
  cases turn with
  | look phase =>
    refine balanced.goesOn ?_ ?_ (fun _ _ => ?_) (by rw [phase]; exact nofun) ?_
    · split <;> trivial
    · split <;> rfl
    · rw [phase]
      split <;> simp
    · split <;> exact nofun
  | receive phase =>
    exact balanced.goesOn trivial rfl (fun _ _ => by simp [phase]) (by rw [phase]; exact nofun)
      nofun
  | tick phase due left =>
    refine balanced.goesOn ?_ rfl (fun _ _ => by simp [phase]) (by rw [phase]; exact nofun) ?_
    · cases left
      · exact Or.inl rfl
      · exact Or.inr (Or.inl rfl)
      · exact Or.inr (Or.inr (Or.inl rfl))
    · cases left <;> exact nofun
  | wake phase =>
    have before : books.phase.aim ≠ .stopped := by
      rcases phase with phase | phase <;> rw [phase] <;> exact nofun
    refine balanced.goesOn trivial rfl (fun _ _ => ?_) before nofun
    rcases phase with phase | phase <;> simp [phase]
  | drained phase empty =>
    refine balanced.goesOn trivial rfl (fun command member => ?_) (by rw [phase]; exact nofun) nofun
    exact absurd (empty ▸ member) List.not_mem_nil
  | @counted after phase =>
    have plain := balanced.plain
    rw [phase] at plain
    refine balanced.moved ?_ plain.filling?_eq_none (fun _ _ => ?_) (by rw [phase]; rfl)
      fun _ promise completion promised outcome member => ?_
    · rcases plain with rfl | rfl | rfl | rfl <;> trivial
    · rcases plain with rfl | rfl | rfl | rfl <;> simp [phase]
    · rw [phase] at member
      exact absurd member List.not_mem_nil
  | skip phase kept =>
    have plain := balanced.plain
    rw [phase] at plain
    refine balanced.moved plain rfl (fun _ _ => by simp [phase]) (by rw [phase]; rfl)
      fun _ promise completion promised outcome member => ?_
    rw [phase] at member
    rcases List.mem_cons.mp member with is | member
    · obtain ⟨rfl, rfl⟩ := Prod.mk.inj is
      rw [promised] at kept
      exact absurd kept nofun
    · exact member
  | fill phase =>
    have plain := balanced.plain
    rw [phase] at plain
    refine balanced.moved plain rfl (fun _ _ => by simp [phase]) (by rw [phase]; rfl)
      fun _ promise completion promised outcome member => ?_
    rw [phase] at member
    exact member
  | takeIn phase commands => exact balanced.takeIn phase commands
  | countOff phase kept => exact balanced.countOff phase kept
  | drain phase commands =>
    have opened := balanced.isOpen (by rw [phase]; exact nofun)
    have drains : Turn stopping books _ _ := .drain phase commands
    exact ⟨balanced.plain, fun completion owed => balanced.known completion
        (drains.owes balanced owed),
      fun told member => balanced.late_iff told (commands ▸ List.mem_cons_of_mem _ member),
      balanced.unpromised, balanced.opened,
      fun isClosed => absurd (opened.symm.trans isClosed) nofun⟩
  | close phase => exact balanced.close

/-! ### Tasks that are sent -/

/-- A completion more makes no difference to the books of the threads that do not owe it. -/
theorem Balanced.grow (balanced : books.Balanced late size)
    (same : ∀ completion < size, completion ∈ tardy ↔ completion ∈ late) :
    books.Balanced tardy (size + 1) where
  plain := balanced.plain
  known := fun completion owed => Nat.lt_succ_of_lt (balanced.known completion owed)
  late_iff := fun command member =>
    (same _ (balanced.known _ (Or.inl ⟨command, member, rfl⟩))).trans
      (balanced.late_iff command member)
  unpromised := fun completion late promises =>
    balanced.unpromised completion ((same _ (balanced.known _ (Or.inr promises))).mp late) promises
  opened := balanced.opened
  closed := balanced.closed

/-- A thread that is open is sent a task. -/
theorem Balanced.told (balanced : books.Balanced tardy size) (isOpen : books.isOpen = true)
    (known : command.completion < size)
    (late : command.completion ∈ tardy ↔ books.phase = .closing) :
    ({ books with commands := books.commands ++ [command] } : Books).Balanced tardy size where
  plain := balanced.plain
  known := fun completion owed => by
    rcases owed with ⟨told, member, rfl⟩ | promises
    · rcases List.mem_append.mp member with before | new
      · exact balanced.known _ (Or.inl ⟨told, before, rfl⟩)
      · rw [List.mem_singleton.mp new]
        exact known
    · exact balanced.known _ (Or.inr promises)
  late_iff := fun told member => by
    rcases List.mem_append.mp member with before | new
    · exact balanced.late_iff told before
    · rw [List.mem_singleton.mp new]
      exact late
  unpromised := balanced.unpromised
  opened := balanced.opened
  closed := fun isClosed => absurd (isOpen.symm.trans isClosed) nofun

end Books

end TaskMachine

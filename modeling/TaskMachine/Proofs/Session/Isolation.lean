/-
Turns are isolated. A step gives a turn to the task at the head of the run queue,
and that is the only task that it is about, whatever the task does: of every
other one that is not swept out as an orphan nothing changes but the references
that children of it held which are gone, and the messages in its inbox, to which
answers and reports may have been added. And those who come are the children that
the task has spawned.

`Steps` says which ways a step can go. Each is made of pieces that are `Confined`:
the execution, and then the way to a queue, or the ending of the task and of its
orphans.
-/

import TaskMachine.Proofs.Session.Births
import TaskMachine.Proofs.Session.Inboxes

namespace TaskMachine

/-! ### What others keep -/

/-- The messages among some letters that are for a given inbox, in order. -/
def arrivals (mailbox : Mailbox) (letters : List Letter) : List Message :=
  (letters.filter fun letter => letter.mailbox = mailbox).map Letter.message

namespace Mailroom

variable {room before after : Mailroom} {mailbox own : Mailbox} {pending : List Message}
  {letters : List Letter}

theorem Holds.deliver (holds : room.Holds mailbox pending) (letters : List Letter) :
    (room.deliver letters).Holds mailbox (pending ++ arrivals mailbox letters) := by
  induction letters generalizing room pending with
  | nil => rwa [arrivals, List.filter_nil, List.map_nil, List.append_nil]
  | cons letter rest inductionHypothesis =>
    by_cases same : letter.mailbox = mailbox
    · subst same
      have sent := inductionHypothesis (holds.send letter.message).1
      rw [List.append_assoc] at sent
      rwa [arrivals, List.filter_cons_of_pos (by simp), List.map_cons]
    · have others := (room.inboxes_send letter.mailbox letter.message).2 mailbox (Ne.symm same)
      have sent := inductionHypothesis (holds.of_inboxes others)
      rwa [arrivals, List.filter_cons_of_neg (by simpa using same)]

/-- In an inbox that nobody takes from, the letters for it stand behind what was there. -/
theorem Gains.holds (gains : before.Gains own letters after) (other : mailbox ≠ own)
    (holds : before.Holds mailbox pending) :
    after.Holds mailbox (pending ++ arrivals mailbox letters) := by
  have known : mailbox.inbox < before.inboxes.size := by
    obtain ⟨owner, inbox, is, -⟩ := holds
    exact (Array.getElem?_eq_some_iff.mp is).1
  exact (holds.deliver letters).of_inboxes (gains.inboxes mailbox other known)

end Mailroom

namespace Roster

variable {before after : Roster} {mover slot : Slot} {touched : List Slot} {births : Nat}

/-- The children of the task at a place that are gone. -/
def lost (before after : Roster) (slot : Slot) : Finset Slot :=
  (before.children slot).filter fun child => after.task? child = none

/-- The children of a task that does not have its turn are those that it had and has not lost. -/
theorem Spares.children (spares : before.Spares mover touched births after) (other : slot ≠ mover) :
    (before.children slot).card = (after.children slot).card + (before.lost after slot).card := by
  have stays : after.children slot =
      (before.children slot).filter fun child => ¬ after.task? child = none := by
    ext child
    rw [Finset.mem_filter, mem_children, mem_children]
    constructor
    · rintro ⟨later, present, own⟩
      rcases Nat.lt_or_ge child before.tasks.size with old | new
      · obtain ⟨earlier, earlierPresent, origin, -⟩ := spares.known child later old present
        have parent : later.parent = earlier.parent := congrArg Prod.fst origin
        exact ⟨⟨earlier, earlierPresent, parent.symm.trans own⟩, by rw [present]; nofun⟩
      · have parent := spares.born child later new present
        exact absurd (Option.some.inj (own.symm.trans parent)) other
    · rintro ⟨⟨earlier, earlierPresent, own⟩, there⟩
      obtain ⟨later, present⟩ := Option.ne_none_iff_exists'.mp there
      obtain ⟨found, foundPresent, origin, -⟩ :=
        spares.known child later (lt_size_of_task?_eq_some earlierPresent) present
      obtain rfl := Option.some.inj (earlierPresent.symm.trans foundPresent)
      have parent : later.parent = earlier.parent := congrArg Prod.fst origin
      exact ⟨later, present, parent.trans own⟩
  rw [stays, lost, Nat.add_comm]
  exact (Finset.card_filter_add_card_filter_not _).symm

end Roster

namespace Scheduler

/-- The ways of a step that gives a turn to the task at a place, with those who are swept out. -/
inductive Steps (scheduler : Scheduler) (slot : Slot) : List Slot → Scheduler → Prop
  /-- The task ends, and then the orphans do that it leaves. -/
  | ends {exit : Exit} {middle left final : Scheduler} {swept : List Slot}
      (finishes : scheduler.Finishes slot exit middle)
      (ends : endTask slot exit middle = .ok ⟨⟩ left)
      (sweeps : left.Endings (swept.map (·, .orphaned)) final)
      (orphans : ∀ other ∈ swept, left.roster.Orphan other) : Steps scheduler slot swept final
  /-- The task is executed and goes to a queue. -/
  | stays {task : Task} {stack after : Stack} {status : Status} {middle final : Scheduler}
      (cared : ¬ scheduler.roster.Bereft slot)
      (present : scheduler.roster.task? slot = some task) (mans : task.stack = some stack)
      (runs : stack.execute (hostFor slot) scheduler.config.execLimit scheduler.patience
        (scheduler.manned slot) = .ok (some (after, status)) middle)
      (stays : status.exit? = none)
      (settles : settle slot task.id after status middle = .ok ⟨⟩ final) :
      Steps scheduler slot [] final

/-- A letter in a step that ends the task at a place, and then some orphans: it reports one of these
exits to a task above that traps exits. -/
def ClosingReports (scheduler : Scheduler) (slot : Slot) (swept : List Slot) (letter : Letter) :
    Prop :=
  ∃ exit middle, scheduler.Finishes slot exit middle ∧
    middle.Reports ((slot, exit) :: swept.map (·, .orphaned)) letter

/-- A step that gives a turn to the task at a place, and in which the orphans at some places are
swept out, leaves all others alone. -/
structure Isolated (before : Scheduler) (slot : Slot) (swept : List Slot) (after : Scheduler) :
    Prop where
  /-- Who is swept out was alive, and is a zombie or gone. -/
  orphans : ∀ other ∈ swept, other ≠ slot ∧
    (∀ earlier, before.roster.task? other = some earlier → earlier.life = .alive) ∧
    ∀ later, after.roster.task? other = some later → later.life = .zombie
  /-- Who is not is as before, without the references of the children that are gone. -/
  others : ∀ other earlier later, other ≠ slot → other ∉ swept →
    before.roster.task? other = some earlier → after.roster.task? other = some later →
    later.own = earlier.own ∧
      earlier.references = later.references + (before.roster.lost after.roster other).card
  /-- To the inboxes from which the task does not take, only answers and reports have come. -/
  inboxes : ∀ task, before.roster.task? slot = some task → ∃ letters,
    (∀ mailbox pending, mailbox ≠ task.mailbox → before.mailroom.Holds mailbox pending →
      after.mailroom.Holds mailbox (pending ++ arrivals mailbox letters)) ∧
    before.mailroom.Gains task.mailbox letters after.mailroom ∧
    ∀ letter ∈ letters, before.Answers after letter ∨ before.ClosingReports slot swept letter
  /-- For each instruction that spawned a child was born at the time, and nobody else. -/
  births : Births (before.passed slot) before.roster.tasks.size after.roster.tasks.size
  /-- Whoever is new is a child of the task. -/
  children : ∀ other later, before.roster.tasks.size ≤ other →
    after.roster.task? other = some later → later.parent = some slot

variable {origin scheduler middle left final : Scheduler} {ended swept : List Slot}
  {lists : Lane → List Slot} {held unscheduled : List TaskId} {slot : Slot} {task : Task}
  {stack : Stack} {exit : Exit} {outcome : Option (Stack × Status)}

/-! ### The execution -/

/-- What an execution that was finished leads to is confined to the task, and whom it has brought
about are the children that were spawned. -/
theorem Sound.confined_of_execute
    (sound : scheduler.Sound origin ended lists held unscheduled none none)
    (first : scheduler.roster.run.head = some slot) (cared : ¬ scheduler.roster.Bereft slot)
    (present : scheduler.roster.task? slot = some task) (mans : task.stack = some stack)
    (runs : stack.execute (hostFor slot) scheduler.config.execLimit scheduler.patience
      (scheduler.manned slot) = .ok outcome middle) (reported : Letter → Prop) :
    (∃ births, scheduler.Confined slot task.mailbox [slot] reported births middle) ∧
      Births (scheduler.passed slot) scheduler.roster.tasks.size middle.roster.tasks.size := by
  refine ⟨(after_execute_confined present stack _ _).ok runs, ?_⟩
  have manned : (scheduler.manned slot).MidTurn origin ended lists held unscheduled slot := by
    refine ⟨[], ?_⟩
    rw [List.append_nil, Function.update_eq_self]
    exact sound.rearrange (Roster.map_alter _ slot Task.seen_disarm)
      (sound.queued.disarm (sound.head.symm.trans first))
  have births := (manned.after_advance_births _ _ _ stack).ok runs
  have same : (scheduler.manned slot).roster.tasks.size = scheduler.roster.tasks.size :=
    Roster.size_alter _ _ _
  rw [same] at births
  rw [sound.passed_eq cared present mans]
  exact births

/-- The task that a step ends has done nothing until then that is not confined to it. -/
theorem Finishes.confined
    (sound : scheduler.Sound origin ended lists held unscheduled none none)
    (finishes : scheduler.Finishes slot exit middle)
    (present : scheduler.roster.task? slot = some task) (reported : Letter → Prop) :
    (∃ births, scheduler.Confined slot task.mailbox [slot] reported births middle) ∧
      Births (scheduler.passed slot) scheduler.roster.tasks.size middle.roster.tasks.size := by
  cases finishes with
  | bereft first bereft =>
    refine ⟨⟨0, .quiet (.refl _ slot _) (.refl _) rfl rfl⟩, ?_⟩
    rw [sound.passed_eq_nil bereft]
    exact .nil
  | stops first cared again mans runs exits =>
    obtain rfl := Option.some.inj (present.symm.trans again)
    exact sound.confined_of_execute first cared present mans runs reported

/-! ### The endings -/

/-- Who has ended is a zombie, or gone. -/
theorem Endings.outlived {now : Scheduler} {endings : List (Slot × Exit)}
    (chain : now.Endings endings final) :
    now.roster.Outlived final.roster (endings.map Prod.fst).reverse := by
  induction chain with
  | done now deathsPending => exact .refl _
  | @one now middle final place exit rest deathsPending ends _ inductionHypothesis =>
    have parted := ((after_endTask_confined place place default exit _).ok ends).1
    rw [List.map_cons, List.reverse_cons]
    have parts : now.roster.Outlived middle.roster [place] := parted
    exact parts.trans inductionHypothesis

/-- The orphans that a task leaves were alive when it ended, and it is none of them. -/
theorem Finishes.orphan_alive
    (sound : scheduler.Sound scheduler [] lists held unscheduled none none)
    (finishes : scheduler.Finishes slot exit middle) (ends : endTask slot exit middle = .ok ⟨⟩ left)
    {other : Slot} (orphan : left.roster.Orphan other) :
    other ≠ slot ∧ ∃ task, left.roster.task? other = some task ∧ task.life = .alive := by
  obtain ⟨running, listsNow, midSound, member, turn⟩ := finishes.sound sound
  obtain ⟨leftSound, departed⟩ := (midSound.after_endTask member turn exit).ok ends
  obtain ⟨task, lane, present, queued⟩ := orphan.queued
  have inList := (leftSound.queued.lines.mem_iff present).mpr queued
  obtain ⟨found, foundPresent, alive, -⟩ := leftSound.queued.present inList
  obtain rfl := Option.some.inj (present.symm.trans foundPresent)
  refine ⟨?_, task, present, alive⟩
  rintro rfl
  have zombie := departed.outlived.zombie (List.mem_singleton.mpr rfl) present
  exact absurd (alive.symm.trans zombie) nofun

/-! ### Steps -/

theorem Steps.confined
    (sound : scheduler.Sound scheduler [] lists held unscheduled none none)
    (first : scheduler.roster.run.head = some slot)
    (present : scheduler.roster.task? slot = some task) (steps : scheduler.Steps slot swept final) :
    (∃ births, scheduler.Confined slot task.mailbox (slot :: swept)
      (scheduler.ClosingReports slot swept) births final) ∧
      Births (scheduler.passed slot) scheduler.roster.tasks.size final.roster.tasks.size := by
  cases steps with
  | @ends exit middle left final swept finishes ends sweeps orphans =>
    obtain ⟨⟨births, confined⟩, born⟩ :=
      finishes.confined sound present (scheduler.ClosingReports slot swept)
    have chain : middle.Endings ((slot, exit) :: swept.map (·, .orphaned)) final :=
      .one middle.deathsPending ends sweeps
    have closes : middle.Confined slot task.mailbox (slot :: swept)
        (scheduler.ClosingReports slot swept) 0 final := by
      refine (chain.confined (.refl _) (List.Subset.refl _)).widen ?_ fun letter reports =>
        ⟨exit, middle, finishes, reports⟩
      rw [List.map_cons, List.map_map]
      exact List.cons_subset_cons _ (by simp [Function.comp_def])
    have begins := confined.widen (List.cons_subset_cons slot (List.nil_subset swept))
      fun (letter : Letter) (reports : scheduler.ClosingReports slot swept letter) => reports
    refine ⟨⟨_, begins.andThen closes fun _ inside _ => inside⟩, ?_⟩
    rw [closes.tasks.size]
    exact born
  | @stays _ stack after status middle final cared again mans runs stays settles =>
    obtain rfl := Option.some.inj (present.symm.trans again)
    obtain ⟨⟨births, confined⟩, born⟩ := sound.confined_of_execute first cared present mans runs
      (scheduler.ClosingReports slot [])
    have rests : middle.Confined slot task.mailbox [slot] (scheduler.ClosingReports slot []) 0
        middle := .quiet (.refl _ slot _) (.refl _) rfl rfl
    have goes := (after_settle_confined rests (fun _ => List.mem_singleton.mpr rfl) task.id after
      stays).ok settles
    refine ⟨⟨_, confined.andThen goes fun _ inside _ => inside⟩, ?_⟩
    rw [goes.tasks.size]
    exact born

/-- Who is swept out in a step was alive, and is a zombie or gone. -/
theorem Steps.orphans
    (sound : scheduler.Sound scheduler [] lists held unscheduled none none) {running : Task}
    (runs : scheduler.roster.task? slot = some running)
    (steps : scheduler.Steps slot swept final) {other : Slot} (member : other ∈ swept) :
    other ≠ slot ∧
      (∀ earlier, scheduler.roster.task? other = some earlier → earlier.life = .alive) ∧
      ∀ later, final.roster.task? other = some later → later.life = .zombie := by
  cases steps with
  | stays => exact absurd member List.not_mem_nil
  | @ends exit middle left final swept finishes ends sweeps orphans =>
    obtain ⟨differ, task, present, alive⟩ := finishes.orphan_alive sound ends (orphans other member)
    refine ⟨differ, fun earlier earlierPresent => ?_, fun later laterPresent => ?_⟩
    · -- Neither the execution nor the ending has made it alive.
      obtain ⟨⟨births, confined⟩, -⟩ := finishes.confined sound runs fun _ => False
      obtain ⟨-, _, _, _, _, _, _, _, parts⟩ :=
        (after_endTask_confined slot slot running.mailbox exit middle).ok ends
      have spares := confined.tasks.andThen parts.tasks fun _ inside _ => inside
      obtain ⟨found, foundPresent, -, own⟩ := spares.known other task
        (Roster.lt_size_of_task?_eq_some earlierPresent) present
      obtain rfl := Option.some.inj (earlierPresent.symm.trans foundPresent)
      have life : task.own.life = earlier.own.life :=
        congrArg Task.life (own (mt List.mem_singleton.mp differ))
      exact life.symm.trans alive
    · refine sweeps.outlived.zombie ?_ laterPresent
      rw [List.mem_reverse, List.map_map]
      exact List.mem_map.mpr ⟨other, member, rfl⟩

/-- A step leaves all tasks alone that it is not about. -/
theorem Steps.isolated
    (sound : scheduler.Sound scheduler [] lists held unscheduled none none)
    (first : scheduler.roster.run.head = some slot)
    (present : scheduler.roster.task? slot = some task)
    (steps : scheduler.Steps slot swept final)
    (counted : final.roster.Counted final.registry final.nextId held none) :
    scheduler.Isolated slot swept final := by
  obtain ⟨⟨births, confined⟩, born⟩ := steps.confined sound first present
  refine ⟨fun _ => steps.orphans sound present,
    fun other earlier later differ apart earlierPresent laterPresent => ?_,
    fun again againPresent => ?_, born, confined.tasks.born⟩
  · obtain ⟨found, foundPresent, -, own⟩ := confined.tasks.known other later
      (Roster.lt_size_of_task?_eq_some earlierPresent) laterPresent
    obtain rfl := Option.some.inj (earlierPresent.symm.trans foundPresent)
    have same := own (by simp [differ, apart])
    have id : later.own.id = earlier.own.id := congrArg Task.id same
    have life : later.own.life = earlier.own.life := congrArg Task.life same
    refine ⟨same, ?_⟩
    have before := sound.counted.references earlierPresent
    have after := counted.references laterPresent
    have children := confined.tasks.children differ
    simp only [Task.own] at id life
    rw [before, after, id, life, children]
    simp only [reduceCtorEq, if_false]
    omega
  · obtain rfl := Option.some.inj (present.symm.trans againPresent)
    obtain ⟨letters, gains, sources⟩ := confined.mail
    exact ⟨letters, fun mailbox pending other holds => gains.holds other holds, gains, sources⟩

theorem Finishes.after_step_steps
    (sound : scheduler.Sound scheduler [] lists held unscheduled none none)
    (finishes : scheduler.Finishes slot exit middle) :
    After step scheduler (fun more final => more = true ∧ ∃ swept, scheduler.Steps slot swept final)
      fun _ _ => False := by
  obtain ⟨running, listsNow, midSound, member, turn⟩ := finishes.sound sound
  refine (finishes.after_step sound (midSound.restart.after_close member turn exit)).imp
    fun more final closed => ⟨closed.1, ?_⟩
  obtain ⟨-, left, swept, ends, -, sweeping, -⟩ := closed
  exact ⟨swept.reverse, .ends finishes ends sweeping.endings fun other inside =>
    sweeping.orphans other (List.mem_reverse.mp inside)⟩

/-- A step gives a turn to the task at the head of the run queue in one of the ways that there
are. -/
theorem Sound.after_step_steps
    (sound : scheduler.Sound scheduler [] lists held unscheduled none none)
    (first : scheduler.roster.run.head = some slot) :
    After step scheduler (fun more final => more = true ∧ ∃ swept, scheduler.Steps slot swept final)
      (Endless scheduler) := by
  have head := sound.head.symm.trans first
  obtain ⟨rest, split⟩ := List.head?_eq_some_iff.mp head
  obtain ⟨task, present, alive, -⟩ := sound.queued.present (List.mem_of_head? head)
  by_cases bereft : scheduler.roster.Bereft slot
  · exact (Finishes.after_step_steps sound (.bereft first bereft)).mono (fun _ _ => id)
      fun _ _ => False.elim
  · obtain ⟨stack, mans⟩ : ∃ stack, task.stack = some stack :=
      Option.isSome_iff_exists.mp ((sound.queued.stands present).manned.mpr ⟨alive, nofun⟩)
    have executes := sound.after_execute head stack
    cases runs : stack.execute (hostFor slot) scheduler.config.execLimit scheduler.patience
        (scheduler.manned slot) with
    | error crash middle => exact (executes.error runs).elim
    | ok outcome middle =>
      obtain ⟨⟨spawned, midTurn⟩, unfinished⟩ := executes.ok runs
      have concludes (turns : After (runTurn slot) scheduler
          (fun _ final => ∃ swept, scheduler.Steps slot swept final) (Endless scheduler)) :=
        sound.after_step_of_turns first bereft turns
      cases outcome with
      | none =>
        exact concludes (after_runTurn_of_executes present mans
          (After.of_ok runs (After.throw ⟨rfl, unfinished rfl⟩)))
      | some outcome =>
        obtain ⟨after, status⟩ := outcome
        cases exits : status.exit? with
        | some exit =>
          exact (Finishes.after_step_steps sound (.stops first bereft present mans runs exits)).mono
            (fun _ _ => id) fun _ _ => False.elim
        | none =>
          have stands : Function.update lists .run (lists .run ++ spawned) .run =
              slot :: (rest ++ spawned) := by rw [Function.update_self, split, List.cons_append]
          have settles := (midTurn.after_settle stands task.id after status).and After.known
          refine concludes (after_runTurn_of_executes present mans (After.of_ok runs
            (settles.mono (fun _ final known => ?_) fun _ _ known => known.1.elim)))
          exact ⟨[], .stays bereft present mans runs exits known.2⟩

end Scheduler

namespace Session

/-- A step gives a turn to the task at the head of the run queue and leaves all others alone, unless
the task never stops and nothing limits how long it is executed. No two tasks have the same inbox if
each is handed over once, and then those from which the task does not take are those of all
others. -/
theorem Reachable.isolates {session : Session} {scheduler : Scheduler} {slot : Slot}
    (reachable : session.Reachable) (visits : session.Visits scheduler)
    (first : scheduler.roster.run.head = some slot) :
    (session.Furnished → scheduler.Housed) ∧
      After Scheduler.step scheduler
        (fun more final => more = true ∧ ∃ swept, scheduler.Steps slot swept final ∧
          scheduler.Isolated slot swept final)
        fun crash _ => crash = .endless ∧ scheduler.config.execLimit = 0 := by
  refine ⟨visits.housed, ?_⟩
  obtain ⟨lists, sound⟩ := visits.sound reachable
  have restarted := sound.restart
  obtain ⟨task, present, -⟩ :=
    restarted.queued.present (List.mem_of_head? (restarted.head.symm.trans first))
  refine ((restarted.after_step_steps first).and restarted.after_step_settled).mono
    (fun more final known => ?_) fun _ _ known => known.1
  obtain ⟨⟨more, swept, steps⟩, ended, listsNow, settled⟩ := known
  exact ⟨more, swept, steps, steps.isolated restarted first present settled.counted⟩

/-- A program that creates a child and ends. -/
def breeding : Function :=
  { (default : Function) with
    constants := #[.function default]
    code := #[Instruction.spawn 0 constantBase, Instruction.returning 0 0] }

/-- A task that creates a child is at the head of the run queue, before another one. -/
def bred : Session :=
  ((start .standard 0 fun _ => []).continued (.spawn breeding none)).continued
    (.spawn default none)

theorem bred_furnished : bred.Furnished := by
  refine .continued (.continued (.start _ _ _) nofun trivial ?_) nofun trivial ?_ <;>
    decide +kernel

/-- A child comes, and the other task stays as it was. -/
theorem bred_isolates : bred.scheduler.Housed ∧
    ∃ swept final, Scheduler.step bred.scheduler = .ok true final ∧
      bred.scheduler.Isolated 0 swept final ∧
      (spawnings (bred.scheduler.passed 0)).length = 1 ∧ final.roster.tasks.size = 3 ∧
      (final.roster.task? 1).map Task.own = (bred.scheduler.roster.task? 1).map Task.own := by
  have visits : bred.Visits bred.scheduler := .between
  have first : bred.scheduler.roster.run.head = some 0 := by decide +kernel
  have limited : bred.scheduler.config.execLimit ≠ 0 := by decide +kernel
  have stood : bred.scheduler.roster.tasks.size = 2 := by decide +kernel
  have lived : (bred.scheduler.roster.task? 1).isSome = true := by decide +kernel
  have came : (stateAfter Scheduler.step bred.scheduler).roster.tasks.size = 3 := by decide +kernel
  have lives : ((stateAfter Scheduler.step bred.scheduler).roster.task? 1).map Task.life =
      some .alive := by decide +kernel
  generalize bred.scheduler = scheduler at visits first limited stood lived came lives ⊢
  obtain ⟨houses, isolates⟩ := bred_furnished.reachable.isolates visits first
  refine ⟨houses bred_furnished, ?_⟩
  cases steps : Scheduler.step scheduler with
  | error crash final => exact absurd (isolates.error steps).2 limited
  | ok more final =>
    obtain ⟨rfl, swept, -, isolated⟩ := isolates.ok steps
    rw [stateAfter_of_ok steps] at came lives
    obtain ⟨earlier, earlierPresent⟩ := Option.isSome_iff_exists.mp lived
    obtain ⟨later, present, alive⟩ := Option.map_eq_some_iff.mp lives
    have apart : 1 ∉ swept := fun member =>
      absurd (alive.symm.trans ((isolated.orphans 1 member).2.2 later present)) nofun
    have same := (isolated.others 1 earlier later nofun apart earlierPresent present).1
    have count : final.roster.tasks.size =
        scheduler.roster.tasks.size + (spawnings (scheduler.passed 0)).length :=
      isolated.births.count
    refine ⟨swept, final, rfl, isolated, by omega, came, ?_⟩
    rw [present, earlierPresent, Option.map_some, Option.map_some, same]

end Session

end TaskMachine

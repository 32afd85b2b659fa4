/-
The queues and the tasks agree. `Queued` says that both queues stand in lines,
and of every task what follows from the queues that it is in: a task in a queue
is alive, a task waits for something just when it is in the wait queue, a task
has a stack just when it is alive, and a task that is alive and in no queue was
never scheduled. The task that has its turn is an exception: its stack is away,
and it is at the head of the run queue.

Each lemma is about one thing that can happen to a task.
-/

import TaskMachine.Proofs.Roster.Counted
import TaskMachine.Proofs.Roster.Moves

namespace TaskMachine

/-- The part of a task that has to agree with its queue, and the queue with it. -/
def Task.standing (task : Task) : TaskId × Life × Bool × Bool × Option Lane × Links :=
  (task.id, task.life, task.stack.isSome, task.awaited.isSome, task.place)

/-- The task without its stack. -/
def Task.disarm (task : Task) : Task := { task with stack := none }

/-- The task with a stack. -/
def Task.arm (stack : Stack) (task : Task) : Task := { task with stack := some stack }

/-- The task with something else that it waits for. -/
def Task.await (awaited : Option Awaited) (task : Task) : Task := { task with awaited }

/-- What a task is like in the queues that it is in. -/
structure Stands (lists : Lane → List Slot) (running : Option Slot) (unscheduled : List TaskId)
    (slot : Slot) (task : Task) : Prop where
  alive : ∀ {lane}, slot ∈ lists lane → task.life = .alive
  manned : task.stack.isSome = true ↔ task.life = .alive ∧ running ≠ some slot
  awaits : task.awaited.isSome = true ↔ slot ∈ lists .wait
  idle : task.life = .alive → (∀ lane, slot ∉ lists lane) → task.id ∈ unscheduled

/-- A task in the same queues is like it was. -/
theorem Stands.of_same {lists listsNow : Lane → List Slot} {running : Option Slot}
    {unscheduled unscheduledNow : List TaskId} {slot : Slot} {task later : Task}
    (stands : Stands lists running unscheduled slot task)
    (same : later.unplaced = task.unplaced)
    (lane : ∀ lane, slot ∈ listsNow lane ↔ slot ∈ lists lane)
    (kept : task.id ∈ unscheduled → task.id ∈ unscheduledNow) :
    Stands listsNow running unscheduledNow slot later := by
  have id : later.unplaced.id = task.unplaced.id := congrArg Task.id same
  have life : later.unplaced.life = task.unplaced.life := congrArg Task.life same
  have stack : later.unplaced.stack = task.unplaced.stack := congrArg Task.stack same
  have awaited : later.unplaced.awaited = task.unplaced.awaited := congrArg Task.awaited same
  simp only [Task.unplaced, Task.setPlace] at id life stack awaited
  refine ⟨fun member => ?_, ?_, ?_, fun lives apart => ?_⟩
  · rw [life]
    exact stands.alive ((lane _).mp member)
  · rw [stack, life]
    exact stands.manned
  · rw [awaited, lane]
    exact stands.awaits
  · rw [id]
    refine kept (stands.idle (life ▸ lives) fun other member => apart other ?_)
    exact (lane other).mpr member

namespace Roster

/-- The queues and the tasks agree. -/
structure Queued (roster : Roster) (lists : Lane → List Slot) (running : Option Slot)
    (unscheduled : List TaskId) : Prop where
  lines : roster.Lines lists
  stands : ∀ {slot task}, roster.task? slot = some task →
    Stands lists running unscheduled slot task
  turn : ∀ {slot}, running = some slot → (lists .run).head? = some slot

theorem queued_empty : empty.Queued (fun _ => []) none [] where
  lines := lines_empty
  stands := fun {slot task} present => by
    rw [empty, task?] at present
    exact absurd present (by simp)
  turn := fun nobody => absurd nobody nofun

namespace Queued

variable {roster next : Roster} {lists : Lane → List Slot} {running : Option Slot}
  {unscheduled unscheduledNow : List TaskId} {slot : Slot} {task : Task} {lane : Lane}

/-- The agreement depends on nothing else. -/
theorem congr (queued : roster.Queued lists running unscheduled) (ends : next.ends = roster.ends)
    (same : ∀ slot, (next.task? slot).map Task.standing = (roster.task? slot).map Task.standing) :
    next.Queued lists running unscheduled where
  lines := queued.lines.of_places ends fun slot => by
    have moved := same slot
    cases now : next.task? slot <;> cases before : roster.task? slot <;>
      simp_all [Task.standing]
  stands := fun {slot task} present => by
    have moved := same slot
    rw [present, Option.map_some] at moved
    obtain ⟨earlier, earlierPresent, standing⟩ := Option.map_eq_some_iff.mp moved.symm
    simp only [Task.standing, Prod.mk.injEq] at standing
    obtain ⟨id, life, stack, awaited, _⟩ := standing
    have stands := queued.stands earlierPresent
    refine ⟨fun member => ?_, ?_, ?_, fun lives apart => ?_⟩
    · rw [← life]
      exact stands.alive member
    · rw [← stack, ← life]
      exact stands.manned
    · rw [← awaited]
      exact stands.awaits
    · rw [← id]
      exact stands.idle (life.trans lives) apart
  turn := queued.turn

/-- A task in a queue is there. -/
theorem present (queued : roster.Queued lists running unscheduled) (member : slot ∈ lists lane) :
    ∃ task, roster.task? slot = some task ∧ task.life = .alive ∧ task.lane = some lane := by
  obtain ⟨task, present, inLane⟩ := (queued.lines lane).present member
  exact ⟨task, present, (queued.stands present).alive member, inLane⟩

/-- A task that has ended is in no queue. -/
theorem apart (queued : roster.Queued lists running unscheduled)
    (present : roster.task? slot = some task) (ended : task.life = .zombie) (lane : Lane) :
    slot ∉ lists lane := by
  intro member
  have alive := (queued.stands present).alive member
  rw [ended] at alive
  exact absurd alive nofun

/-! ### One task moves -/

/-- Who else is in the queues when one task joins a queue. -/
theorem mem_joined {place : Slot} {other : Lane} (differ : place ≠ slot) :
    place ∈ Function.update lists lane (lists lane ++ [slot]) other ↔ place ∈ lists other := by
  by_cases same : other = lane
  · subst same
    simp [differ]
  · rw [Function.update_of_ne same]

/-- Who else is in the queues when one task leaves a queue. -/
theorem mem_cut {place : Slot} {other : Lane} (differ : place ≠ slot) :
    place ∈ Function.update lists lane ((lists lane).erase slot) other ↔ place ∈ lists other := by
  by_cases same : other = lane
  · subst same
    rw [Function.update_self]
    exact List.mem_erase_of_ne differ
  · rw [Function.update_of_ne same]

/-- Who has left its queue is in none. -/
theorem not_mem_cut (lines : roster.Lines lists) (member : slot ∈ lists lane) (other : Lane) :
    slot ∉ Function.update lists lane ((lists lane).erase slot) other := by
  by_cases same : other = lane
  · subst same
    rw [Function.update_self]
    exact (lines other).distinct.not_mem_erase
  · rw [Function.update_of_ne same]
    exact lines.apart member same

/-- One task changes, and joins or leaves a queue perhaps; what that means for all others is
nothing. -/
theorem move (queued : roster.Queued lists running unscheduled)
    (present : roster.task? slot = some task) {change : Task → Task}
    (same : SameTasks (roster.alter slot change) next) {listsNow : Lane → List Slot}
    (lines : next.Lines listsNow) {runningNow : Option Slot}
    (own : Stands listsNow runningNow unscheduledNow slot (change task))
    (lanes : ∀ place lane, place ≠ slot → (place ∈ listsNow lane ↔ place ∈ lists lane))
    (turns : ∀ place, place ≠ slot → (runningNow = some place ↔ running = some place))
    (kept : ∀ place found, place ≠ slot → roster.task? place = some found →
      found.id ∈ unscheduled → found.id ∈ unscheduledNow)
    (turn : ∀ {place}, runningNow = some place → (listsNow .run).head? = some place) :
    next.Queued listsNow runningNow unscheduledNow where
  lines := lines
  stands := fun {place later} laterPresent => by
    have moved := same.2 place
    rw [laterPresent, Option.map_some, task?_alter] at moved
    split at moved
    · rename_i atSlot
      subst atSlot
      rw [present, Option.map_some, Option.map_some] at moved
      exact own.of_same (Option.some.inj moved) (fun _ => Iff.rfl) id
    · rename_i elsewhere
      obtain ⟨earlier, earlierPresent, is⟩ := Option.map_eq_some_iff.mp moved.symm
      have stands := (queued.stands earlierPresent).of_same is.symm
        (fun lane => lanes place lane elsewhere) (kept place earlier elsewhere earlierPresent)
      refine ⟨stands.alive, ?_, stands.awaits, stands.idle⟩
      rw [stands.manned, ne_eq, ne_eq, turns place elsewhere]
  turn := turn

/-- A task that was never scheduled joins the run queue. -/
theorem join (queued : roster.Queued lists running unscheduled)
    (present : roster.task? slot = some task) (alive : task.life = .alive)
    (apart : ∀ lane, slot ∉ lists lane)
    (kept : ∀ place found, place ≠ slot → roster.task? place = some found →
      found.id ∈ unscheduled → found.id ∈ unscheduledNow) :
    ∃ joined, pushTail .run slot roster = .ok ⟨⟩ joined ∧ SameTasks roster joined ∧
      joined.Queued (Function.update lists .run (lists .run ++ [slot])) running unscheduledNow := by
  obtain ⟨joined, pushes, lines, same⟩ := queued.lines.pushTail present
    (queued.lines.lane_eq_none present apart) .run
  have stands := queued.stands present
  refine ⟨joined, pushes, same, queued.move present
    ((sameTasks_alter roster slot fun _ => rfl).symm.trans same :
      SameTasks (roster.alter slot id) _)
    lines ⟨fun _ => alive, stands.manned, ?_, fun _ absent => ?_⟩ (fun place lane => mem_joined)
    (fun _ _ => Iff.rfl) kept fun {place} turn => ?_⟩
  · rw [Function.update_of_ne (by decide)]
    exact stands.awaits
  · exact absurd (absent .run) (by simp)
  · rw [Function.update_self, List.head?_append, queued.turn turn]
    rfl

/-- A task goes from one queue to the tail of the other, and waits for something or no longer. -/
theorem transfer (queued : roster.Queued lists none unscheduled) (member : slot ∈ lists lane)
    {other : Lane} (differ : other ≠ lane) {awaited : Option Awaited}
    (fits : awaited.isSome = true ↔ other = .wait) :
    ∃ left joined, remove lane slot roster = .ok ⟨⟩ left ∧ (∃ found, left.task? slot = some found) ∧
      pushTail other slot (left.alter slot (·.await awaited)) = .ok ⟨⟩ joined ∧
      SameTasks (roster.alter slot (·.await awaited)) joined ∧
      joined.Queued (Function.update (Function.update lists lane ((lists lane).erase slot)) other
        (lists other ++ [slot])) none unscheduled := by
  obtain ⟨task, present, alive, inLane⟩ := queued.present member
  obtain ⟨left, removes, leftLines, leftSame⟩ := queued.lines.remove member
  obtain ⟨found, foundPresent, _⟩ := leftSame.present present
  have apart := not_mem_cut queued.lines member
  have changedPresent :
      (left.alter slot (·.await awaited)).task? slot = some (found.await awaited) := by
    rw [task?_alter, if_pos rfl, foundPresent, Option.map_some]
  have changedLines : (left.alter slot (·.await awaited)).Lines
      (Function.update lists lane ((lists lane).erase slot)) :=
    leftLines.alter slot fun _ => rfl
  obtain ⟨joined, pushes, lines, same⟩ := changedLines.pushTail changedPresent
    (changedLines.lane_eq_none changedPresent apart) other
  rw [Function.update_of_ne differ] at lines
  have moved := (leftSame.alter slot fun _ => rfl).trans same
  refine ⟨left, joined, removes, ⟨found, foundPresent⟩, pushes, moved,
    queued.move present moved lines ⟨fun _ => alive, (queued.stands present).manned, ?_,
      fun _ absent => ?_⟩ (fun place lane' elsewhere => ?_) (fun _ _ => Iff.rfl)
      (fun _ _ _ _ => id) fun turn => absurd turn nofun⟩
  · by_cases toWait : other = .wait
    · subst toWait
      exact iff_of_true (fits.mpr rfl) (by simp)
    · rw [Function.update_of_ne (Ne.symm toWait)]
      exact iff_of_false (fun some => toWait (fits.mp some)) (apart .wait)
  · exact absurd (absent other) (by simp)
  · have same : place ∈ Function.update (Function.update lists lane ((lists lane).erase slot)) other
        (Function.update lists lane ((lists lane).erase slot) other ++ [slot]) lane' ↔
          place ∈ lists lane' := (mem_joined elsewhere).trans (mem_cut elsewhere)
    rwa [Function.update_of_ne differ] at same

/-- A task ends: it leaves its queue, and its turn is over if it was its turn. -/
theorem finish (queued : roster.Queued lists running unscheduled) (member : slot ∈ lists lane)
    (turn : ∀ {place}, running = some place → place = slot) :
    ∃ left, remove lane slot roster = .ok ⟨⟩ left ∧ SameTasks roster left ∧
      (left.alter slot Task.ended).Queued
        (Function.update lists lane ((lists lane).erase slot)) none unscheduled := by
  obtain ⟨task, present, _, inLane⟩ := queued.present member
  obtain ⟨left, removes, leftLines, leftSame⟩ := queued.lines.remove member
  have apart := not_mem_cut queued.lines member
  have lines : (left.alter slot Task.ended).Lines
      (Function.update lists lane ((lists lane).erase slot)) :=
    leftLines.alter slot fun _ => rfl
  refine ⟨left, removes, leftSame, queued.move present (leftSame.alter slot fun _ => rfl) lines
    ⟨fun inside => absurd inside (apart _), iff_of_false nofun fun alive => absurd alive.1 nofun,
      iff_of_false nofun (apart .wait), fun alive => absurd alive nofun⟩
    (fun place lane => mem_cut) (fun place differ => ?_) (fun _ _ _ _ => id)
    fun turn => absurd turn nofun⟩
  exact iff_of_false nofun fun its => differ (turn its)

/-- The task at the head of the run queue gets its turn, and its stack is taken away. -/
theorem disarm (queued : roster.Queued lists none unscheduled)
    (first : (lists .run).head? = some slot) :
    (roster.alter slot Task.disarm).Queued lists (some slot) unscheduled := by
  obtain ⟨task, present, alive, _⟩ := queued.present (List.mem_of_head? first)
  have stands := queued.stands present
  refine queued.move present (SameTasks.refl (roster.alter slot Task.disarm))
    (queued.lines.alter slot fun _ => rfl)
    ⟨stands.alive, ?_, stands.awaits, stands.idle⟩
    (fun _ _ _ => Iff.rfl) (fun place differ => ?_) (fun _ _ _ _ => id) fun turn => ?_
  · exact iff_of_false nofun fun its => its.2 rfl
  · exact iff_of_false (fun same => differ (Option.some.inj same).symm) nofun
  · rw [first, turn]

/-- The turn is over, and the task gets its stack back. -/
theorem arm (queued : roster.Queued lists (some slot) unscheduled) (stack : Stack) :
    (roster.alter slot (Task.arm stack)).Queued lists none unscheduled := by
  obtain ⟨task, present, alive, _⟩ := queued.present (List.mem_of_head? (queued.turn rfl))
  have stands := queued.stands present
  refine queued.move present (SameTasks.refl (roster.alter slot (Task.arm stack)))
    (queued.lines.alter slot fun _ => rfl)
    ⟨stands.alive, ?_, stands.awaits, stands.idle⟩
    (fun _ _ _ => Iff.rfl) (fun place differ => ?_) (fun _ _ _ _ => id)
    fun turn => absurd turn nofun
  · exact iff_of_true rfl ⟨alive, nofun⟩
  · exact iff_of_false nofun fun same => differ (Option.some.inj same).symm

/-- The head of the run queue goes to its tail. -/
theorem rotate (queued : roster.Queued lists none unscheduled) {rest : List Slot}
    (split : lists .run = slot :: rest) :
    ∃ next, Roster.rotate .run roster = .ok ⟨⟩ next ∧ SameTasks roster next ∧
      next.Queued (Function.update lists .run (rest ++ [slot])) none unscheduled := by
  obtain ⟨next, rotates, lines, same⟩ := queued.lines.rotate split
  refine ⟨next, rotates, same, lines, fun {place later} laterPresent => ?_,
    fun turn => absurd turn nofun⟩
  obtain ⟨task, present, is⟩ := same.symm.present laterPresent
  refine (queued.stands present).of_same is.symm (fun lane => ?_) id
  by_cases onRun : lane = .run
  · subst onRun
    rw [Function.update_self, split]
    simp [or_comm]
  · rw [Function.update_of_ne onRun]

/-! ### Tasks come and go -/

/-- A task comes, with a stack and in no queue. -/
theorem push (queued : roster.Queued lists running unscheduled) (alive : task.life = .alive)
    (manned : task.stack.isSome = true) (unawaited : task.awaited = none)
    (unqueued : task.lane = none) :
    ({ roster with tasks := roster.tasks.push (some task) } : Roster).Queued lists running
      (task.id :: unscheduled) where
  lines := queued.lines.add unqueued
  stands := fun {place found} present => by
    have outside (lane : Lane) : roster.tasks.size ∉ lists lane := fun member =>
      Nat.lt_irrefl _ ((queued.lines lane).lt_size member)
    rcases of_task?_push present with ⟨rfl, rfl⟩ | before
    · refine ⟨fun _ => alive, iff_of_true manned ⟨alive, fun turn => ?_⟩, ?_,
        fun _ _ => List.mem_cons_self⟩
      · exact outside .run (List.mem_of_head? (queued.turn turn))
      · rw [unawaited]
        exact iff_of_false nofun (outside .wait)
    · have stands := queued.stands before
      exact ⟨stands.alive, stands.manned, stands.awaits,
        fun alive apart => List.mem_cons_of_mem _ (stands.idle alive apart)⟩
  turn := queued.turn

/-- A task that has ended goes. -/
theorem drop (queued : roster.Queued lists running unscheduled)
    (present : roster.task? slot = some task) (ended : task.life = .zombie) :
    (roster.setTask slot none).Queued lists running unscheduled where
  lines := queued.lines.drop (queued.apart present ended)
  stands := fun foundPresent => queued.stands (of_task?_drop foundPresent).2
  turn := queued.turn

end Queued

end Roster

end TaskMachine

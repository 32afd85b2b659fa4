/-
What happens when a task ends. A step ends at most the task at the head of the
run queue and the orphans that it leaves. If something still refers to the task,
it stays as a zombie, and the orphans are the tasks in queues whose parents are
zombies then, and those whose parents are orphans. They end one after another,
each of them once; all others stay in their queues in the order that they had;
and no task is left in a queue whose parent has ended.

A step is taken between two operations or in the middle of a pass, after woken
tasks and due timers were resumed. `Visits` says which schedulers those are.
-/

import TaskMachine.Proofs.Session.Basic

namespace TaskMachine

namespace Scheduler

variable {origin scheduler middle left final : Scheduler} {ended swept : List Slot}
  {lists : Lane → List Slot} {held unscheduled : List TaskId} {running : Option Slot}
  {slot : Slot} {task : Task} {exit : Exit}

/-- The task at a place ends, which leads from the first scheduler to the second, and then the
orphans do, in a given order, which leads to the third. -/
structure Clearing (middle : Scheduler) (slot : Slot) (exit : Exit) (left : Scheduler)
    (order : List Slot) (final : Scheduler) : Prop where
  ends : endTask slot exit middle = .ok ⟨⟩ left
  /-- The task is a zombie before any orphan ends. -/
  zombie : ∃ found, left.roster.task? slot = some found ∧ found.life = .zombie
  /-- Nothing happens then but that the orphans end. -/
  others : left.Endings (order.map (·, .orphaned)) final
  once : (slot :: order).Nodup
  mem_order : ∀ other, other ∈ order ↔ left.roster.Orphan other
  /-- All others stay in their queues, in the order that they had. -/
  slots : ∀ lane, ∃ queue, middle.roster.slots lane = .ok queue ∧
    final.roster.slots lane = .ok (queue.filter (· ∉ slot :: order))
  /-- Nobody else has ended who was alive. -/
  mem_ended : ∀ other found, middle.roster.task? other = some found → found.life = .alive →
    (other ∈ slot :: order ↔ ∀ later, final.roster.task? other = some later → later.life = .zombie)
  /-- Each watcher was told once, with the exit. -/
  told : final.notices =
    (middle.partings slot exit ++ order.flatMap fun other => middle.partings other .orphaned).reverse
      ++ middle.notices
  cared : ∀ other, final.roster.Cared other

/-- A sweep that leaves nobody in a queue whose parent has ended clears the queues. -/
theorem Sweeping.clearing
    (sound : middle.Sound middle [] lists held unscheduled running none)
    (ends : endTask slot exit middle = .ok ⟨⟩ left) (departed : middle.Departed slot exit left)
    (present : middle.roster.task? slot = some task) (more : 1 < task.references)
    (sweeping : Sweeping left middle [slot] (Roster.without lists [slot]) held unscheduled swept
      final)
    (cared : ∀ other, final.roster.Cared other) :
    middle.Clearing slot exit left swept.reverse final := by
  have orphan {other : Slot} (member : other ∈ swept) :
      other ≠ slot ∧ ∃ found, left.roster.task? other = some found := by
    obtain ⟨found, lane, foundPresent, queued⟩ := (sweeping.orphans other member).queued
    have inList := (sweeping.began.queued.lines.mem_iff foundPresent).mpr queued
    exact ⟨by simpa using (Roster.mem_without.mp inList).2, found, foundPresent⟩
  have mem_iff {other : Slot} : other ∈ slot :: swept.reverse ↔ other ∈ swept ++ [slot] := by
    simp [or_comm]
  have outlived := departed.outlived.trans sweeping.outlived
  refine ⟨ends, ?_, sweeping.endings, ?_, fun other => ?_, fun lane => ?_,
    fun other found foundPresent alive => ⟨fun member later laterPresent => ?_, fun gone => ?_⟩, ?_,
    cared⟩
  · obtain ⟨found, foundPresent⟩ := departed.remains task present more
    exact ⟨found, foundPresent,
      departed.outlived.zombie (List.mem_singleton.mpr rfl) foundPresent⟩
  · refine List.nodup_cons.mpr ⟨fun member => ?_, List.nodup_reverse.mpr sweeping.distinct⟩
    exact (orphan (List.mem_reverse.mp member)).1 rfl
  · rw [List.mem_reverse, sweeping.mem_iff cared]
  · refine ⟨lists lane, sound.queued.lines.slots lane, ?_⟩
    rw [sweeping.sound.queued.lines.slots lane, Roster.without_append]
    exact congrArg Except.ok (List.filter_congr fun other _ =>
      decide_eq_decide.mpr (not_congr mem_iff.symm))
  · exact outlived.zombie (mem_iff.mp member) laterPresent
  · by_contra absent
    obtain ⟨later, laterPresent, laterAlive, _⟩ := sweeping.sound.since.alive other found
      foundPresent alive (mt mem_iff.mpr absent)
    exact absurd (laterAlive.symm.trans (gone later laterPresent)) nofun
  · have same : swept.reverse.flatMap (fun other => left.partings other .orphaned) =
        swept.reverse.flatMap fun other => middle.partings other .orphaned := by
      refine List.flatMap_congr fun other member => ?_
      obtain ⟨differ, found, foundPresent⟩ := orphan (List.mem_reverse.mp member)
      exact partings_of_outlived departed.outlived (mt List.mem_singleton.mp differ) foundPresent
    rw [sweeping.told, departed.told, same, List.reverse_append, List.append_assoc]

/-- The task that a step ends is in the run queue when it ends. -/
theorem Finishes.sound
    (sound : scheduler.Sound origin ended lists held unscheduled none none)
    (finishes : scheduler.Finishes slot exit middle) :
    ∃ running listsNow, middle.Sound origin ended listsNow held unscheduled running none ∧
      slot ∈ listsNow .run ∧ ∀ {place}, running = some place → place = slot := by
  cases finishes with
  | bereft first lost =>
    rw [sound.head] at first
    exact ⟨none, lists, sound, List.mem_of_head? first, nofun⟩
  | stops first cared present mans runs exits =>
    rw [sound.head] at first
    obtain ⟨⟨spawned, midTurn⟩, _⟩ := (sound.after_execute first _).ok runs
    exact ⟨some slot, _, midTurn, List.mem_of_head? (midTurn.queued.turn rfl),
      fun same => (Option.some.inj same).symm⟩

/-- A step that ends a task has an end, and clears the queues if something still refers to the
task. -/
theorem Finishes.clears
    (sound : scheduler.Sound scheduler [] lists held unscheduled none none)
    (finishes : scheduler.Finishes slot exit middle)
    (present : middle.roster.task? slot = some task) (more : 1 < task.references) :
    ∃ left order final, step scheduler = .ok true final ∧
      middle.Clearing slot exit left order final := by
  obtain ⟨running, listsNow, midSound, member, turn⟩ := finishes.sound sound
  have after := finishes.after_step sound (midSound.restart.after_close member turn exit)
  cases steps : step scheduler with
  | error crash next => exact (after.error steps).elim
  | ok _ final =>
    obtain ⟨rfl, left, swept, ends, departed, sweeping, cared⟩ := after.ok steps
    exact ⟨left, swept.reverse, final, rfl, sweeping.clearing midSound.restart ends departed present
      more (cared (departed.pending task present more))⟩

/-- A step that ends anybody ends the task at the head of the run queue. -/
theorem Sound.finishes_of_ended
    (sound : scheduler.Sound scheduler [] lists held unscheduled none none) {more : Bool}
    (steps : step scheduler = .ok more final) {other : Slot}
    (present : scheduler.roster.task? other = some task) (alive : task.life = .alive)
    (gone : ∀ later, final.roster.task? other = some later → later.life = .zombie) :
    ∃ slot exit middle, scheduler.Finishes slot exit middle := by
  have stays (later : Task) (laterPresent : final.roster.task? other = some later)
      (laterAlive : later.life = .alive) : False :=
    absurd (laterAlive.symm.trans (gone later laterPresent)) nofun
  rcases sound.after_step.ok steps with ⟨_, _, rfl⟩ | ⟨slot, rest, _, _, exit?, turned, finishes⟩
  · exact (stays task present alive).elim
  · cases exit? with
    | some exit =>
      obtain ⟨middle, finishes⟩ := finishes exit rfl
      exact ⟨slot, exit, middle, finishes⟩
    | none =>
      obtain ⟨endedNow, listsNow, _, _, soundNow, _, _, _, quiet⟩ := turned
      obtain rfl := quiet rfl
      obtain ⟨later, laterPresent, laterAlive, _⟩ :=
        soundNow.since.alive other task present alive List.not_mem_nil
      exact (stays later laterPresent laterAlive).elim

end Scheduler

namespace Session

variable {session : Session} {scheduler : Scheduler}

/-- The schedulers in which a step can be taken while a session is where it is: between two
operations, or in the middle of a pass. -/
inductive Visits (session : Session) : Scheduler → Prop
  | between : session.Visits session.scheduler
  | resumed {woken polled : Scheduler}
      (wakes : Scheduler.wakeWoken session.scheduler = .ok ⟨⟩ woken)
      (polls : Scheduler.pollTimers woken = .ok ⟨⟩ polled) : session.Visits polled
  | stepped {scheduler next : Scheduler} (visits : session.Visits scheduler)
      (steps : Scheduler.step scheduler = .ok true next) : session.Visits next

theorem Visits.sound (visits : session.Visits scheduler) (reachable : session.Reachable) :
    ∃ lists, scheduler.Sound scheduler [] lists session.held session.unscheduled none none := by
  induction visits with
  | between =>
    obtain ⟨lists, sound⟩ := reachable.sound
    exact ⟨lists, sound⟩
  | resumed wakes polls =>
    obtain ⟨lists, sound⟩ := reachable.sound
    obtain ⟨listsNow, soundNow⟩ := sound.after_wakeWoken.ok wakes
    obtain ⟨listsThen, soundThen⟩ := soundNow.after_pollTimers.ok polls
    exact ⟨listsThen, soundThen.restart⟩
  | stepped _ steps inductionHypothesis =>
    obtain ⟨lists, sound⟩ := inductionHypothesis
    obtain ⟨_, listsNow, soundNow⟩ := sound.after_step_settled.ok steps
    exact ⟨listsNow, soundNow.restart⟩

/-- If a step ends anybody, it ends the task at the head of the run queue: because its parent has
ended, or because its execution has stopped. If something still refers to that task, the step has an
end and clears the queues: it ends the task and the orphans that the task leaves, and nobody else. -/
theorem Reachable.sweeps (reachable : session.Reachable) (visits : session.Visits scheduler) :
    (∀ more final other task, Scheduler.step scheduler = .ok more final →
      scheduler.roster.task? other = some task → task.life = .alive →
      (∀ later, final.roster.task? other = some later → later.life = .zombie) →
      ∃ slot exit middle, scheduler.Finishes slot exit middle) ∧
    ∀ slot exit middle task, scheduler.Finishes slot exit middle →
      middle.roster.task? slot = some task → 1 < task.references →
      ∃ left order final, Scheduler.step scheduler = .ok true final ∧
        middle.Clearing slot exit left order final := by
  obtain ⟨lists, sound⟩ := visits.sound reachable
  exact ⟨fun _ _ _ _ steps present alive gone => sound.finishes_of_ended steps present alive gone,
    fun _ _ _ _ finishes present more => finishes.clears sound present more⟩

/-! ### A family -/

/-- A task is at the head of the run queue. A child of it waits, a grandchild can run, and so can
another task, which is not related to them. -/
def family : Session :=
  (((((start .standard 0 fun _ => []).continued (.createTask returning none)).continued
    (.spawn listening (some ⟨1⟩))).continued .step).continued (.schedule ⟨1⟩)).continued
    (.spawn default (some ⟨2⟩)) |>.continued (.spawn default none)

theorem family_reachable : family.Reachable := by
  refine .continued (.continued (.continued (.continued (.continued (.continued (.start _ _ _)
    trivial ?_) trivial ?_) trivial ?_) trivial ?_) trivial ?_) trivial ?_ <;> decide +kernel

/-- Whether an execution has ended without values. -/
def endsBare : Option (Option (Stack × Status)) → Bool
  | some (some (_, .ended [])) => true
  | _ => false

theorem of_endsBare {outcome : Option (Option (Stack × Status))}
    (bare : endsBare outcome = true) : ∃ after, outcome = some (some (after, .ended [])) := by
  unfold endsBare at bare
  split at bare
  · exact ⟨_, rfl⟩
  · exact absurd bare Bool.false_ne_true

/-- The child and the grandchild are swept out of their queues, and the other task stays. -/
theorem family_sweeps : ∃ (middle left final : Scheduler) (order : List Slot),
    Scheduler.step family.scheduler = .ok true final ∧
    middle.Clearing 0 (.returned []) left order final ∧
    1 ∈ order ∧ 2 ∈ order ∧ final.roster.slots .run = .ok [3] := by
  have stands : ((family.scheduler.roster.task? 0).bind Task.stack).isSome = true := by
    decide +kernel
  have executed : ∀ stack ∈ (family.scheduler.roster.task? 0).bind Task.stack,
      endsBare (answer? (stack.execute (Scheduler.hostFor 0) family.scheduler.config.execLimit
        family.scheduler.patience) (family.scheduler.manned 0)) = true ∧
      ∀ roster ∈ some (stateAfter (stack.execute (Scheduler.hostFor 0)
        family.scheduler.config.execLimit family.scheduler.patience)
          (family.scheduler.manned 0)).roster,
        (roster.task? 0).map Task.references = some 2 ∧ roster.slots .run = .ok [0, 2, 3] ∧
          roster.slots .wait = .ok [1] := by decide +kernel
  have parentless : (family.scheduler.roster.task? 0).map Task.parent = some none := by
    decide +kernel
  have runs : (stateAfter Scheduler.step family.scheduler).roster.slots .run = .ok [3] := by
    decide +kernel
  have waits : (stateAfter Scheduler.step family.scheduler).roster.slots .wait = .ok [] := by
    decide +kernel
  obtain ⟨stack, stands⟩ := Option.isSome_iff_exists.mp stands
  obtain ⟨task, present, mans⟩ := Option.bind_eq_some_iff.mp stands
  obtain ⟨bare, stood⟩ := executed stack stands
  obtain ⟨after, answers⟩ := of_endsBare bare
  have executes := eq_ok_of_answer? answers
  obtain ⟨referred, ran, waited⟩ := stood _ rfl
  generalize stateAfter (stack.execute (Scheduler.hostFor 0) family.scheduler.config.execLimit
    family.scheduler.patience) (family.scheduler.manned 0) = middle
    at executes referred ran waited
  obtain ⟨found, foundPresent, references⟩ := Option.map_eq_some_iff.mp referred
  have cared : ¬ family.scheduler.roster.Bereft 0 := by
    rintro ⟨_, parent, _, again, own, _⟩
    rw [again, Option.map_some, own] at parentless
    exact absurd parentless nofun
  have finishes : family.scheduler.Finishes 0 (.returned []) middle :=
    .stops (by decide +kernel) cared present mans executes rfl
  obtain ⟨left, order, final, steps, clearing⟩ := (family_reachable.sweeps .between).2 _ _ _ _
    finishes foundPresent (by rw [references]; decide)
  rw [stateAfter_of_ok steps] at runs waits
  -- Who was in a queue and is there no more is among those who ended.
  have swept {lane : Lane} {before now : List Slot} (stood : middle.roster.slots lane = .ok before)
      (stands : final.roster.slots lane = .ok now) {other : Slot} (member : other ∈ before)
      (differs : other ≠ 0) (gone : other ∉ now) : other ∈ order := by
    obtain ⟨_, again, leaves⟩ := clearing.slots lane
    obtain rfl := Except.ok.inj (stood.symm.trans again)
    obtain rfl := Except.ok.inj (stands.symm.trans leaves)
    simpa [member, differs] using gone
  exact ⟨middle, left, final, order, steps, clearing,
    swept waited waits (List.mem_singleton.mpr rfl) (by decide) List.not_mem_nil,
    swept ran runs (List.mem_cons_of_mem _ List.mem_cons_self) (by decide) (by decide), runs⟩

end Session

end TaskMachine

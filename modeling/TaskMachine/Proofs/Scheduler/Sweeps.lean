/-
The sweep ends the orphans and nobody else. A task in a queue is an orphan if its
parent has ended, or if its parent is an orphan. The sweep goes through both
queues and ends each task whose parent has ended by then, and it does so until it
finds none. `Sweeping` is what holds all the while: what has been ended is an
orphan, it has left its queue, and all others are as they were. A pass that ends
nobody leaves no task in a queue whose parent has ended, so every orphan is gone
by then; and there is such a pass, because every other one takes a task out of
the queues.
-/

import TaskMachine.Proofs.Scheduler.Endings

namespace TaskMachine

namespace Roster

/-- The parent of the task at a place has ended. -/
def Bereft (roster : Roster) (slot : Slot) : Prop :=
  ∃ task parent found, roster.task? slot = some task ∧ task.parent = some parent ∧
    roster.task? parent = some found ∧ found.life = .zombie

/-- The task at a place, if it is in a queue, has a parent that is alive, or none. -/
def Cared (roster : Roster) (slot : Slot) : Prop :=
  ∀ task lane, roster.task? slot = some task → task.lane = some lane → ¬ roster.Bereft slot

/-- The orphans: tasks in queues whose parents have ended, or are orphans themselves. -/
inductive Orphan (roster : Roster) : Slot → Prop
  | bereft {slot : Slot} {task : Task} {lane : Lane} (present : roster.task? slot = some task)
      (queued : task.lane = some lane) (bereft : roster.Bereft slot) : Orphan roster slot
  | child {slot parent : Slot} {task : Task} {lane : Lane}
      (present : roster.task? slot = some task) (queued : task.lane = some lane)
      (own : task.parent = some parent) (orphan : Orphan roster parent) : Orphan roster slot

variable {roster : Roster} {slot parent : Slot} {task found : Task}

theorem bereft_iff (present : roster.task? slot = some task) (own : task.parent = some parent)
    (parentPresent : roster.task? parent = some found) :
    roster.Bereft slot ↔ found.life = .zombie := by
  constructor
  · rintro ⟨_, _, _, again, own', found', zombie⟩
    obtain rfl := Option.some.inj (present.symm.trans again)
    obtain rfl := Option.some.inj (own.symm.trans own')
    obtain rfl := Option.some.inj (parentPresent.symm.trans found')
    exact zombie
  · exact fun zombie => ⟨task, parent, found, present, own, parentPresent, zombie⟩

theorem Orphan.queued (orphan : roster.Orphan slot) :
    ∃ task lane, roster.task? slot = some task ∧ task.lane = some lane := by
  cases orphan with
  | bereft present queued => exact ⟨_, _, present, queued⟩
  | child present queued => exact ⟨_, _, present, queued⟩

end Roster

namespace Scheduler

/-- The tasks at some places end one after another, and nothing else happens, but that it may be
noted or forgotten that there could be orphans. -/
inductive Endings : Scheduler → List (Slot × Exit) → Scheduler → Prop
  | done (scheduler : Scheduler) (deathsPending : Bool) :
      Endings scheduler [] { scheduler with deathsPending }
  | one {scheduler middle final : Scheduler} {slot : Slot} {exit : Exit}
      {rest : List (Slot × Exit)} (deathsPending : Bool)
      (ends : endTask slot exit { scheduler with deathsPending } = .ok ⟨⟩ middle)
      (others : Endings middle rest final) : Endings scheduler ((slot, exit) :: rest) final

variable {origin scheduler left now next middle final : Scheduler} {ended swept : List Slot}
  {lists : Lane → List Slot} {held unscheduled : List TaskId} {running owed : Option Slot}
  {slot : Slot} {task : Task} {lane : Lane} {exit : Exit} {endings more : List (Slot × Exit)}

theorem Endings.trans (first : scheduler.Endings endings middle)
    (second : middle.Endings more final) : scheduler.Endings (endings ++ more) final := by
  induction first with
  | done scheduler _ =>
    cases second with
    | done _ deathsPending => exact .done scheduler deathsPending
    | one deathsPending ends others => exact .one deathsPending ends others
  | one deathsPending ends _ inductionHypothesis =>
    exact .one deathsPending ends (inductionHypothesis second)

/-- Whether the parent of a task has ended can be told. -/
theorem Sound.parentIsZombie_eq
    (sound : scheduler.Sound origin ended lists held unscheduled running owed)
    (present : scheduler.roster.task? slot = some task) :
    ∃ bereft, parentIsZombie slot scheduler = .ok bereft scheduler ∧
      (bereft = true ↔ scheduler.roster.Bereft slot) := by
  have after : After (parentIsZombie slot) scheduler
      (fun bereft next => next = scheduler ∧ (bereft = true ↔ scheduler.roster.Bereft slot))
      fun _ _ => False := by
    refine After.bind (after_fetch present ?_)
    cases own : task.parent with
    | none =>
      refine After.pure ⟨rfl, iff_of_false nofun ?_⟩
      rintro ⟨_, parent, _, again, own', _⟩
      obtain rfl := Option.some.inj (present.symm.trans again)
      exact absurd (own.symm.trans own') nofun
    | some parent =>
      obtain ⟨_, found, foundPresent⟩ := sound.counted.parent present own
      refine After.bind (after_fetch foundPresent (After.pure ⟨rfl, ?_⟩))
      rw [decide_eq_true_iff, Roster.bereft_iff present own foundPresent]
  cases tells : parentIsZombie slot scheduler with
  | error crash next => exact (after.error tells).elim
  | ok bereft next =>
    obtain ⟨rfl, is⟩ := after.ok tells
    exact ⟨bereft, rfl, is⟩

/-- The task at a place has ended as an orphan, which those were told who watched it before. -/
structure Orphaned (scheduler origin : Scheduler) (slot : Slot) : Prop where
  ended : ∀ task, scheduler.roster.task? slot = some task → task.life = .zombie
  told : ∀ task, origin.roster.task? slot = some task → task.life = .alive →
    ∀ watcher ∈ task.watchers, Notice.ended watcher task.id .orphaned ∈ scheduler.notices

/-! ### What holds during a sweep -/

/-- The orphans at some places have ended, latest first, and nobody else has. -/
structure Sweeping (left origin : Scheduler) (ended : List Slot) (lists : Lane → List Slot)
    (held unscheduled : List TaskId) (swept : List Slot) (now : Scheduler) : Prop where
  began : left.Sound origin ended lists held unscheduled none none
  sound : now.Sound origin (swept ++ ended) (Roster.without lists swept) held unscheduled none none
  distinct : swept.Nodup
  orphans : ∀ slot ∈ swept, left.roster.Orphan slot
  outlived : left.roster.Outlived now.roster swept
  endings : left.Endings (swept.reverse.map (·, .orphaned)) now
  told : now.notices =
    (swept.reverse.flatMap fun slot => left.partings slot .orphaned).reverse ++ left.notices

namespace Sweeping

theorem start (sound : left.Sound origin ended lists held unscheduled none none) :
    Sweeping left origin ended lists held unscheduled [] left where
  began := sound
  sound := by
    rw [Roster.without_nil]
    exact sound
  distinct := List.nodup_nil
  orphans := fun _ member => absurd member List.not_mem_nil
  outlived := .refl left.roster
  endings := .done left left.deathsPending
  told := rfl

/-- It plays no part whether more orphans are looked for. -/
theorem pending (sweeping : Sweeping left origin ended lists held unscheduled swept now)
    (deathsPending : Bool) :
    Sweeping left origin ended lists held unscheduled swept { now with deathsPending } where
  began := sweeping.began
  sound := sweeping.sound.congr rfl rfl rfl sweeping.sound.oneShot rfl ⟨[], rfl⟩
  distinct := sweeping.distinct
  orphans := sweeping.orphans
  outlived := sweeping.outlived
  endings := by
    have endings := sweeping.endings.trans (.done now deathsPending)
    rwa [List.append_nil] at endings
  told := sweeping.told

/-- The parent of an orphan that is still in a queue was an orphan too, or had ended before. -/
theorem orphan_of_bereft (sweeping : Sweeping left origin ended lists held unscheduled swept now)
    (present : now.roster.task? slot = some task) (queued : task.lane = some lane)
    (bereft : now.roster.Bereft slot) : slot ∉ swept ∧ left.roster.Orphan slot := by
  obtain ⟨inLists, apart⟩ :=
    Roster.mem_without.mp ((sweeping.sound.queued.lines.mem_iff present).mpr queued)
  obtain ⟨earlier, earlierPresent, _, inLane⟩ := sweeping.began.queued.present inLists
  obtain ⟨_, again, parent⟩ := sweeping.outlived.parent present
  obtain rfl := Option.some.inj (earlierPresent.symm.trans again)
  obtain ⟨_, place, found, again', own, foundPresent, zombie⟩ := bereft
  obtain rfl := Option.some.inj (present.symm.trans again')
  rw [parent] at own
  refine ⟨apart, ?_⟩
  by_cases inSwept : place ∈ swept
  · exact .child earlierPresent inLane own (sweeping.orphans place inSwept)
  · obtain ⟨before, beforePresent, core⟩ := sweeping.outlived.unended inSwept foundPresent
    have life : found.core.life = before.core.life := congrArg Task.life core
    exact .bereft earlierPresent inLane ⟨earlier, place, before, earlierPresent, own, beforePresent,
      life.symm.trans zombie⟩

/-- One more orphan ends. -/
theorem after_endTask (sweeping : Sweeping left origin ended lists held unscheduled swept now)
    (present : now.roster.task? slot = some task) (queued : task.lane = some lane)
    (bereft : now.roster.Bereft slot) :
    After (endTask slot .orphaned) now
      (fun _ => Sweeping left origin ended lists held unscheduled (slot :: swept))
      fun _ _ => False := by
  obtain ⟨apart, orphan⟩ := sweeping.orphan_of_bereft present queued bereft
  have member := (sweeping.sound.queued.lines.mem_iff present).mpr queued
  have after := sweeping.sound.after_endTask member nofun .orphaned
  cases ends : endTask slot .orphaned now with
  | error crash next => exact (after.error ends).elim
  | ok _ next =>
    obtain ⟨sound, departed⟩ := after.ok ends
    rw [Roster.without_append] at sound
    refine After.of_ok ends ⟨sweeping.began, sound, List.nodup_cons.mpr ⟨apart, sweeping.distinct⟩,
      fun other inside => ?_, sweeping.outlived.trans departed.outlived, ?_, ?_⟩
    · rcases List.mem_cons.mp inside with rfl | before
      · exact orphan
      · exact sweeping.orphans other before
    · have endings := sweeping.endings.trans
        (.one now.deathsPending ends (.done next next.deathsPending))
      rwa [← List.map_singleton (f := fun slot => (slot, Exit.orphaned)), ← List.map_append,
        ← List.reverse_cons] at endings
    · rw [departed.told, sweeping.told, partings_of_outlived sweeping.outlived apart present]
      simp

/-- Who was swept out was told of as an orphan. -/
theorem orphaned (sweeping : Sweeping left origin ended lists held unscheduled swept now)
    (member : slot ∈ swept) (apart : slot ∉ ended) : now.Orphaned origin slot where
  ended := fun _ present => sweeping.outlived.zombie member present
  told := fun task present alive watcher watches => by
    obtain ⟨later, laterPresent, _, id, watchers⟩ :=
      sweeping.began.since.alive slot task present alive apart
    rw [sweeping.told, List.mem_append, List.mem_reverse, List.mem_flatMap]
    refine Or.inl ⟨slot, List.mem_reverse.mpr member, ?_⟩
    rw [partings, laterPresent, ← id]
    exact List.mem_map.mpr ⟨watcher, watchers watches, rfl⟩

/-- There are no more orphans than tasks in queues. -/
theorem length_le (sweeping : Sweeping left origin ended lists held unscheduled swept now) :
    swept.length ≤ (lists .wait ++ lists .run).length := by
  refine (List.subperm_of_subset sweeping.distinct fun slot member => ?_).length_le
  obtain ⟨task, lane, present, queued⟩ := (sweeping.orphans slot member).queued
  have inList := (sweeping.began.queued.lines.mem_iff present).mpr queued
  cases lane with
  | run => exact List.mem_append_right _ inList
  | wait => exact List.mem_append_left _ inList

/-- If no task is left in a queue whose parent has ended, all orphans have ended. -/
theorem mem_iff (sweeping : Sweeping left origin ended lists held unscheduled swept now)
    (cared : ∀ slot, now.roster.Cared slot) : slot ∈ swept ↔ left.roster.Orphan slot := by
  refine ⟨sweeping.orphans slot, fun orphan => ?_⟩
  -- An orphan that is left is still in its queue, and so is what it says of its parent.
  have remains {slot : Slot} {task : Task} {lane : Lane} (absent : slot ∉ swept)
      (present : left.roster.task? slot = some task) (queued : task.lane = some lane) {parent : Slot}
      (own : task.parent = some parent)
      (zombie : ∀ found, now.roster.task? parent = some found → found.life = .zombie) : False := by
    have inList := (sweeping.began.queued.lines.mem_iff present).mpr queued
    obtain ⟨later, laterPresent, _, inLane⟩ :=
      sweeping.sound.queued.present (Roster.mem_without.mpr ⟨inList, absent⟩)
    obtain ⟨_, again, parents⟩ := sweeping.outlived.parent laterPresent
    obtain rfl := Option.some.inj (present.symm.trans again)
    rw [own] at parents
    obtain ⟨_, found, foundPresent⟩ := sweeping.sound.counted.parent laterPresent parents
    exact cared slot later lane laterPresent inLane
      ⟨later, parent, found, laterPresent, parents, foundPresent, zombie found foundPresent⟩
  induction orphan with
  | bereft present queued bereft =>
    obtain ⟨_, parent, found, again, own, foundPresent, zombie⟩ := bereft
    obtain rfl := Option.some.inj (present.symm.trans again)
    by_contra absent
    exact remains absent present queued own fun later laterPresent =>
      sweeping.outlived.still_zombie zombie foundPresent laterPresent
  | child present queued own _ inductionHypothesis =>
    by_contra absent
    exact remains absent present queued own fun later laterPresent =>
      sweeping.outlived.zombie inductionHypothesis laterPresent

/-! ### The sweep -/

/-- What a part of the sweep comes to: either it ended nobody, and the tasks that it looked at have
parents that are alive, or it ended some. -/
def Result (left origin : Scheduler) (ended : List Slot) (lists : Lane → List Slot)
    (held unscheduled : List TaskId) (swept : List Slot) (now : Scheduler) (slots : List Slot)
    (any : Bool) (next : Scheduler) : Prop :=
  any = false ∧ next = now ∧ (∀ slot ∈ slots, now.roster.Cared slot) ∨
    any = true ∧ ∃ slot more,
      Sweeping left origin ended lists held unscheduled (slot :: (more ++ swept)) next

theorem after_sweepSlot (sweeping : Sweeping left origin ended lists held unscheduled swept now)
    (slot : Slot) :
    After (sweepSlot slot) now
      (Result left origin ended lists held unscheduled swept now [slot]) fun _ _ => False := by
  have nothing (cared : now.roster.Cared slot) :
      Result left origin ended lists held unscheduled swept now [slot] false now :=
    Or.inl ⟨rfl, rfl, fun other member => by rwa [List.mem_singleton.mp member]⟩
  refine After.bind (After.get ?_)
  cases present : now.roster.task? slot with
  | none =>
    refine After.pure (nothing fun task lane found => ?_)
    exact absurd (present.symm.trans found) nofun
  | some task =>
    cases inLane : task.lane with
    | none =>
      simp only [inLane]
      refine After.pure (nothing fun other lane found queued => ?_)
      obtain rfl := Option.some.inj (present.symm.trans found)
      exact absurd (inLane.symm.trans queued) nofun
    | some lane =>
      simp only [inLane]
      obtain ⟨bereft, tells, is⟩ := sweeping.sound.parentIsZombie_eq present
      refine After.bind (After.of_ok tells ?_)
      cases bereft with
      | false => exact After.pure (nothing fun _ _ _ _ lost => absurd (is.mpr lost) nofun)
      | true =>
        refine After.bind ((sweeping.after_endTask present inLane (is.mp rfl)).imp
          fun _ next swept => ?_)
        exact After.pure (Or.inr ⟨rfl, slot, [], swept⟩)

theorem after_sweepSlots (sweeping : Sweeping left origin ended lists held unscheduled swept now)
    (slots : List Slot) :
    After (sweepSlots slots) now
      (Result left origin ended lists held unscheduled swept now slots) fun _ _ => False := by
  induction slots generalizing now swept with
  | nil => exact After.pure (Or.inl ⟨rfl, rfl, fun _ member => absurd member List.not_mem_nil⟩)
  | cons slot rest inductionHypothesis =>
    refine After.bind ((sweeping.after_sweepSlot slot).imp fun first middle result => ?_)
    rcases result with ⟨rfl, rfl, cared⟩ | ⟨rfl, other, more, swept⟩
    · refine After.bind ((inductionHypothesis sweeping).imp fun others next result => ?_)
      rcases result with ⟨rfl, rfl, caredToo⟩ | found
      · refine After.pure (Or.inl ⟨rfl, rfl, fun other member => ?_⟩)
        rcases List.mem_cons.mp member with rfl | later
        · exact cared other List.mem_cons_self
        · exact caredToo other later
      · exact After.pure (Or.inr ⟨found.1, found.2⟩)
    · refine After.bind ((inductionHypothesis swept).imp fun others next result => ?_)
      rcases result with ⟨rfl, rfl, _⟩ | ⟨rfl, last, later, sweptToo⟩
      · exact After.pure (Or.inr ⟨rfl, other, more, swept⟩)
      · refine After.pure (Or.inr ⟨rfl, last, later ++ other :: more, ?_⟩)
        simpa using sweptToo

/-- A pass over both queues that ends nobody leaves no orphan. -/
theorem after_sweepOnce (sweeping : Sweeping left origin ended lists held unscheduled swept now) :
    After sweepOnce now
      (fun any next =>
        any = false ∧ Sweeping left origin ended lists held unscheduled swept next ∧
            (∀ slot, next.roster.Cared slot) ∨
          any = true ∧ ∃ slot more,
            Sweeping left origin ended lists held unscheduled (slot :: (more ++ swept)) next)
      fun _ _ => False := by
  have lines := sweeping.sound.queued.lines
  refine After.bind (after_reading (lines.slots .wait) ?_)
  refine After.bind (after_reading (lines.slots .run) ?_)
  refine After.bind ((sweeping.after_sweepSlots _).imp fun any middle result => ?_)
  refine After.bind (After.modify (After.pure ?_))
  rcases result with ⟨rfl, rfl, cared⟩ | ⟨rfl, slot, more, swept⟩
  · refine Or.inl ⟨rfl, sweeping.pending false, fun slot task lane present queued => ?_⟩
    have member := (lines.mem_iff present).mpr queued
    refine cared slot ?_ task lane present queued
    cases lane with
    | run => exact List.mem_append_right _ member
    | wait => exact List.mem_append_left _ member
  · exact Or.inr ⟨rfl, slot, more, swept.pending false⟩

/-- As many passes as there are tasks in queues that have not been ended yet, and one more, are
enough. -/
theorem after_sweepWithin {passes : Nat}
    (sweeping : Sweeping left origin ended lists held unscheduled swept now)
    (enough : (lists .wait ++ lists .run).length < passes + swept.length) :
    After (sweepWithin passes) now
      (fun _ next => ∃ swept, Sweeping left origin ended lists held unscheduled swept next ∧
        ∀ slot, next.roster.Cared slot)
      fun _ _ => False := by
  induction passes generalizing now swept with
  | zero => exact absurd sweeping.length_le (by omega)
  | succ passes inductionHypothesis =>
    refine After.bind (sweeping.after_sweepOnce.imp fun any middle result => ?_)
    rcases result with ⟨rfl, still, cared⟩ | ⟨rfl, slot, more, further⟩
    · exact After.pure ⟨swept, still, cared⟩
    · refine inductionHypothesis further ?_
      simp only [List.length_cons, List.length_append] at enough ⊢
      omega

end Sweeping

namespace Sound

/-- If there may be orphans, the sweep ends all of them. Otherwise it does nothing. -/
theorem after_sweepOrphans (sound : left.Sound origin ended lists held unscheduled none none) :
    After sweepOrphans left
      (fun _ next => ∃ swept, Sweeping left origin ended lists held unscheduled swept next ∧
        (left.deathsPending = true → ∀ slot, next.roster.Cared slot))
      fun _ _ => False := by
  refine After.bind (After.get ?_)
  cases left.deathsPending with
  | false => exact After.pure ⟨[], .start sound, nofun⟩
  | true =>
    refine After.bind (After.modify (After.bind (After.get ?_)))
    have within := sound.queued.lines.length_le
    refine (((Sweeping.start sound).pending false).after_sweepWithin ?_).imp
      fun _ next result => ?_
    · show (lists .wait ++ lists .run).length < left.roster.tasks.size + 1 + 0
      rw [List.length_append]
      omega
    · obtain ⟨swept, sweeping, cared⟩ := result
      exact ⟨swept, sweeping, fun _ => cared⟩

/-- A task ends and then all orphans do, if something still refers to it. -/
theorem after_close (sound : scheduler.Sound origin ended lists held unscheduled running none)
    (member : slot ∈ lists lane) (turn : ∀ {place}, running = some place → place = slot)
    (exit : Exit) :
    After (do endTask slot exit; sweepOrphans) scheduler
      (fun _ next => ∃ left swept, endTask slot exit scheduler = .ok ⟨⟩ left ∧
        scheduler.Departed slot exit left ∧
        Sweeping left origin (slot :: ended) (Roster.without lists [slot]) held unscheduled swept
          next ∧
        (left.deathsPending = true → ∀ slot, next.roster.Cared slot))
      fun _ _ => False := by
  have after := sound.after_endTask member turn exit
  cases ends : endTask slot exit scheduler with
  | error crash next => exact (after.error ends).elim
  | ok _ left =>
    obtain ⟨soundNow, departed⟩ := after.ok ends
    refine After.bind (After.of_ok ends (soundNow.after_sweepOrphans.imp fun _ next result => ?_))
    obtain ⟨swept, sweeping, cared⟩ := result
    exact ⟨left, swept, rfl, departed, sweeping, cared⟩

end Sound

end Scheduler

end TaskMachine

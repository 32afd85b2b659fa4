/-
How far it goes when a reference to a task is released. If it was the last one
the task is gone, which releases the reference that it had given its parent, and
so on up to the first task that has another one, or past the last parent. That
way is a `Cascade`; there is just one from each task, and it has an end because
no task is among its own ancestors.

The tasks of a cascade are taken away while the way is followed. What is left of
it does not lead through a task that is gone already, again because no task is
among its own ancestors, and so the rest of the release is a cascade of the tasks
that are left.
-/

import Mathlib.Logic.Relation
import TaskMachine.Proofs.Session.Basic

namespace TaskMachine

namespace Roster

/-- One task is a child of another. -/
def ChildOf (roster : Roster) (child parent : Slot) : Prop := child ∈ roster.children parent

/-- References can be released: every task is registered under its number and has a reference,
parents are there, and no task is among its own ancestors. -/
structure Tended (roster : Roster) (registry : Table TaskId Slot) : Prop where
  registered : ∀ {slot task}, roster.task? slot = some task → registry.find? task.id = some slot
  referenced : ∀ {slot task}, roster.task? slot = some task → 0 < task.references
  parent : ∀ {slot task parent}, roster.task? slot = some task → task.parent = some parent →
    ∃ found, roster.task? parent = some found
  acyclic : ∀ slot, ¬ Relation.TransGen roster.ChildOf slot slot

/-- What the release of a reference to the task at a place takes with it: from there on, one the
parent of the other, the tasks with a single reference. It stops at the first that has more, if
there is one. -/
inductive Cascade (roster : Roster) : Slot → List Slot → Option Slot → Prop
  | stop {slot : Slot} {task : Task} (present : roster.task? slot = some task)
      (shared : 1 < task.references) : Cascade roster slot [] (some slot)
  | last {slot : Slot} {task : Task} (present : roster.task? slot = some task)
      (single : task.references = 1) (orphan : task.parent = none) : Cascade roster slot [slot] none
  | climb {slot parent : Slot} {task : Task} {gone : List Slot} {stop : Option Slot}
      (present : roster.task? slot = some task) (single : task.references = 1)
      (own : task.parent = some parent) (above : Cascade roster parent gone stop) :
      Cascade roster slot (slot :: gone) stop

variable {roster : Roster} {registry : Table TaskId Slot} {slot other child parent : Slot}
  {task : Task} {gone gone' : List Slot} {stop stop' : Option Slot}

/-! ### Ancestors -/

/-- The places of the parent of a task, of its parent, and so on. -/
noncomputable def ancestors (roster : Roster) (slot : Slot) : Finset Slot := by
  classical
  exact (Finset.range roster.tasks.size).filter fun other =>
    Relation.TransGen roster.ChildOf slot other

theorem mem_ancestors : other ∈ roster.ancestors slot ↔
    other < roster.tasks.size ∧ Relation.TransGen roster.ChildOf slot other := by
  classical
  unfold ancestors
  rw [Finset.mem_filter, Finset.mem_range]

/-- A parent has fewer ancestors than its child. -/
theorem Tended.card_ancestors_lt (tended : roster.Tended registry)
    (own : roster.ChildOf child parent) :
    (roster.ancestors parent).card < (roster.ancestors child).card := by
  refine Finset.card_lt_card (Finset.ssubset_iff_of_subset ?_ |>.mpr ⟨parent, ?_, ?_⟩)
  · intro other member
    obtain ⟨within, above⟩ := mem_ancestors.mp member
    exact mem_ancestors.mpr ⟨within, above.head own⟩
  · obtain ⟨task, present, ownParent⟩ := mem_children.mp own
    obtain ⟨found, parentPresent⟩ := tended.parent present ownParent
    exact mem_ancestors.mpr ⟨lt_size_of_task?_eq_some parentPresent, .single own⟩
  · intro member
    exact tended.acyclic parent (mem_ancestors.mp member).2

/-- There are more places than a task has ancestors. -/
theorem Tended.card_ancestors_lt_size (tended : roster.Tended registry)
    (present : roster.task? slot = some task) :
    (roster.ancestors slot).card < roster.tasks.size := by
  have proper : roster.ancestors slot ⊂ Finset.range roster.tasks.size := by
    refine Finset.ssubset_iff_of_subset ?_ |>.mpr ⟨slot, ?_, ?_⟩
    · intro other member
      exact Finset.mem_range.mpr (mem_ancestors.mp member).1
    · exact Finset.mem_range.mpr (lt_size_of_task?_eq_some present)
    · intro member
      exact tended.acyclic slot (mem_ancestors.mp member).2
  have fewer := Finset.card_lt_card proper
  rwa [Finset.card_range] at fewer

/-- Parents that came before their children are not among their descendants. -/
theorem Counted.tended {nextId : TaskId} {held : List TaskId} {owed : Option Slot}
    (counted : roster.Counted registry nextId held owed) : roster.Tended registry where
  registered := fun present => counted.registered.mpr ⟨_, present, rfl⟩
  referenced := counted.referenced
  parent := fun present own => (counted.parent present own).2
  acyclic := by
    have sooner {descendant ancestor : Slot}
        (above : Relation.TransGen roster.ChildOf descendant ancestor) : ancestor < descendant := by
      induction above with
      | single own =>
        obtain ⟨task, present, ownParent⟩ := mem_children.mp own
        exact (counted.parent present ownParent).1
      | tail _ own inductionHypothesis =>
        obtain ⟨task, present, ownParent⟩ := mem_children.mp own
        exact Nat.lt_trans (counted.parent present ownParent).1 inductionHypothesis
    intro slot above
    exact Nat.lt_irrefl slot (sooner above)

/-! ### Cascades -/

namespace Cascade

/-- From each task there is one cascade. -/
theorem unique (cascade : roster.Cascade slot gone stop) (again : roster.Cascade slot gone' stop') :
    gone' = gone ∧ stop' = stop := by
  induction cascade generalizing gone' stop' with
  | stop present shared =>
    cases again with
    | stop => exact ⟨rfl, rfl⟩
    | last found single | climb found single =>
      rw [Option.some.inj (found.symm.trans present)] at single
      omega
  | last present single orphan =>
    cases again with
    | stop found shared =>
      rw [Option.some.inj (found.symm.trans present)] at shared
      omega
    | last => exact ⟨rfl, rfl⟩
    | climb found _ own =>
      rw [Option.some.inj (found.symm.trans present), orphan] at own
      exact absurd own nofun
  | climb present single own _ inductionHypothesis =>
    cases again with
    | stop found shared =>
      rw [Option.some.inj (found.symm.trans present)] at shared
      omega
    | last found _ orphan =>
      rw [Option.some.inj (found.symm.trans present), own] at orphan
      exact absurd orphan nofun
    | climb found _ ownAgain above =>
      rw [Option.some.inj (found.symm.trans present), own] at ownAgain
      obtain rfl := Option.some.inj ownAgain
      obtain ⟨rfl, rfl⟩ := inductionHypothesis above
      exact ⟨rfl, rfl⟩

/-- A cascade leads to ancestors only. -/
theorem above (cascade : roster.Cascade slot gone stop) (member : other ∈ gone ++ stop.toList) :
    Relation.ReflTransGen roster.ChildOf slot other := by
  induction cascade with
  | stop | last =>
    obtain rfl : other = _ := by simpa using member
    exact .refl
  | climb present _ own _ inductionHypothesis =>
    rcases List.mem_cons.mp member with rfl | further
    · exact .refl
    · exact (inductionHypothesis further).head (mem_children.mpr ⟨_, present, own⟩)

/-- A cascade comes to no task twice. -/
theorem nodup (cascade : roster.Cascade slot gone stop) (tended : roster.Tended registry) :
    (gone ++ stop.toList).Nodup := by
  induction cascade with
  | stop | last => simp
  | @climb slot _ _ _ _ present _ own above inductionHypothesis =>
    refine List.nodup_cons.mpr ⟨fun member => ?_, inductionHypothesis⟩
    exact tended.acyclic slot (.head' (mem_children.mpr ⟨_, present, own⟩) (above.above member))

/-- A task that a cascade does not come to can go. -/
theorem drop (cascade : roster.Cascade slot gone stop) (apart : other ∉ gone ++ stop.toList) :
    (roster.setTask other none).Cascade slot gone stop := by
  induction cascade with
  | @stop slot task present shared =>
    have differ : slot ≠ other := by simpa [eq_comm] using apart
    exact .stop (task?_drop_of_present differ present) shared
  | @last slot task present single orphan =>
    have differ : slot ≠ other := by simpa [eq_comm] using apart
    exact .last (task?_drop_of_present differ present) single orphan
  | climb present single own _ inductionHypothesis =>
    obtain ⟨differ, further⟩ := not_or.mp (mt List.mem_cons.mpr apart)
    exact .climb (task?_drop_of_present (Ne.symm differ) present) single own
      (inductionHypothesis further)

end Cascade

/-- There is a cascade from each task, and it is no longer than there are ancestors. -/
theorem Tended.exists_cascade (tended : roster.Tended registry)
    (present : roster.task? slot = some task) :
    ∃ gone stop, roster.Cascade slot gone stop ∧
      gone.length ≤ (roster.ancestors slot).card + 1 := by
  -- The induction is on the number of ancestors, of which a parent has less.
  induction count : (roster.ancestors slot).card using Nat.strong_induction_on
    generalizing slot task with
  | _ number inductionHypothesis =>
    subst count
    have referenced := tended.referenced present
    by_cases shared : 1 < task.references
    · exact ⟨[], some slot, .stop present shared, Nat.zero_le _⟩
    · have single : task.references = 1 := by omega
      cases own : task.parent with
      | none => exact ⟨[slot], none, .last present single own, by simp⟩
      | some parent =>
        obtain ⟨found, parentPresent⟩ := tended.parent present own
        have fewer := tended.card_ancestors_lt (mem_children.mpr ⟨task, present, own⟩)
        obtain ⟨gone, stop, above, short⟩ := inductionHypothesis _ fewer parentPresent rfl
        refine ⟨slot :: gone, stop, .climb present single own above, ?_⟩
        rw [List.length_cons]
        omega

end Roster

namespace Scheduler

variable {scheduler next : Scheduler} {slot : Slot} {task : Task} {gone : List Slot}
  {stop : Option Slot}

/-- Some tasks are gone and their numbers with them, one task has lost a reference, and nothing
else has changed. -/
structure Relieved (scheduler : Scheduler) (gone : List Slot) (stop : Option Slot)
    (next : Scheduler) : Prop where
  rest : ∃ roster registry, next = { scheduler with roster, registry }
  ends : next.roster.ends = scheduler.roster.ends
  missing : ∀ place ∈ gone, next.roster.task? place = none
  lowered : ∀ {place task}, stop = some place → scheduler.roster.task? place = some task →
    next.roster.task? place = some { task with references := task.references - 1 }
  others : ∀ {place}, place ∉ gone → stop ≠ some place →
    next.roster.task? place = scheduler.roster.task? place
  struck : ∀ place ∈ gone, ∀ task, scheduler.roster.task? place = some task →
    next.registry.find? task.id = none
  kept : ∀ {id}, (∀ place ∈ gone, ∀ task, scheduler.roster.task? place = some task →
    task.id ≠ id) → next.registry.find? id = scheduler.registry.find? id

/-- The scheduler without the task at a place. -/
def without (scheduler : Scheduler) (slot : Slot) (id : TaskId) : Scheduler :=
  { scheduler with
    roster := scheduler.roster.setTask slot none
    registry := scheduler.registry.erase id }

/-- The last of a cascade is gone. -/
theorem relieved_without (present : scheduler.roster.task? slot = some task) :
    scheduler.Relieved [slot] none (scheduler.without slot task.id) where
  rest := ⟨_, _, rfl⟩
  ends := funext fun lane => Roster.ends_setTask scheduler.roster slot none lane
  missing := by
    intro place member
    rw [List.mem_singleton.mp member]
    exact (Roster.task?_drop ..).trans (if_pos rfl)
  lowered := nofun
  others := by
    intro place apart _
    exact (Roster.task?_drop ..).trans (if_neg (mt List.mem_singleton.mpr apart))
  struck := by
    intro place member found foundPresent
    rw [List.mem_singleton.mp member, present] at foundPresent
    rw [← Option.some.inj foundPresent]
    exact Table.find?_erase_self _ _
  kept := fun differ =>
    Table.find?_erase_other _ (Ne.symm (differ slot List.mem_cons_self task present))

/-- The task where a cascade stops has lost a reference. -/
theorem relieved_alter (present : scheduler.roster.task? slot = some task) {left : Nat}
    (count : task.references = left + 2) :
    scheduler.Relieved [] (some slot) { scheduler with
      roster := scheduler.roster.alter slot fun task => { task with references := left + 1 } } where
  rest := ⟨_, _, rfl⟩
  ends := funext fun lane => Roster.ends_alter scheduler.roster slot _ lane
  missing := nofun
  lowered := by
    intro place found same foundPresent
    obtain rfl := Option.some.inj same
    obtain rfl := Option.some.inj (present.symm.trans foundPresent)
    show (scheduler.roster.alter slot _).task? slot = _
    rw [Roster.task?_alter_of_present present, if_pos rfl, count]
    rfl
  others := by
    intro place _ apart
    exact (Roster.task?_alter ..).trans (if_neg fun same => apart (congrArg some same.symm))
  struck := nofun
  kept := fun _ => rfl

/-- A number that is not in use stays unused. -/
theorem Relieved.unused (relieved : scheduler.Relieved gone stop next) {id : TaskId}
    (unknown : scheduler.registry.find? id = none) : next.registry.find? id = none := by
  by_cases struck : ∃ place ∈ gone, ∃ task, scheduler.roster.task? place = some task ∧ task.id = id
  · obtain ⟨place, member, task, present, rfl⟩ := struck
    exact relieved.struck place member task present
  · rw [relieved.kept fun place member task present same =>
      struck ⟨place, member, task, present, same⟩]
    exact unknown

/-- A task is gone, and then the rest of a cascade. -/
theorem Relieved.cons (relieved : (scheduler.without slot task.id).Relieved gone stop next)
    (present : scheduler.roster.task? slot = some task) (apart : slot ∉ gone ++ stop.toList) :
    scheduler.Relieved (slot :: gone) stop next := by
  have first := relieved_without present
  have still {place : Slot} (differ : place ≠ slot) :
      (scheduler.without slot task.id).roster.task? place = scheduler.roster.task? place :=
    first.others (mt List.mem_singleton.mp differ) nofun
  have elsewhere {place : Slot} (member : place ∈ gone ++ stop.toList) : place ≠ slot :=
    ne_of_mem_of_not_mem member apart
  have among {place : Slot} (member : place ∈ gone) : place ≠ slot :=
    elsewhere (List.mem_append_left _ member)
  refine ⟨?_, relieved.ends.trans first.ends, ?_, ?_, ?_, ?_, ?_⟩
  · obtain ⟨roster, registry, rfl⟩ := relieved.rest
    exact ⟨roster, registry, rfl⟩
  · refine List.forall_mem_cons.mpr ⟨?_, relieved.missing⟩
    rw [relieved.others (fun member => among member rfl) ?_]
    · exact first.missing slot List.mem_cons_self
    · rintro rfl
      exact apart (by simp)
  · intro place found same foundPresent
    exact relieved.lowered same ((still (elsewhere (by simp [same]))).trans foundPresent)
  · intro place outside differ
    obtain ⟨notFirst, notLater⟩ := not_or.mp (mt List.mem_cons.mpr outside)
    rw [relieved.others notLater differ, still notFirst]
  · refine List.forall_mem_cons.mpr ⟨fun found foundPresent => ?_, fun place member found
      foundPresent => ?_⟩
    · exact relieved.unused (first.struck slot List.mem_cons_self found foundPresent)
    · exact relieved.struck place member found ((still (among member)).trans foundPresent)
  · intro id differ
    obtain ⟨own, later⟩ := List.forall_mem_cons.mp differ
    rw [relieved.kept fun place member found foundPresent =>
      later place member found ((still (among member)).symm.trans foundPresent)]
    exact Table.find?_erase_other _ (Ne.symm (own task present))

/-- A release that may go on for more tasks than are in the cascade takes just those. -/
theorem after_releaseWithin_cascade {tasks : Nat}
    (cascade : scheduler.roster.Cascade slot gone stop) (distinct : (gone ++ stop.toList).Nodup)
    (enough : gone.length < tasks) :
    After (releaseWithin tasks slot) scheduler (fun _ => scheduler.Relieved gone stop)
      fun _ _ => False := by
  induction tasks generalizing scheduler slot gone with
  | zero => exact absurd enough (Nat.not_lt_zero _)
  | succ tasks inductionHypothesis =>
    cases cascade with
    | stop present shared =>
      refine After.bind (after_fetch present ?_)
      obtain ⟨left, count⟩ := Nat.exists_eq_add_of_le' shared
      rw [count]
      exact after_update present (relieved_alter present count)
    | last present single orphan =>
      refine After.bind (after_fetch present ?_)
      rw [single]
      refine After.bind (after_onRoster (After.of_ok (Roster.drop_eq _ slot) ?_))
      refine After.bind (After.modify ?_)
      rw [orphan]
      exact After.pure (relieved_without present)
    | climb present single own above =>
      obtain ⟨apart, further⟩ := List.nodup_cons.mp distinct
      refine After.bind (after_fetch present ?_)
      rw [single]
      refine After.bind (after_onRoster (After.of_ok (Roster.drop_eq _ slot) ?_))
      refine After.bind (After.modify ?_)
      rw [own]
      exact (inductionHypothesis (above.drop apart) further (Nat.lt_of_succ_lt_succ enough)).imp
        fun _ _ relieved => relieved.cons present apart

/-- A reference to any task can be released. That takes away the tasks of the one cascade from it
with their numbers, and one reference from the task where it stops, if it stops at one. All other
tasks are as they were, and they are still registered under their numbers. -/
theorem releaseSlot_cascades (tended : scheduler.roster.Tended scheduler.registry)
    (present : scheduler.roster.task? slot = some task) :
    ∃ gone stop next, scheduler.roster.Cascade slot gone stop ∧
      (∀ others other, scheduler.roster.Cascade slot others other → others = gone ∧ other = stop) ∧
      releaseSlot slot scheduler = .ok ⟨⟩ next ∧ scheduler.Relieved gone stop next ∧
      ∀ place found, place ∉ gone → scheduler.roster.task? place = some found →
        next.registry.find? found.id = some place := by
  obtain ⟨gone, stop, cascade, short⟩ := tended.exists_cascade present
  have ancestors := tended.card_ancestors_lt_size present
  have releases : After (releaseSlot slot) scheduler (fun _ => scheduler.Relieved gone stop)
      fun _ _ => False :=
    After.bind (After.get (after_releaseWithin_cascade cascade (cascade.nodup tended) (by omega)))
  cases runs : releaseSlot slot scheduler with
  | error crash next => exact (releases.error runs).elim
  | ok result next =>
    have relieved := releases.ok runs
    refine ⟨gone, stop, next, cascade, fun _ _ => cascade.unique, rfl, relieved, ?_⟩
    intro place found apart foundPresent
    have known := tended.registered foundPresent
    rw [relieved.kept fun other member earlier earlierPresent same => ?_]
    · exact known
    · -- No other task has the number.
      have registered := tended.registered earlierPresent
      rw [same, known] at registered
      exact apart (Option.some.inj registered ▸ member)

end Scheduler

namespace Session

/-- A task waits for a message. Its child has ended and is kept by a child of its own, which was
never scheduled. -/
def lineage : Session :=
  ((((start .standard 0 fun _ => []).continued (.spawn listening none)).continued
    (.spawn default (some ⟨1⟩))).continued (.createTask default (some ⟨2⟩))).continued (.run 2)

theorem lineage_reachable : lineage.Reachable := by
  refine .continued (.continued (.continued (.continued (.start _ _ _)
    trivial ?_) trivial ?_) trivial ?_) trivial ?_ <;> decide +kernel

/-- The last reference to the youngest takes it and its parent away, and the eldest is left with the
reference for its own life. -/
theorem lineage_cascades : lineage.scheduler.roster.Tended lineage.scheduler.registry ∧
    ∃ next, Scheduler.releaseSlot 2 lineage.scheduler = .ok ⟨⟩ next ∧
      next.roster.task? 2 = none ∧ next.roster.task? 1 = none ∧
      (next.roster.task? 0).map Task.references = some 1 ∧
      next.registry.find? ⟨3⟩ = none ∧ next.registry.find? ⟨2⟩ = none ∧
      next.registry.find? ⟨1⟩ = some 0 := by
  have accounts (slot : Slot) (account : TaskId × Option Slot × Nat × Life)
      (found : (lineage.scheduler.roster.task? slot).map Task.account = some account) :
      ∃ task, lineage.scheduler.roster.task? slot = some task ∧ task.account = account :=
    Option.map_eq_some_iff.mp found
  obtain ⟨eldest, eldestPresent, eldestIs⟩ := accounts 0 (⟨1⟩, none, 2, .alive) (by decide +kernel)
  obtain ⟨middle, middlePresent, middleIs⟩ :=
    accounts 1 (⟨2⟩, some 0, 1, .zombie) (by decide +kernel)
  obtain ⟨youngest, youngestPresent, youngestIs⟩ :=
    accounts 2 (⟨3⟩, some 1, 1, .alive) (by decide +kernel)
  simp only [Task.account, Prod.mk.injEq] at eldestIs middleIs youngestIs
  have cascade : lineage.scheduler.roster.Cascade 2 [2, 1] (some 0) :=
    .climb youngestPresent youngestIs.2.2.1 youngestIs.2.1
      (.climb middlePresent middleIs.2.2.1 middleIs.2.1
        (.stop eldestPresent (by omega)))
  obtain ⟨lists, sound⟩ := lineage_reachable.sound
  have tended := sound.counted.tended
  obtain ⟨gone, stop, next, _, unique, releases, relieved, registered⟩ :=
    Scheduler.releaseSlot_cascades tended youngestPresent
  obtain ⟨rfl, rfl⟩ := unique _ _ cascade
  refine ⟨tended, next, releases, relieved.missing 2 (by simp), relieved.missing 1 (by simp), ?_,
    ?_, ?_, ?_⟩
  · rw [relieved.lowered rfl eldestPresent, Option.map_some, eldestIs.2.2.1]
  · rw [← youngestIs.1]
    exact relieved.struck 2 (by simp) youngest youngestPresent
  · rw [← middleIs.1]
    exact relieved.struck 1 (by simp) middle middlePresent
  · rw [← eldestIs.1]
    exact registered 0 eldest (by simp) eldestPresent

end Session

end TaskMachine

/-
The queues of a roster as lists. `Lined` says that the links of the tasks, the
ends and the length of a queue all agree with one list of places, and that every
task that says it is in the queue is in that list. `Lines` says this of both
queues at once.

Under `Lines` the operations on queues cannot break off: they do to the lists
what their names say, and to the tasks nothing but to change their places.
-/

import Mathlib.Data.List.Basic
import Mathlib.Data.List.Nodup
import Mathlib.Data.List.Perm.Subperm
import Mathlib.Logic.Function.Basic
import TaskMachine.Proofs.Roster.Places

namespace TaskMachine.Roster

/-- A queue stands in a line: its tasks are those of a list, in that order. -/
structure Lined (roster : Roster) (lane : Lane) (slots : List Slot) : Prop where
  ends : roster.ends lane = ⟨slots.head?, slots.getLast?, slots.length⟩
  distinct : slots.Nodup
  placed : ∀ {before slot behind}, slots = before ++ slot :: behind →
    ∃ task, roster.task? slot = some task ∧
      task.place = (some lane, ⟨behind.head?, before.getLast?⟩)
  complete : ∀ {slot task}, roster.task? slot = some task → task.lane = some lane → slot ∈ slots

/-- Both queues stand in lines. -/
def Lines (roster : Roster) (lists : Lane → List Slot) : Prop :=
  ∀ lane, roster.Lined lane (lists lane)

/-- The lists without some places. -/
def without (lists : Lane → List Slot) (gone : List Slot) (lane : Lane) : List Slot :=
  (lists lane).filter (· ∉ gone)

theorem without_nil (lists : Lane → List Slot) : without lists [] = lists :=
  funext fun lane => by simp [without]

theorem without_append (lists : Lane → List Slot) (gone more : List Slot) :
    without (without lists gone) more = without lists (more ++ gone) :=
  funext fun lane => by simp [without, List.filter_filter]

theorem mem_without {lists : Lane → List Slot} {gone : List Slot} {lane : Lane} {slot : Slot} :
    slot ∈ without lists gone lane ↔ slot ∈ lists lane ∧ slot ∉ gone := by
  simp [without]

theorem without_of_not_mem {lists : Lane → List Slot} {lane : Lane} {slot : Slot}
    (absent : slot ∉ lists lane) : without lists [slot] lane = lists lane :=
  List.filter_eq_self.mpr fun place member => by simpa using ne_of_mem_of_not_mem member absent

/-- No task is in a queue. -/
structure Unqueued (roster : Roster) : Prop where
  ends : ∀ lane, roster.ends lane = .empty
  apart : ∀ {slot task}, roster.task? slot = some task → task.lane = none

theorem unqueued_empty : empty.Unqueued where
  ends := by
    intro lane
    cases lane <;> rfl
  apart := fun {slot task} present => by
    rw [empty, task?] at present
    exact absurd present (by simp)

/-- Queues that nobody is in stand in empty lines. -/
theorem Unqueued.lines {roster : Roster} (unqueued : roster.Unqueued) :
    roster.Lines fun _ => [] := fun lane =>
  { ends := unqueued.ends lane
    distinct := List.nodup_nil
    placed := fun split => absurd split (by simp)
    complete := fun present inLane => by
      rw [unqueued.apart present] at inLane
      exact absurd inLane nofun }

theorem lines_empty : empty.Lines fun _ => [] := unqueued_empty.lines

section

variable {roster next : Roster} {lane other : Lane} {slots : List Slot} {slot : Slot} {task : Task}
  {lists : Lane → List Slot}

/-! ### What the lists say -/

/-- A place in the list has a task, which says that it is in the queue. -/
theorem Lined.present (lined : roster.Lined lane slots) (member : slot ∈ slots) :
    ∃ task, roster.task? slot = some task ∧ task.lane = some lane := by
  obtain ⟨before, behind, split⟩ := List.append_of_mem member
  obtain ⟨task, present, place⟩ := lined.placed split
  exact ⟨task, present, congrArg Prod.fst place⟩

theorem Lined.lt_size (lined : roster.Lined lane slots) (member : slot ∈ slots) :
    slot < roster.tasks.size := by
  obtain ⟨task, present, _⟩ := lined.present member
  exact lt_size_of_task?_eq_some present

/-- A task is in the list of the queue that it says it is in, and in no other. -/
theorem Lines.mem_iff (lines : roster.Lines lists) (present : roster.task? slot = some task) :
    slot ∈ lists lane ↔ task.lane = some lane := by
  constructor
  · intro member
    obtain ⟨found, foundPresent, queued⟩ := (lines lane).present member
    rw [present] at foundPresent
    rw [Option.some.inj foundPresent, queued]
  · exact (lines lane).complete present

/-- No task is in both lists. -/
theorem Lines.apart (lines : roster.Lines lists) (member : slot ∈ lists lane)
    (differ : other ≠ lane) : slot ∉ lists other := by
  obtain ⟨task, present, queued⟩ := (lines lane).present member
  rw [lines.mem_iff present, queued]
  exact fun same => differ (Option.some.inj same).symm

/-- A task that leaves its queue is missing from the lists. -/
theorem Lines.update_erase (lines : roster.Lines lists) (member : slot ∈ lists lane) :
    Function.update lists lane ((lists lane).erase slot) = without lists [slot] := by
  funext other
  by_cases same : other = lane
  · subst same
    rw [Function.update_self, (lines other).distinct.erase_eq_filter]
    exact List.filter_congr fun place _ => by by_cases same : place = slot <;> simp [same]
  · rw [Function.update_of_ne same, without_of_not_mem (lines.apart member same)]

/-- There are no more tasks in both queues than there are places. -/
theorem Lines.length_le (lines : roster.Lines lists) :
    (lists .wait).length + (lists .run).length ≤ roster.tasks.size := by
  have distinct : (lists .wait ++ lists .run).Nodup := by
    refine List.nodup_append.mpr ⟨(lines .wait).distinct, (lines .run).distinct, ?_⟩
    rintro slot waits _ runs rfl
    exact lines.apart waits (by decide) runs
  have within : lists .wait ++ lists .run ⊆ List.range roster.tasks.size := by
    intro slot member
    rw [List.mem_range]
    rcases List.mem_append.mp member with waits | runs
    · exact (lines .wait).lt_size waits
    · exact (lines .run).lt_size runs
  have bound := (List.subperm_of_subset distinct within).length_le
  simpa using bound

/-- A queue does not depend on tasks that are not in it. -/
theorem Lined.of_same (lined : roster.Lined lane slots)
    (ends : next.ends lane = roster.ends lane)
    (inside : ∀ slot ∈ slots,
      (next.task? slot).map Task.place = (roster.task? slot).map Task.place)
    (outside : ∀ slot task, next.task? slot = some task → slot ∉ slots → task.lane ≠ some lane) :
    next.Lined lane slots where
  ends := by rw [ends, lined.ends]
  distinct := lined.distinct
  placed := fun {before slot behind} split => by
    obtain ⟨task, present, place⟩ := lined.placed split
    have same := inside slot (by simp [split])
    rw [present, Option.map_some] at same
    obtain ⟨later, laterPresent, laterPlace⟩ := Option.map_eq_some_iff.mp same
    exact ⟨later, laterPresent, laterPlace.trans place⟩
  complete := fun {slot task} present queued => by
    by_contra absent
    exact outside slot task present absent queued

/-- The queues stay as they are when no task changes its place. -/
theorem Lines.of_places (lines : roster.Lines lists) (ends : next.ends = roster.ends)
    (places : ∀ slot, (next.task? slot).map Task.place = (roster.task? slot).map Task.place) :
    next.Lines lists := by
  intro lane
  refine (lines lane).of_same (by rw [ends]) (fun slot _ => places slot) ?_
  intro slot task present absent queued
  have same := places slot
  rw [present, Option.map_some] at same
  obtain ⟨earlier, earlierPresent, place⟩ := Option.map_eq_some_iff.mp same.symm
  refine absent ((lines lane).complete earlierPresent ?_)
  rw [← queued]
  exact congrArg Prod.fst place

/-- A change of one task that is not of its place leaves the queues as they are. -/
theorem Lines.alter (lines : roster.Lines lists) (slot : Slot) {change : Task → Task}
    (keeps : ∀ task, (change task).place = task.place) : (roster.alter slot change).Lines lists :=
  lines.of_places (funext fun lane => ends_alter roster slot change lane)
    (map_alter roster slot keeps)

/-- A task that comes and is in no queue leaves the queues as they are. -/
theorem Lines.add (lines : roster.Lines lists) (apart : task.lane = none) :
    ({ roster with tasks := roster.tasks.push (some task) } : Roster).Lines lists := fun lane => by
  refine (lines lane).of_same rfl (fun place member => ?_) fun place found present outside => ?_
  · rw [task?_push, if_neg (Nat.ne_of_lt ((lines lane).lt_size member))]
  · rcases of_task?_push present with ⟨_, rfl⟩ | before
    · rw [apart]
      exact nofun
    · exact fun inLane => outside ((lines lane).complete before inLane)

/-- A task that goes and is in no queue leaves the queues as they are. -/
theorem Lines.drop (lines : roster.Lines lists) (apart : ∀ lane, slot ∉ lists lane) :
    (roster.setTask slot none).Lines lists := by
  intro lane
  refine (lines lane).of_same (ends_setTask roster slot none lane) ?_ ?_
  · intro place member
    rw [task?_drop, if_neg (ne_of_mem_of_not_mem member (apart lane))]
  · intro place found present outside inLane
    exact outside ((lines lane).complete (of_task?_drop present).2 inLane)

/-! ### A task joins a queue -/

/-- In a list without repetitions what stands behind a place is not that place. -/
theorem not_mem_behind {before behind : List Slot} (distinct : (before ++ slot :: behind).Nodup) :
    slot ∉ before ∧ slot ∉ behind := by
  obtain ⟨_, rest, apart⟩ := List.nodup_append.mp distinct
  exact ⟨fun member => apart slot member slot List.mem_cons_self rfl, (List.nodup_cons.mp rest).1⟩

/-- The line of a queue after a task has joined it at the tail. -/
theorem Lined.push (lined : roster.Lined lane slots) (absent : slot ∉ slots)
    (ends : next.ends lane = ⟨(slots ++ [slot]).head?, some slot, slots.length + 1⟩)
    (own : (next.task? slot).map Task.place = some (some lane, ⟨none, slots.getLast?⟩))
    (others : ∀ place, place ≠ slot →
      (next.task? place).map Task.place = (roster.task? place).map fun task =>
        (task.lane, ⟨if slots.getLast? = some place then some slot else task.links.next,
          task.links.previous⟩)) :
    next.Lined lane (slots ++ [slot]) where
  ends := by simp [ends]
  distinct := List.nodup_append.mpr ⟨lined.distinct, by simp, fun place member last single => by
    rw [List.mem_singleton.mp single]
    exact ne_of_mem_of_not_mem member absent⟩
  placed := fun {before place behind} split => by
    refine Option.map_eq_some_iff.mp ?_
    rcases List.eq_nil_or_concat' behind with rfl | ⟨rest, last, rfl⟩
    · obtain ⟨rfl, same⟩ := List.append_inj' split rfl
      obtain rfl : slot = place := by simpa using same
      exact own
    · have reshaped : slots ++ [slot] = (before ++ place :: rest) ++ [last] := by simp [split]
      obtain ⟨rfl, same⟩ := List.append_inj' reshaped rfl
      obtain rfl : slot = last := by simpa using same
      have differ : place ≠ slot := by
        rintro rfl
        exact absent (by simp)
      obtain ⟨task, present, placed⟩ := lined.placed rfl
      obtain ⟨queued, links⟩ := Prod.mk.inj placed
      rw [others place differ, present, Option.map_some, queued, links]
      cases rest with
      | nil => simp
      | cons second rest =>
        have notLast : (before ++ place :: second :: rest).getLast? ≠ some place := by
          intro last
          rw [List.getLast?_append_of_ne_nil _ (by simp), List.getLast?_cons_cons] at last
          exact (not_mem_behind lined.distinct).2 (List.mem_of_getLast? last)
        rw [if_neg notLast]
        rfl
  complete := fun {place task} present queued => by
    by_cases same : place = slot
    · simp [same]
    · have placed := others place same
      rw [present, Option.map_some] at placed
      obtain ⟨earlier, earlierPresent, earlierPlace⟩ := Option.map_eq_some_iff.mp placed.symm
      refine List.mem_append_left _ (lined.complete earlierPresent ?_)
      rw [← queued]
      exact congrArg Prod.fst earlierPlace

/-! ### A task leaves a queue -/

/-- What a place in one of two lists splits their concatenation into. -/
theorem split_append {before behind front back : List Slot}
    (split : before ++ behind = front ++ slot :: back) :
    (∃ middle, front = before ++ middle ∧ behind = middle ++ slot :: back) ∨
      ∃ middle, before = front ++ slot :: middle ∧ back = middle ++ behind := by
  rcases List.append_eq_append_iff.mp split with inBehind | ⟨middle, same, rest⟩
  · exact Or.inl inBehind
  · cases middle with
    | nil => exact Or.inl ⟨[], by simp [same], by simpa using rest.symm⟩
    | cons first middle =>
      obtain ⟨rfl, tail⟩ := List.cons.inj rest
      exact Or.inr ⟨middle, same, tail⟩

/-- The line of a queue after a task has left it. -/
theorem Lined.cut {before behind : List Slot} (lined : roster.Lined lane (before ++ slot :: behind))
    (ends : next.ends lane =
      ⟨(before ++ behind).head?, (before ++ behind).getLast?, (before ++ behind).length⟩)
    (own : ∀ task, next.task? slot = some task → task.lane ≠ some lane)
    (others : ∀ place, place ≠ slot →
      (next.task? place).map Task.place = (roster.task? place).map fun task =>
        (task.lane, ⟨if before.getLast? = some place then behind.head? else task.links.next,
          if behind.head? = some place then before.getLast? else task.links.previous⟩)) :
    next.Lined lane (before ++ behind) where
  ends := ends
  distinct := lined.distinct.sublist (List.Sublist.append_left (List.sublist_cons_self _ _) _)
  placed := fun {front place back} split => by
    refine Option.map_eq_some_iff.mp ?_
    have notSlot : place ≠ slot := by
      rintro rfl
      have member : place ∈ before ++ behind := by simp [split]
      obtain ⟨absent, alsoAbsent⟩ := not_mem_behind lined.distinct
      rcases List.mem_append.mp member with inside | inside
      · exact absent inside
      · exact alsoAbsent inside
    rcases split_append split with ⟨middle, rfl, rfl⟩ | ⟨middle, rfl, rfl⟩
    · have reshaped : before ++ slot :: (middle ++ place :: back) =
          (before ++ slot :: middle) ++ place :: back := by simp
      have distinct := lined.distinct
      rw [reshaped] at distinct
      have absent := (not_mem_behind distinct).1
      obtain ⟨task, present, placed⟩ := lined.placed reshaped
      obtain ⟨queued, links⟩ := Prod.mk.inj placed
      have notLast : before.getLast? ≠ some place := by
        intro last
        exact absent (List.mem_append_left _ (List.mem_of_getLast? last))
      rw [others place notSlot, present, Option.map_some, queued, links, if_neg notLast]
      cases middle with
      | nil => simp
      | cons first middle =>
        have notFirst : first ≠ place := by
          rintro rfl
          exact absent (by simp)
        simp [notFirst, List.getLast?_append, List.getLast?_cons_cons]
    · have reshaped : (front ++ place :: middle) ++ slot :: behind =
          front ++ place :: (middle ++ slot :: behind) := by simp
      have distinct := lined.distinct
      rw [reshaped] at distinct
      have absent := (not_mem_behind distinct).2
      obtain ⟨task, present, placed⟩ := lined.placed reshaped
      obtain ⟨queued, links⟩ := Prod.mk.inj placed
      have notFirst : behind.head? ≠ some place := by
        intro first
        exact absent (by simp [List.mem_of_head? first])
      rw [others place notSlot, present, Option.map_some, queued, links, if_neg notFirst]
      cases middle with
      | nil => simp
      | cons first middle =>
        have notLast : (front ++ place :: first :: middle).getLast? ≠ some place := by
          intro last
          rw [List.getLast?_append_of_ne_nil _ (by simp), List.getLast?_cons_cons] at last
          exact absent (List.mem_append_left _ (List.mem_of_getLast? last))
        rw [if_neg notLast]
        rfl
  complete := fun {place task} present queued => by
    have differ : place ≠ slot := by
      rintro rfl
      exact own task present queued
    have placed := others place differ
    rw [present, Option.map_some] at placed
    obtain ⟨earlier, earlierPresent, earlierPlace⟩ := Option.map_eq_some_iff.mp placed.symm
    have member := lined.complete earlierPresent (by
      rw [← queued]
      exact congrArg Prod.fst earlierPlace)
    simpa [differ] using member

end

end TaskMachine.Roster

/-
What a turn leaves alone. While the task at one place has its turn, some tasks
are changed, others may be destroyed, and children of that task may come.
`Spares` says that of all the rest nothing changes but how many references there
are to it and who its neighbours are in its queue: a task that joins a queue or
leaves it relinks those that it stands between, and moves nobody else.
-/

import TaskMachine.Proofs.Roster.Frames

namespace TaskMachine

/-- A task without what the turn of another one may change of it: the references to it, and its
neighbours in its queue. -/
def Task.own (task : Task) : Task := { task with references := 0, links := .none }

/-- What stays the same of a task as long as it is there. -/
def Task.origin (task : Task) : Option Slot × Mailbox := (task.parent, task.mailbox)

theorem Task.origin_of_own {task other : Task} (same : task.own = other.own) :
    task.origin = other.origin :=
  congrArg (fun own => own.origin) same

theorem Task.origin_setPlace (task : Task) (lane : Option Lane) (links : Links) :
    (task.setPlace lane links).origin = task.origin := rfl

theorem Task.own_setNext (task : Task) (next : Option Slot) :
    (task.setNext next).own = task.own := rfl

theorem Task.own_setPrevious (task : Task) (previous : Option Slot) :
    (task.setPrevious previous).own = task.own := rfl

namespace Roster

/-- So many children of the task at a place have come. Of the tasks that were there before and still
are, nothing has changed but what the turn of another one may change, except at some places. -/
structure Spares (before : Roster) (mover : Slot) (touched : List Slot) (births : Nat)
    (after : Roster) : Prop where
  size : after.tasks.size = before.tasks.size + births
  known : ∀ slot later, slot < before.tasks.size → after.task? slot = some later →
    ∃ earlier, before.task? slot = some earlier ∧ later.origin = earlier.origin ∧
      (slot ∉ touched → later.own = earlier.own)
  born : ∀ slot later, before.tasks.size ≤ slot → after.task? slot = some later →
    later.parent = some mover

variable {before middle after roster : Roster} {mover slot : Slot} {touched more : List Slot}
  {births birthsNow : Nat}

namespace Spares

/-- One change and then another, which touches nothing else of what was there at first. -/
theorem andThen (first : before.Spares mover touched births middle)
    (second : middle.Spares mover more birthsNow after)
    (within : ∀ place ∈ more, place < before.tasks.size → place ∈ touched) :
    before.Spares mover touched (births + birthsNow) after where
  size := by rw [second.size, first.size, Nat.add_assoc]
  known := fun slot later old present => by
    have still : slot < middle.tasks.size := by rw [first.size]; omega
    obtain ⟨between, betweenPresent, originNow, ownNow⟩ := second.known slot later still present
    obtain ⟨earlier, earlierPresent, origin, own⟩ := first.known slot between old betweenPresent
    refine ⟨earlier, earlierPresent, originNow.trans origin, fun apart => ?_⟩
    exact (ownNow fun inside => apart (within slot inside old)).trans (own apart)
  born := fun slot later new present => by
    rcases Nat.lt_or_ge slot middle.tasks.size with known | beyond
    · obtain ⟨between, betweenPresent, origin, _⟩ := second.known slot later known present
      exact (congrArg Prod.fst origin).trans (first.born slot between new betweenPresent)
    · exact second.born slot later beyond present

/-- More places count as touched. -/
theorem touch (spares : before.Spares mover touched births after) (further : touched ⊆ more) :
    before.Spares mover more births after where
  size := spares.size
  known := fun slot later old present =>
    have ⟨earlier, earlierPresent, origin, own⟩ := spares.known slot later old present
    ⟨earlier, earlierPresent, origin, fun apart => own fun inside => apart (further inside)⟩
  born := spares.born

/-- Nobody comes, and what is there was there before. -/
theorem of_back (size : after.tasks.size = before.tasks.size)
    (back : ∀ slot later, after.task? slot = some later → ∃ earlier,
      before.task? slot = some earlier ∧ later.origin = earlier.origin ∧
        (slot ∉ touched → later.own = earlier.own)) :
    before.Spares mover touched 0 after where
  size := size
  known := fun slot later _ => back slot later
  born := fun _ _ beyond present =>
    absurd (lt_size_of_task?_eq_some present) (Nat.not_lt.mpr (size ▸ beyond))

theorem refl (roster : Roster) (mover : Slot) (touched : List Slot) :
    roster.Spares mover touched 0 roster :=
  of_back rfl fun _ later present => ⟨later, present, rfl, fun _ => rfl⟩

end Spares

/-! ### Single changes -/

/-- The task at one place is changed. -/
theorem spares_alter (roster : Roster) (mover slot : Slot) {change : Task → Task}
    (same : ∀ task, (change task).origin = task.origin) :
    roster.Spares mover [slot] 0 (roster.alter slot change) := by
  refine .of_back (size_alter roster slot change) fun other later present => ?_
  rw [task?_alter] at present
  split at present
  · rename_i atSlot
    obtain ⟨earlier, earlierPresent, rfl⟩ := Option.map_eq_some_iff.mp present
    exact ⟨earlier, earlierPresent, same earlier,
      fun apart => absurd (List.mem_singleton.mpr atSlot) apart⟩
  · exact ⟨later, present, rfl, fun _ => rfl⟩

/-- The references to a task or its neighbours are changed. -/
theorem spares_relink (roster : Roster) (mover slot : Slot) {change : Task → Task}
    (same : ∀ task, (change task).own = task.own) :
    roster.Spares mover [] 0 (roster.alter slot change) := by
  refine .of_back (size_alter roster slot change) fun other later present => ?_
  rw [task?_alter] at present
  split at present
  · obtain ⟨earlier, earlierPresent, rfl⟩ := Option.map_eq_some_iff.mp present
    exact ⟨earlier, earlierPresent, Task.origin_of_own (same earlier), fun _ => same earlier⟩
  · exact ⟨later, present, rfl, fun _ => rfl⟩

theorem spares_setEnds (roster : Roster) (mover : Slot) (lane : Lane) (ends : Ends) :
    roster.Spares mover [] 0 (roster.setEnds lane ends) :=
  .of_back (size_setEnds roster lane ends) fun _ later present =>
    ⟨later, by rwa [task?_setEnds] at present, rfl, fun _ => rfl⟩

theorem spares_drop (roster : Roster) (mover slot : Slot) :
    roster.Spares mover [] 0 (roster.setTask slot none) :=
  .of_back (size_setTask roster slot none) fun _ later present =>
    ⟨later, (of_task?_drop present).2, rfl, fun _ => rfl⟩

/-- A child comes. -/
theorem spares_push (roster : Roster) {mover : Slot} {task : Task}
    (child : task.parent = some mover) :
    roster.Spares mover [] 1 { roster with tasks := roster.tasks.push (some task) } where
  size := Array.size_push _
  known := fun slot later old present => by
    refine ⟨later, ?_, rfl, fun _ => rfl⟩
    exact (of_task?_push present).resolve_left fun new => Nat.ne_of_lt old new.1
  born := fun slot later beyond present => by
    rcases of_task?_push present with ⟨_, rfl⟩ | known
    · exact child
    · exact absurd (lt_size_of_task?_eq_some known) (Nat.not_lt.mpr beyond)

/-! ### Queues -/

section

variable (spares : before.Spares mover touched births roster)

include spares

theorem after_update_relinked (slot : Slot) {change : Task → Task}
    (same : ∀ task, (change task).own = task.own) :
    After (update slot change) roster (fun _ => before.Spares mover touched births)
      fun _ _ => True :=
  (after_update change).mono
    (fun _ _ is => is ▸ spares.andThen (spares_relink roster mover slot same) nofun)
    fun _ _ _ => trivial

theorem after_updateEnds_spared (lane : Lane) (change : Ends → Ends) :
    After (updateEnds lane change) roster (fun _ => before.Spares mover touched births)
      fun _ _ => True :=
  After.of_ok (updateEnds_eq roster lane change)
    (spares.andThen (spares_setEnds roster mover lane _) nofun)

variable (inside : slot < before.tasks.size → slot ∈ touched)

include inside

/-- A change of a task that may be touched. -/
theorem Spares.alter {change : Task → Task} (same : ∀ task, (change task).origin = task.origin) :
    before.Spares mover touched births (roster.alter slot change) := by
  refine spares.andThen (spares_alter roster mover slot same) fun place among old => ?_
  obtain rfl := List.mem_singleton.mp among
  exact inside old

theorem after_put_spared {task : Task} (present : roster.task? slot = some task)
    {change : Task → Task} (same : ∀ task, (change task).origin = task.origin) :
    After (put slot (change task)) roster (fun _ => before.Spares mover touched births)
      fun _ _ => True :=
  After.of_ok (put_eq present change) (spares.alter inside same)

/-- A task that joins a queue relinks the last one there. -/
theorem after_pushTail_spared (lane : Lane) :
    After (pushTail lane slot) roster (fun _ => before.Spares mover touched births)
      fun _ _ => True := by
  refine After.bind (after_fetch (fun task present => ?_) fun _ => trivial)
  cases occupied : task.lane with
  | some other => exact After.throw trivial
  | none =>
    refine After.bind (After.get ?_)
    refine (after_put_spared spares inside present fun task => task.origin_setPlace _ _).andThen
      fun _ placed spares => ?_
    cases (roster.ends lane).tail with
    | none => exact After.modify (spares.andThen (spares_setEnds placed mover lane _) nofun)
    | some tail =>
      refine (after_update_relinked spares tail fun task => task.own_setNext _).andThen
        fun _ linked spares => ?_
      exact After.modify (spares.andThen (spares_setEnds linked mover lane _) nofun)

/-- A task that leaves a queue relinks its neighbours. -/
theorem after_remove_spared (lane : Lane) :
    After (remove lane slot) roster (fun _ => before.Spares mover touched births)
      fun _ _ => True := by
  refine After.bind (after_fetch (fun task present => ?_) fun _ => trivial)
  by_cases queued : task.lane = some lane
  · rw [if_pos queued]
    refine (after_put_spared spares inside present fun task => task.origin_setPlace _ _).andThen
      fun _ left spares => ?_
    -- The neighbours are relinked one after the other, and each of them may be missing.
    have relinks {operation : Rostering Unit} {middle : Roster}
        (after : After operation middle (fun _ => before.Spares mover touched births)
          fun _ _ => True) :
        After (do
          operation
          updateEnds lane fun ends => { ends with length := ends.length - 1 }) middle
          (fun _ => before.Spares mover touched births) fun _ _ => True :=
      after.andThen fun _ _ spares => after_updateEnds_spared spares lane _
    cases task.links.previous with
    | none =>
      refine (after_updateEnds_spared spares lane _).andThen fun _ middle spares => ?_
      cases task.links.next with
      | none => exact relinks (after_updateEnds_spared spares lane _)
      | some next =>
        exact relinks (after_update_relinked spares next fun task => task.own_setPrevious _)
    | some previous =>
      refine (after_update_relinked spares previous fun task => task.own_setNext _).andThen
        fun _ middle spares => ?_
      cases task.links.next with
      | none => exact relinks (after_updateEnds_spared spares lane _)
      | some next =>
        exact relinks (after_update_relinked spares next fun task => task.own_setPrevious _)
  · rw [if_neg queued]
    exact After.throw trivial

/-- A task that goes from the head of a queue to its tail. -/
theorem after_rotate_spared {lane : Lane} (first : (roster.ends lane).head = some slot) :
    After (rotate lane) roster (fun _ => before.Spares mover touched births) fun _ _ => True := by
  refine After.bind (After.get ?_)
  by_cases several : 1 < (roster.ends lane).length
  · simp only [first, several, if_true]
    exact (after_remove_spared spares inside lane).andThen fun _ _ spares =>
      after_pushTail_spared spares inside lane
  · simp only [first, several, if_false]
    exact After.pure spares

end

end Roster

end TaskMachine

/-
The operations on queues change nothing but places, whatever the roster is that
they are used on, and whether they break off or not.
-/

import TaskMachine.Proofs.Roster.Places

namespace TaskMachine.Roster

theorem after_fetch {roster : Roster} {slot : Slot} {success : Task → Roster → Prop}
    {failure : Crash → Roster → Prop}
    (succeeds : ∀ task, roster.task? slot = some task → success task roster)
    (fails : ∀ crash, failure crash roster) : After (fetch slot) roster success failure := by
  cases present : roster.task? slot with
  | none => exact After.of_error (fetch_eq_error present) (fails _)
  | some task => exact After.of_ok (fetch_eq present) (succeeds task present)

theorem after_update {roster : Roster} {slot : Slot} (change : Task → Task) :
    After (update slot change) roster (fun _ next => next = roster.alter slot change)
      fun _ next => next = roster := by
  refine After.bind (after_fetch (fun task present => ?_) fun _ => rfl)
  exact After.of_ok (put_eq present change) rfl

theorem after_update_same {roster before : Roster} (same : SameTasks before roster) {slot : Slot}
    {change : Task → Task} (places : ∀ task, (change task).unplaced = task.unplaced) :
    After (update slot change) roster (fun _ next => SameTasks before next)
      fun _ next => SameTasks before next := by
  refine (after_update change).mono (fun _ next changed => ?_) fun _ next still => ?_
  · rw [changed]
    exact same.trans (sameTasks_alter roster slot places)
  · rw [still]
    exact same

theorem after_put_same {roster before : Roster} (same : SameTasks before roster) {slot : Slot}
    {task : Task} (present : roster.task? slot = some task) {change : Task → Task}
    (places : ∀ task, (change task).unplaced = task.unplaced) :
    After (put slot (change task)) roster (fun _ next => SameTasks before next)
      fun _ next => SameTasks before next :=
  After.of_ok (put_eq present change) (same.trans (sameTasks_alter roster slot places))

theorem after_updateEnds_same {roster before : Roster} (same : SameTasks before roster)
    (lane : Lane)
    (change : Ends → Ends) :
    After (updateEnds lane change) roster (fun _ next => SameTasks before next)
      fun _ next => SameTasks before next :=
  After.of_ok (updateEnds_eq roster lane change) (same.trans (sameTasks_setEnds roster lane _))

theorem after_pushTail (roster : Roster) (lane : Lane) (slot : Slot) :
    After (pushTail lane slot) roster (fun _ next => SameTasks roster next)
      fun _ next => SameTasks roster next := by
  refine After.bind (after_fetch (fun task present => ?_) fun _ => SameTasks.refl roster)
  cases occupied : task.lane with
  | some other => exact After.throw (SameTasks.refl roster)
  | none =>
    refine After.bind (After.get ?_)
    refine (after_put_same (SameTasks.refl roster) present
      fun task => task.unplaced_setPlace _ _).andThen fun _ placed same => ?_
    cases (roster.ends lane).tail with
    | none => exact After.modify (same.trans (sameTasks_setEnds placed lane _))
    | some tail =>
      refine (after_update_same same fun task => task.unplaced_setNext _).andThen
        fun _ linked same => ?_
      exact After.modify (same.trans (sameTasks_setEnds linked lane _))

theorem after_remove (roster : Roster) (lane : Lane) (slot : Slot) :
    After (remove lane slot) roster (fun _ next => SameTasks roster next)
      fun _ next => SameTasks roster next := by
  refine After.bind (after_fetch (fun task present => ?_) fun _ => SameTasks.refl roster)
  by_cases queued : task.lane = some lane
  · rw [if_pos queued]
    refine (after_put_same (SameTasks.refl roster) present
      fun task => task.unplaced_setPlace _ _).andThen fun _ left same => ?_
    -- The neighbours are relinked one after the other, and each of them may be missing.
    have relinks {operation : Rostering Unit} {middle : Roster}
        (after : After operation middle (fun _ next => SameTasks roster next)
          fun _ next => SameTasks roster next) :
        After (do
          operation
          updateEnds lane fun ends => { ends with length := ends.length - 1 }) middle
          (fun _ next => SameTasks roster next) fun _ next => SameTasks roster next :=
      after.andThen fun _ _ same => after_updateEnds_same same lane _
    cases task.links.previous with
    | none =>
      refine (after_updateEnds_same same lane _).andThen fun _ middle same => ?_
      cases task.links.next with
      | none => exact relinks (after_updateEnds_same same lane _)
      | some next => exact relinks (after_update_same same fun task => task.unplaced_setPrevious _)
    | some previous =>
      refine (after_update_same same fun task => task.unplaced_setNext _).andThen
        fun _ middle same => ?_
      cases task.links.next with
      | none => exact relinks (after_updateEnds_same same lane _)
      | some next => exact relinks (after_update_same same fun task => task.unplaced_setPrevious _)
  · rw [if_neg queued]
    exact After.throw (SameTasks.refl roster)

theorem after_rotate (roster : Roster) (lane : Lane) :
    After (rotate lane) roster (fun _ next => SameTasks roster next)
      fun _ next => SameTasks roster next := by
  refine After.bind (After.get ?_)
  cases first : (roster.ends lane).head with
  | none =>
    simp only [first]
    exact After.pure (SameTasks.refl roster)
  | some head =>
    by_cases several : 1 < (roster.ends lane).length
    · simp only [first, several, if_true]
      refine (after_remove roster lane head).andThen fun _ left same => ?_
      exact (after_pushTail left lane head).mono (fun _ _ => same.trans) fun _ _ => same.trans
    · simp only [first, several, if_false]
      exact After.pure (SameTasks.refl roster)

end TaskMachine.Roster

/-
What it takes to release a task that is not held. The references to a task are
one number, and only the number and the life of the task are looked at when it is
released: an embedder that has been right so far can release what it holds, and
what it does not hold is refused, with nothing changed, just as long as the task
has no child. The reference of a child is taken for one that is held.

Then the task has one reference less than there are others that refer to it, or
it is destroyed while its child is still there, and a look at the parent of the
child is a crash.
-/

import TaskMachine.Proofs.Session.Basic

namespace TaskMachine

namespace Scheduler

variable {scheduler : Scheduler} {slot : Slot} {task : Task} {id : TaskId}

/-! ### References that are taken -/

/-- Up to a place, every task has a reference, and its parent is there and came before it. -/
def Grounded (scheduler : Scheduler) (slot : Slot) : Prop :=
  ∀ other ≤ slot, ∀ task, scheduler.roster.task? other = some task →
    0 < task.references ∧ ∀ parent, task.parent = some parent →
      parent < other ∧ ∃ found, scheduler.roster.task? parent = some found

/-- A reference has been taken from the task at a place, and no task behind that place has
changed. -/
def Lowered (scheduler : Scheduler) (slot : Slot) (task : Task) (next : Scheduler) : Prop :=
  (∀ other, slot < other → next.roster.task? other = scheduler.roster.task? other) ∧
    ∀ found, next.roster.task? slot = some found → found.references + 1 = task.references

/-- A reference can be taken from a task, whoever gave it, if nothing is amiss up to its place. -/
theorem Grounded.after_releaseWithin {tasks : Nat} (grounded : scheduler.Grounded slot)
    (present : scheduler.roster.task? slot = some task) (enough : slot < tasks) :
    After (releaseWithin tasks slot) scheduler (fun _ => scheduler.Lowered slot task)
      fun _ _ => False := by
  induction tasks generalizing scheduler slot task with
  | zero => exact absurd enough (Nat.not_lt_zero slot)
  | succ tasks inductionHypothesis =>
    obtain ⟨positive, parents⟩ := grounded slot (Nat.le_refl slot) task present
    refine After.bind (after_fetch present ?_)
    match count : task.references with
    | 0 => rw [count] at positive; exact absurd positive (Nat.lt_irrefl 0)
    | 1 =>
      refine After.bind (after_onRoster (After.of_ok (Roster.drop_eq _ slot) ?_))
      refine After.bind (After.modify ?_)
      have gone (found : Task) : (scheduler.roster.setTask slot none).task? slot ≠ some found :=
        fun there => (Roster.of_task?_drop there).1 rfl
      have behind (other : Slot) (later : slot < other) :
          (scheduler.roster.setTask slot none).task? other = scheduler.roster.task? other :=
        Roster.task?_setTask_other _ _ (Nat.ne_of_gt later)
      cases own : task.parent with
      | none => exact After.pure ⟨behind, fun found there => absurd there (gone found)⟩
      | some parent =>
        obtain ⟨sooner, found, foundPresent⟩ := parents parent own
        -- The way goes on to places before this one, where nothing has changed.
        have still {other : Slot} (before : other < slot) :
            (scheduler.roster.setTask slot none).task? other = scheduler.roster.task? other :=
          Roster.task?_setTask_other _ _ (Nat.ne_of_lt before)
        have groundedNow : Grounded { scheduler with
            roster := scheduler.roster.setTask slot none
            registry := scheduler.registry.erase task.id } parent := by
          intro other within earlier there
          have before := Nat.lt_of_le_of_lt within sooner
          obtain ⟨referenced, above⟩ :=
            grounded other (Nat.le_of_lt before) earlier ((still before).symm.trans there)
          refine ⟨referenced, fun place ownPlace => ?_⟩
          obtain ⟨lower, ancestor, ancestorPresent⟩ := above place ownPlace
          exact ⟨lower, ancestor, (still (Nat.lt_trans lower before)).trans ancestorPresent⟩
        refine (inductionHypothesis groundedNow ((still sooner).trans foundPresent)
          (Nat.lt_of_lt_of_le sooner (Nat.le_of_lt_succ enough))).imp fun _ next lowered => ?_
        refine ⟨fun other later => ?_, fun last there => ?_⟩
        · exact (lowered.1 other (Nat.lt_trans sooner later)).trans (behind other later)
        · exact absurd ((lowered.1 slot sooner).symm.trans there) (gone last)
    | left + 2 =>
      refine after_update present ⟨fun other later => ?_, fun found there => ?_⟩
      · exact (Roster.task?_alter _ _ _ _).trans (if_neg (Nat.ne_of_gt later))
      · have changed : (scheduler.roster.alter slot fun task =>
            { task with references := left + 1 }).task? slot =
            some { task with references := left + 1 } := by
          rw [Roster.task?_alter, if_pos rfl, present, Option.map_some]
        rw [← Option.some.inj (changed.symm.trans there)]
        exact count.symm

/-! ### What a release looks at -/

/-- No task with the number can be released. -/
theorem release_eq_destroyed (unknown : scheduler.registry.find? id = none) :
    release id scheduler = .error (.destroyed id) scheduler := by
  rw [release, bind_apply, slotOf, bind_apply, get_apply]
  simp only [unknown, throw_apply]

/-- The last reference of a task that is alive is not released. -/
theorem release_eq_overReleased (known : scheduler.registry.find? id = some slot)
    (present : scheduler.roster.task? slot = some task) (alive : task.life = .alive)
    (last : task.references = 1) :
    release id scheduler = .error (.overReleased task.id) scheduler := by
  have refused : ¬ (task.life = .zombie ∨ 1 < task.references) := by
    rw [alive, last]
    decide
  have after : After (release id) scheduler (fun _ _ => False)
      fun crash next => crash = .overReleased task.id ∧ next = scheduler := by
    refine After.bind (after_slotOf (fun other same => ?_) fun missing => ?_)
    · obtain rfl := Option.some.inj (known.symm.trans same)
      refine After.bind (after_fetch present ?_)
      rw [if_neg refused]
      exact After.throw ⟨rfl, rfl⟩
    · exact absurd (known.symm.trans missing) nofun
  cases releases : release id scheduler with
  | ok _ next => exact (after.ok releases).elim
  | error crash next =>
    obtain ⟨rfl, rfl⟩ := after.error releases
    rfl

/-- A reference is taken from any other task. -/
theorem Grounded.after_release (grounded : scheduler.Grounded slot)
    (known : scheduler.registry.find? id = some slot)
    (present : scheduler.roster.task? slot = some task)
    (allowed : task.life = .zombie ∨ 1 < task.references) :
    After (release id) scheduler (fun _ => scheduler.Lowered slot task) fun _ _ => False := by
  refine After.bind (after_slotOf (fun other same => ?_) fun missing => ?_)
  · obtain rfl := Option.some.inj (known.symm.trans same)
    refine After.bind (after_fetch present ?_)
    rw [if_pos allowed]
    exact After.bind (After.get (grounded.after_releaseWithin present
      (Nat.lt_succ_of_lt (Roster.lt_size_of_task?_eq_some present))))
  · exact absurd (known.symm.trans missing) nofun

theorem Sound.grounded {origin : Scheduler} {ended : List Slot} {lists : Lane → List Slot}
    {held unscheduled : List TaskId} {running owed : Option Slot}
    (sound : scheduler.Sound origin ended lists held unscheduled running owed) (slot : Slot) :
    scheduler.Grounded slot :=
  fun _ _ _ present => ⟨sound.counted.referenced present, fun _ => sound.counted.parent present⟩

end Scheduler

namespace Session

/-- A task that is held can be released. One that is not held is refused, and nothing is changed,
just if it has no child. If it has one, the reference of the child is taken, and the child is still
there. As long as only what is held was released, every parent is there. -/
theorem Reachable.releases {session : Session} (reachable : session.Reachable) :
    (∀ id ∈ session.held, ∃ next, Scheduler.release id session.scheduler = .ok ⟨⟩ next) ∧
    (∀ id, id ∉ session.held →
      ((∃ crash, crash.isRefusal = true ∧
          Scheduler.release id session.scheduler = .error crash session.scheduler) ↔
        ∀ slot, session.scheduler.registry.find? id = some slot →
          session.scheduler.roster.children slot = ∅) ∧
      ∀ slot task, session.scheduler.registry.find? id = some slot →
        session.scheduler.roster.task? slot = some task →
          ∀ child ∈ session.scheduler.roster.children slot,
            ∃ next, Scheduler.release id session.scheduler = .ok ⟨⟩ next ∧
              next.roster.task? child = session.scheduler.roster.task? child ∧
              ∀ found, next.roster.task? slot = some found →
                found.references + 1 = task.references) ∧
    ∀ slot task parent, session.scheduler.roster.task? slot = some task →
      task.parent = some parent →
        ∃ found, session.scheduler.roster.task? parent = some found := by
  obtain ⟨lists, sound⟩ := reachable.sound
  have robs {id : TaskId} (unheld : id ∉ session.held) (slot : Slot) (task : Task)
      (known : session.scheduler.registry.find? id = some slot)
      (present : session.scheduler.roster.task? slot = some task) (child : Slot)
      (member : child ∈ session.scheduler.roster.children slot) :
      ∃ next, Scheduler.release id session.scheduler = .ok ⟨⟩ next ∧
        next.roster.task? child = session.scheduler.roster.task? child ∧
        ∀ found, next.roster.task? slot = some found → found.references + 1 = task.references := by
    have references := sound.counted.references present
    have nonempty := Finset.card_pos.mpr ⟨child, member⟩
    have allowed : task.life = .zombie ∨ 1 < task.references := by
      cases life : task.life with
      | zombie => exact Or.inl rfl
      | alive =>
        rw [life, Life.count] at references
        exact Or.inr (by omega)
    have later : slot < child := by
      obtain ⟨found, foundPresent, own⟩ := Roster.mem_children.mp member
      exact (sound.counted.parent foundPresent own).1
    have after := (sound.grounded slot).after_release known present allowed
    cases releases : Scheduler.release id session.scheduler with
    | ok _ next => exact ⟨next, rfl, (after.ok releases).1 child later, (after.ok releases).2⟩
    | error crash next => exact (after.error releases).elim
  refine ⟨fun id member => ?_, fun id unheld => ⟨⟨?_, fun childless => ?_⟩, robs unheld⟩,
    fun slot task parent present own => (sound.counted.parent present own).2⟩
  · have after := sound.after_release member
    cases releases : Scheduler.release id session.scheduler with
    | ok _ next => exact ⟨next, rfl⟩
    | error crash next => exact (after.error releases).elim
  · rintro ⟨crash, _, refused⟩ slot known
    obtain ⟨task, present, _⟩ := sound.registered known
    refine Finset.eq_empty_of_forall_notMem fun child member => ?_
    obtain ⟨next, releases, _⟩ := robs unheld slot task known present child member
    cases refused.symm.trans releases
  · cases known : session.scheduler.registry.find? id with
    | none => exact ⟨_, rfl, Scheduler.release_eq_destroyed known⟩
    | some slot =>
      obtain ⟨task, present, rfl⟩ := sound.registered known
      have references := sound.counted.references present
      have positive := sound.counted.referenced present
      rw [childless slot known, Finset.card_empty, List.count_eq_zero.mpr unheld] at references
      cases life : task.life with
      | zombie =>
        rw [references, life] at positive
        exact absurd positive (Nat.lt_irrefl 0)
      | alive =>
        rw [life] at references
        exact ⟨_, rfl, Scheduler.release_eq_overReleased known present life references⟩

/-- A task that has ended and is held by nobody is released: then its child has no parent. The task
that is held can be released too, and the third one is refused. -/
theorem bereaved_releases :
    (∃ next, Scheduler.release ⟨2⟩ bereaved.scheduler = .ok ⟨⟩ next ∧
      (next.roster.task? 2).bind Task.parent = some 1) ∧
    (∃ next, Scheduler.release ⟨1⟩ bereaved.scheduler = .ok ⟨⟩ next) ∧
    ∃ crash, crash.isRefusal = true ∧
      Scheduler.release ⟨4⟩ bereaved.scheduler = .error crash bereaved.scheduler := by
  have known : (bereaved.scheduler.roster.task? 1).map Task.id = some ⟨2⟩ := by decide +kernel
  obtain ⟨task, present, _⟩ := Option.map_eq_some_iff.mp known
  obtain ⟨held, unheld, _⟩ := bereaved_reachable.releases
  obtain ⟨next, releases, child, _⟩ := (unheld ⟨2⟩ (by decide +kernel)).2 1 task
    (by decide +kernel) present 2 (by decide +kernel)
  refine ⟨⟨next, releases, ?_⟩, held ⟨1⟩ (by decide +kernel),
    (unheld ⟨4⟩ (by decide +kernel)).1.mpr fun slot found => ?_⟩
  · rw [child]
    decide +kernel
  · have place : bereaved.scheduler.registry.find? ⟨4⟩ = some 3 := by decide +kernel
    obtain rfl := Option.some.inj (place.symm.trans found)
    decide +kernel

/-- A task can run, and so can its child; nothing is held. -/
def nursing : Session :=
  ((start .standard 0 fun _ => []).continued (.spawn default none)).continued
    (.spawn default (some ⟨1⟩))

theorem nursing_reachable : nursing.Reachable := by
  refine .continued (.continued (.start _ _ _) trivial ?_) trivial ?_ <;> decide +kernel

/-- A task that was never held is released. When it ends it is destroyed, although its child is
still there, and the next step is a crash. -/
theorem unheld_released : nursing.held = [] ∧ ∃ released stepped,
    Scheduler.release ⟨1⟩ nursing.scheduler = .ok ⟨⟩ released ∧
    Scheduler.step released = .ok true stepped ∧ stepped.roster.task? 0 = none ∧
    (stepped.roster.task? 1).bind Task.parent = some 0 ∧
    crash? Scheduler.step stepped = some .noTask := by
  have releases : Scheduler.release ⟨1⟩ nursing.scheduler = .ok ⟨⟩ _ :=
    eq_ok_of_answer? (by decide +kernel)
  have steps : Scheduler.step (stateAfter (Scheduler.release ⟨1⟩) nursing.scheduler) = .ok true _ :=
    eq_ok_of_answer? (by decide +kernel)
  have gone : ((stateAfter Scheduler.step (stateAfter (Scheduler.release ⟨1⟩)
      nursing.scheduler)).roster.task? 0).isNone = true := by decide +kernel
  exact ⟨rfl, _, _, releases, steps, Option.isNone_iff_eq_none.mp gone, by decide +kernel,
    by decide +kernel⟩

end Session

end TaskMachine

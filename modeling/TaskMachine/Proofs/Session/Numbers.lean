/-
Numbers tell tasks apart. As long as a task is inserted only under a number that
was handed out before, or under one that is never handed out, no two tasks have
the same number, and a task is found under its number just as long as it is
there. The embedder may do anything else: it may release what it does not hold,
and go on when an operation has broken off.

A number that is still to be handed out must not be used. A task that creates a
child takes the next number without a look at those that are in use, unlike the
embedder, and then two tasks have one number.
-/

import Mathlib.Data.List.Nodup
import Mathlib.Data.List.Perm.Basic
import TaskMachine.Proofs.Roster.Counted
import TaskMachine.Proofs.Session.Basic
import TaskMachine.Scheduler.Report

namespace TaskMachine

namespace Roster

variable {roster : Roster} {registry : Table TaskId Slot} {slot : Slot}

/-- The places that have a task. -/
def occupied (roster : Roster) : List Slot :=
  (List.range roster.tasks.size).filter fun slot => (roster.task? slot).isSome

theorem mem_occupied : slot ∈ roster.occupied ↔ ∃ task, roster.task? slot = some task := by
  rw [occupied, List.mem_filter, List.mem_range, Option.isSome_iff_exists]
  exact and_iff_right_of_imp fun ⟨_, present⟩ => lt_size_of_task?_eq_some present

/-- There are as many registered numbers as there are tasks. -/
theorem Enrolled.size_eq (enrolled : roster.Enrolled registry) :
    registry.size = roster.occupied.length := by
  have registered {pair : TaskId × Slot} (member : pair ∈ registry.pairs) :
      ∃ task, roster.task? pair.2 = some task ∧ task.id = pair.1 :=
    (enrolled pair.1 pair.2).mp (Table.mem_pairs_iff.mp member)
  have distinct : (registry.pairs.map Prod.snd).Nodup := by
    refine registry.distinct.of_map.map_on fun pair member other otherMember same => ?_
    obtain ⟨task, present, id⟩ := registered member
    obtain ⟨found, foundPresent, otherId⟩ := registered otherMember
    rw [← same, present] at foundPresent
    exact Prod.ext (id.symm.trans ((congrArg Task.id (Option.some.inj foundPresent)).trans otherId))
      same
  have once : roster.occupied.Nodup := List.nodup_range.filter _
  have same : (registry.pairs.map Prod.snd).Perm roster.occupied := by
    refine (List.perm_ext_iff_of_nodup distinct once).mpr fun slot => ?_
    rw [mem_occupied, List.mem_map]
    constructor
    · rintro ⟨pair, member, rfl⟩
      obtain ⟨task, present, _⟩ := registered member
      exact ⟨task, present⟩
    · rintro ⟨task, present⟩
      exact ⟨(task.id, slot), Table.mem_pairs_iff.mpr ((enrolled _ _).mpr ⟨task, present, rfl⟩), rfl⟩
  rw [Table.size, ← same.length_eq, List.length_map]

end Roster

namespace Scheduler

variable {bound : Nat} {scheduler : Scheduler}

/-- As long as fewer numbers than a bound were handed out, the tasks are registered under their
numbers, and each of these was handed out or is not less than the bound. -/
def Orderly (bound : Nat) (scheduler : Scheduler) : Prop :=
  scheduler.nextId.number ≤ bound → scheduler.roster.Enrolled scheduler.registry ∧
    ∀ id slot, scheduler.registry.find? id = some slot →
      id.number < scheduler.nextId.number ∨ bound ≤ id.number

/-- A task comes under a number that is not in use. -/
theorem Orderly.entered (orderly : scheduler.Orderly bound) {id nextId : TaskId}
    (grows : scheduler.nextId.number ≤ nextId.number)
    (fresh : nextId.number ≤ bound → scheduler.registry.find? id = none)
    (apart : id.number < nextId.number ∨ bound ≤ id.number) (function : Function)
    (parent : Option Slot) (mailbox : Mailbox) :
    ({ scheduler.entered id function parent mailbox with nextId } : Scheduler).Orderly bound := by
  intro within
  obtain ⟨enrolled, numbered⟩ := orderly (grows.trans within)
  have free : scheduler.registry.find? id = none := fresh within
  have entry : Roster.Enrolled
      { scheduler.roster with
        tasks := scheduler.roster.tasks.push (some (.created id function parent mailbox)) }
      (scheduler.registry.insert id scheduler.roster.tasks.size) := enrolled.push free
  refine ⟨entry, fun other slot known => ?_⟩
  by_cases same : other = id
  · rw [same]
    exact apart
  · have before := (Table.find?_insert_other scheduler.registry _ same).symm.trans known
    exact (numbered other slot before).imp_left fun below => Nat.lt_of_lt_of_le below grows

/-- The next number is in use nowhere. -/
theorem Orderly.unused (orderly : scheduler.Orderly bound)
    (within : scheduler.nextId.number < bound) :
    scheduler.registry.find? scheduler.nextId = none := by
  cases known : scheduler.registry.find? scheduler.nextId with
  | none => rfl
  | some slot =>
    rcases (orderly (Nat.le_of_lt within)).2 _ slot known with below | beyond
    · exact absurd below (Nat.lt_irrefl _)
    · exact absurd within (Nat.not_lt.mpr beyond)

theorem indifferent_orderly (bound : Nat) : Indifferent (Orderly bound) where
  beside := fun orderly roster registry nextId _ within => by
    rw [nextId] at within
    rw [roster, registry, nextId]
    exact orderly within
  arrange := fun orderly same within =>
    ⟨(orderly within).1.congr (same.map Task.id fun _ => rfl), (orderly within).2⟩
  alter := fun slot _ orderly id _ within =>
    ⟨(orderly within).1.congr (Roster.map_alter _ slot id), (orderly within).2⟩
  number := fun orderly within => by
    obtain ⟨enrolled, numbered⟩ := orderly (Nat.le_of_succ_le within)
    exact ⟨enrolled, fun id slot known => (numbered id slot known).imp_left Nat.lt_succ_of_lt⟩
  born := fun function parent mailbox orderly =>
    orderly.entered (Nat.le_succ _) orderly.unused (Or.inl (Nat.lt_succ_self _)) function parent
      mailbox
  leave := fun {scheduler slot task} present orderly within => by
    obtain ⟨enrolled, numbered⟩ := orderly within
    refine ⟨enrolled.drop present, fun id other known => numbered id other ?_⟩
    by_cases same : id = task.id
    · rw [same, Table.find?_erase_self] at known
      exact absurd known nofun
    · rwa [Table.find?_erase_other _ same] at known

/-- What can come of a scheduler if a task is inserted only under a number that was handed out, or
that is not less than a bound. Nothing else is asked of the embedder. -/
inductive Arises (bound : Nat) : Scheduler → Prop
  | start (config : Config) (patience : Nat) (respond : List Notice → List Letter) :
      Arises bound { Scheduler.new config patience with respond }
  | step {scheduler : Scheduler} (operation : Operation) (arises : Arises bound scheduler)
      (apart : ∀ id function parent mailbox,
        operation = .insertTask id function parent mailbox →
          id.number < scheduler.nextId.number ∨ bound ≤ id.number) :
      Arises bound (stateAfter operation.perform scheduler)

theorem Arises.orderly (arises : scheduler.Arises bound) : scheduler.Orderly bound := by
  induction arises with
  | start config patience respond =>
    refine fun _ => ⟨fun id slot => ?_, fun id slot known => absurd known nofun⟩
    simp [Scheduler.new, Roster.empty, Roster.task?]
  | step operation _ apart inductionHypothesis =>
    have lasting : Lasting (Orderly bound) True := (indifferent_orderly bound).lasting
    have after := operation.after_perform_lasting lasting inductionHypothesis
      fun id function parent mailbox is => by
        have inserts : After (insertTask id function parent mailbox) _ (fun _ => Orderly bound)
            fun _ next => True → next.Orderly bound :=
          Steady.after_insertTask inductionHypothesis fun parent roster free lent =>
            (lasting.lends inductionHypothesis lent).entered (Nat.le_refl _) (fun _ => free)
              (apart _ _ _ _ is) function parent mailbox
        exact inserts.mono (fun _ _ orderly => orderly) fun _ _ orderly => orderly trivial
    rw [stateAfter]
    cases runs : operation.perform _ with
    | ok result next => exact after.ok runs
    | error crash next => exact after.error runs (Or.inl trivial)

/-- No two tasks have the same number, and a task is found under its number just as long as it is
there; so there are as many numbers in use as tasks. -/
theorem Arises.numbers (arises : scheduler.Arises bound)
    (within : scheduler.nextId.number ≤ bound) :
    (∀ slot other task found, scheduler.roster.task? slot = some task →
      scheduler.roster.task? other = some found → found.id = task.id → other = slot) ∧
    (∀ id slot, scheduler.registry.find? id = some slot ↔
      ∃ task, scheduler.roster.task? slot = some task ∧ task.id = id) ∧
    (∀ slot task, scheduler.roster.task? slot = some task →
      scheduler.task? task.id = some task) ∧
    scheduler.size = scheduler.roster.occupied.length := by
  obtain ⟨enrolled, _⟩ := arises.orderly within
  refine ⟨fun _ _ _ _ present otherPresent => enrolled.eq_of_id present otherPresent, enrolled,
    fun slot task present => ?_, enrolled.size_eq⟩
  rw [Scheduler.task?, (enrolled _ _).mpr ⟨task, present, rfl⟩]
  exact present

/-- A program that creates a child and gives up its turn. -/
def spawning : Function :=
  { (default : Function) with
    constants := #[.function default]
    code := #[Instruction.spawn 0 constantBase, Instruction.yieldNow] }

/-- A task is inserted under a number, and another task creates a child. -/
def afterInserting (id : TaskId) : Scheduler :=
  stateAfter Operation.step.perform
    (stateAfter (Operation.spawn spawning none).perform
      (stateAfter (Operation.insertTask id default none ⟨0⟩).perform
        (stateAfter (Operation.openInbox id).perform (new .standard 0))))

/-- A number that is not handed out for long leaves the next ones to the others. -/
theorem spare_numbers : (afterInserting ⟨10⟩).registry.find? ⟨10⟩ = some 0 ∧
    (afterInserting ⟨10⟩).registry.find? ⟨2⟩ = some 2 ∧ (afterInserting ⟨10⟩).size = 3 := by
  have arises : (afterInserting ⟨10⟩).Arises 10 := by
    refine .step _ (.step _ (.step _ (.step _ (.start .standard 0 fun _ => []) nofun)
      fun id _ _ _ same => ?_) nofun) nofun
    cases same
    exact Or.inr (Nat.le_refl _)
  obtain ⟨_, registered, _, counted⟩ := arises.numbers (by decide +kernel)
  have present (slot : Slot) (id : TaskId)
      (known : ((afterInserting ⟨10⟩).roster.task? slot).map Task.id = some id) :
      (afterInserting ⟨10⟩).registry.find? id = some slot :=
    (registered id slot).mpr (Option.map_eq_some_iff.mp known)
  exact ⟨present 0 ⟨10⟩ (by decide +kernel), present 2 ⟨2⟩ (by decide +kernel),
    counted.trans (by decide +kernel)⟩

/-- A number that is still to be handed out is handed out to a child. Then two of three tasks have
it, and one of them is not found any more. -/
theorem clashing_numbers : ∃ scheduler,
    [Operation.openInbox ⟨2⟩, .insertTask ⟨2⟩ default none ⟨0⟩, .spawn spawning none, .step].forM
      Operation.perform (new .standard 0) = .ok ⟨⟩ scheduler ∧
    (scheduler.roster.task? 0).map Task.id = some ⟨2⟩ ∧
    (scheduler.roster.task? 2).map Task.id = some ⟨2⟩ ∧
    scheduler.registry.find? ⟨2⟩ = some 2 ∧
    scheduler.size = 2 ∧ scheduler.roster.occupied = [0, 1, 2] := by
  have runs : [Operation.openInbox ⟨2⟩, .insertTask ⟨2⟩ default none ⟨0⟩, .spawn spawning none,
      .step].forM Operation.perform (new .standard 0) = .ok ⟨⟩ _ :=
    eq_ok_of_answer? (by decide +kernel)
  exact ⟨_, runs, by decide +kernel⟩

end Scheduler

end TaskMachine

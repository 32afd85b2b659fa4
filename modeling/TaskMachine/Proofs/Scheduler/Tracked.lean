/-
Every scheduler that only its own thread uses is one that an exchange comes to
with nobody in the middle of anything. It is `Tracked`, and every operation
keeps it so: what other threads could notice of the changes that the operation is
made of is a run of the exchange, and all else is discreet.
-/

import TaskMachine.Proofs.Scheduler.Alone
import TaskMachine.Proofs.Scheduler.Preserved

namespace TaskMachine

/-- Every task that is there was there before, and waits for messages only if it did then. -/
def Roster.Kept (before after : Roster) : Prop :=
  ∀ slot task, after.task? slot = some task → ∃ earlier, before.task? slot = some earlier ∧
    earlier.id = task.id ∧ earlier.mailbox = task.mailbox ∧
    (task.awaited = some .message → earlier.awaited = some .message)

namespace Roster

variable {roster later : Roster}

theorem Kept.refl (roster : Roster) : roster.Kept roster :=
  fun _ task present => ⟨task, present, rfl, rfl, id⟩

theorem SameTasks.kept (same : SameTasks roster later) : roster.Kept later := by
  intro slot task present
  obtain ⟨earlier, earlierPresent, is⟩ := same.symm.present present
  have id : earlier.unplaced.id = task.unplaced.id := congrArg Task.id is
  have mailbox : earlier.unplaced.mailbox = task.unplaced.mailbox := congrArg Task.mailbox is
  have awaited : earlier.unplaced.awaited = task.unplaced.awaited := congrArg Task.awaited is
  exact ⟨earlier, earlierPresent, id, mailbox, awaited.trans⟩

theorem kept_alter (roster : Roster) (slot : Slot) {change : Task → Task}
    (id : ∀ task, (change task).id = task.id)
    (mailbox : ∀ task, (change task).mailbox = task.mailbox)
    (awaited : ∀ task, (change task).awaited = some .message → task.awaited = some .message) :
    roster.Kept (roster.alter slot change) := by
  intro other task present
  rw [task?_alter] at present
  split at present
  · obtain ⟨earlier, earlierPresent, rfl⟩ := Option.map_eq_some_iff.mp present
    exact ⟨earlier, earlierPresent, (id earlier).symm, (mailbox earlier).symm, awaited earlier⟩
  · exact ⟨task, present, rfl, rfl, fun waits => waits⟩

end Roster

namespace Scheduler

/-- An exchange comes to a scheduler with nobody in the middle of anything, and every number in use
was handed out. -/
structure Tracked (scheduler : Scheduler) : Prop where
  exchange : ∃ exchange : Exchange, exchange.Reachable ∧ exchange.Rests ∧
    exchange.scheduler = scheduler
  numbered : ∀ id slot, scheduler.registry.find? id = some slot →
    id.number < scheduler.nextId.number

variable {scheduler next : Scheduler} {slot : Slot} {task : Task}

namespace Tracked

/-! ### Changes that nobody notices -/

theorem discreet (tracked : scheduler.Tracked) (discreet : scheduler.Discreet next)
    (numbered : ∀ id slot, next.registry.find? id = some slot → id.number < next.nextId.number) :
    next.Tracked := by
  obtain ⟨exchange, reachable, rests, rfl⟩ := tracked.exchange
  exact ⟨⟨_, .step reachable (.between rests.free discreet),
    ⟨rests.free, rests.quiet, rests.done⟩, rfl⟩, numbered⟩

/-- A change that leaves the inboxes and the woken tasks as they are. -/
theorem discreetly (tracked : scheduler.Tracked)
    (inboxes : next.mailroom.inboxes = scheduler.mailroom.inboxes)
    (woken : next.mailroom.woken = scheduler.mailroom.woken)
    (waits : ∀ slot task, next.roster.task? slot = some task → task.awaited = some .message →
      ∃ earlier, scheduler.roster.task? slot = some earlier ∧ earlier.awaited = some .message ∧
        earlier.id = task.id ∧ earlier.mailbox = task.mailbox)
    (registered : scheduler.Registered → next.Registered)
    (numbered : ∀ id slot, next.registry.find? id = some slot → id.number < next.nextId.number) :
    next.Tracked := by
  refine tracked.discreet ⟨fun _ _ => by rw [inboxes], fun inbox owner entry beyond added => ?_,
    woken, waits, registered⟩ numbered
  rw [inboxes, Array.getElem?_eq_none beyond] at added
  exact absurd added (by simp)

/-- A change of what is kept of tasks, of the clock and so on. -/
theorem kept (tracked : scheduler.Tracked)
    (inboxes : next.mailroom.inboxes = scheduler.mailroom.inboxes)
    (woken : next.mailroom.woken = scheduler.mailroom.woken)
    (roster : scheduler.roster.Kept next.roster) (registry : next.registry = scheduler.registry)
    (nextId : scheduler.nextId.number ≤ next.nextId.number) : next.Tracked := by
  refine tracked.discreetly inboxes woken (fun slot task present waits => ?_)
    (fun registered slot task present => ?_) fun id slot found => ?_
  · obtain ⟨earlier, earlierPresent, id, mailbox, waited⟩ := roster slot task present
    exact ⟨earlier, earlierPresent, waited waits, id, mailbox⟩
  · obtain ⟨earlier, earlierPresent, id, _⟩ := roster slot task present
    rw [registry, ← id]
    exact registered slot earlier earlierPresent
  · rw [registry] at found
    exact Nat.lt_of_lt_of_le (tracked.numbered id slot found) nextId

theorem rearrange (tracked : scheduler.Tracked) {roster : Roster}
    (kept : scheduler.roster.Kept roster) : ({ scheduler with roster } : Scheduler).Tracked :=
  tracked.kept rfl rfl kept rfl (Nat.le_refl _)

/-- Everything but tasks, numbers and inboxes plays no part. -/
theorem congr (tracked : scheduler.Tracked)
    (inboxes : next.mailroom.inboxes = scheduler.mailroom.inboxes)
    (woken : next.mailroom.woken = scheduler.mailroom.woken)
    (roster : next.roster = scheduler.roster) (registry : next.registry = scheduler.registry)
    (nextId : next.nextId = scheduler.nextId) : next.Tracked :=
  tracked.kept inboxes woken (roster ▸ Roster.Kept.refl _) registry (nextId ▸ Nat.le_refl _)

/-- A task comes under a number that is not in use. -/
theorem push (tracked : scheduler.Tracked) {id : TaskId}
    (fresh : scheduler.registry.find? id = none)
    (numbered : id.number < scheduler.nextId.number) (function : Function) (parent : Option Slot)
    (mailbox : Mailbox) :
    ({ scheduler with
        roster := { scheduler.roster with
          tasks := scheduler.roster.tasks.push (some (.created id function parent mailbox)) }
        registry := scheduler.registry.insert id scheduler.roster.tasks.size } :
      Scheduler).Tracked := by
  refine tracked.discreetly rfl rfl (fun slot task present waits => ?_)
    (fun registered slot task present => ?_) fun other slot found => ?_
  · rcases Roster.of_task?_push present with ⟨_, rfl⟩ | before
    · exact absurd waits nofun
    · exact ⟨task, before, waits, rfl, rfl⟩
  · rcases Roster.of_task?_push present with ⟨rfl, rfl⟩ | before
    · exact Table.find?_insert_self _ _ _
    · have known := registered slot task before
      refine (Table.find?_insert_other _ _ ?_).trans known
      rintro same
      rw [same, fresh] at known
      exact absurd known nofun
  · by_cases same : other = id
    · rw [same]
      exact numbered
    · rw [Table.find?_insert_other _ _ same] at found
      exact tracked.numbered other slot found

/-- A task goes, and its number with it. -/
theorem drop (tracked : scheduler.Tracked) (present : scheduler.roster.task? slot = some task) :
    ({ scheduler with
        roster := scheduler.roster.setTask slot none
        registry := scheduler.registry.erase task.id } : Scheduler).Tracked := by
  refine tracked.discreetly rfl rfl (fun other found foundPresent waits => ?_)
    (fun registered other found foundPresent => ?_) fun id other found => ?_
  · exact ⟨found, (Roster.of_task?_drop foundPresent).2, waits, rfl, rfl⟩
  · obtain ⟨differ, before⟩ := Roster.of_task?_drop foundPresent
    have known := registered other found before
    refine (Table.find?_erase_other _ fun same => differ ?_).trans known
    rw [same, registered slot task present] at known
    exact (Option.some.inj known).symm
  · refine tracked.numbered id other ?_
    by_cases same : id = task.id
    · rw [same, Table.find?_erase_self] at found
      exact absurd found nofun
    · rwa [Table.find?_erase_other _ same] at found

/-- A new inbox is empty. -/
theorem addInbox (tracked : scheduler.Tracked) (owner : TaskId) :
    ({ scheduler with mailroom := (scheduler.mailroom.addInbox owner).1 } : Scheduler).Tracked := by
  refine tracked.discreet ⟨fun inbox within => ?_, fun inbox other entry beyond added => ?_, rfl,
    fun _ task present waits => ⟨task, present, waits, rfl, rfl⟩, fun registered => registered⟩
    tracked.numbered
  · exact (Array.getElem?_push_lt within).trans (Array.getElem?_eq_getElem within).symm
  · simp only [Mailroom.addInbox, Array.getElem?_push] at added
    split at added
    · exact (congrArg Prod.snd (Option.some.inj added)).symm
    · rw [Array.getElem?_eq_none beyond] at added
      exact absurd added nofun

/-! ### What others notice -/

theorem sends (tracked : scheduler.Tracked) (mailbox : Mailbox) (message : Message) :
    ({ scheduler with mailroom := scheduler.mailroom.send mailbox message } :
      Scheduler).Tracked := by
  obtain ⟨exchange, reachable, rests, rfl⟩ := tracked.exchange
  exact ⟨reachable.sends rests mailbox message, tracked.numbered⟩

theorem receives (tracked : scheduler.Tracked) (mailbox : Mailbox) :
    ({ scheduler with mailroom := (scheduler.mailroom.receive mailbox).1 } :
      Scheduler).Tracked := by
  obtain ⟨exchange, reachable, rests, rfl⟩ := tracked.exchange
  exact ⟨reachable.takes rests mailbox, tracked.numbered⟩

theorem wakes (tracked : scheduler.Tracked) (id : TaskId) :
    ({ scheduler with mailroom := scheduler.mailroom.wake id } : Scheduler).Tracked := by
  obtain ⟨exchange, reachable, rests, rfl⟩ := tracked.exchange
  exact ⟨⟨_, .step reachable (.rouse id), ⟨rests.free, rests.quiet, rests.done⟩, rfl⟩,
    tracked.numbered⟩

end Tracked

/-! ### Operations -/

/-- The next number is in use nowhere. -/
theorem Tracked.unused (tracked : scheduler.Tracked) :
    scheduler.registry.find? scheduler.nextId = none := by
  cases found : scheduler.registry.find? scheduler.nextId with
  | none => rfl
  | some slot => exact absurd (tracked.numbered _ slot found) (Nat.lt_irrefl _)

theorem Tracked.number (tracked : scheduler.Tracked) :
    ({ scheduler with nextId := scheduler.nextId.next } : Scheduler).Tracked :=
  tracked.kept rfl rfl (Roster.Kept.refl _) rfl (Nat.le_succ _)

theorem stable_tracked : Stable Tracked where
  beside := fun tracked beside => tracked.congr beside.inboxes beside.woken beside.roster
    beside.registry beside.nextId
  opens := fun owner tracked => tracked.addInbox owner
  sends := fun mailbox message tracked => tracked.sends mailbox message
  receives := fun mailbox tracked => tracked.receives mailbox
  wakes := fun id tracked => tracked.wakes id
  arrange := fun tracked same => tracked.rearrange same.kept
  alter := fun slot _ tracked id mailbox awaited _ =>
    tracked.rearrange (Roster.kept_alter _ slot id mailbox fun task waits => awaited task ▸ waits)
  retimes := fun _ _ tracked => tracked.congr rfl rfl rfl rfl rfl
  rewaits := fun slot _ tracked id mailbox awaited _ =>
    tracked.rearrange (Roster.kept_alter _ slot id mailbox awaited)
  number := Tracked.number
  born := fun {scheduler} function parent tracked =>
    have opened := tracked.addInbox scheduler.nextId
    opened.number.push opened.unused (Nat.lt_succ_self _) function parent _
  leave := fun present tracked => tracked.drop present

/-- A task can come under a number that was handed out, unless it is in use. -/
theorem Tracked.after_insertTask {broken : Prop} (tracked : scheduler.Tracked) {id : TaskId}
    (numbered : id.number < scheduler.nextId.number) (function : Function) (parent : Option TaskId)
    (mailbox : Mailbox) :
    After (insertTask id function parent mailbox) scheduler (fun _ => Tracked)
      fun _ next => broken → next.Tracked :=
  Steady.after_insertTask tracked fun parent _ fresh lent =>
    (stable_tracked.lends tracked lent).push fresh numbered function parent mailbox

/-- A task waits for a message if it has seen that there is none. -/
theorem Tracked.after_suspend (tracked : scheduler.Tracked)
    (present : scheduler.roster.task? slot = some task)
    (empty : scheduler.mailroom.isEmpty task.mailbox = true) :
    After (suspend slot .message) scheduler (fun _ => Tracked)
      fun _ next => False → next.Tracked := by
  obtain ⟨exchange, reachable, rests, rfl⟩ := tracked.exchange
  cases runs : suspend slot .message exchange.scheduler with
  | error crash next => exact After.of_error runs False.elim
  | ok result next =>
    obtain ⟨suspended, rested⟩ := reachable.suspends rests present empty runs
    have rest := ((after_suspend _ _ _).ok runs).rest
    refine After.of_ok runs ⟨⟨_, suspended, rested, rfl⟩, ?_⟩
    rw [rest]
    exact tracked.numbered

theorem Tracked.after_wakeWoken (tracked : scheduler.Tracked) :
    After wakeWoken scheduler (fun _ => Tracked) fun _ next => False → next.Tracked := by
  obtain ⟨exchange, reachable, rests, rfl⟩ := tracked.exchange
  refine (reachable.after_wakeWoken rests).mono (fun _ next woken => ?_) fun _ _ _ => False.elim
  obtain ⟨reached, rested, registry, nextId⟩ := woken
  refine ⟨⟨_, reached, rested, rfl⟩, ?_⟩
  rw [registry, nextId]
  exact tracked.numbered

/-- Every operation keeps a scheduler tracked, if tasks have no turns in it or if it succeeds. -/
theorem lasting_tracked : Lasting Tracked False where
  toStable := stable_tracked
  suspends := fun tracked present empty => tracked.after_suspend present empty
  goesOn := fun _ tracked => tracked.after_wakeWoken
  tokenless := fun _ _ tracked => tracked.congr rfl rfl rfl rfl rfl

end Scheduler

end TaskMachine

/-
How far a turn reaches. Whatever a task does in its turn goes through the
scheduler: it spawns a child, takes a message from its own inbox or invokes a
hook, and in the end it goes to a queue or ends, and its orphans with it.
`Confined` says of each of these that it changes nothing of other tasks but what
`Spares` leaves open, takes from no inbox but the task's own, and sends no letter
but those that answer what the embedder was told, and reports of exits. It is
shown of one piece of a turn at a time, and pieces are put together by `andThen`.
-/

import TaskMachine.Proofs.Roster.Spared
import TaskMachine.Proofs.Session.Commuting
import TaskMachine.Proofs.Session.Deliveries
import TaskMachine.Proofs.Session.Reports

namespace TaskMachine

theorem Task.origin_arm (stack : Stack) (task : Task) : (task.arm stack).origin = task.origin := rfl

theorem Task.origin_await (awaited : Option Awaited) (task : Task) :
    (task.await awaited).origin = task.origin := rfl

/-! ### Inboxes that others do not take from -/

namespace Mailroom

variable {room left right before middle after : Mailroom} {own : Mailbox}
  {letters more : List Letter}

theorem inboxes_send_eq (room : Mailroom) (mailbox : Mailbox) (message : Message) :
    (room.send mailbox message).inboxes = room.inboxes.modify mailbox.inbox fun entry =>
      (entry.1, (entry.2.send message).1) := by
  have sent : (room.send mailbox message).inboxes = (room.put mailbox message).inboxes := by
    rcases room.send_eq mailbox message with is | ⟨owner, is⟩
    · rw [is]
    · rw [is, inboxes_wake]
  rw [sent, put_eq]

theorem size_deliver (room : Mailroom) (letters : List Letter) :
    (room.deliver letters).inboxes.size = room.inboxes.size := by
  induction letters generalizing room with
  | nil => rfl
  | cons letter rest inductionHypothesis =>
    exact (inductionHypothesis (room.send letter.mailbox letter.message)).trans
      (room.inboxes_send letter.mailbox letter.message).1

/-- What letters do to an inbox depends on that inbox only. -/
theorem deliver_congr {inbox : Nat} (same : left.inboxes[inbox]? = right.inboxes[inbox]?)
    (letters : List Letter) :
    (left.deliver letters).inboxes[inbox]? = (right.deliver letters).inboxes[inbox]? := by
  induction letters generalizing left right with
  | nil => exact same
  | cons letter rest inductionHypothesis =>
    have sent : (left.send letter.mailbox letter.message).inboxes[inbox]? =
        (right.send letter.mailbox letter.message).inboxes[inbox]? := by
      rw [inboxes_send_eq, inboxes_send_eq, Array.getElem?_modify, Array.getElem?_modify, same]
    exact inductionHypothesis sent

/-- Letters have come to the inboxes that there were, and nothing else was done to them, but to a
single one. -/
structure Gains (before : Mailroom) (own : Mailbox) (letters : List Letter) (after : Mailroom) :
    Prop where
  grows : before.inboxes.size ≤ after.inboxes.size
  inboxes : ∀ mailbox : Mailbox, mailbox ≠ own → mailbox.inbox < before.inboxes.size →
    after.inboxes[mailbox.inbox]? = (before.deliver letters).inboxes[mailbox.inbox]?

namespace Gains

theorem andThen (first : before.Gains own letters middle) (second : middle.Gains own more after) :
    before.Gains own (letters ++ more) after where
  grows := Nat.le_trans first.grows second.grows
  inboxes := fun mailbox other known => by
    rw [second.inboxes mailbox other (Nat.lt_of_lt_of_le known first.grows), deliver_append]
    exact deliver_congr (first.inboxes mailbox other known) more

theorem deliver (room : Mailroom) (own : Mailbox) (letters : List Letter) :
    room.Gains own letters (room.deliver letters) :=
  ⟨Nat.le_of_eq (room.size_deliver letters).symm, fun _ _ _ => rfl⟩

theorem receive (room : Mailroom) (own : Mailbox) : room.Gains own [] (room.receive own).1 :=
  have ⟨size, others⟩ := room.inboxes_receive own
  ⟨Nat.le_of_eq size.symm, fun mailbox other _ => others mailbox other⟩

theorem of_opens (opens : room.Opens after) (own : Mailbox) : room.Gains own [] after where
  grows := by
    obtain ⟨owners, is⟩ := opens
    rw [is, Array.size_append]
    exact Nat.le_add_right _ _
  inboxes := fun _ _ known => opens.kept known

end Gains

end Mailroom

/-! ### Letters that answer -/

/-- A letter in response to some things was sent when one of them was told. -/
theorem exists_of_mem_responses {respond : List Notice → List Letter} {told notices : List Notice}
    {letter : Letter} (among : letter ∈ responses respond told notices) :
    ∃ notice earlier, notice :: earlier <:+ notices.reverse ++ told ∧ told <:+ earlier ∧
      letter ∈ respond (notice :: earlier) := by
  induction notices generalizing told with
  | nil => exact absurd among List.not_mem_nil
  | cons first rest inductionHypothesis =>
    have shape : (first :: rest).reverse ++ told = rest.reverse ++ first :: told := by simp
    rw [shape]
    rcases List.mem_append.mp among with now | later
    · exact ⟨first, told, List.suffix_append _ _, List.suffix_rfl, now⟩
    · obtain ⟨notice, earlier, recent, before, is⟩ := inductionHypothesis later
      exact ⟨notice, earlier, recent, (List.suffix_cons first told).trans before, is⟩

namespace Scheduler

variable {before middle after scheduler next : Scheduler} {slot place : Slot} {own : Mailbox}
  {touched more : List Slot} {reported reportedNow : Letter → Prop} {births birthsNow : Nat}
  {letters : List Letter} {letter : Letter} {task : Task} {exit : Exit}

/-- In the meantime the embedder was told something, and a letter is part of its answer. -/
def Answers (before after : Scheduler) (letter : Letter) : Prop :=
  ∃ notice earlier, notice :: earlier <:+ after.notices ∧ before.notices <:+ earlier ∧
    letter ∈ before.respond (notice :: earlier)

/-- What was done in the turn of the task at a place is confined to it. Other tasks are spared but
those at some places, and so many children have come. From no other inbox was anything taken, and a
letter was sent only in answer to a notice, or because it is of a certain kind. -/
structure Confined (before : Scheduler) (slot : Slot) (own : Mailbox) (touched : List Slot)
    (reported : Letter → Prop) (births : Nat) (after : Scheduler) : Prop where
  tasks : before.roster.Spares slot touched births after.roster
  mail : ∃ letters, before.mailroom.Gains own letters after.mailroom ∧
    ∀ letter ∈ letters, before.Answers after letter ∨ reported letter
  respond : after.respond = before.respond
  told : before.notices <:+ after.notices

namespace Confined

theorem andThen (first : before.Confined slot own touched reported births middle)
    (second : middle.Confined slot own more reported birthsNow after)
    (within : ∀ place ∈ more, place < before.roster.tasks.size → place ∈ touched) :
    before.Confined slot own touched reported (births + birthsNow) after where
  tasks := first.tasks.andThen second.tasks within
  mail := by
    obtain ⟨letters, gains, sources⟩ := first.mail
    obtain ⟨further, gainsNow, sourcesNow⟩ := second.mail
    refine ⟨letters ++ further, gains.andThen gainsNow, fun letter among => ?_⟩
    rcases List.mem_append.mp among with old | new
    · refine (sources letter old).imp_left fun ⟨notice, earlier, recent, since, is⟩ => ?_
      exact ⟨notice, earlier, recent.trans second.told, since, is⟩
    · refine (sourcesNow letter new).imp_left fun ⟨notice, earlier, recent, since, is⟩ => ?_
      exact ⟨notice, earlier, recent, first.told.trans since, first.respond ▸ is⟩
  respond := second.respond.trans first.respond
  told := first.told.trans second.told

/-- More places count as touched, and more letters as reports. -/
theorem widen (confined : before.Confined slot own touched reported births after)
    (further : touched ⊆ more) (reports : ∀ letter, reported letter → reportedNow letter) :
    before.Confined slot own more reportedNow births after where
  tasks := confined.tasks.touch further
  mail :=
    have ⟨letters, gains, sources⟩ := confined.mail
    ⟨letters, gains, fun letter among => (sources letter among).imp_right (reports letter)⟩
  respond := confined.respond
  told := confined.told

/-- Nothing is sent, and nothing is received. -/
theorem quiet (tasks : before.roster.Spares slot touched births after.roster)
    (opens : before.mailroom.Opens after.mailroom) (notices : after.notices = before.notices)
    (respond : after.respond = before.respond) :
    before.Confined slot own touched reported births after where
  tasks := tasks
  mail := ⟨[], .of_opens opens own, fun _ among => absurd among List.not_mem_nil⟩
  respond := respond
  told := notices ▸ List.suffix_rfl

/-- Neither tasks nor letters are concerned. -/
theorem beside (confined : before.Confined slot own touched reported births scheduler)
    (roster : next.roster = scheduler.roster) (mailroom : next.mailroom = scheduler.mailroom)
    (notices : next.notices = scheduler.notices) (respond : next.respond = scheduler.respond) :
    before.Confined slot own touched reported births next := by
  have still : scheduler.Confined slot own [] reported 0 next :=
    .quiet (roster ▸ .refl _ slot []) (mailroom ▸ .refl _) notices respond
  exact confined.andThen still nofun

/-- The task takes a message, or finds none. -/
theorem receive (scheduler : Scheduler) :
    scheduler.Confined slot own [] reported 0
      { scheduler with mailroom := (scheduler.mailroom.receive own).1 } where
  tasks := .refl _ slot []
  mail := ⟨[], .receive _ own, fun _ among => absurd among List.not_mem_nil⟩
  respond := rfl
  told := List.suffix_rfl

/-- The embedder is told something and answers. -/
theorem notify (scheduler : Scheduler) (notice : Notice) :
    scheduler.Confined slot own [] reported 0 { scheduler with
      notices := notice :: scheduler.notices
      mailroom := scheduler.mailroom.deliver
        (scheduler.respond (notice :: scheduler.notices)) } where
  tasks := .refl _ slot []
  mail := ⟨_, .deliver _ own _, fun _ among =>
    Or.inl ⟨notice, scheduler.notices, List.suffix_rfl, List.suffix_rfl, among⟩⟩
  respond := rfl
  told := List.suffix_cons _ _

end Confined

/-! ### While the task has its turn -/

/-- The tasks when a child has come, before it joins the run queue. -/
def conceived (scheduler : Scheduler) (slot : Slot) (function : Function) : Roster :=
  let lent := scheduler.roster.alter slot fun task =>
    { task with references := task.references + 1 }
  { lent with
    tasks := lent.tasks.push (some (.created scheduler.nextId function (some slot)
      ⟨scheduler.mailroom.inboxes.size⟩)) }

/-- A child comes with an inbox of its own, and joins the run queue. -/
theorem after_spawnChild_conceived (slot : Slot) (function : Function) (scheduler : Scheduler) :
    After (spawnChild function slot) scheduler
      (fun _ next => ∃ roster registry, Roster.pushTail .run scheduler.roster.tasks.size
          (scheduler.conceived slot function) = .ok ⟨⟩ roster ∧
        next = { scheduler with
          roster
          registry
          nextId := scheduler.nextId.next
          mailroom := (scheduler.mailroom.addInbox scheduler.nextId).1 })
      fun _ _ => True := by
  refine After.bind (After.modifyGet (After.bind (After.modifyGet ?_)))
  refine After.bind (After.bind (after_onRoster ((Roster.after_update _).mono
    (fun _ lent is => ?_) fun _ _ _ => trivial)))
  subst is
  refine After.bind (after_onRoster (After.of_ok (Roster.add_eq _ _) ?_))
  refine After.bind (After.modify (After.pure ?_))
  refine After.bind (after_onRoster (After.known.mono (fun _ roster pushes => ?_)
    fun _ _ _ => trivial))
  refine After.pure ⟨roster, _, ?_, rfl⟩
  rw [Roster.size_alter] at pushes
  exact pushes

theorem spares_conceived (scheduler : Scheduler) (slot : Slot) (function : Function) :
    scheduler.roster.Spares slot [] 1 (scheduler.conceived slot function) := by
  have lent : scheduler.roster.Spares slot [] 0 (scheduler.roster.alter slot fun task =>
      { task with references := task.references + 1 }) :=
    Roster.spares_relink scheduler.roster slot slot fun _ => rfl
  have child : (Task.created scheduler.nextId function (some slot)
    ⟨scheduler.mailroom.inboxes.size⟩).parent = some slot := rfl
  exact lent.andThen (Roster.spares_push _ child) nofun

theorem after_spawnChild_confined (slot : Slot) (function : Function) (scheduler : Scheduler) :
    After (spawnChild function slot) scheduler
      (fun _ => scheduler.Confined slot own [] reported 1) fun _ _ => True := by
  refine (after_spawnChild_conceived slot function scheduler).imp fun _ next born => ?_
  obtain ⟨roster, registry, pushes, rfl⟩ := born
  refine .quiet ?_ (.addInbox _ _) rfl rfl
  exact (Roster.after_pushTail_spared (scheduler.spares_conceived slot function)
    (fun old => absurd old (Nat.lt_irrefl _)) .run).ok pushes

/-- Whatever the task asks for is confined to it. -/
theorem keeps_confined (present : before.roster.task? slot = some task) :
    Stack.Keeps (hostFor slot)
      (fun now => ∃ births, before.Confined slot task.mailbox [slot] reported births now)
      fun _ _ => True where
  spawn := fun function now confined => by
    obtain ⟨births, confined⟩ := confined
    exact (after_spawnChild_confined slot function now).imp fun _ next born =>
      ⟨births + 1, confined.andThen born nofun⟩
  receive := fun now confined => by
    obtain ⟨births, confined⟩ := confined
    refine (after_receiveFor slot now).imp fun value next received => ?_
    obtain ⟨found, foundPresent, -, rfl⟩ := received
    obtain ⟨earlier, earlierPresent, origin, -⟩ := confined.tasks.known slot found
      (Roster.lt_size_of_task?_eq_some present) foundPresent
    obtain rfl := Option.some.inj (present.symm.trans earlierPresent)
    have mailbox : found.mailbox = task.mailbox := congrArg Prod.snd origin
    rw [mailbox]
    exact ⟨births, confined.andThen (.receive now) nofun⟩
  invoke := fun hook stack now confined => by
    obtain ⟨births, confined⟩ := confined
    refine (after_invokeFor slot hook stack now).imp fun _ next invoked => ?_
    obtain ⟨id, run, wait, notifies⟩ := invoked
    rw [notify_eq] at notifies
    cases notifies
    exact ⟨births, confined.andThen (.notify now _) nofun⟩

/-- The turn up to the instruction at which it stops. -/
theorem after_execute_confined (present : scheduler.roster.task? slot = some task)
    (stack : Stack) (limit fuel : Nat) :
    After (stack.execute (hostFor slot) limit fuel) (scheduler.manned slot)
      (fun _ next => ∃ births,
        scheduler.Confined slot task.mailbox [slot] reported births next)
      fun _ _ => True := by
  have mans : scheduler.Confined slot task.mailbox [slot] reported 0 (scheduler.manned slot) :=
    .quiet (Roster.spares_alter _ slot slot fun _ => rfl) (.refl _) rfl rfl
  exact ((keeps_confined present).after_execute limit fuel stack ⟨0, mans⟩).imp
    fun _ _ known => known.1

/-! ### After a turn in which the task does not end -/

theorem after_onRoster_confined (confined : before.Confined slot own touched reported births
    scheduler) {change : Rostering Unit}
    (spares : After change scheduler.roster (fun _ => before.roster.Spares slot touched births)
      fun _ _ => True) :
    After (onRoster change) scheduler
      (fun _ => before.Confined slot own touched reported births) fun _ _ => True :=
  after_onRoster (spares.mono
    (fun _ _ tasks => ⟨tasks, confined.mail, confined.respond, confined.told⟩)
    fun _ _ _ => trivial)

section

variable (confined : before.Confined slot own touched reported births scheduler)
  (inside : slot < before.roster.tasks.size → slot ∈ touched)

include confined inside

/-- The task itself is changed. -/
theorem after_update_confined {change : Task → Task}
    (same : ∀ task, (change task).origin = task.origin) :
    After (update slot change) scheduler
      (fun _ => before.Confined slot own touched reported births) fun _ _ => True :=
  after_onRoster_confined confined ((Roster.after_update change).mono
    (fun _ _ is => is ▸ confined.tasks.alter inside same) fun _ _ _ => trivial)

theorem after_requeue_confined :
    After (requeue slot) scheduler
      (fun _ => before.Confined slot own touched reported births) fun _ _ => True := by
  refine After.bind (After.get ?_)
  by_cases first : scheduler.roster.run.head = some slot
  · have rotates : After (Roster.rotate .run) scheduler.roster
        (fun _ => before.roster.Spares slot touched births) fun _ _ => True :=
      Roster.after_rotate_spared confined.tasks inside first
    rw [if_pos first]
    exact after_onRoster_confined confined rotates
  · rw [if_neg first]
    refine (after_onRoster_confined confined
      (Roster.after_remove_spared confined.tasks inside .run)).andThen fun _ _ confined => ?_
    exact after_onRoster_confined confined
      (Roster.after_pushTail_spared confined.tasks inside .run)

theorem after_suspend_confined (awaited : Awaited) :
    After (suspend slot awaited) scheduler
      (fun _ => before.Confined slot own touched reported births) fun _ _ => True := by
  refine (after_onRoster_confined confined
    (Roster.after_remove_spared confined.tasks inside .run)).andThen fun _ _ confined => ?_
  refine (after_update_confined confined inside (Task.origin_await (some awaited))).andThen
    fun _ _ confined => ?_
  exact after_onRoster_confined confined (Roster.after_pushTail_spared confined.tasks inside .wait)

/-- A task that has not ended goes to a queue. -/
theorem after_settle_confined (id : TaskId) (stack : Stack) {status : Status}
    (stays : status.exit? = none) :
    After (settle slot id stack status) scheduler
      (fun _ => before.Confined slot own touched reported births) fun _ _ => True := by
  have puts {next : Scheduling Unit} (after : ∀ {armed : Scheduler},
      before.Confined slot own touched reported births armed →
        After next armed (fun _ => before.Confined slot own touched reported births)
          fun _ _ => True) :
      After (do putStack slot stack; next) scheduler
        (fun _ => before.Confined slot own touched reported births) fun _ _ => True :=
    (after_update_confined confined inside (Task.origin_arm stack)).andThen
      fun _ _ confined => after confined
  cases status with
  | yielded => exact puts fun confined => after_requeue_confined confined inside
  | suspended wait =>
    cases wait with
    | timer after =>
      refine puts fun {armed} confined => After.bind (After.modifyGet ?_)
      refine after_suspend_confined ?_ inside _
      exact confined.beside rfl rfl rfl rfl
    | message =>
      refine puts fun {armed} confined => After.bind (after_onRoster (Roster.after_fetch
        (fun task _ => After.bind (After.get ?_)) fun _ => trivial))
      by_cases empty : armed.mailroom.isEmpty task.mailbox = true
      · simp only [empty, if_true]
        exact after_suspend_confined confined inside .message
      · simp only [empty]
        exact after_requeue_confined confined inside
  | ended values => exact absurd stays nofun
  | faulted fault => exact absurd stays nofun

end

/-! ### Endings -/

/-- A task that leaves its queue takes nobody with it. -/
theorem after_leaveLane_spared (mover place : Slot) (scheduler : Scheduler) :
    After (leaveLane place) scheduler
      (fun _ next => scheduler.roster.Spares mover [place] 0 next.roster ∧
        scheduler.roster.SameTasks next.roster) fun _ _ => True := by
  have still : scheduler.roster.Spares mover [place] 0 scheduler.roster := .refl _ mover [place]
  refine After.bind (after_onRoster (Roster.after_fetch (fun task _ => ?_) fun _ => trivial))
  cases task.lane with
  | none => exact After.pure ⟨still, .refl _⟩
  | some lane =>
    have removes := Roster.after_remove_spared still
      (fun _ => List.mem_singleton.mpr rfl) lane
    exact after_onRoster ((removes.and (Roster.after_remove _ lane place)).mono
      (fun _ _ known => known) fun _ _ _ => trivial)

/-- A task that leaves its queue and becomes a zombie, and whose watchers are told. -/
theorem Departing.confined (departing : scheduler.Departing place exit task next) :
    scheduler.Confined slot own [place] reported 0 next ∧
      scheduler.roster.Outlived next.roster [place] ∧
      ∃ earlier, scheduler.roster.task? place = some earlier ∧ earlier.id = task.id ∧
        earlier.parent = task.parent := by
  obtain ⟨left, leaves, present, ended⟩ := departing.out
  obtain ⟨spares, same⟩ := (after_leaveLane_spared slot place scheduler).ok leaves
  obtain ⟨earlier, earlierPresent, unplaced⟩ := same.symm.present present
  have gains := Mailroom.Gains.deliver scheduler.mailroom own
    (responses scheduler.respond scheduler.notices (farewells task exit))
  rw [← departing.mailroom] at gains
  have id : earlier.unplaced.id = task.unplaced.id := congrArg Task.id unplaced
  have parent : earlier.unplaced.parent = task.unplaced.parent := congrArg Task.parent unplaced
  refine ⟨⟨?_, ⟨_, gains, fun letter among => Or.inl ?_⟩, departing.respond, ?_⟩, ?_, earlier,
    earlierPresent, id, parent⟩
  · rw [ended]
    exact spares.alter (fun _ => List.mem_singleton.mpr rfl) fun _ => rfl
  · obtain ⟨notice, told, recent, since, is⟩ := exists_of_mem_responses among
    exact ⟨notice, told, departing.notices ▸ recent, since, is⟩
  · rw [departing.notices]
    exact List.suffix_append _ _
  · rw [ended]
    exact same.outlived.trans (left.outlived_ended place)

/-- To release a task is to change how many references there are to tasks, and which tasks there
are. -/
theorem after_releaseWithin_spared (mover : Slot) (tasks : Nat) (place : Slot)
    (scheduler : Scheduler) :
    After (releaseWithin tasks place) scheduler
      (fun _ next => scheduler.roster.Spares mover [] 0 next.roster) fun _ _ => True := by
  induction tasks generalizing place scheduler with
  | zero => exact After.throw trivial
  | succ tasks inductionHypothesis =>
    refine After.bind (after_onRoster (Roster.after_fetch (fun task present => ?_)
      fun _ => trivial))
    match task.references with
    | 0 => exact After.throw trivial
    | 1 =>
      refine After.bind (after_onRoster (After.of_ok (Roster.drop_eq _ place) ?_))
      refine After.bind (After.modify ?_)
      have dropped := Roster.spares_drop scheduler.roster mover place
      cases task.parent with
      | none => exact After.pure dropped
      | some parent =>
        exact (inductionHypothesis parent _).imp fun _ _ spares => dropped.andThen spares nofun
    | left + 2 => exact after_update present (Roster.spares_relink _ mover place fun _ => rfl)

/-- A task that gives up the reference that stood for its life. -/
theorem after_releaseSlot_confined (slot place : Slot) (own : Mailbox)
    (reported : Letter → Prop) (scheduler : Scheduler) :
    After (releaseSlot place) scheduler
      (fun _ next => scheduler.Confined slot own [] reported 0 next ∧
        scheduler.roster.Outlived next.roster []) fun _ _ => True := by
  have spares : After (releaseSlot place) scheduler
      (fun _ next => scheduler.roster.Spares slot [] 0 next.roster) fun _ _ => True :=
    After.bind (After.get (after_releaseWithin_spared slot _ place scheduler))
  refine (spares.and (after_releaseSlot_released place scheduler)).mono (fun _ next known => ?_)
    fun _ _ _ => trivial
  obtain ⟨tasks, roster, registry, rfl, outlived, _⟩ := known
  exact ⟨.quiet tasks (.refl _) rfl rfl, outlived⟩

/-- A task ends: it parts from the others, its exit is reported, and it gives up its reference. -/
theorem after_endTask_confined (slot place : Slot) (own : Mailbox) (exit : Exit)
    (scheduler : Scheduler) :
    After (endTask place exit) scheduler
      (fun _ next => scheduler.roster.Outlived next.roster [place] ∧
        ∃ earlier task parting, scheduler.roster.task? place = some earlier ∧
          earlier.id = task.id ∧ earlier.parent = task.parent ∧
          scheduler.roster.Outlived parting [place] ∧
          scheduler.Confined slot own [place] (· ∈ parting.exitReport task exit) 0 next)
      fun _ _ => True := by
  rw [endTask_eq]
  refine (after_depart place exit scheduler).andThen fun task parting departing => ?_
  refine (after_report task exit parting).andThen fun _ reported found => ?_
  obtain ⟨-, rfl⟩ := found
  refine (after_releaseSlot_confined slot place own (· ∈ parting.roster.exitReport task exit)
    _).imp fun _ next released => ?_
  obtain ⟨releases, still⟩ := released
  have reports : parting.Confined slot own [] (· ∈ parting.roster.exitReport task exit) 0
      { parting with
        mailroom := parting.mailroom.deliver (parting.roster.exitReport task exit) } :=
    ⟨.refl _ slot [], ⟨_, .deliver _ own _, fun _ among => Or.inr among⟩, rfl, List.suffix_rfl⟩
  obtain ⟨confined, outlived, earlier, present, id, parent⟩ := departing.confined
  exact ⟨outlived.trans still, earlier, task, parting.roster, present, id, parent, outlived,
    (confined.andThen reports nofun).andThen releases nofun⟩

end Scheduler

/-! ### Reports -/

namespace Roster

variable {earlier later roster : Roster} {ended : List Slot} {place : Option Slot}
  {ancestor task : Task} {exit : Exit} {letter : Letter}

/-- The places of the tasks on the way up from a place. -/
inductive Ascends (roster : Roster) : Option Slot → Slot → Prop
  | here {slot : Slot} {task : Task} (present : roster.task? slot = some task) :
      Ascends roster (some slot) slot
  | up {slot above : Slot} {task : Task} (present : roster.task? slot = some task)
      (further : Ascends roster task.parent above) : Ascends roster (some slot) above

/-- A task has the number and the parent that it had. -/
theorem Outlived.identity (outlived : earlier.Outlived later ended) {slot : Slot}
    (present : later.task? slot = some task) :
    ∃ before, earlier.task? slot = some before ∧ task.id = before.id ∧
      task.parent = before.parent := by
  obtain ⟨before, beforePresent, core⟩ := outlived slot task present
  have id : task.core.id = (if slot ∈ ended then before.ended.core else before.core).id :=
    congrArg Task.id core
  have parent : task.core.parent =
      (if slot ∈ ended then before.ended.core else before.core).parent := congrArg Task.parent core
  refine ⟨before, beforePresent, ?_⟩
  split at id <;> split at parent <;> exact ⟨id, parent⟩

/-- Who is found alive on the way up, after some tasks have ended, was on the way up before. -/
theorem Climbs.ascends (climbs : later.Climbs place ancestor)
    (outlived : earlier.Outlived later ended) :
    ∃ above found, earlier.Ascends place above ∧ earlier.task? above = some found ∧
      found.life = .alive ∧ found.flags = ancestor.flags ∧ found.mailbox = ancestor.mailbox := by
  induction climbs with
  | @here slot task present alive =>
    have apart : slot ∉ ended := fun inside =>
      absurd (alive.symm.trans (outlived.zombie inside present)) nofun
    obtain ⟨found, foundPresent, core⟩ := outlived.unended apart present
    have life : task.core.life = found.core.life := congrArg Task.life core
    have flags : task.core.flags = found.core.flags := congrArg Task.flags core
    have mailbox : task.core.mailbox = found.core.mailbox := congrArg Task.mailbox core
    exact ⟨slot, found, .here foundPresent, foundPresent, life.symm.trans alive, flags.symm,
      mailbox.symm⟩
  | up present _ _ inductionHypothesis =>
    obtain ⟨before, beforePresent, parent⟩ := outlived.parent present
    obtain ⟨above, found, ascends, known⟩ := inductionHypothesis
    exact ⟨above, found, .up beforePresent (parent ▸ ascends), known⟩

/-- A report goes to whom the way up leads to, if that one traps exits. -/
theorem climbs_of_mem_exitReport (among : letter ∈ roster.exitReport task exit) :
    ∃ ancestor, roster.Climbs task.parent ancestor ∧ ancestor.flags.contains .trapExit = true ∧
      letter = ⟨ancestor.mailbox, ⟨exit.code, some task.id⟩⟩ := by
  rw [exitReport] at among
  split at among
  · rename_i ancestor finds
    split at among
    · rename_i traps
      exact ⟨ancestor, (livingWithin_eq_ok finds).mpr rfl, traps, List.mem_singleton.mp among⟩
    · exact absurd among List.not_mem_nil
  · exact absurd among List.not_mem_nil

end Roster

namespace Scheduler

variable {origin now next final : Scheduler} {slot : Slot} {own : Mailbox} {ended : List Slot}
  {endings rest : List (Slot × Exit)}

/-- A letter tells somebody on the way up from a task that ends how it ends: one who is alive and
traps exits. -/
def Reports (scheduler : Scheduler) (endings : List (Slot × Exit)) (letter : Letter) : Prop :=
  ∃ place exit task above found, (place, exit) ∈ endings ∧
    scheduler.roster.task? place = some task ∧ letter.message = ⟨exit.code, some task.id⟩ ∧
    scheduler.roster.Ascends task.parent above ∧ scheduler.roster.task? above = some found ∧
    found.life = .alive ∧ found.flags.contains .trapExit = true ∧ letter.mailbox = found.mailbox

/-- When tasks end one after another, other tasks are spared, and each letter is an answer or a
report. -/
theorem Endings.confined (chain : now.Endings rest final)
    (outlived : origin.roster.Outlived now.roster ended) (within : rest ⊆ endings) :
    now.Confined slot own (endings.map Prod.fst) (origin.Reports endings) 0 final := by
  induction chain generalizing ended with
  | done now deathsPending => exact .quiet (.refl _ slot _) (.refl _) rfl rfl
  | @one now middle final place exit rest deathsPending ends _ inductionHypothesis =>
    have among : (place, exit) ∈ endings := within List.mem_cons_self
    obtain ⟨outlivedNow, earlier, task, parting, present, id, parent, parted, confined⟩ :=
      (after_endTask_confined slot place own exit _).ok ends
    obtain ⟨first, firstPresent, idFirst, parentFirst⟩ := outlived.identity present
    have reports (letter : Letter) (is : letter ∈ parting.exitReport task exit) :
        origin.Reports endings letter := by
      obtain ⟨ancestor, climbs, traps, rfl⟩ := Roster.climbs_of_mem_exitReport is
      obtain ⟨above, found, ascends, foundPresent, alive, flags, mailbox⟩ :=
        climbs.ascends (outlived.trans parted)
      rw [← parent, parentFirst] at ascends
      refine ⟨place, exit, first, above, found, among, firstPresent, ?_, ascends, foundPresent,
        alive, flags ▸ traps, mailbox.symm⟩
      rw [← idFirst, id]
    have touched : [place] ⊆ endings.map Prod.fst := by
      rintro other is
      rw [List.mem_singleton.mp is]
      exact List.mem_map.mpr ⟨_, among, rfl⟩
    have ending : now.Confined slot own (endings.map Prod.fst) (origin.Reports endings) 0 middle :=
      have ⟨tasks, mail, respond, told⟩ := confined.widen touched reports
      ⟨tasks, mail, respond, told⟩
    exact ending.andThen (inductionHypothesis (outlived.trans outlivedNow)
      fun _ inside => within (List.mem_cons_of_mem _ inside)) fun _ inside _ => inside

end Scheduler

end TaskMachine

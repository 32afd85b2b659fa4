/-
Queues that tasks are missing from. An embedder that releases a task more often
than it holds it can have the task destroyed while it stands in a queue. The
queue still leads to its place then, and whatever looks for the task there
breaks off. So an operation that does not break off has not come across a gap,
and it does to the queues what it would do if nobody was missing.
-/

import TaskMachine.Proofs.Scheduler.Quiet

namespace TaskMachine

namespace Roster

variable {Result Other : Type} {roster full next : Roster} {slot : Slot} {task : Task} {lane : Lane}
  {lists : Lane → List Slot} {base rest : List Slot}

/-- Tasks may be missing that are in another roster, and all else is the same. -/
structure Within (roster full : Roster) : Prop where
  ends : full.ends = roster.ends
  size : full.tasks.size = roster.tasks.size
  present : ∀ {slot task}, roster.task? slot = some task → full.task? slot = some task

namespace Within

theorem refl (roster : Roster) : Within roster roster := ⟨rfl, rfl, id⟩

theorem setEnds (within : Within roster full) (lane : Lane) (ends : Ends) :
    Within (roster.setEnds lane ends) (full.setEnds lane ends) where
  ends := by
    funext other
    by_cases same : other = lane
    · rw [same, ends_setEnds_self, ends_setEnds_self]
    · rw [ends_setEnds_other _ _ same, ends_setEnds_other _ _ same, within.ends]
  size := by rw [size_setEnds, size_setEnds, within.size]
  present := fun present => by
    rw [task?_setEnds] at present ⊢
    exact within.present present

theorem alter (within : Within roster full) (slot : Slot) (change : Task → Task) :
    Within (roster.alter slot change) (full.alter slot change) where
  ends := funext fun lane => by rw [ends_alter, ends_alter, within.ends]
  size := by rw [size_alter, size_alter, within.size]
  present := fun {other later} present => by
    rw [task?_alter] at present ⊢
    split at present
    · obtain ⟨task, there, rfl⟩ := Option.map_eq_some_iff.mp present
      rw [if_pos ‹_›, within.present there, Option.map_some]
    · rw [if_neg ‹_›, within.present present]

theorem add (within : Within roster full) (task : Task) :
    Within { roster with tasks := roster.tasks.push (some task) }
      { full with tasks := full.tasks.push (some task) } where
  ends := within.ends
  size := by simp [within.size]
  present := fun {other found} present => by
    rw [task?_push] at present ⊢
    rw [within.size]
    split at present
    · rwa [if_pos ‹_›]
    · rw [if_neg ‹_›, within.present present]

theorem drop (within : Within roster full) (slot : Slot) :
    Within (roster.setTask slot none) full where
  ends := funext fun lane => by rw [ends_setTask, within.ends]
  size := by rw [size_setTask, within.size]
  present := fun present => within.present (of_task?_drop present).2

end Within

/-! ### What succeeds does not come across a gap -/

/-- A change that succeeds does the same if nobody is missing, and the embedder is not refused
it. -/
def Follows (change : Rostering Result) (roster full : Roster) : Prop :=
  After change roster
    (fun result next => ∃ fullNext, change full = .ok result fullNext ∧ Within next fullNext)
    fun crash _ => crash.isRefusal = false

theorem Follows.bind {change : Rostering Result} {further : Result → Rostering Other}
    (follows : Follows change roster full)
    (also : ∀ result next fullNext, Within next fullNext → Follows (further result) next fullNext) :
    Follows (change >>= further) roster full := by
  refine After.bind (follows.imp fun result next found => ?_)
  obtain ⟨fullNext, runs, within⟩ := found
  refine (also result next fullNext within).imp fun _ _ found => ?_
  obtain ⟨fullLast, runsOn, within⟩ := found
  refine ⟨fullLast, ?_, within⟩
  rw [bind_apply, runs]
  exact runsOn

theorem Follows.get {further : Roster → Rostering Other} (same : further full = further roster)
    (follows : Follows (further roster) roster full) : Follows (get >>= further) roster full := by
  refine After.bind (After.get (follows.imp fun _ _ found => ?_))
  rwa [← same] at found

theorem Within.follows_fetch (within : Within roster full) {further : Task → Rostering Other}
    (also : ∀ task, roster.task? slot = some task → Follows (further task) roster full) :
    Follows (fetch slot >>= further) roster full := by
  cases present : roster.task? slot with
  | none => exact After.bind (After.of_error (fetch_eq_error present) rfl)
  | some task =>
    refine After.bind (After.of_ok (fetch_eq present) ((also task present).imp fun _ _ found => ?_))
    rwa [bind_apply, fetch_eq (within.present present)]

theorem Within.follows_put (within : Within roster full) (present : roster.task? slot = some task)
    (change : Task → Task) : Follows (put slot (change task)) roster full :=
  After.of_ok (put_eq present change)
    ⟨_, put_eq (within.present present) change, within.alter slot change⟩

theorem Within.follows_update (within : Within roster full) (slot : Slot) (change : Task → Task) :
    Follows (update slot change) roster full :=
  within.follows_fetch fun _ present => within.follows_put present change

theorem Within.follows_updateEnds (within : Within roster full) (lane : Lane)
    (change : Ends → Ends) : Follows (updateEnds lane change) roster full := by
  refine After.of_ok (updateEnds_eq roster lane change) ⟨_, updateEnds_eq full lane change, ?_⟩
  rw [within.ends]
  exact within.setEnds lane _

theorem Within.follows_remove (within : Within roster full) (lane : Lane) (slot : Slot) :
    Follows (remove lane slot) roster full := by
  refine within.follows_fetch fun task present => ?_
  by_cases queued : task.lane = some lane
  · rw [if_pos queued]
    refine (within.follows_put present (·.setPlace none .none)).bind
      fun _ left fullLeft within => ?_
    -- The neighbours are relinked one after the other, and either may be missing.
    have relinks {change : Rostering Unit} {middle fullMiddle : Roster}
        (follows : Follows change middle fullMiddle) :
        Follows (do
          change
          updateEnds lane fun ends => { ends with length := ends.length - 1 }) middle fullMiddle :=
      follows.bind fun _ _ _ within => within.follows_updateEnds lane _
    cases task.links.previous with
    | none =>
      refine (within.follows_updateEnds lane _).bind fun _ middle fullMiddle within => ?_
      cases task.links.next with
      | none => exact relinks (within.follows_updateEnds lane _)
      | some next => exact relinks (within.follows_update next _)
    | some previous =>
      refine (within.follows_update previous _).bind fun _ middle fullMiddle within => ?_
      cases task.links.next with
      | none => exact relinks (within.follows_updateEnds lane _)
      | some next => exact relinks (within.follows_update next _)
  · rw [if_neg queued]
    exact After.throw rfl

theorem Within.follows_pushTail (within : Within roster full) (lane : Lane)
    (present : roster.task? slot = some task) (apart : task.lane = none) :
    Follows (pushTail lane slot) roster full := by
  refine within.follows_fetch fun found again => ?_
  obtain rfl := Option.some.inj (present.symm.trans again)
  rw [apart]
  refine Follows.get (by rw [within.ends]) ?_
  refine (within.follows_put present
    (·.setPlace (some lane) ⟨none, (roster.ends lane).tail⟩)).bind
      fun _ placed fullPlaced within => ?_
  have closes (ends : Ends) {middle fullMiddle : Roster} (within : Within middle fullMiddle) :
      Follows (modify fun roster => roster.setEnds lane ends) middle fullMiddle :=
    After.modify ⟨_, rfl, within.setEnds lane ends⟩
  cases (roster.ends lane).tail with
  | none => exact closes _ within
  | some tail => exact (within.follows_update tail _).bind fun _ _ _ within => closes _ within

/-- Only a task that is in a queue can leave it. -/
theorem Lines.mem_of_remove (lines : roster.Lines lists)
    (removes : Roster.remove lane slot roster = .ok ⟨⟩ next) : slot ∈ lists lane := by
  have leaves : After (Roster.remove lane slot) roster (fun _ _ => slot ∈ lists lane)
      fun _ _ => True := by
    refine After.bind (after_fetch (fun task present => ?_) fun _ => trivial)
    by_cases queued : task.lane = some lane
    · exact After.known.mono (fun _ _ _ => (lines lane).complete present queued)
        fun _ _ _ => trivial
    · rw [if_neg queued]
      exact After.throw trivial
  exact leaves.ok removes

/-! ### Queues with gaps -/

/-- The queues would stand in lines if nobody was missing. -/
def Threaded (roster : Roster) (lists : Lane → List Slot) : Prop :=
  ∃ full, roster.Within full ∧ full.Lines lists

namespace Threaded

theorem empty : Roster.empty.Threaded fun _ => [] := ⟨_, .refl _, lines_empty⟩

theorem ends (threaded : roster.Threaded lists) (lane : Lane) :
    roster.ends lane = ⟨(lists lane).head?, (lists lane).getLast?, (lists lane).length⟩ := by
  obtain ⟨full, within, lines⟩ := threaded
  rw [← within.ends, (lines lane).ends]

theorem distinct (threaded : roster.Threaded lists) (lane : Lane) : (lists lane).Nodup := by
  obtain ⟨full, -, lines⟩ := threaded
  exact (lines lane).distinct

theorem mem_iff (threaded : roster.Threaded lists) (present : roster.task? slot = some task) :
    slot ∈ lists lane ↔ task.lane = some lane := by
  obtain ⟨full, within, lines⟩ := threaded
  exact lines.mem_iff (within.present present)

/-- No task is in both queues. -/
theorem apart (threaded : roster.Threaded lists) (member : slot ∈ lists lane) {other : Lane}
    (differ : other ≠ lane) : slot ∉ lists other := by
  obtain ⟨full, -, lines⟩ := threaded
  exact lines.apart member differ

theorem without_head (threaded : roster.Threaded lists) (split : lists lane = slot :: rest) :
    without lists [slot] lane = rest := by
  have distinct := threaded.distinct lane
  rw [split] at distinct
  have absent := (List.nodup_cons.mp distinct).1
  rw [without, split, List.filter_cons_of_neg (by simp), List.filter_eq_self]
  exact fun place member => by simpa using ne_of_mem_of_not_mem member absent

theorem alter (threaded : roster.Threaded lists) (slot : Slot) {change : Task → Task}
    (keeps : ∀ task, (change task).place = task.place) :
    (roster.alter slot change).Threaded lists := by
  obtain ⟨full, within, lines⟩ := threaded
  exact ⟨_, within.alter slot change, lines.alter slot keeps⟩

theorem add (threaded : roster.Threaded lists) (apart : task.lane = none) :
    ({ roster with tasks := roster.tasks.push (some task) } : Roster).Threaded lists := by
  obtain ⟨full, within, lines⟩ := threaded
  exact ⟨_, within.add task, lines.add apart⟩

theorem drop (threaded : roster.Threaded lists) (slot : Slot) :
    (roster.setTask slot none).Threaded lists := by
  obtain ⟨full, within, lines⟩ := threaded
  exact ⟨full, within.drop slot, lines⟩

/-- A task leaves the queue that it is in. -/
theorem after_remove (threaded : roster.Threaded lists) (lane : Lane) (slot : Slot) :
    After (Roster.remove lane slot) roster
      (fun _ next => slot ∈ lists lane ∧ next.Threaded (without lists [slot]))
      fun crash _ => crash.isRefusal = false := by
  obtain ⟨full, within, lines⟩ := threaded
  refine (within.follows_remove lane slot).imp fun _ next found => ?_
  obtain ⟨fullNext, removes, within⟩ := found
  have member := lines.mem_of_remove removes
  obtain ⟨left, leaves, leftLines, -⟩ := lines.remove member
  rw [lines.update_erase member] at leftLines
  have fullLines : After (Roster.remove lane slot) full
      (fun _ next => next.Lines (without lists [slot])) fun _ _ => True := .of_ok leaves leftLines
  exact ⟨member, fullNext, within, fullLines.ok removes⟩

/-- A task that is in no queue joins one at its tail. -/
theorem after_pushTail (threaded : roster.Threaded lists) (lane : Lane) (slot : Slot) :
    After (Roster.pushTail lane slot) roster
      (fun _ next => next.Threaded (Function.update lists lane (lists lane ++ [slot])))
      fun crash next => crash.isRefusal = true → next = roster := by
  cases present : roster.task? slot with
  | none => exact After.bind (After.of_error (fetch_eq_error present) nofun)
  | some task =>
    cases queued : task.lane with
    | some occupied => exact After.of_error (pushTail_eq_error lane present queued) fun _ => rfl
    | none =>
      obtain ⟨full, within, lines⟩ := threaded
      obtain ⟨joined, joins, joinedLines, -⟩ :=
        lines.pushTail (within.present present) queued lane
      have fullLines : After (Roster.pushTail lane slot) full
          (fun _ next => next.Lines (Function.update lists lane (lists lane ++ [slot])))
          fun _ _ => True := .of_ok joins joinedLines
      refine (within.follows_pushTail lane present queued).mono (fun _ next found => ?_)
        fun crash _ broken refusal => absurd (broken.symm.trans refusal) nofun
      obtain ⟨fullNext, pushes, within⟩ := found
      exact ⟨fullNext, within, fullLines.ok pushes⟩

/-- The head of a queue goes to its tail. -/
theorem after_rotate (threaded : roster.Threaded lists) (split : lists lane = slot :: rest) :
    After (Roster.rotate lane) roster
      (fun _ next => ∃ later, next.Threaded later ∧ later lane = rest ++ [slot])
      fun _ _ => True := by
  refine After.bind (After.get ?_)
  rw [threaded.ends lane, split]
  by_cases several : 1 < (slot :: rest).length
  · simp only [List.head?_cons, if_pos several]
    refine After.bind ((threaded.after_remove lane slot).mono (fun _ left found => ?_)
      fun _ _ _ => trivial)
    refine (found.2.after_pushTail lane slot).mono (fun _ next joined => ⟨_, joined, ?_⟩)
      fun _ _ _ => trivial
    rw [Function.update_self, without_head threaded split]
  · simp only [List.head?_cons, if_neg several]
    obtain rfl : rest = [] := List.eq_nil_of_length_eq_zero (by simpa using several)
    exact After.pure ⟨lists, threaded, split⟩

end Threaded

/-- Nobody has left the run queue since it was in a given state, and others have joined it at the
tail at most. -/
def Joined (base : List Slot) (roster : Roster) : Prop :=
  ∃ lists, roster.Threaded lists ∧ base <+: lists .run

theorem Joined.alter (joined : roster.Joined base) (slot : Slot) {change : Task → Task}
    (keeps : ∀ task, (change task).place = task.place) :
    (roster.alter slot change).Joined base := by
  obtain ⟨lists, threaded, further⟩ := joined
  exact ⟨lists, threaded.alter slot keeps, further⟩

theorem sedate_joined (base : List Slot) : Sedate (Joined base) where
  pushes := by
    rintro roster slot ⟨lists, threaded, further⟩
    refine (threaded.after_pushTail .run slot).mono (fun _ next joined => ⟨_, joined, ?_⟩)
      fun crash next still refusal => ?_
    · rw [Function.update_self]
      exact further.trans (List.prefix_append _ _)
    · rw [still refusal]
      exact ⟨lists, threaded, further⟩
  alters := fun {_} slot {change} joined bearing => joined.alter slot fun task => by
    show (change task).bearing.place = task.bearing.place
    rw [bearing task]
  adds := by
    rintro roster id function parent mailbox ⟨lists, threaded, further⟩
    exact ⟨lists, threaded.add rfl, further⟩
  leaves := by
    rintro roster slot ⟨lists, threaded, further⟩
    refine (threaded.after_remove .wait slot).mono (fun _ next found => ⟨_, found.2, ?_⟩)
      fun crash _ broken refusal => absurd (broken.symm.trans refusal) nofun
    rwa [without_of_not_mem (threaded.apart found.1 (by decide))]
  drops := by
    rintro roster slot ⟨lists, threaded, further⟩
    exact ⟨lists, threaded.drop slot, further⟩

end Roster

namespace Scheduler

variable {scheduler : Scheduler} {lists : Lane → List Slot} {slot : Slot} {rest : List Slot}

/-! ### Leaving -/

/-- A task that is taken out of the queue that it is in is in no queue. -/
theorem after_leaveLane_threaded (threaded : scheduler.roster.Threaded lists) (slot : Slot) :
    After (leaveLane slot) scheduler
      (fun _ next => next.roster.Threaded (Roster.without lists [slot])) fun _ _ => True := by
  refine After.bind (after_onRoster (Roster.after_fetch (fun task present => ?_) fun _ => trivial))
  cases queued : task.lane with
  | none =>
    have same : Roster.without lists [slot] = lists := funext fun lane =>
      Roster.without_of_not_mem ((threaded.mem_iff present).not.mpr (by rw [queued]; nofun))
    rw [same]
    exact After.pure threaded
  | some lane =>
    exact after_onRoster ((threaded.after_remove lane slot).mono (fun _ _ found => found.2)
      fun _ _ _ => trivial)

/-! ### After a turn -/

theorem after_update_threaded (threaded : scheduler.roster.Threaded lists) (slot : Slot)
    {change : Task → Task} (keeps : ∀ task, (change task).place = task.place) :
    After (update slot change) scheduler (fun _ next => next.roster.Threaded lists)
      fun _ _ => True :=
  after_onRoster ((Roster.after_update change).mono
    (fun _ _ is => is ▸ threaded.alter slot keeps) fun _ _ _ => trivial)

/-- The run queue has lost its head, which may have joined it at the tail. -/
def Settling (rest : List Slot) (slot : Slot) (next : Scheduler) : Prop :=
  ∃ later joining, next.roster.Threaded later ∧ later .run = rest ++ joining ∧ joining ⊆ [slot]

theorem requeue_of_head (first : scheduler.roster.run.head = some slot) :
    requeue slot scheduler = onRoster (Roster.rotate .run) scheduler := by
  rw [requeue, bind_apply, get_apply]
  simp only [first, if_true]

theorem after_requeue_threaded (threaded : scheduler.roster.Threaded lists)
    (split : lists .run = slot :: rest) :
    After (requeue slot) scheduler (fun _ => Settling rest slot) fun _ _ => True := by
  have first : scheduler.roster.run.head = some slot := by
    rw [show scheduler.roster.run = _ from threaded.ends .run, split]
    rfl
  have rotates : After (onRoster (Roster.rotate .run)) scheduler (fun _ => Settling rest slot)
      fun _ _ => True :=
    after_onRoster ((threaded.after_rotate split).mono
      (fun _ _ found => have ⟨later, now, is⟩ := found
        ⟨later, [slot], now, is, List.Subset.refl _⟩) fun _ _ _ => trivial)
  rwa [After, requeue_of_head first]

theorem after_suspend_threaded (before : scheduler.roster.Threaded lists)
    (split : lists .run = slot :: rest) (awaited : Awaited) :
    After (suspend slot awaited) scheduler (fun _ => Settling rest slot) fun _ _ => True := by
  refine After.bind (after_onRoster ((before.after_remove .run slot).mono (fun _ left found => ?_)
    fun _ _ _ => trivial))
  refine After.bind (After.imp (after_update_threaded found.2 slot fun _ => rfl)
    fun _ middle threaded => ?_)
  refine after_onRoster ((threaded.after_pushTail .wait slot).mono (fun _ next joined => ?_)
    fun _ _ _ => trivial)
  refine ⟨_, [], joined, ?_, List.nil_subset _⟩
  rw [Function.update_of_ne (by decide), List.append_nil, before.without_head split]

/-- A task that has not ended goes from the head of the run queue to its tail, or leaves it. -/
theorem after_settle_threaded (threaded : scheduler.roster.Threaded lists)
    (split : lists .run = slot :: rest) (id : TaskId) (stack : Stack) {status : Status}
    (stays : status.exit? = none) :
    After (settle slot id stack status) scheduler (fun _ => Settling rest slot)
      fun _ _ => True := by
  have puts {further : Scheduling Unit} (goes : ∀ middle : Scheduler,
      middle.roster.Threaded lists →
        After further middle (fun _ => Settling rest slot) fun _ _ => True) :
      After (do
        putStack slot stack
        further) scheduler (fun _ => Settling rest slot) fun _ _ => True :=
    After.bind (After.imp (after_update_threaded threaded slot fun _ => rfl)
      fun _ middle => goes middle)
  cases status with
  | yielded => exact puts fun _ threaded => after_requeue_threaded threaded split
  | suspended wait =>
    cases wait with
    | timer after =>
      refine puts fun middle threaded => After.bind (After.modifyGet ?_)
      exact after_suspend_threaded (by exact threaded) split _
    | message =>
      refine puts fun middle threaded => After.bind (after_onRoster (Roster.after_fetch
        (fun task _ => After.bind (After.get ?_)) fun _ => trivial))
      split
      · exact after_suspend_threaded threaded split _
      · exact after_requeue_threaded threaded split
  | ended values => exact absurd stays nofun
  | faulted fault => exact absurd stays nofun

end Scheduler

end TaskMachine

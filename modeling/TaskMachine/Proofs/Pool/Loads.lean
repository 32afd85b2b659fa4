/-
That the load of a thread is exact. What a thread says that it executes is how many
promises it has made and not counted off; so says the record, whoever reads it and
whenever. Each promise is counted off once at most, and before its completion is
filled, so that nobody sees the outcome of a task that is still counted. Between
two operations of the thread with its scheduler these are the tasks that it has
taken in and that have not ended, and there are none when it has stopped.

`CountsAgree` is what every happening preserves, and `Recorded.load_exact` is what follows.
-/

import TaskMachine.Proofs.Pool.Promises

namespace TaskMachine

variable {pool : Pool} {index thread completion : Nat} {worker after : Worker} {id nextId : TaskId}
  {outcome : Outcome} {wakers : List Nat}

/-! ### What a step does, and to whom -/

/-- Nothing is taken in or counted off by another thread. -/
theorem Stride.elsewhere {deed : Option Pool.Deed}
    (stride : Stride pool index worker after nextId deed) (differ : thread ≠ index) :
    deed.bind (Pool.Deed.taken? thread) = none ∧ deed.bind (Pool.Deed.counted? thread) = none := by
  cases stride with
  | takesIn => exact ⟨if_neg (Ne.symm differ), rfl⟩
  | countsOff => exact ⟨rfl, if_neg (Ne.symm differ)⟩
  | _ => exact ⟨rfl, rfl⟩

/-- A task is taken in by the thread that makes the step, to which it was sent. -/
theorem Stride.takes (stride : Stride pool index worker after nextId
    (some (.took thread id completion))) : thread = index ∧ completion ∈ worker.owing := by
  cases stride with
  | takesIn _ next => exact ⟨rfl, List.mem_append_left _ (next ▸ List.mem_cons_self)⟩

/-- A completion that is filled is in the hands of the thread, and not promised any more. -/
theorem Stride.gives (stride : Stride pool index worker after nextId
      (some (.completed completion outcome wakers))) (orderly : worker.phase.Orderly)
    (once : worker.owing.Nodup) :
    completion ∈ worker.owing ∧ ∀ promise : Nat,
      worker.promises[promise]?.join ≠ some completion := by
  have owing := stride.owing orderly
  have apart := (List.nodup_cons.mp (Pool.nodup_of_subperm owing once)).1
  have promises : after.promises = worker.promises := by
    cases stride <;> rfl
  refine ⟨owing.subset List.mem_cons_self, fun promise promised => apart ?_⟩
  rw [← promises] at promised
  exact Worker.mem_owing_of_promised promised

namespace Pool

variable {deeds : List Deed} {deed : Option Deed} {done : Deed} {next : Pool} {later : Worker}

/-- The thread was there before. -/
theorem Happened.earlier (happened : pool.Happened deed next)
    (there : next.workers[thread]? = some later) :
    ∃ worker, pool.workers[thread]? = some worker := by
  cases happened with
  | @turns index worker _ _ _ _ present _ updates =>
    by_cases own : thread = index
    · exact ⟨worker, own ▸ present⟩
    · obtain ⟨earlier, presentToo, _⟩ := updates.other own there
      exact ⟨earlier, presentToo⟩
  | sends present =>
    obtain ⟨earlier, presentToo, _⟩ := owing_of_sent present there
    exact ⟨earlier, presentToo⟩
  | polls | looks => exact ⟨later, there⟩
  | passes same =>
    obtain ⟨earlier, presentToo, _⟩ := same thread later there
    exact ⟨earlier, presentToo⟩

/-! ### What is counted off first -/

/-- A thread counts a promise off before the completion is filled. -/
def CountsFirst (thread : Nat) (deeds : List Deed) : Prop :=
  ∀ before completion outcome wakers after,
    deeds = before ++ .completed completion outcome wakers :: after →
      ∀ id, .took thread id completion ∈ deeds → .counted thread completion ∈ before

theorem CountsFirst.concat (first : CountsFirst thread deeds)
    (fills : ∀ completion outcome wakers, done = .completed completion outcome wakers →
      ∀ id, .took thread id completion ∈ deeds → .counted thread completion ∈ deeds)
    (takes : ∀ id completion, done = .took thread id completion →
      ∀ outcome wakers, .completed completion outcome wakers ∉ deeds) :
    CountsFirst thread (deeds ++ [done]) := by
  intro before completion outcome wakers after split id took
  rcases List.eq_nil_or_concat after with rfl | ⟨rest, last, rfl⟩
  · obtain ⟨rfl, is⟩ := List.append_inj' split rfl
    have is := List.singleton_inj.mp is
    rcases List.mem_append.mp took with earlier | now
    · exact fills completion outcome wakers is id earlier
    · exact absurd ((List.mem_singleton.mp now).trans is) nofun
  · have split : deeds ++ [done] = (before ++ .completed completion outcome wakers :: rest) ++
        [last] := by
      rw [split]
      simp
    obtain ⟨rfl, _⟩ := List.append_inj' split rfl
    rcases List.mem_append.mp took with earlier | now
    · exact first before completion outcome wakers rest rfl id earlier
    · refine absurd ?_ (takes id completion (List.mem_singleton.mp now).symm outcome wakers)
      exact List.mem_append_right _ List.mem_cons_self

/-- Whatever happens, a thread counts promises off first. If it has not counted a promise off, the
completion is in its hands, and nobody fills it but itself when it has counted the promise off. -/
theorem CountsFirst.happened (first : CountsFirst thread deeds) (record : RecordAgrees deeds pool)
    (tallied : worker.Tallied (takenBy thread deeds) (countedBy thread deeds))
    (present : pool.workers[thread]? = some worker) (happened : pool.Happened deed next) :
    CountsFirst thread (deeds ++ deed.toList) := by
  cases happened with
  | sends | passes =>
    rwa [Option.toList_none, List.append_nil]
  | polls | looks => exact first.concat nofun nofun
  | @turns index turning _ _ deed _ turns stride updates =>
    cases deed with
    | none => rwa [Option.toList_none, List.append_nil]
    | some done =>
      refine first.concat ?_ ?_
      · rintro completion outcome wakers rfl id took
        have orderly := record.apart.orderly index turning turns
        obtain ⟨owes, unpromised⟩ := stride.gives orderly (record.apart.once index turning turns)
        by_contra uncounted
        obtain ⟨promise, there⟩ := List.getElem?_of_mem (mem_takenBy.mpr took)
        have promised := tallied.promised_iff.mpr
          ⟨⟨id, there⟩, fun counted => uncounted (mem_countedBy.mp counted)⟩
        by_cases own : thread = index
        · subst own
          obtain rfl := Option.some.inj (present.symm.trans turns)
          exact unpromised promise promised
        · exact record.apart.apart index thread turning worker turns present (Ne.symm own) owes
            (Worker.mem_owing_of_promised promised)
      · rintro id completion rfl outcome wakers filled
        obtain ⟨rfl, owes⟩ := stride.takes
        obtain ⟨slot, there, unfilled⟩ :=
          record.apart.unfilled thread turning turns completion owes
        have result := record.result?_eq_some_iff.mpr ⟨wakers, filled⟩
        rw [result?, there] at result
        cases unfilled.symm.trans result

/-! ### What every happening preserves -/

/-- The record, what a thread counts, and its tasks agree. -/
structure CountsAgree (deeds : List Deed) (pool : Pool) (thread : Nat) (worker : Worker) :
    Prop where
  tallied : worker.Tallied (takenBy thread deeds) (countedBy thread deeds)
  promises : worker.PromisesAgree (takenBy thread deeds) (countedBy thread deeds) pool.nextId
  first : CountsFirst thread deeds

/-- Others do something, which a thread notices by its messages at most. -/
theorem CountsAgree.mailed (agrees : CountsAgree deeds pool thread worker)
    (alike : worker.SameButMailroom later)
    (grows : pool.nextId.number ≤ next.nextId.number)
    (elsewhere : deed.bind (Deed.taken? thread) = none ∧ deed.bind (Deed.counted? thread) = none)
    (first : CountsFirst thread (deeds ++ deed.toList)) :
    CountsAgree (deeds ++ deed.toList) next thread later := by
  obtain ⟨mailroom, rfl⟩ := alike
  have taken : takenBy thread (deeds ++ deed.toList) = takenBy thread deeds := by
    rw [takenBy_append, elsewhere.1]
    exact List.append_nil _
  have counted : countedBy thread (deeds ++ deed.toList) = countedBy thread deeds := by
    rw [countedBy_append, elsewhere.2]
    exact List.append_nil _
  refine ⟨?_, ?_, first⟩ <;> rw [taken, counted]
  · exact agrees.tallied.congr rfl rfl rfl (List.Subset.refl _)
  · exact agrees.promises.alike rfl rfl rfl (List.Sublist.refl _) rfl grows fun _ _ _ _ => Iff.rfl

/-- Whatever happens, the record, what the threads count, and their tasks agree. -/
theorem CountsAgree.happened
    (agrees : ∀ (thread : Nat) worker, pool.workers[thread]? = some worker →
      CountsAgree deeds pool thread worker) (record : RecordAgrees deeds pool)
    (happened : pool.Happened deed next) (there : next.workers[thread]? = some later) :
    CountsAgree (deeds ++ deed.toList) next thread later := by
  obtain ⟨worker, present⟩ := happened.earlier there
  have first := (agrees thread worker present).first.happened record
    (agrees thread worker present).tallied present happened
  cases happened with
  | @turns index turning after nextId deed _ turns stride updates =>
    have orderly := record.apart.orderly index turning turns
    obtain ⟨tallied, promises, _⟩ := agrees index turning turns
    obtain ⟨grows, matching⟩ := stride.promisesAgree orderly tallied promises
    rw [← updates.nextId] at grows matching
    by_cases own : thread = index
    · subst own
      obtain rfl := Option.some.inj (there.symm.trans updates.own)
      refine ⟨?_, ?_, first⟩ <;> rw [takenBy_append, countedBy_append]
      · exact stride.tallied tallied (record.apart.once thread turning turns)
      · exact matching
    · obtain ⟨earlier, presentToo, alike⟩ := updates.other own there
      exact (agrees thread earlier presentToo).mailed alike grows (stride.elsewhere own) first
  | @sends index sending mailroom command sends numbered fresh =>
    by_cases own : thread = index
    · subst own
      obtain ⟨within, _⟩ := Array.getElem?_eq_some_iff.mp sends
      obtain rfl := Option.some.inj
        (there.symm.trans (Array.getElem?_setIfInBounds_self_of_lt within))
      obtain ⟨tallied, promises, _⟩ := agrees thread sending sends
      rw [Option.toList_none, List.append_nil] at first ⊢
      refine ⟨tallied.sent (fun known => ?_) mailroom, promises.sent numbered mailroom, first⟩
      obtain ⟨⟨id, completion⟩, member, same⟩ := List.mem_map.mp known
      have within : completion < pool.completions.size := record.known _ (mem_takenBy.mp member)
      exact Nat.ne_of_lt within (same.trans fresh)
    · have present : pool.workers[thread]? = some later :=
        (Array.getElem?_setIfInBounds_ne (Ne.symm own)).symm.trans there
      exact (agrees thread later present).mailed (.refl later) (Nat.le_succ _) ⟨rfl, rfl⟩ first
  | polls | looks =>
    exact (agrees thread later there).mailed (.refl later) (Nat.le_refl _) ⟨rfl, rfl⟩ first
  | passes same nextId =>
    obtain ⟨earlier, presentToo, alike⟩ := same thread later there
    refine (agrees thread earlier presentToo).mailed alike ?_ ⟨rfl, rfl⟩ first
    rcases nextId with same | next
    · exact same ▸ Nat.le_refl _
    · exact next ▸ Nat.le_succ _

theorem Recorded.countsAgree (recorded : Recorded deeds pool) :
    ∀ (thread : Nat) worker, pool.workers[thread]? = some worker →
      CountsAgree deeds pool thread worker := by
  induction recorded with
  | start threads config patience respond =>
    intro thread worker there
    obtain ⟨_, is⟩ := Option.ite_none_right_eq_some.mp (Array.getElem?_replicate.symm.trans there)
    obtain rfl := Option.some.inj is
    exact ⟨Worker.tallied_new config patience, Worker.promisesAgree_new config patience,
      fun _ _ _ _ _ _ _ took => absurd took List.not_mem_nil⟩
  | happen recorded happens inductionHypothesis =>
    exact fun thread worker there =>
      CountsAgree.happened inductionHypothesis recorded.recordAgrees (Pool.happened happens) there

/-! ### What follows -/

/-- A thread that is about to count a promise off has promised it. -/
theorem promised_of_nextDeed (counts : pool.nextDeed index worker =
    some (.counted thread completion)) :
    ∃ promise : Nat, worker.promises[promise]?.join = some completion := by
  rw [nextDeed] at counts
  split at counts
  · split at counts
    · obtain ⟨_, _, is⟩ := Option.map_eq_some_iff.mp counts
      cases is
    · cases counts
  · rename_i promise _ _ _ _
    split at counts
    · rename_i other promised
      injection Option.some.inj counts with _ same
      exact ⟨promise, same ▸ promised⟩
    · cases counts
  · cases counts
  · split at counts <;> cases counts
  · cases counts

/-- Between two operations, the promises that stand are all that are left. -/
theorem CountsAgree.executing_of_between (agrees : CountsAgree deeds pool thread worker)
    (between : worker.phase.isBetween = true) : worker.executing =
      (takenBy thread deeds).countP fun task =>
        worker.scheduler.state task.1 ≠ .zombie ∧ worker.scheduler.state task.1 ≠ .destroyed := by
  obtain ⟨idle, stays⟩ := Phase.idle_of_isBetween between
  have matching := agrees.promises.matching stays
  rw [agrees.tallied.executing_eq]
  refine List.countP_congr fun ⟨id, completion⟩ member => ?_
  obtain ⟨promise, there⟩ := List.getElem?_of_mem member
  rw [decide_eq_true_iff, decide_eq_true_iff, ← matching.fit.lives_iff,
    ← matching.stands promise id completion there, Worker.Stands, idle]
  exact (and_iff_left List.not_mem_nil).symm

/-- A thread that has stopped has no promises that stand, and none are left. -/
theorem CountsAgree.executing_of_hasStopped (agrees : CountsAgree deeds pool thread worker)
    (stopped : worker.phase.hasStopped = true) : worker.executing = 0 := by
  obtain ⟨idle, stops⟩ := Phase.idle_of_hasStopped stopped
  rw [agrees.tallied.executing_eq, List.countP_eq_zero]
  rintro ⟨id, completion⟩ member uncounted
  obtain ⟨promise, there⟩ := List.getElem?_of_mem member
  refine agrees.promises.closed stops promise id completion there
    ⟨of_decide_eq_true uncounted, ?_⟩
  rw [idle]
  exact List.not_mem_nil

/-- Who sees an outcome sees that the completion was filled, which the thread counted off first. -/
theorem CountsFirst.counted (first : CountsFirst thread deeds) (record : RecordAgrees deeds pool)
    (took : .took thread id completion ∈ deeds) (result : pool.result? completion = some outcome) :
    completion ∈ countedBy thread deeds := by
  obtain ⟨wakers, filled⟩ := record.result?_eq_some_iff.mp result
  obtain ⟨before, after, rfl⟩ := List.append_of_mem filled
  refine mem_countedBy.mpr (List.mem_append_left _ ?_)
  exact first before completion outcome wakers after rfl id took

/-- The numbers that a thread keeps are those that the record has. The tasks that are taken in and
not counted off are those whose completions the thread has still promised to fill. -/
structure LoadExact (deeds : List Deed) (pool : Pool) (thread : Nat) (worker : Worker) : Prop where
  /-- It has taken in as many tasks as it says. -/
  total : worker.total = (takenBy thread deeds).length
  /-- Each of them has a completion of its own. -/
  distinct : ((takenBy thread deeds).map Prod.snd).Nodup
  /-- It counts those that were not counted off. -/
  executing : worker.executing =
    (takenBy thread deeds).countP fun task => task.2 ∉ countedBy thread deeds
  /-- None was counted off twice. -/
  once : (countedBy thread deeds).Nodup
  /-- Only those were counted off that were taken in. -/
  among : countedBy thread deeds ⊆ (takenBy thread deeds).map Prod.snd
  /-- When one is counted off next, there is one to count. -/
  positive : ∀ completion, pool.nextDeed thread worker = some (.counted thread completion) →
    0 < worker.executing
  /-- A task is counted off before its completion is filled. -/
  first : CountsFirst thread deeds
  /-- A task whose outcome can be seen was counted off. -/
  seen : ∀ id completion outcome, .took thread id completion ∈ deeds →
    pool.result? completion = some outcome → completion ∈ countedBy thread deeds
  /-- Between two operations those are left that have not ended. -/
  between : worker.phase.isBetween = true → worker.executing =
    (takenBy thread deeds).countP fun task =>
      worker.scheduler.state task.1 ≠ .zombie ∧ worker.scheduler.state task.1 ≠ .destroyed
  /-- None is left when the thread has stopped. -/
  stopped : worker.phase.hasStopped = true → worker.executing = 0
  /-- Whoever asks for the numbers is told these, as long as the threads are known. -/
  read : pool.listed = true → pool.load[thread]? = some worker.executing ∧
    pool.totals[thread]? = some worker.total

/-- The load of a thread is exact. Whoever reads it, and whenever, is told how many of the tasks
that the thread has taken in were not counted off. Each is counted off once at most, and before
anybody can see its outcome; between two operations of the thread those are left that have not
ended, and when it has stopped, none. -/
theorem Recorded.load_exact (recorded : Recorded deeds pool)
    (present : pool.workers[thread]? = some worker) : LoadExact deeds pool thread worker := by
  have agrees := recorded.countsAgree thread worker present
  have tallied := agrees.tallied
  refine ⟨tallied.total, tallied.once, tallied.executing_eq, tallied.countedOnce, tallied.among,
    fun completion counts => ?_, agrees.first, fun id completion outcome took result => ?_,
    agrees.executing_of_between, agrees.executing_of_hasStopped, fun listed => ?_⟩
  · obtain ⟨promise, promised⟩ := promised_of_nextDeed counts
    exact (tallied.countsOff promised .checking).1
  · exact agrees.first.counted recorded.recordAgrees took result
  · rw [load, totals, if_pos listed, if_pos listed, List.getElem?_map, List.getElem?_map,
      Array.getElem?_toList, present]
    exact ⟨rfl, rfl⟩

/-- Two tasks are sent to a thread, which takes them in and runs them. It counts the first one off
and fills its completion, and somebody sees the outcome then. -/
def counting : List Happening :=
  [.send 0 default, .send 0 default, .turn 0, .turn 0, .turn 0, .turn 0, .turn 0, .turn 0, .turn 0,
    .look ⟨⟨1⟩, 0, ⟨0⟩, 0⟩]

/-- The thread counts the other one. -/
theorem counting_load_exact : ∃ deeds pool worker,
    (Pool.new 1 .standard 0).happenAll counting = some (deeds, pool) ∧
      pool.workers[0]? = some worker ∧ worker.total = 2 ∧ worker.executing = 1 ∧
      (pool.result? 0).isSome = true ∧ LoadExact deeds pool 0 worker := by
  have known : (((Pool.new 1 .standard 0).happenAll counting).bind fun happened =>
      (happened.2.workers[0]?).map fun worker =>
        (worker.total, worker.executing, (happened.2.result? 0).isSome)) = some (2, 1, true) := by
    decide +kernel
  obtain ⟨⟨deeds, pool⟩, runs, found⟩ := Option.bind_eq_some_iff.mp known
  obtain ⟨worker, present, is⟩ := Option.map_eq_some_iff.mp found
  obtain ⟨total, is⟩ := Prod.mk.inj is
  obtain ⟨executing, seen⟩ := Prod.mk.inj is
  have recorded : Recorded deeds pool := Recorded.happenAll (.start 1 .standard 0 fun _ => []) runs
  exact ⟨deeds, pool, worker, runs, present, total, executing, seen, recorded.load_exact present⟩

end Pool

end TaskMachine

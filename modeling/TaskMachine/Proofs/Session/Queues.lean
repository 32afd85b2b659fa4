/-
The queues and the tasks agree. Between two operations every task that the
embedder has not left unscheduled is in one of the queues until it ends, and
what is kept of a task says what its queue says. So an operation breaks off only
if the embedder asked for something that cannot be done, or if it has no end.
-/

import TaskMachine.Proofs.Session.Basic

namespace TaskMachine.Session

/-- Both queues can be listed, without repetitions; a task is in a queue just when it says so, it
waits for something just when it is in the wait queue, it is alive and has a stack if it is in a
queue, and it is in one if it is alive and was scheduled. No operation finds anything else. -/
theorem Reachable.queues {session : Session} (reachable : session.Reachable) :
    (∃ run wait, session.scheduler.roster.slots .run = .ok run ∧
      session.scheduler.roster.slots .wait = .ok wait ∧ (run ++ wait).Nodup ∧
      (∀ slot ∈ run ++ wait, ∃ task, session.scheduler.roster.task? slot = some task) ∧
      ∀ slot task, session.scheduler.roster.task? slot = some task →
        (task.lane = some .run ↔ slot ∈ run) ∧ (task.lane = some .wait ↔ slot ∈ wait) ∧
        (task.awaited.isSome = true ↔ slot ∈ wait) ∧
        (slot ∈ run ++ wait → task.life = .alive ∧ task.stack.isSome = true) ∧
        (task.life = .zombie → task.stack = none ∧ task.awaited = none ∧ task.lane = none) ∧
        (task.life = .alive → task.id ∉ session.unscheduled → slot ∈ run ++ wait)) ∧
    ∀ operation crash scheduler, session.Permits operation →
      operation.perform session.scheduler = .error crash scheduler →
        crash.isRefusal = true ∨ crash = .endless ∧ operation.givesTurns = true ∧
          (session.scheduler.config.execLimit = 0 ∨ ∃ passes, operation = .run passes) := by
  obtain ⟨lists, sound⟩ := reachable.sound
  have lines := sound.queued.lines
  refine ⟨⟨lists .run, lists .wait, lines.slots .run, lines.slots .wait, ?_, fun slot member => ?_,
    fun slot task present => ?_⟩, fun operation crash scheduler permitted breaks => ?_⟩
  · refine List.nodup_append.mpr ⟨(lines .run).distinct, (lines .wait).distinct, ?_⟩
    rintro slot runs _ waits rfl
    exact lines.apart runs (by decide) waits
  · rcases List.mem_append.mp member with runs | waits
    · obtain ⟨task, present, _⟩ := (lines .run).present runs
      exact ⟨task, present⟩
    · obtain ⟨task, present, _⟩ := (lines .wait).present waits
      exact ⟨task, present⟩
  · have stands := sound.queued.stands present
    have alive (member : slot ∈ lists .run ++ lists .wait) : task.life = .alive :=
      (List.mem_append.mp member).elim stands.alive stands.alive
    refine ⟨(lines.mem_iff present).symm, (lines.mem_iff present).symm, stands.awaits,
      fun member => ⟨alive member, stands.manned.mpr ⟨alive member, nofun⟩⟩, fun ended => ?_,
      fun lives scheduled => ?_⟩
    · have apart := sound.queued.apart present ended
      refine ⟨?_, ?_, lines.lane_eq_none present apart⟩
      · refine Option.not_isSome_iff_eq_none.mp fun some => ?_
        have lives := (stands.manned.mp some).1
        rw [ended] at lives
        exact absurd lives nofun
      · exact Option.not_isSome_iff_eq_none.mp fun some => apart .wait (stands.awaits.mp some)
    · by_contra outside
      refine scheduled (stands.idle lives fun lane member => outside ?_)
      cases lane with
      | run => exact List.mem_append_left _ member
      | wait => exact List.mem_append_right _ member
  · rcases (after_perform sound operation permitted).error breaks with refused | endless
    · exact Or.inl refused.1
    · exact Or.inr endless

/-- The task that waits is alive and has its stack, and it is in the wait queue only. -/
theorem bereaved_queues : bereaved.scheduler.roster.slots .run = .ok [3] ∧
    bereaved.scheduler.roster.slots .wait = .ok [0] ∧
    ∃ task, bereaved.scheduler.roster.task? 0 = some task ∧ task.life = .alive ∧
      task.stack.isSome = true ∧ task.awaited.isSome = true ∧ task.lane ≠ some .run := by
  obtain ⟨⟨run, wait, runs, waits, _, there, agree⟩, _⟩ := bereaved_reachable.queues
  have runIs : (bereaved.scheduler.roster.slots .run).toOption = some [3] := by decide +kernel
  have waitIs : (bereaved.scheduler.roster.slots .wait).toOption = some [0] := by decide +kernel
  rw [runs] at runIs
  rw [waits] at waitIs
  obtain rfl := Option.some.inj runIs
  obtain rfl := Option.some.inj waitIs
  obtain ⟨task, present⟩ := there 0 (by simp)
  obtain ⟨inRun, _, awaits, queued, _⟩ := agree 0 task present
  obtain ⟨alive, manned⟩ := queued (by simp)
  refine ⟨runs, waits, task, present, alive, manned, awaits.mpr (by simp), ?_⟩
  rw [ne_eq, inRun]
  simp

end TaskMachine.Session

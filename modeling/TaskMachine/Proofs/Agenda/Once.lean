/-
Timers that fire once. If no timer has a period, to fire what is due takes away
all timers that are due and no others, and tells of each of those.
-/

import TaskMachine.Proofs.Agenda.Order
import TaskMachine.Proofs.Scheduler.Sound

namespace TaskMachine

namespace Ledger

variable {ledger : Ledger} {now : Nat}

/-- No alarm is armed again. -/
def Single (ledger : Ledger) : Prop :=
  ∀ timer alarm, ledger.alarms timer = some alarm → alarm.timer.period = none

theorem Single.strike (single : ledger.Single) (timer : TimerId) : (ledger.strike timer).Single :=
  fun other alarm known => single other alarm (of_alarms_strike known).2

/-- What is due fires, and all else is left. -/
theorem Fires.once {fired : List (TimerId × Alarm)} {outcome : Option Ledger}
    (fires : ledger.Fires now fired outcome) (single : ledger.Single) :
    ∃ after, outcome = some after ∧ after.last = ledger.last ∧
      (∀ timer, after.alarms timer =
        (ledger.alarms timer).filter fun alarm => now < alarm.timer.deadline) ∧
      ∀ timer alarm, (timer, alarm) ∈ fired ↔
        ledger.alarms timer = some alarm ∧ alarm.timer.deadline ≤ now := by
  induction fires with
  | @done ledger early =>
    refine ⟨_, rfl, rfl, fun timer => ?_, fun timer alarm => iff_of_false List.not_mem_nil ?_⟩
    · cases known : ledger.alarms timer with
      | none => rfl
      | some alarm => rw [Option.filter_some, if_pos (decide_eq_true (early timer alarm known))]
    · exact fun ⟨known, due⟩ => Nat.not_lt.mpr due (early timer alarm known)
  | @fire ledger _ id alarm rest outcome fires _ inductionHypothesis =>
    cases fires with
    | once first due period =>
      obtain ⟨after, is, last, left, told⟩ := inductionHypothesis (single.strike id)
      refine ⟨after, is, last, fun timer => ?_, fun timer found => ?_⟩
      · rw [left]
        by_cases same : timer = id
        · rw [same, alarms_strike_self, first.1, Option.filter_some, if_neg (by simpa using due)]
          rfl
        · rw [alarms_strike_other _ same]
      · rw [List.mem_cons, Prod.mk.injEq, told]
        constructor
        · rintro (⟨rfl, rfl⟩ | ⟨known, dueToo⟩)
          · exact ⟨first.1, due⟩
          · exact ⟨(of_alarms_strike known).2, dueToo⟩
        · rintro ⟨known, dueToo⟩
          by_cases same : timer = id
          · subst same
            exact Or.inl ⟨rfl, Option.some.inj (known.symm.trans first.1)⟩
          · exact Or.inr ⟨(alarms_strike_other _ same).trans known, dueToo⟩
    | again first _ periodic =>
      exact absurd ((single id alarm first.1).symm.trans periodic) nofun
  | overflow first _ periodic => exact absurd ((single _ _ first.1).symm.trans periodic) nofun

end Ledger

namespace Agenda

variable {agenda : Agenda} {ledger : Ledger} {timer : TimerId} {entry : Timer}

theorem Agrees.single (agrees : agenda.Agrees ledger) (oneShot : agenda.OneShot) : ledger.Single :=
  fun timer _ known => oneShot timer _ (agrees.find? known)

/-- A timer that is still to fire has a number that was handed out. -/
theorem Agrees.number_le (agrees : agenda.Agrees ledger)
    (pending : agenda.pending.find? timer = some entry) : timer.number ≤ agenda.last := by
  obtain ⟨alarm, known, _⟩ := agrees.exists_alarm pending
  exact agrees.known timer (agrees.lined timer alarm known)

/-- The timers that are due fire, and the others are left as they are. -/
theorem Agrees.fireDue_once (agrees : agenda.Agrees ledger) (oneShot : agenda.OneShot)
    (now : Nat) :
    (∃ after, (agenda.fireDue now).agenda.Agrees after) ∧
      (agenda.fireDue now).agenda.last = agenda.last ∧
      (∀ timer, (agenda.fireDue now).agenda.pending.find? timer =
        (agenda.pending.find? timer).filter fun entry => now < entry.deadline) ∧
      ∀ firing, firing ∈ (agenda.fireDue now).fired ↔ ∃ entry,
        agenda.pending.find? firing.timer = some entry ∧ entry.task = firing.task ∧
          entry.deadline ≤ now := by
  obtain ⟨fired, outcome, fires, same⟩ := agrees.fireDue now
  obtain ⟨after, rfl, last, left, told⟩ := fires.once (agrees.single oneShot)
  obtain ⟨_, tells, agreesNow⟩ := same
  refine ⟨⟨after, agreesNow⟩, ?_, fun timer => ?_, fun firing => ?_⟩
  · rw [← agreesNow.last, last, agrees.last]
  · rw [← agreesNow.pending, left, ← agrees.pending, Option.filter_map]
    rfl
  · rw [tells, List.mem_map]
    constructor
    · rintro ⟨⟨timer, alarm⟩, member, rfl⟩
      obtain ⟨known, due⟩ := (told timer alarm).mp member
      exact ⟨alarm.timer, agrees.find? known, rfl, due⟩
    · rintro ⟨entry, pending, task, due⟩
      obtain ⟨alarm, known, rfl⟩ := agrees.exists_alarm pending
      exact ⟨(firing.timer, alarm), (told _ _).mpr ⟨known, due⟩, by rw [Ledger.firing, task]⟩

end Agenda

end TaskMachine

/-
To fire what is due comes to an end, although a timer with a period goes back
into the line that is being drained, and may be due there again. It goes back no
sooner than now, so it is due at most once more; and since a period is not zero,
the next time it is later than now.

So a timer without a period fires once when it is due. One with a period fires
twice if the end of its period is over already, and once if not. Firing breaks
off only at a timer whose next firing cannot be written down.
-/

import TaskMachine.Proofs.Agenda.Replies

namespace TaskMachine

/-! ### How often a timer fires -/

/-- How often a timer fires until it is not due. -/
def Timer.timesDue (now : Nat) (timer : Timer) : Nat :=
  if now < timer.deadline then 0
  else
    match timer.period with
    | none => 1
    | some period => if timer.deadline + period ≤ now then 2 else 1

/-- Whenever the timer fires until it is not due, its next firing can be written down. -/
def Timer.Rearms (now : Nat) (timer : Timer) : Prop :=
  timer.deadline ≤ now → ∀ period, timer.period = some period →
    timer.deadline + period < Agenda.instantEnd ∧
      (timer.deadline + period ≤ now → now + period < Agenda.instantEnd)

namespace Ledger

variable {ledger next : Ledger} {id other : TimerId} {alarm found : Alarm} {now : Nat}
  {fired : List (TimerId × Alarm)} {outcome : Option Ledger}

/-- How often a timer fires until nothing is due. -/
def timesDue (ledger : Ledger) (now : Nat) (id : TimerId) : Nat :=
  (ledger.alarms id).elim 0 fun alarm => alarm.timer.timesDue now

/-- All next firings can be written down. -/
def Rearms (ledger : Ledger) (now : Nat) : Prop :=
  ∀ id alarm, ledger.alarms id = some alarm → alarm.timer.Rearms now

/-- No period is zero. -/
def Positive (ledger : Ledger) : Prop :=
  ∀ id alarm, ledger.alarms id = some alarm → alarm.timer.period ≠ some 0

/-! ### One firing -/

/-- What is left after a firing was there before, for the same task and with the same period. -/
theorem Fire.origin (fires : ledger.Fire now id alarm next) (known : next.alarms other = some found) :
    ∃ before, ledger.alarms other = some before ∧ before.timer.task = found.timer.task ∧
      before.timer.period = found.timer.period := by
  cases fires with
  | once =>
    obtain ⟨_, before⟩ := of_alarms_strike known
    exact ⟨found, before, rfl, rfl⟩
  | again first =>
    by_cases same : other = id
    · subst same
      rw [alarms_arm_self] at known
      obtain rfl := Option.some.inj known
      exact ⟨alarm, first.1, rfl, rfl⟩
    · rw [alarms_arm_other _ _ same] at known
      exact ⟨found, known, rfl, rfl⟩

theorem Fire.positive (fires : ledger.Fire now id alarm next) (positive : ledger.Positive) :
    next.Positive := by
  intro other found known
  obtain ⟨before, there, _, period⟩ := fires.origin known
  rw [← period]
  exact positive other before there

/-- A timer that fires is due once less afterwards, and the others as often as before. -/
theorem Fire.timesDue_eq (fires : ledger.Fire now id alarm next) (positive : ledger.Positive)
    (other : TimerId) :
    ledger.timesDue now other = next.timesDue now other + if id = other then 1 else 0 := by
  have there := fires.first.1
  by_cases same : other = id
  · subst same
    rw [if_pos rfl, timesDue, timesDue, there]
    cases fires with
    | once _ due period =>
      rw [alarms_strike_self]
      simp [Timer.timesDue, period, Nat.not_lt.mpr due]
    | @again period _ due periodic _ =>
      have more : period ≠ 0 := fun zero => positive other alarm there (by rw [periodic, zero])
      rw [alarms_arm_self]
      simp only [Option.elim_some, Timer.timesDue, periodic]
      split_ifs <;> omega
  · rw [if_neg (Ne.symm same), Nat.add_zero, timesDue, timesDue]
    cases fires with
    | once => rw [alarms_strike_other _ same]
    | again => rw [alarms_arm_other _ _ same]

/-- A timer with a period that fires has next firings that can be written down, if those can be
that are left to it. -/
theorem Fire.rearms_iff (fires : ledger.Fire now id alarm next) (positive : ledger.Positive) :
    ledger.Rearms now ↔ next.Rearms now := by
  have there := fires.first.1
  have due := fires.due
  constructor
  · intro rearms other found known
    cases fires with
    | once => exact rearms other found (of_alarms_strike known).2
    | @again period _ _ periodic _ =>
      by_cases same : other = id
      · subst same
        have more : period ≠ 0 := fun zero => positive other alarm there (by rw [periodic, zero])
        obtain ⟨_, again⟩ := rearms other alarm there due period periodic
        rw [alarms_arm_self] at known
        obtain rfl := Option.some.inj known
        intro dueAgain period' periodic'
        obtain rfl : period = period' := Option.some.inj (periodic.symm.trans periodic')
        dsimp only at dueAgain ⊢
        have fits := again (by omega)
        omega
      · exact rearms other found ((alarms_arm_other _ _ same).symm.trans known)
  · intro rearms other found known
    by_cases same : other = id
    · subst same
      obtain rfl : alarm = found := Option.some.inj (there.symm.trans known)
      intro _ period periodic
      have fits := fires.fits periodic
      refine ⟨fits, fun dueAgain => ?_⟩
      cases fires with
      | once _ _ none => exact absurd (none.symm.trans periodic) nofun
      | @again period' _ _ periodic' _ =>
        obtain rfl : period' = period := Option.some.inj (periodic'.symm.trans periodic)
        have again := (rearms other _ (alarms_arm_self _ _ _) (by dsimp only; omega) period'
          periodic).1
        dsimp only at again
        omega
    · cases fires with
      | once => exact rearms other found ((alarms_strike_other _ same).trans known)
      | again => exact rearms other found ((alarms_arm_other _ _ same).trans known)

/-! ### Firing until nothing is due -/

theorem timesDue_of_early
    (early : ∀ id alarm, ledger.alarms id = some alarm → now < alarm.timer.deadline)
    (id : TimerId) : ledger.timesDue now id = 0 := by
  rw [timesDue]
  cases known : ledger.alarms id with
  | none => rfl
  | some alarm => exact if_pos (early id alarm known)

/-- Firing breaks off unless all next firings can be written down. -/
theorem Fires.exists_outcome_iff (fires : ledger.Fires now fired outcome)
    (positive : ledger.Positive) : (∃ after, outcome = some after) ↔ ledger.Rearms now := by
  induction fires with
  | @done ledger early =>
    refine iff_of_true ⟨ledger, rfl⟩ fun id alarm known due => ?_
    exact absurd (early id alarm known) (Nat.not_lt.mpr due)
  | fire fires _ inductionHypothesis =>
    rw [inductionHypothesis (fires.positive positive), fires.rearms_iff positive]
  | overflow first due periodic unfit =>
    refine iff_of_false nofun fun rearms => ?_
    exact absurd (rearms _ _ first.1 due _ periodic).1 (Nat.not_lt.mpr unfit)

/-- Firing that does not break off takes every timer as often as it is due, and leaves none that
is. -/
theorem Fires.count_eq {after : Ledger} (fires : ledger.Fires now fired outcome)
    (positive : ledger.Positive) (ends : outcome = some after) :
    (∀ id, (fired.map Prod.fst).count id = ledger.timesDue now id) ∧
      (∀ firing ∈ fired, ∃ alarm, ledger.alarms firing.1 = some alarm ∧
        alarm.timer.task = firing.2.timer.task) ∧
      ∀ id alarm, after.alarms id = some alarm → now < alarm.timer.deadline := by
  induction fires with
  | @done ledger early =>
    obtain rfl := Option.some.inj ends
    exact ⟨fun id => (timesDue_of_early early id).symm,
      fun _ member => absurd member List.not_mem_nil, early⟩
  | @fire ledger _ id alarm rest _ fires _ inductionHypothesis =>
    obtain ⟨counts, told, late⟩ := inductionHypothesis (fires.positive positive) ends
    refine ⟨fun other => ?_, List.forall_mem_cons.mpr ⟨⟨alarm, fires.first.1, rfl⟩, ?_⟩, late⟩
    · rw [List.map_cons, List.count_cons, counts, fires.timesDue_eq positive]
      simp only [beq_iff_eq]
    · intro firing member
      obtain ⟨found, known, task⟩ := told firing member
      obtain ⟨before, there, same, _⟩ := fires.origin known
      exact ⟨before, there, same.trans task⟩
  | overflow => exact absurd ends nofun

end Ledger

namespace Agenda

/-- Timers fire, and cancelled ones are dropped from the line, until nothing is due. -/
inductive Drains (now : Nat) : Agenda → List Firing → Agenda → Prop
  | done {agenda : Agenda} (glance : agenda.glance now = .nothing) : Drains now agenda [] agenda
  | drop {agenda next after : Agenda} {fired : List Firing}
      (glance : agenda.glance now = .dropped next) (rest : Drains now next fired after) :
      Drains now agenda fired after
  | fire {agenda next after : Agenda} {firing : Firing} {fired : List Firing}
      (glance : agenda.glance now = .fired next firing) (rest : Drains now next fired after) :
      Drains now agenda (firing :: fired) after

variable {agenda : Agenda} {ledger : Ledger} {now : Nat}

/-- Enough glances see firing to its end. -/
theorem Agrees.drains_fireWithin {glances : Nat} (agrees : agenda.Agrees ledger)
    (enough : agenda.glancesLeft now < glances)
    (fits : (agenda.fireWithin now glances).overflowed = false) :
    Drains now agenda (agenda.fireWithin now glances).fired
      (agenda.fireWithin now glances).agenda := by
  induction glances generalizing agenda ledger with
  | zero => exact absurd enough (Nat.not_lt_zero _)
  | succ glances inductionHypothesis =>
    have sees := agrees.glance now
    rw [Agenda.fireWithin] at fits ⊢
    cases glance : agenda.glance now with
    | nothing => exact .done glance
    | dropped next =>
      rw [glance] at sees fits
      obtain ⟨agreesNow, fewer⟩ := sees
      exact .drop glance (inductionHypothesis agreesNow (by omega) fits)
    | fired next firing =>
      rw [glance] at sees fits
      obtain ⟨_, _, _, _, _, agreesNow, fewer⟩ := sees
      exact .fire glance (inductionHypothesis agreesNow (by omega) fits)
    | overflow next =>
      rw [glance] at fits
      cases fits

theorem Agrees.rearms_iff (agrees : agenda.Agrees ledger) :
    ledger.Rearms now ↔ ∀ timer entry, agenda.pending.find? timer = some entry → entry.Rearms now := by
  constructor
  · intro rearms timer entry pending
    obtain ⟨alarm, known, rfl⟩ := agrees.exists_alarm pending
    exact rearms timer alarm known
  · exact fun rearms timer alarm known => rearms timer alarm.timer (agrees.find? known)

/-- To fire what is due breaks off exactly if a next firing cannot be written down. If not it comes
to an end: every timer fires as often as it is due, its task is told, and what is left is later. -/
theorem Reachable.drains (reachable : agenda.Reachable) (now : Nat) :
    ((agenda.fireDue now).overflowed = false ↔
      ∀ timer entry, agenda.pending.find? timer = some entry → entry.Rearms now) ∧
    ((∀ timer entry, agenda.pending.find? timer = some entry → entry.Rearms now) →
      Drains now agenda (agenda.fireDue now).fired (agenda.fireDue now).agenda ∧
      (∀ timer, ((agenda.fireDue now).fired.map Firing.timer).count timer =
        (agenda.pending.find? timer).elim 0 (Timer.timesDue now)) ∧
      (∀ firing ∈ (agenda.fireDue now).fired, ∃ entry,
        agenda.pending.find? firing.timer = some entry ∧ entry.task = firing.task) ∧
      ∀ timer entry, (agenda.fireDue now).agenda.pending.find? timer = some entry →
        now < entry.deadline) := by
  obtain ⟨ledger, agrees⟩ := reachable.agrees
  obtain ⟨fired, outcome, fires, same⟩ := agrees.fireDue now
  have outcomes := fires.exists_outcome_iff agrees.positive
  rw [agrees.rearms_iff] at outcomes
  have whole : (agenda.fireDue now).overflowed = false ↔ ∃ after, outcome = some after := by
    cases outcome with
    | none =>
      have broken : (agenda.fireDue now).overflowed = true := same
      simp [broken]
    | some after => exact iff_of_true same.1 ⟨after, rfl⟩
  refine ⟨whole.trans outcomes, fun rearms => ?_⟩
  obtain ⟨after, rfl⟩ := outcomes.mpr rearms
  obtain ⟨fits, tells, agreesNow⟩ := same
  obtain ⟨counts, told, late⟩ := fires.count_eq agrees.positive rfl
  have bounded := agenda.glancesLeft_le now
  refine ⟨agrees.drains_fireWithin (by omega) fits, fun timer => ?_, fun firing member => ?_,
    fun timer entry pending => ?_⟩
  · have timers : (agenda.fireDue now).fired.map Firing.timer = fired.map Prod.fst := by
      rw [tells, List.map_map]
      rfl
    rw [timers, counts, Ledger.timesDue, ← agrees.pending]
    cases ledger.alarms timer <;> rfl
  · rw [tells] at member
    obtain ⟨pair, among, rfl⟩ := List.mem_map.mp member
    obtain ⟨alarm, known, task⟩ := told pair among
    exact ⟨alarm.timer, agrees.find? known, task⟩
  · obtain ⟨alarm, known, rfl⟩ := agreesNow.exists_alarm pending
    exact late timer alarm known

/-- A timer that is due once, one whose period is over twice at ten, one that is due later, and one
that was cancelled. -/
def chores : Agenda :=
  ((((empty.start 0 5 none ⟨1⟩).1.start 0 3 (some 4) ⟨2⟩).1.start 0 20 none ⟨3⟩).1.start 0 1 none
    ⟨4⟩).1.cancel ⟨4⟩ |>.1

theorem chores_reachable : chores.Reachable :=
  .serve (.cancel ⟨4⟩) (.serve (.start 0 1 none ⟨4⟩) (.serve (.start 0 20 none ⟨3⟩)
    (.serve (.start 0 3 (some 4) ⟨2⟩) (.serve (.start 0 5 none ⟨1⟩) .empty nofun) nofun) nofun)
    nofun) nofun

theorem chores_drain :
    (∀ timer entry, chores.pending.find? timer = some entry → entry.Rearms 10) ∧
      (∃ after, Drains 10 chores [⟨⟨2⟩, ⟨2⟩⟩, ⟨⟨1⟩, ⟨1⟩⟩, ⟨⟨2⟩, ⟨2⟩⟩] after) ∧
      ∀ timer entry, (chores.fireDue 10).agenda.pending.find? timer = some entry →
        10 < entry.deadline := by
  obtain ⟨whole, ends⟩ := chores_reachable.drains 10
  have rearms := whole.mp (by decide +kernel)
  obtain ⟨drains, _, _, late⟩ := ends rearms
  have fired : (chores.fireDue 10).fired = [⟨⟨2⟩, ⟨2⟩⟩, ⟨⟨1⟩, ⟨1⟩⟩, ⟨⟨2⟩, ⟨2⟩⟩] := by
    decide +kernel
  exact ⟨rearms, ⟨_, fired ▸ drains⟩, late⟩

end Agenda

end TaskMachine

/-
The plain account of timers. A `Ledger` says of each timer that is still to fire
what it is and when it was armed, counted over all armings; there is no line, and
a timer that is cancelled is struck out. What is asked of timers is a `Request`,
and what is answered a `Reply`. `Answers` says which replies are right: to poll
fires the first alarm as long as it is due, where of alarms that are due at one
time the one that was armed first comes first.

There is only one right answer, since no two alarms can both come first.
-/

import Mathlib.Logic.Function.Basic
import TaskMachine.Agenda

namespace TaskMachine

/-- What is asked of timers. What depends on the time says what time it is. -/
inductive Agenda.Request where
  | start (now after : Nat) (period : Option Nat) (task : TaskId)
  | cancel (timer : TimerId)
  | hasPending
  | nextDeadline
  | poll (now : Nat)

/-- What is answered. -/
inductive Agenda.Reply where
  | started (timer : TimerId)
  | cancelled (was : Bool)
  | pending (any : Bool)
  | deadline (next : Option Nat)
  | fired (timers : List Firing)
  /-- The next firing of a timer cannot be written down. -/
  | overflowed
  deriving DecidableEq

/-- A timer that is still to fire, and how many armings there were before it was armed. -/
structure Alarm where
  timer : Timer
  arming : Nat

/-- One alarm comes before another: it is due sooner, or at the same time and was armed before. -/
def Alarm.Before (alarm other : Alarm) : Prop :=
  alarm.timer.deadline < other.timer.deadline ∨
    alarm.timer.deadline = other.timer.deadline ∧ alarm.arming < other.arming

theorem Alarm.Before.asymm {alarm other : Alarm} (before : alarm.Before other) :
    ¬ other.Before alarm := by
  unfold Before at before ⊢
  omega

theorem Alarm.Before.trans {alarm middle other : Alarm} (first : alarm.Before middle)
    (second : middle.Before other) : alarm.Before other := by
  unfold Before at first second ⊢
  omega

theorem Alarm.Before.deadline_le {alarm other : Alarm} (before : alarm.Before other) :
    alarm.timer.deadline ≤ other.timer.deadline := by
  unfold Before at before
  omega

/-- The timers that are still to fire. -/
structure Ledger where
  alarms : TimerId → Option Alarm
  /-- The number of the timer started last. -/
  last : Nat
  /-- How often a timer was armed. -/
  armings : Nat

namespace Ledger

/-- No timers. -/
def empty : Ledger := ⟨fun _ => none, 0, 0⟩

/-- Arms a timer. -/
def arm (ledger : Ledger) (id : TimerId) (timer : Timer) : Ledger :=
  { ledger with
    alarms := Function.update ledger.alarms id (some ⟨timer, ledger.armings⟩)
    armings := ledger.armings + 1 }

/-- Strikes a timer out. -/
def strike (ledger : Ledger) (id : TimerId) : Ledger :=
  { ledger with alarms := Function.update ledger.alarms id none }

/-- An alarm comes before all others. -/
def First (ledger : Ledger) (id : TimerId) (alarm : Alarm) : Prop :=
  ledger.alarms id = some alarm ∧
    ∀ other found, other ≠ id → ledger.alarms other = some found → alarm.Before found

/-- The first alarm is due, and its timer fires. A timer with a period is armed again, for the end
of the period but not for the past. -/
inductive Fire (now : Nat) (ledger : Ledger) (id : TimerId) (alarm : Alarm) : Ledger → Prop
  | once (first : ledger.First id alarm) (due : alarm.timer.deadline ≤ now)
      (period : alarm.timer.period = none) : Fire now ledger id alarm (ledger.strike id)
  | again {period : Nat} (first : ledger.First id alarm) (due : alarm.timer.deadline ≤ now)
      (periodic : alarm.timer.period = some period)
      (fits : alarm.timer.deadline + period < Agenda.instantEnd) :
      Fire now ledger id alarm
        (ledger.arm id { alarm.timer with deadline := max (alarm.timer.deadline + period) now })

/-- Firing goes on as long as the first alarm is due. It breaks off at a timer whose next firing
cannot be written down; then nothing is left to say. -/
inductive Fires (now : Nat) : Ledger → List (TimerId × Alarm) → Option Ledger → Prop
  | done {ledger : Ledger}
      (early : ∀ id alarm, ledger.alarms id = some alarm → now < alarm.timer.deadline) :
      Fires now ledger [] (some ledger)
  | fire {ledger middle : Ledger} {id : TimerId} {alarm : Alarm} {rest : List (TimerId × Alarm)}
      {outcome : Option Ledger} (fires : ledger.Fire now id alarm middle)
      (more : Fires now middle rest outcome) : Fires now ledger ((id, alarm) :: rest) outcome
  | overflow {ledger : Ledger} {id : TimerId} {alarm : Alarm} {period : Nat}
      (first : ledger.First id alarm) (due : alarm.timer.deadline ≤ now)
      (periodic : alarm.timer.period = some period)
      (unfit : Agenda.instantEnd ≤ alarm.timer.deadline + period) : Fires now ledger [] none

/-- What is told of an alarm whose timer fires. -/
def firing (fired : TimerId × Alarm) : Firing := ⟨fired.1, fired.2.timer.task⟩

/-- The right reply to a request, and the timers afterwards. -/
inductive Serves (ledger : Ledger) : Agenda.Request → Agenda.Reply → Option Ledger → Prop
  | start (now after : Nat) (period : Option Nat) (task : TaskId) :
      Serves ledger (.start now after period task) (.started ⟨ledger.last + 1⟩)
        (some (({ ledger with last := ledger.last + 1 } : Ledger).arm ⟨ledger.last + 1⟩
          ⟨task, (Agenda.later? now after).getD (now + Agenda.farOff), period.filter (· ≠ 0)⟩))
  | cancel {timer : TimerId} {alarm : Alarm} (known : ledger.alarms timer = some alarm) :
      Serves ledger (.cancel timer) (.cancelled true) (some (ledger.strike timer))
  | miss {timer : TimerId} (unknown : ledger.alarms timer = none) :
      Serves ledger (.cancel timer) (.cancelled false) (some ledger)
  | pending {timer : TimerId} {alarm : Alarm} (known : ledger.alarms timer = some alarm) :
      Serves ledger .hasPending (.pending true) (some ledger)
  | nothing (unknown : ∀ timer, ledger.alarms timer = none) :
      Serves ledger .hasPending (.pending false) (some ledger)
  | next {timer : TimerId} {alarm : Alarm} (known : ledger.alarms timer = some alarm)
      (least : ∀ other found, ledger.alarms other = some found →
        alarm.timer.deadline ≤ found.timer.deadline) :
      Serves ledger .nextDeadline (.deadline (some alarm.timer.deadline)) (some ledger)
  | never (unknown : ∀ timer, ledger.alarms timer = none) :
      Serves ledger .nextDeadline (.deadline none) (some ledger)
  | poll {now : Nat} {fired : List (TimerId × Alarm)} {next : Ledger}
      (fires : ledger.Fires now fired (some next)) :
      Serves ledger (.poll now) (.fired (fired.map firing)) (some next)
  | overflow {now : Nat} {fired : List (TimerId × Alarm)} (fires : ledger.Fires now fired none) :
      Serves ledger (.poll now) .overflowed none

/-- The right replies to requests, one after another, until a poll overflows. -/
inductive Answers : Ledger → List Agenda.Request → List Agenda.Reply → Prop
  | nil (ledger : Ledger) : Answers ledger [] []
  | cons {ledger next : Ledger} {request : Agenda.Request} {reply : Agenda.Reply}
      {requests : List Agenda.Request} {replies : List Agenda.Reply}
      (serves : ledger.Serves request reply (some next)) (rest : Answers next requests replies) :
      Answers ledger (request :: requests) (reply :: replies)
  | stop {ledger : Ledger} {request : Agenda.Request} {reply : Agenda.Reply}
      {requests : List Agenda.Request} (serves : ledger.Serves request reply none) :
      Answers ledger (request :: requests) [reply]

/-- What can come of a ledger without timers. -/
inductive Reachable : Ledger → Prop
  | empty : Reachable .empty
  | serve {ledger next : Ledger} {request : Agenda.Request} {reply : Agenda.Reply}
      (reachable : Reachable ledger) (serves : ledger.Serves request reply (some next)) :
      Reachable next

variable {ledger middle next other : Ledger} {id timer : TimerId} {alarm found : Alarm} {now : Nat}

/-! ### Alarms after a change -/

@[simp] theorem alarms_arm_self (ledger : Ledger) (id : TimerId) (timer : Timer) :
    (ledger.arm id timer).alarms id = some ⟨timer, ledger.armings⟩ := Function.update_self ..

theorem alarms_arm_other (ledger : Ledger) (timer : Timer) {id other : TimerId}
    (differ : other ≠ id) : (ledger.arm id timer).alarms other = ledger.alarms other :=
  Function.update_of_ne differ ..

@[simp] theorem alarms_strike_self (ledger : Ledger) (id : TimerId) :
    (ledger.strike id).alarms id = none := Function.update_self ..

theorem alarms_strike_other (ledger : Ledger) {id other : TimerId} (differ : other ≠ id) :
    (ledger.strike id).alarms other = ledger.alarms other := Function.update_of_ne differ ..

/-- A timer that is armed need not be struck out before. -/
theorem arm_strike (ledger : Ledger) (id : TimerId) (timer : Timer) :
    (ledger.strike id).arm id timer = ledger.arm id timer := by
  simp [arm, strike]

/-- An alarm that is left after one was struck out was there before. -/
theorem of_alarms_strike (known : (ledger.strike id).alarms timer = some alarm) :
    timer ≠ id ∧ ledger.alarms timer = some alarm := by
  have differ : timer ≠ id := by
    rintro rfl
    rw [alarms_strike_self] at known
    exact absurd known nofun
  exact ⟨differ, (alarms_strike_other ledger differ).symm.trans known⟩

/-! ### There is one right answer -/

/-- No two alarms both come first. -/
theorem First.unique (first : ledger.First id alarm) (again : ledger.First timer found) :
    timer = id ∧ found = alarm := by
  have same : timer = id := by
    by_contra differ
    exact (first.2 timer found differ again.1).asymm (again.2 id alarm (Ne.symm differ) first.1)
  subst same
  exact ⟨rfl, Option.some.inj (again.1.symm.trans first.1)⟩

theorem Fire.first (fires : ledger.Fire now id alarm next) : ledger.First id alarm := by
  cases fires with
  | once first => exact first
  | again first => exact first

theorem Fire.due (fires : ledger.Fire now id alarm next) : alarm.timer.deadline ≤ now := by
  cases fires with
  | once _ due => exact due
  | again _ due => exact due

theorem Fire.unique (fires : ledger.Fire now id alarm next)
    (again : ledger.Fire now timer found other) : timer = id ∧ found = alarm ∧ other = next := by
  obtain ⟨rfl, rfl⟩ := fires.first.unique again.first
  refine ⟨rfl, rfl, ?_⟩
  cases fires with
  | once _ _ period =>
    cases again with
    | once => rfl
    | again _ _ periodic => exact absurd (period.symm.trans periodic) nofun
  | again _ _ periodic =>
    cases again with
    | once _ _ period => exact absurd (period.symm.trans periodic) nofun
    | again _ _ alike => rw [Option.some.inj (alike.symm.trans periodic)]

/-- A timer that fires can be armed again, or has no period. -/
theorem Fire.fits (fires : ledger.Fire now id alarm next) {period : Nat}
    (periodic : alarm.timer.period = some period) :
    alarm.timer.deadline + period < Agenda.instantEnd := by
  cases fires with
  | once _ _ none => exact absurd (none.symm.trans periodic) nofun
  | again _ _ alike fits => rwa [← Option.some.inj (alike.symm.trans periodic)]

theorem Fires.unique {fired again : List (TimerId × Alarm)} {outcome outcome' : Option Ledger}
    (fires : ledger.Fires now fired outcome) (others : ledger.Fires now again outcome') :
    again = fired ∧ outcome' = outcome := by
  -- The alarm that comes first decides how it goes on.
  induction fires generalizing again with
  | done early =>
    cases others with
    | done => exact ⟨rfl, rfl⟩
    | fire fires => exact absurd (early _ _ fires.first.1) (Nat.not_lt.mpr fires.due)
    | overflow first due => exact absurd (early _ _ first.1) (Nat.not_lt.mpr due)
  | fire fires _ inductionHypothesis =>
    cases others with
    | done early => exact absurd (early _ _ fires.first.1) (Nat.not_lt.mpr fires.due)
    | fire firesToo more =>
      obtain ⟨rfl, rfl, rfl⟩ := fires.unique firesToo
      obtain ⟨rfl, rfl⟩ := inductionHypothesis more
      exact ⟨rfl, rfl⟩
    | overflow first _ periodic unfit =>
      obtain ⟨rfl, rfl⟩ := fires.first.unique first
      exact absurd (fires.fits periodic) (Nat.not_lt.mpr unfit)
  | overflow first due periodic unfit =>
    cases others with
    | done early => exact absurd (early _ _ first.1) (Nat.not_lt.mpr due)
    | fire fires =>
      obtain ⟨rfl, rfl⟩ := fires.first.unique first
      exact absurd (fires.fits periodic) (Nat.not_lt.mpr unfit)
    | overflow => exact ⟨rfl, rfl⟩

theorem Serves.unique {request : Agenda.Request} {reply reply' : Agenda.Reply}
    {outcome outcome' : Option Ledger} (serves : ledger.Serves request reply outcome)
    (again : ledger.Serves request reply' outcome') : reply' = reply ∧ outcome' = outcome := by
  have apart {timer : TimerId} {alarm : Alarm} (known : ledger.alarms timer = some alarm)
      (unknown : ledger.alarms timer = none) : False := nomatch known.symm.trans unknown
  cases serves with
  | start => cases again; exact ⟨rfl, rfl⟩
  | cancel known =>
    cases again with
    | cancel => exact ⟨rfl, rfl⟩
    | miss unknown => exact (apart known unknown).elim
  | miss unknown =>
    cases again with
    | cancel known => exact (apart known unknown).elim
    | miss => exact ⟨rfl, rfl⟩
  | pending known =>
    cases again with
    | pending => exact ⟨rfl, rfl⟩
    | nothing unknown => exact (apart known (unknown _)).elim
  | nothing unknown =>
    cases again with
    | pending known => exact (apart known (unknown _)).elim
    | nothing => exact ⟨rfl, rfl⟩
  | next known least =>
    cases again with
    | next knownToo leastToo =>
      rw [Nat.le_antisymm (least _ _ knownToo) (leastToo _ _ known)]
      exact ⟨rfl, rfl⟩
    | never unknown => exact (apart known (unknown _)).elim
  | never unknown =>
    cases again with
    | next known => exact (apart known (unknown _)).elim
    | never => exact ⟨rfl, rfl⟩
  | poll fires =>
    cases again with
    | poll others =>
      obtain ⟨rfl, same⟩ := fires.unique others
      exact ⟨rfl, same⟩
    | overflow others => exact absurd (fires.unique others).2 nofun
  | overflow fires =>
    cases again with
    | poll others => exact absurd (fires.unique others).2 nofun
    | overflow => exact ⟨rfl, rfl⟩

theorem Answers.unique {requests : List Agenda.Request} {replies again : List Agenda.Reply}
    (answers : ledger.Answers requests replies) (others : ledger.Answers requests again) :
    again = replies := by
  induction answers generalizing again with
  | nil => cases others; rfl
  | cons serves _ inductionHypothesis =>
    cases others with
    | cons servesToo rest =>
      obtain ⟨rfl, same⟩ := serves.unique servesToo
      obtain rfl := Option.some.inj same
      rw [inductionHypothesis rest]
    | stop stops => exact absurd (serves.unique stops).2 nofun
  | stop serves =>
    cases others with
    | cons servesToo => exact absurd (serves.unique servesToo).2 nofun
    | stop stops => rw [(serves.unique stops).1]

/-! ### The order in which timers fire -/

/-- All alarms were armed before now. -/
def Numbered (ledger : Ledger) : Prop :=
  ∀ id alarm, ledger.alarms id = some alarm → alarm.arming < ledger.armings

theorem Numbered.arm (numbered : ledger.Numbered) (id : TimerId) (timer : Timer) :
    (ledger.arm id timer).Numbered := by
  intro other found known
  by_cases same : other = id
  · subst same
    rw [alarms_arm_self] at known
    rw [← Option.some.inj known]
    exact Nat.lt_succ_self _
  · rw [alarms_arm_other ledger timer same] at known
    exact Nat.lt_succ_of_lt (numbered other found known)

theorem Numbered.strike (numbered : ledger.Numbered) (id : TimerId) :
    (ledger.strike id).Numbered :=
  fun other found known => numbered other found (of_alarms_strike known).2

theorem Fire.numbered (fires : ledger.Fire now id alarm next) (numbered : ledger.Numbered) :
    next.Numbered := by
  cases fires with
  | once => exact numbered.strike id
  | again => exact numbered.arm id _

theorem Fires.numbered {fired : List (TimerId × Alarm)} {outcome : Option Ledger}
    (fires : ledger.Fires now fired outcome) (numbered : ledger.Numbered)
    (completes : outcome = some next) : next.Numbered := by
  induction fires with
  | done => rwa [← Option.some.inj completes]
  | fire fires _ inductionHypothesis => exact inductionHypothesis (fires.numbered numbered) completes
  | overflow => exact absurd completes nofun

theorem Reachable.numbered (reachable : ledger.Reachable) : ledger.Numbered := by
  induction reachable with
  | empty => exact fun _ _ known => absurd known nofun
  | @serve ledger next _ _ _ serves inductionHypothesis =>
    cases serves with
    | start now after period task =>
      have numbered : ({ ledger with last := ledger.last + 1 } : Ledger).Numbered :=
        inductionHypothesis
      exact numbered.arm _ _
    | cancel => exact inductionHypothesis.strike _
    | miss => exact inductionHypothesis
    | pending => exact inductionHypothesis
    | nothing => exact inductionHypothesis
    | next => exact inductionHypothesis
    | never => exact inductionHypothesis
    | poll fires => exact fires.numbered inductionHypothesis rfl

/-- An alarm whose timer fires comes before all that are left, and before its own next one. -/
theorem Fire.before (fires : ledger.Fire now id alarm next) (numbered : ledger.Numbered)
    (known : next.alarms timer = some found) : alarm.Before found := by
  have first := fires.first
  cases fires with
  | once =>
    obtain ⟨differ, before⟩ := of_alarms_strike known
    exact first.2 timer found differ before
  | @again period _ _ periodic _ =>
    by_cases same : timer = id
    · subst same
      rw [alarms_arm_self] at known
      have sooner := numbered timer alarm first.1
      rw [← Option.some.inj known]
      unfold Alarm.Before
      dsimp only
      omega
    · rw [alarms_arm_other ledger _ same] at known
      exact first.2 timer found same known

/-- Timers fire when they are due and in order. -/
theorem Fires.inOrder {fired : List (TimerId × Alarm)} {outcome : Option Ledger}
    (fires : ledger.Fires now fired outcome) (numbered : ledger.Numbered) :
    fired.Pairwise (fun earlier later => earlier.2.Before later.2) ∧
      ∀ firing ∈ fired, firing.2.timer.deadline ≤ now := by
  -- What comes before all alarms that are left comes before all that fire.
  have bounded {ledger : Ledger} {fired : List (TimerId × Alarm)} {outcome : Option Ledger}
      (fires : ledger.Fires now fired outcome) (numbered : ledger.Numbered) (bound : Alarm)
      (below : ∀ id alarm, ledger.alarms id = some alarm → bound.Before alarm) :
      ∀ firing ∈ fired, bound.Before firing.2 := by
    induction fires generalizing bound with
    | done => exact fun _ member => absurd member List.not_mem_nil
    | overflow => exact fun _ member => absurd member List.not_mem_nil
    | @fire _ _ id alarm _ _ fires _ inductionHypothesis =>
      have sooner := below id alarm fires.first.1
      refine List.forall_mem_cons.mpr ⟨sooner, ?_⟩
      refine inductionHypothesis (fires.numbered numbered) bound fun other found known => ?_
      exact sooner.trans (fires.before numbered known)
  induction fires with
  | done => exact ⟨.nil, fun _ member => absurd member List.not_mem_nil⟩
  | overflow => exact ⟨.nil, fun _ member => absurd member List.not_mem_nil⟩
  | @fire _ _ id alarm _ _ fires more inductionHypothesis =>
    have numberedNow := fires.numbered numbered
    obtain ⟨ordered, due⟩ := inductionHypothesis numberedNow
    refine ⟨List.pairwise_cons.mpr ⟨?_, ordered⟩, List.forall_mem_cons.mpr ⟨fires.due, due⟩⟩
    exact bounded more numberedNow alarm fun other found known => fires.before numbered known

end Ledger

end TaskMachine

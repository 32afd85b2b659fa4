/-
Whatever is asked of an agenda, it answers as a plain account of its timers does,
until it is asked to fire a timer whose next firing cannot be written down. The
times that the requests come with are any; they may go back.

So timers fire in the order of their deadlines, and those with one deadline in
the order in which they were armed; and a timer that was cancelled never fires,
although its number may stand in the line for long.
-/

import TaskMachine.Proofs.Agenda.Order

namespace TaskMachine

namespace Agenda

/-! ### Requests -/

/-- Serves a request. -/
def serve (agenda : Agenda) : Request → Agenda × Reply
  | .start now after period task =>
    ((agenda.start now after period task).1, .started (agenda.start now after period task).2)
  | .cancel timer => ((agenda.cancel timer).1, .cancelled (agenda.cancel timer).2)
  | .hasPending => (agenda, .pending agenda.hasPending)
  | .nextDeadline => (agenda, .deadline agenda.nextDeadline)
  | .poll now =>
    ((agenda.fireDue now).agenda,
      if (agenda.fireDue now).overflowed then .overflowed else .fired (agenda.fireDue now).fired)

/-- Serves requests, one after another, until a poll overflows. -/
def replies (agenda : Agenda) : List Request → List Reply
  | [] => []
  | request :: rest =>
    if (agenda.serve request).2 = .overflowed then [.overflowed]
    else (agenda.serve request).2 :: (agenda.serve request).1.replies rest

/-- What can come of an agenda without timers, as long as no poll overflows. -/
inductive Reachable : Agenda → Prop
  | empty : Reachable .empty
  | serve {agenda : Agenda} (request : Request) (reachable : Reachable agenda)
      (fits : (agenda.serve request).2 ≠ .overflowed) : Reachable (agenda.serve request).1

variable {agenda : Agenda} {ledger : Ledger}

/-- A request is served as the ledger says, and they agree again unless a poll overflows. -/
theorem Agrees.serve (agrees : agenda.Agrees ledger) (request : Request) :
    (∃ next, ledger.Serves request (agenda.serve request).2 (some next) ∧
        (agenda.serve request).1.Agrees next ∧ (agenda.serve request).2 ≠ .overflowed) ∨
      ledger.Serves request (agenda.serve request).2 none ∧
        (agenda.serve request).2 = .overflowed := by
  cases request with
  | start now after period task =>
    refine Or.inl ⟨_, ?_, agrees.start now after period task, Agenda.Reply.noConfusion⟩
    have same : (agenda.start now after period task).2 = ⟨ledger.last + 1⟩ := by
      rw [agrees.last]
      rfl
    rw [Agenda.serve, same]
    exact .start now after period task
  | cancel timer =>
    have answer : (agenda.cancel timer).2 = (agenda.pending.find? timer).isSome := rfl
    rw [Agenda.serve, answer]
    cases known : ledger.alarms timer with
    | some alarm =>
      rw [agrees.find? known]
      exact Or.inl ⟨_, .cancel known, agrees.cancel timer, Agenda.Reply.noConfusion⟩
    | none =>
      rw [agrees.alarms_eq_none.mp known]
      have struck := agrees.cancel timer
      have same : ledger.strike timer = ledger := by
        rw [Ledger.strike, ← known, Function.update_eq_self]
      rw [same] at struck
      exact Or.inl ⟨ledger, .miss known, struck, Agenda.Reply.noConfusion⟩
  | hasPending =>
    rw [Agenda.serve]
    cases any : agenda.hasPending with
    | true =>
      obtain ⟨timer, alarm, known⟩ := agrees.hasPending_iff.mp any
      exact Or.inl ⟨ledger, .pending known, agrees, Agenda.Reply.noConfusion⟩
    | false =>
      refine Or.inl ⟨ledger, .nothing fun timer => ?_, agrees, Agenda.Reply.noConfusion⟩
      cases known : ledger.alarms timer with
      | none => rfl
      | some alarm =>
        rw [agrees.hasPending_iff.mpr ⟨timer, alarm, known⟩] at any
        cases any
  | nextDeadline =>
    rw [Agenda.serve]
    rcases agrees.nextDeadline with ⟨none, unknown⟩ | ⟨timer, alarm, some, known, least⟩
    · rw [none]
      exact Or.inl ⟨ledger, .never unknown, agrees, Agenda.Reply.noConfusion⟩
    · rw [some]
      exact Or.inl ⟨ledger, .next known least, agrees, Agenda.Reply.noConfusion⟩
  | poll now =>
    obtain ⟨fired, outcome, fires, same⟩ := agrees.fireDue now
    rw [Agenda.serve]
    cases outcome with
    | none =>
      have overflowed : (agenda.fireDue now).overflowed = true := same
      rw [overflowed]
      exact Or.inr ⟨.overflow fires, rfl⟩
    | some after =>
      obtain ⟨fits, told, agreesNow⟩ := same
      rw [fits, told]
      exact Or.inl ⟨after, .poll fires, agreesNow, Agenda.Reply.noConfusion⟩

theorem Agrees.answers (agrees : agenda.Agrees ledger) (requests : List Request) :
    ledger.Answers requests (agenda.replies requests) := by
  induction requests generalizing agenda ledger with
  | nil => exact .nil ledger
  | cons request rest inductionHypothesis =>
    rw [replies]
    rcases agrees.serve request with ⟨next, serves, agreesNow, fits⟩ | ⟨stops, overflowed⟩
    · rw [if_neg fits]
      exact .cons serves (inductionHypothesis agreesNow)
    · rw [if_pos overflowed, ← overflowed]
      exact .stop stops

theorem Reachable.agrees (reachable : agenda.Reachable) : ∃ ledger, agenda.Agrees ledger := by
  induction reachable with
  | empty => exact ⟨.empty, agrees_empty⟩
  | serve request _ fits inductionHypothesis =>
    obtain ⟨ledger, agrees⟩ := inductionHypothesis
    rcases agrees.serve request with ⟨next, _, agreesNow, _⟩ | ⟨_, overflowed⟩
    · exact ⟨next, agreesNow⟩
    · exact absurd overflowed fits

end Agenda

/-! ### Timers that were struck out -/

namespace Ledger

variable {ledger next : Ledger} {timer id : TimerId} {alarm : Alarm} {now : Nat}

/-- A timer was started and is not to fire any more. -/
def Gone (ledger : Ledger) (timer : TimerId) : Prop :=
  ledger.alarms timer = none ∧ timer.number ≤ ledger.last

theorem Gone.ne_of_known (gone : ledger.Gone timer) (known : ledger.alarms id = some alarm) :
    timer ≠ id := by
  rintro rfl
  exact absurd (gone.1.symm.trans known) nofun

theorem Gone.strike (gone : ledger.Gone timer) (id : TimerId) : (ledger.strike id).Gone timer := by
  refine ⟨?_, gone.2⟩
  by_cases same : timer = id
  · rw [same, alarms_strike_self]
  · rw [alarms_strike_other ledger same, gone.1]

theorem Gone.arm (gone : ledger.Gone timer) (differ : timer ≠ id) (entry : Timer) :
    (ledger.arm id entry).Gone timer :=
  ⟨(alarms_arm_other ledger entry differ).trans gone.1, gone.2⟩

theorem Gone.fires (gone : ledger.Gone timer) {fired : List (TimerId × Alarm)}
    {outcome : Option Ledger} (fires : ledger.Fires now fired outcome) :
    (∀ firing ∈ fired, firing.1 ≠ timer) ∧ ∀ next, outcome = some next → next.Gone timer := by
  induction fires with
  | done =>
    refine ⟨fun _ member => absurd member List.not_mem_nil, fun next completes => ?_⟩
    rwa [← Option.some.inj completes]
  | overflow => exact ⟨fun _ member => absurd member List.not_mem_nil, nofun⟩
  | @fire _ middle _ _ _ _ fires _ inductionHypothesis =>
    have differ := gone.ne_of_known fires.first.1
    have goneNow : middle.Gone timer := by
      cases fires with
      | once => exact gone.strike _
      | again => exact gone.arm differ _
    obtain ⟨apart, later⟩ := inductionHypothesis goneNow
    exact ⟨List.forall_mem_cons.mpr ⟨differ.symm, apart⟩, later⟩

theorem Gone.serves (gone : ledger.Gone timer) {request : Agenda.Request} {reply : Agenda.Reply}
    {outcome : Option Ledger} (serves : ledger.Serves request reply outcome) :
    (∀ fired, reply = .fired fired → ∀ firing ∈ fired, firing.timer ≠ timer) ∧
      ∀ next, outcome = some next → next.Gone timer := by
  have still {reply : Agenda.Reply} {next : Ledger} (quiet : ∀ fired, reply ≠ .fired fired)
      (goneNow : next.Gone timer) :
      (∀ fired, reply = .fired fired → ∀ firing ∈ fired, firing.timer ≠ timer) ∧
        ∀ after, some next = some after → after.Gone timer :=
    ⟨fun fired same => absurd same (quiet fired), fun _ same => Option.some.inj same ▸ goneNow⟩
  cases serves with
  | start now after period task =>
    have differ : timer ≠ ⟨ledger.last + 1⟩ := by
      rintro rfl
      exact absurd gone.2 (Nat.not_succ_le_self _)
    have counted : ({ ledger with last := ledger.last + 1 } : Ledger).Gone timer :=
      ⟨gone.1, Nat.le_succ_of_le gone.2⟩
    exact still nofun (counted.arm differ _)
  | cancel => exact still nofun (gone.strike _)
  | miss => exact still nofun gone
  | pending => exact still nofun gone
  | nothing => exact still nofun gone
  | next => exact still nofun gone
  | never => exact still nofun gone
  | poll fires =>
    obtain ⟨apart, later⟩ := gone.fires fires
    refine ⟨fun fired same firing member => ?_, later⟩
    rw [← Agenda.Reply.fired.inj same] at member
    obtain ⟨alarm, among, rfl⟩ := List.mem_map.mp member
    exact apart alarm among
  | overflow => exact ⟨nofun, nofun⟩

theorem Gone.answers (gone : ledger.Gone timer) {requests : List Agenda.Request}
    {replies : List Agenda.Reply} (answers : ledger.Answers requests replies) :
    ∀ fired, .fired fired ∈ replies → ∀ firing ∈ fired, firing.timer ≠ timer := by
  induction answers with
  | nil => exact fun _ member => absurd member List.not_mem_nil
  | cons serves _ inductionHypothesis =>
    obtain ⟨apart, later⟩ := gone.serves serves
    intro fired member
    rcases List.mem_cons.mp member with same | inRest
    · exact apart fired same.symm
    · exact inductionHypothesis (later _ rfl) fired inRest
  | stop serves =>
    intro fired member
    exact (gone.serves serves).1 fired (List.mem_singleton.mp member).symm

end Ledger

/-! ### The main statement -/

namespace Agenda

/-- An agenda gives the right replies to any requests, and no others are right. Timers fire in order
when they are due, and one that was cancelled does not fire later. -/
theorem replies_right :
    (∀ requests answers, Ledger.empty.Answers requests answers ↔
      answers = empty.replies requests) ∧
    (∀ ledger : Ledger, ledger.Reachable → ∀ now fired outcome, ledger.Fires now fired outcome →
      fired.Pairwise (fun earlier later => earlier.2.Before later.2) ∧
        ∀ firing ∈ fired, firing.2.timer.deadline ≤ now) ∧
    (∀ agenda : Agenda, agenda.Reachable → ∀ timer, (agenda.cancel timer).2 = true →
      ∀ requests fired, .fired fired ∈ (agenda.cancel timer).1.replies requests →
        ∀ firing ∈ fired, firing.timer ≠ timer) := by
  refine ⟨fun requests answers => ⟨fun right => ?_, ?_⟩,
    fun ledger reachable now fired outcome fires => fires.inOrder reachable.numbered,
    fun agenda reachable timer was requests => ?_⟩
  · exact (agrees_empty.answers requests).unique right
  · rintro rfl
    exact agrees_empty.answers requests
  · obtain ⟨ledger, agrees⟩ := reachable.agrees
    obtain ⟨entry, pending⟩ := Option.isSome_iff_exists.mp was
    obtain ⟨alarm, known, _⟩ := agrees.exists_alarm pending
    have started : timer.number ≤ ledger.last := by
      rw [agrees.last]
      exact agrees.known timer (agrees.lined timer alarm known)
    have gone : (ledger.strike timer).Gone timer := ⟨Ledger.alarms_strike_self _ _, started⟩
    exact gone.answers ((agrees.cancel timer).answers requests)

/-- Four timers, of which one has a period and one is cancelled. -/
def errands : List Request :=
  [.start 0 5 none ⟨1⟩, .start 0 3 (some 4) ⟨2⟩, .start 0 3 none ⟨3⟩, .start 0 1 none ⟨4⟩,
    .cancel ⟨4⟩, .nextDeadline, .poll 10, .hasPending, .nextDeadline]

/-- Of two that are due at one time the one that was started first fires first, and the one with the
period fires again in the same poll. -/
theorem errands_right : Ledger.empty.Answers errands
    [.started ⟨1⟩, .started ⟨2⟩, .started ⟨3⟩, .started ⟨4⟩, .cancelled true, .deadline (some 3),
      .fired [⟨⟨2⟩, ⟨2⟩⟩, ⟨⟨3⟩, ⟨3⟩⟩, ⟨⟨1⟩, ⟨1⟩⟩, ⟨⟨2⟩, ⟨2⟩⟩], .pending true, .deadline (some 14)] :=
  (replies_right.1 errands _).mpr (by decide +kernel)

end Agenda

end TaskMachine

/-
An agenda agrees with a plain account of its timers. `Agrees` says that the same
timers are still to fire, that all of them stand in the line, and that they stand
there in the order in which they come first. What else stands in the line was
cancelled: its number is not used again, so it is in nobody's way. Where a timer
joins the line is looked for among those that are still to fire only, and it is
the right place in the whole line.

A glance at the head of the line lowers `glancesLeft`, and so firing comes to an
end before the glances do that it is given.
-/

import Mathlib.Algebra.GroupWithZero.Nat
import Mathlib.Data.List.Pairwise
import Mathlib.Data.List.TakeWhile
import TaskMachine.Proofs.Agenda.Ledger

namespace TaskMachine

namespace Agenda

/-! ### The line -/

/-- Two timers in a line are in order, if both are still to fire. -/
def InOrder (alarms : TimerId → Option Alarm) (timer other : TimerId) : Prop :=
  ∀ alarm found, alarms timer = some alarm → alarms other = some found → alarm.Before found

section

variable {alarms : TimerId → Option Alarm} {pending : Table TimerId Timer} {line : List TimerId}
  {deadline : Nat} {timer other : TimerId}

/-- In front of a timer that joins a line stand those that are not later, and behind it are the
first one that is and all others. -/
theorem lineUp_eq (pending : Table TimerId Timer) (line : List TimerId) (deadline : Nat)
    (timer : TimerId) : lineUp pending line deadline timer =
      (line.takeWhile fun other => !isLater pending deadline other) ++
        timer :: line.dropWhile fun other => !isLater pending deadline other := by
  have split := List.takeWhile_append_dropWhile (p := fun other => !isLater pending deadline other)
    (l := line)
  have behind : line.drop (line.takeWhile fun other => !isLater pending deadline other).length =
      line.dropWhile fun other => !isLater pending deadline other := by
    calc
      line.drop _ = (line.takeWhile _ ++ line.dropWhile _).drop _ := by rw [split]
      _ = _ := List.drop_left
  rw [lineUp, behind]

theorem perm_lineUp (pending : Table TimerId Timer) (line : List TimerId) (deadline : Nat)
    (timer : TimerId) : (lineUp pending line deadline timer).Perm (timer :: line) := by
  rw [lineUp_eq]
  refine List.perm_middle.trans ?_
  rw [List.takeWhile_append_dropWhile]

/-- A timer that was armed after all others joins a line, and the line stays in order. -/
theorem pairwise_lineUp {alarm : Alarm} (agree : ∀ other ∈ line,
      (alarms other).map Alarm.timer = pending.find? other)
    (ordered : line.Pairwise (InOrder alarms)) (known : alarms timer = some alarm)
    (due : alarm.timer.deadline = deadline)
    (latest : ∀ other ∈ line, ∀ found, alarms other = some found → found.arming < alarm.arming) :
    (lineUp pending line deadline timer).Pairwise (InOrder alarms) := by
  have later {other : TimerId} {found : Alarm} (member : other ∈ line)
      (foundKnown : alarms other = some found) :
      isLater pending deadline other = decide (deadline < found.timer.deadline) := by
    rw [isLater, ← agree other member, foundKnown, Option.map_some]
  have within := List.takeWhile_append_dropWhile (p := fun other => !isLater pending deadline other)
    (l := line)
  rw [lineUp_eq]
  rw [← within, List.pairwise_append] at ordered
  obtain ⟨front, behind, across⟩ := ordered
  have inFront (other : TimerId)
      (member : other ∈ line.takeWhile fun other => !isLater pending deadline other) :
      InOrder alarms other timer := by
    intro found self foundKnown selfKnown
    obtain rfl := Option.some.inj (selfKnown.symm.trans known)
    have among := (List.takeWhile_prefix _).subset member
    have soon := List.mem_takeWhile_imp member
    rw [later among foundKnown] at soon
    have arming := latest other among found foundKnown
    simp only [Bool.not_eq_true', decide_eq_false_iff_not, Nat.not_lt] at soon
    unfold Alarm.Before
    omega
  have further (other : TimerId)
      (member : other ∈ line.dropWhile fun other => !isLater pending deadline other) :
      InOrder alarms timer other := by
    intro self found selfKnown foundKnown
    obtain rfl := Option.some.inj (selfKnown.symm.trans known)
    have among := (List.dropWhile_suffix _).subset member
    -- The first one behind is later, and all others come after that one.
    cases split : line.dropWhile fun other => !isLater pending deadline other with
    | nil => rw [split] at member; exact absurd member List.not_mem_nil
    | cons first rest =>
      have late : isLater pending deadline first = true := by
        have head := List.head_dropWhile_not (fun other => !isLater pending deadline other) (l := line)
          (by rw [split]; exact List.cons_ne_nil _ _)
        simpa [split] using head
      rw [split] at member behind
      have firstAmong : first ∈ line := (List.dropWhile_suffix _).subset (by
        rw [split]
        exact List.mem_cons_self)
      cases firstKnown : alarms first with
      | none =>
        rw [isLater, ← agree first firstAmong, firstKnown] at late
        exact absurd late nofun
      | some earliest =>
        rw [later firstAmong firstKnown, decide_eq_true_eq, ← due] at late
        rcases List.mem_cons.mp member with rfl | inRest
        · obtain rfl := Option.some.inj (firstKnown.symm.trans foundKnown)
          exact Or.inl late
        · have after := (List.pairwise_cons.mp behind).1 other inRest earliest found firstKnown
            foundKnown
          exact Or.inl (Nat.lt_of_lt_of_le late after.deadline_le)
  refine List.pairwise_append.mpr ⟨front, List.pairwise_cons.mpr ⟨further, behind⟩, ?_⟩
  intro one first two second
  rcases List.mem_cons.mp second with rfl | inRest
  · exact inFront one first
  · exact across one first two inRest

end

theorem hasPending_iff_exists (agenda : Agenda) :
    agenda.hasPending = true ↔ ∃ timer entry, agenda.pending.find? timer = some entry := by
  rw [hasPending, Table.isEmpty, Bool.not_eq_true', List.isEmpty_eq_false_iff_exists_mem]
  simp only [Prod.exists, Table.mem_pairs_iff]

/-! ### Agreement -/

/-- The timers of an agenda are those of a ledger. -/
structure Agrees (agenda : Agenda) (ledger : Ledger) : Prop where
  pending : ∀ timer, (ledger.alarms timer).map Alarm.timer = agenda.pending.find? timer
  last : ledger.last = agenda.last
  lined : ∀ timer alarm, ledger.alarms timer = some alarm → timer ∈ agenda.line
  ordered : agenda.line.Pairwise (InOrder ledger.alarms)
  numbered : ledger.Numbered
  /-- A number that stands in the line was handed out. -/
  known : ∀ timer ∈ agenda.line, timer.number ≤ agenda.last
  positive : ∀ timer alarm, ledger.alarms timer = some alarm → alarm.timer.period ≠ some 0

variable {agenda next : Agenda} {ledger : Ledger} {timer : TimerId} {alarm : Alarm} {entry : Timer}
  {now : Nat}

theorem agrees_empty : empty.Agrees .empty where
  pending := fun _ => rfl
  last := rfl
  lined := fun _ _ known => absurd known nofun
  ordered := .nil
  numbered := fun _ _ known => absurd known nofun
  known := fun _ member => absurd member List.not_mem_nil
  positive := fun _ _ known => absurd known nofun

namespace Agrees

theorem find? (agrees : agenda.Agrees ledger) (known : ledger.alarms timer = some alarm) :
    agenda.pending.find? timer = some alarm.timer := by
  rw [← agrees.pending, known, Option.map_some]

theorem exists_alarm (agrees : agenda.Agrees ledger) (pending : agenda.pending.find? timer = some entry) :
    ∃ alarm, ledger.alarms timer = some alarm ∧ alarm.timer = entry := by
  rw [← agrees.pending] at pending
  exact Option.map_eq_some_iff.mp pending

theorem alarms_eq_none (agrees : agenda.Agrees ledger) :
    ledger.alarms timer = none ↔ agenda.pending.find? timer = none := by
  rw [← agrees.pending, Option.map_eq_none_iff]

/-- The timer at the head of the line comes first, if it is still to fire. -/
theorem first (agrees : agenda.Agrees ledger) {rest : List TimerId}
    (line : agenda.line = timer :: rest) (known : ledger.alarms timer = some alarm) :
    ledger.First timer alarm := by
  refine ⟨known, fun other found differ foundKnown => ?_⟩
  have member := agrees.lined other found foundKnown
  have ordered := agrees.ordered
  rw [line] at member ordered
  have inRest := (List.mem_cons.mp member).resolve_left differ
  exact (List.pairwise_cons.mp ordered).1 other inRest alarm found known foundKnown

/-- A timer that is still to fire stands in the line once. -/
theorem not_mem_rest (agrees : agenda.Agrees ledger) {rest : List TimerId}
    (line : agenda.line = timer :: rest) (known : ledger.alarms timer = some alarm) :
    timer ∉ rest := by
  intro member
  have ordered := agrees.ordered
  rw [line] at ordered
  have before := (List.pairwise_cons.mp ordered).1 timer member alarm alarm known known
  exact before.asymm before

/-- The head leaves the line when it was cancelled. -/
theorem drop (agrees : agenda.Agrees ledger) {rest : List TimerId}
    (line : agenda.line = timer :: rest) (gone : ledger.alarms timer = none) :
    ({ agenda with line := rest } : Agenda).Agrees ledger where
  pending := agrees.pending
  last := agrees.last
  lined := fun other found foundKnown => by
    have member := agrees.lined other found foundKnown
    rw [line] at member
    refine (List.mem_cons.mp member).resolve_left ?_
    rintro rfl
    exact absurd (gone.symm.trans foundKnown) nofun
  ordered := by
    have ordered := agrees.ordered
    rw [line] at ordered
    exact (List.pairwise_cons.mp ordered).2
  numbered := agrees.numbered
  known := fun other member => agrees.known other (line ▸ List.mem_cons_of_mem _ member)
  positive := agrees.positive

/-- A timer is struck out, wherever it stands. -/
theorem cancel (agrees : agenda.Agrees ledger) (timer : TimerId) :
    (agenda.cancel timer).1.Agrees (ledger.strike timer) where
  pending := fun other => by
    show _ = (agenda.pending.erase timer).find? other
    by_cases same : other = timer
    · rw [same, Ledger.alarms_strike_self, Table.find?_erase_self, Option.map_none]
    · rw [Ledger.alarms_strike_other _ same, Table.find?_erase_other _ same, agrees.pending]
  last := agrees.last
  lined := fun other found known => agrees.lined other found (Ledger.of_alarms_strike known).2
  ordered := agrees.ordered.imp fun inOrder alarm found known foundKnown =>
    inOrder alarm found (Ledger.of_alarms_strike known).2 (Ledger.of_alarms_strike foundKnown).2
  numbered := agrees.numbered.strike timer
  known := agrees.known
  positive := fun other found known =>
    agrees.positive other found (Ledger.of_alarms_strike known).2

/-- A timer that is not in the line is armed and joins it, with a number that was handed out. -/
theorem arm (agrees : agenda.Agrees ledger) (absent : timer ∉ agenda.line) {last : Nat}
    (grows : agenda.last ≤ last) (numbered : timer.number ≤ last) {pending : Table TimerId Timer}
    (same : ∀ other ∈ agenda.line, pending.find? other = agenda.pending.find? other)
    (positive : entry.period ≠ some 0) :
    ({ pending := agenda.pending.insert timer entry
       line := lineUp pending agenda.line entry.deadline timer
       last } : Agenda).Agrees (({ ledger with last } : Ledger).arm timer entry) where
  pending := fun other => by
    by_cases is : other = timer
    · rw [is, Ledger.alarms_arm_self, Table.find?_insert_self, Option.map_some]
    · rw [Ledger.alarms_arm_other _ _ is, Table.find?_insert_other _ _ is]
      exact agrees.pending other
  last := rfl
  lined := fun other found known => by
    refine (perm_lineUp _ _ _ _).mem_iff.mpr (List.mem_cons.mpr ?_)
    by_cases is : other = timer
    · exact Or.inl is
    · rw [Ledger.alarms_arm_other _ _ is] at known
      exact Or.inr (agrees.lined other found known)
  ordered := by
    have others {other : TimerId} (member : other ∈ agenda.line) :
        (({ ledger with last } : Ledger).arm timer entry).alarms other = ledger.alarms other := by
      refine Ledger.alarms_arm_other _ _ ?_
      rintro rfl
      exact absent member
    refine pairwise_lineUp (fun other member => ?_) ?_ (Ledger.alarms_arm_self _ _ _) rfl
      fun other member found known => ?_
    · rw [others member, agrees.pending, same other member]
    · refine agrees.ordered.imp_of_mem fun {one two} first second inOrder => ?_
      intro alarm found known foundKnown
      rw [others first] at known
      rw [others second] at foundKnown
      exact inOrder alarm found known foundKnown
    · rw [others member] at known
      exact agrees.numbered other found known
  numbered := by
    have numbered : ({ ledger with last } : Ledger).Numbered := agrees.numbered
    exact numbered.arm timer entry
  known := fun other member => by
    rcases List.mem_cons.mp ((perm_lineUp _ _ _ _).mem_iff.mp member) with rfl | before
    · exact numbered
    · exact Nat.le_trans (agrees.known other before) grows
  positive := fun other found known => by
    by_cases is : other = timer
    · rw [is, Ledger.alarms_arm_self] at known
      rw [← Option.some.inj known]
      exact positive
    · rw [Ledger.alarms_arm_other _ _ is] at known
      exact agrees.positive other found known

/-- The timer at the head of the line is armed again, and joins the line again. -/
theorem again (agrees : agenda.Agrees ledger) {rest : List TimerId}
    (line : agenda.line = timer :: rest) (known : ledger.alarms timer = some alarm)
    (deadline : Nat) :
    ({ agenda with
        pending := agenda.pending.insert timer { alarm.timer with deadline }
        line := lineUp (agenda.pending.insert timer { alarm.timer with deadline }) rest deadline
          timer } : Agenda).Agrees (ledger.arm timer { alarm.timer with deadline }) := by
  have struck := (agrees.cancel timer).drop line (Ledger.alarms_strike_self _ _)
  have others (other : TimerId) (member : other ∈ rest) :
      (agenda.pending.insert timer { alarm.timer with deadline }).find? other =
        (agenda.pending.erase timer).find? other := by
    have differ : other ≠ timer := by
      rintro rfl
      exact agrees.not_mem_rest line known member
    rw [Table.find?_insert_other _ _ differ, Table.find?_erase_other _ differ]
  have positive : ({ alarm.timer with deadline } : Timer).period ≠ some 0 :=
    agrees.positive timer alarm known
  have armed := struck.arm (agrees.not_mem_rest line known) (Nat.le_refl agenda.last)
    (agrees.known timer (line ▸ List.mem_cons_self)) others positive
  have same : ({ ledger.strike timer with last := agenda.last } : Ledger) = ledger.strike timer := by
    rw [← agrees.last]
    rfl
  rw [same, Ledger.arm_strike, Agenda.cancel, Table.insert_erase] at armed
  exact armed

/-- A timer is started under the next number. -/
theorem start (agrees : agenda.Agrees ledger) (now after : Nat) (period : Option Nat)
    (task : TaskId) :
    (agenda.start now after period task).1.Agrees
      (({ ledger with last := ledger.last + 1 } : Ledger).arm ⟨ledger.last + 1⟩
        ⟨task, (later? now after).getD (now + farOff), period.filter (· ≠ 0)⟩) := by
  rw [agrees.last]
  refine agrees.arm (fun member => ?_) (Nat.le_succ _) (Nat.le_refl _) (fun _ _ => rfl) ?_
  · exact absurd (agrees.known _ member) (Nat.not_succ_le_self _)
  · intro zero
    have holds := (Option.filter_eq_some_iff.mp zero).2
    exact absurd holds (by decide)

/-- An answer that no timer is still to fire. -/
theorem hasPending_iff (agrees : agenda.Agrees ledger) :
    agenda.hasPending = true ↔ ∃ timer alarm, ledger.alarms timer = some alarm := by
  rw [hasPending_iff_exists]
  constructor
  · rintro ⟨timer, entry, pending⟩
    obtain ⟨alarm, known, _⟩ := agrees.exists_alarm pending
    exact ⟨timer, alarm, known⟩
  · rintro ⟨timer, alarm, known⟩
    exact ⟨timer, alarm.timer, agrees.find? known⟩

/-- The next deadline is the least one. -/
theorem nextDeadline (agrees : agenda.Agrees ledger) :
    (agenda.nextDeadline = none ∧ ∀ timer, ledger.alarms timer = none) ∨
      ∃ timer alarm, agenda.nextDeadline = some alarm.timer.deadline ∧
        ledger.alarms timer = some alarm ∧ ∀ other found, ledger.alarms other = some found →
          alarm.timer.deadline ≤ found.timer.deadline := by
  -- The line up to the first timer that is still to fire plays no part.
  generalize lined : agenda.line = line
  induction line generalizing agenda with
  | nil =>
    refine Or.inl ⟨by rw [Agenda.nextDeadline, lined]; rfl, fun timer => ?_⟩
    cases known : ledger.alarms timer with
    | none => rfl
    | some alarm =>
      have member := agrees.lined timer alarm known
      rw [lined] at member
      exact absurd member List.not_mem_nil
  | cons timer rest inductionHypothesis =>
    cases known : ledger.alarms timer with
    | none =>
      have skips : agenda.nextDeadline = ({ agenda with line := rest } : Agenda).nextDeadline := by
        rw [Agenda.nextDeadline, lined, List.findSome?_cons, agrees.alarms_eq_none.mp known]
        rfl
      rw [skips]
      exact inductionHypothesis (agrees.drop lined known) rfl
    | some alarm =>
      refine Or.inr ⟨timer, alarm, ?_, known, fun other found foundKnown => ?_⟩
      · rw [Agenda.nextDeadline, lined, List.findSome?_cons, agrees.find? known]
        rfl
      · by_cases same : other = timer
        · subst same
          exact Nat.le_of_eq (by rw [Option.some.inj (foundKnown.symm.trans known)])
        · exact ((agrees.first lined known).2 other found same foundKnown).deadline_le

end Agrees

/-! ### Firing -/

/-- How often a timer is come across until it is not due. -/
def glancesFor (pending : Table TimerId Timer) (now : Nat) (timer : TimerId) : Nat :=
  match pending.find? timer with
  | none => 1
  | some entry =>
    if now < entry.deadline then 0 else if entry.period ≠ none ∧ entry.deadline < now then 2 else 1

/-- How many glances it takes until nothing is due. -/
def glancesLeft (agenda : Agenda) (now : Nat) : Nat :=
  (agenda.line.map (glancesFor agenda.pending now)).sum

theorem glancesLeft_le (agenda : Agenda) (now : Nat) :
    agenda.glancesLeft now ≤ 2 * agenda.line.length := by
  have each (timer : TimerId) : glancesFor agenda.pending now timer ≤ 2 := by
    unfold glancesFor
    split
    · omega
    · split_ifs <;> omega
  rw [glancesLeft]
  induction agenda.line with
  | nil => exact Nat.le_refl 0
  | cons timer rest inductionHypothesis =>
    rw [List.map_cons, List.sum_cons, List.length_cons]
    have head := each timer
    omega

/-- Timers that are not in a line do not count for it. -/
theorem sum_glancesFor {pending other : Table TimerId Timer} {line : List TimerId}
    (same : ∀ timer ∈ line, other.find? timer = pending.find? timer) (now : Nat) :
    (line.map (glancesFor other now)).sum = (line.map (glancesFor pending now)).sum := by
  refine congrArg List.sum (List.map_congr_left fun timer member => ?_)
  rw [glancesFor, glancesFor, same timer member]

theorem sum_glancesFor_lineUp (pending : Table TimerId Timer) (line : List TimerId)
    (deadline : Nat) (timer : TimerId) (now : Nat) :
    ((lineUp pending line deadline timer).map (glancesFor pending now)).sum =
      glancesFor pending now timer + (line.map (glancesFor pending now)).sum := by
  rw [((perm_lineUp pending line deadline timer).map _).sum_nat, List.map_cons, List.sum_cons]

/-- What comes of a glance by the ledger, if fewer glances are left then than before. -/
def Glanced (ledger : Ledger) (now left : Nat) : Glance → Prop
  | .nothing => ∀ timer alarm, ledger.alarms timer = some alarm → now < alarm.timer.deadline
  | .dropped next => next.Agrees ledger ∧ next.glancesLeft now < left
  | .fired next firing => ∃ timer alarm after, ledger.Fire now timer alarm after ∧
      firing = Ledger.firing (timer, alarm) ∧ next.Agrees after ∧ next.glancesLeft now < left
  | .overflow _ => ∃ timer alarm period, ledger.First timer alarm ∧ alarm.timer.deadline ≤ now ∧
      alarm.timer.period = some period ∧ instantEnd ≤ alarm.timer.deadline + period

theorem Agrees.glance (agrees : agenda.Agrees ledger) (now : Nat) :
    Glanced ledger now (agenda.glancesLeft now) (agenda.glance now) := by
  rw [Agenda.glance, glancesLeft]
  cases line : agenda.line with
  | nil =>
    intro timer alarm known
    have member := agrees.lined timer alarm known
    rw [line] at member
    exact absurd member List.not_mem_nil
  | cons timer rest =>
    rw [List.map_cons, List.sum_cons]
    cases pending : agenda.pending.find? timer with
    | none =>
      have head : glancesFor agenda.pending now timer = 1 := by rw [glancesFor, pending]
      simp only [pending]
      refine ⟨agrees.drop line (agrees.alarms_eq_none.mpr pending), ?_⟩
      show (rest.map (glancesFor agenda.pending now)).sum < _
      omega
    | some entry =>
      obtain ⟨alarm, known, rfl⟩ := agrees.exists_alarm pending
      have first := agrees.first line known
      by_cases early : now < alarm.timer.deadline
      · simp only [pending, early, if_true]
        intro other found foundKnown
        by_cases same : other = timer
        · subst same
          rwa [Option.some.inj (foundKnown.symm.trans known)]
        · exact Nat.lt_of_lt_of_le early (first.2 other found same foundKnown).deadline_le
      · have due := Nat.le_of_not_lt early
        have apart (other : TimerId) (member : other ∈ rest) : other ≠ timer := by
          rintro rfl
          exact agrees.not_mem_rest line known member
        simp only [pending, early, if_false]
        cases periodic : alarm.timer.period with
        | none =>
          have head : glancesFor agenda.pending now timer = 1 := by
            rw [glancesFor, pending]
            simp [early, periodic]
          refine ⟨timer, alarm, _, .once first due periodic, rfl,
            (agrees.cancel timer).drop line (Ledger.alarms_strike_self _ _), ?_⟩
          have others := sum_glancesFor (fun other member =>
            Table.find?_erase_other agenda.pending (apart other member)) now
          show (rest.map (glancesFor (agenda.pending.erase timer) now)).sum < _
          rw [others, head]
          omega
        | some period =>
          dsimp only
          rw [later?]
          by_cases fits : alarm.timer.deadline + period < instantEnd
          · rw [if_pos fits]
            refine ⟨timer, alarm, _, .again first due periodic fits, rfl,
              periodic ▸ agrees.again line known _, ?_⟩
            have positive : period ≠ 0 := fun zero =>
              agrees.positive timer alarm known (by rw [periodic, zero])
            dsimp only [glancesLeft]
            rw [sum_glancesFor_lineUp, sum_glancesFor fun other member =>
              Table.find?_insert_other agenda.pending _ (apart other member)]
            have lowers : glancesFor (agenda.pending.insert timer ⟨alarm.timer.task,
                max (alarm.timer.deadline + period) now, some period⟩) now timer <
                glancesFor agenda.pending now timer := by
              rw [glancesFor, glancesFor, Table.find?_insert_self, pending]
              simp only [periodic, ne_eq, reduceCtorEq, not_false_eq_true, true_and]
              split_ifs <;> omega
            omega
          · rw [if_neg fits]
            exact ⟨timer, alarm, period, first, due, periodic, Nat.le_of_not_lt fits⟩

/-- Firings are those of a ledger: all that fire do, and the agenda and the ledger agree again; or
firing breaks off, by either. -/
def Firings.Match (firings : Firings) (fired : List (TimerId × Alarm)) : Option Ledger → Prop
  | some after =>
    firings.overflowed = false ∧ firings.fired = fired.map Ledger.firing ∧
      firings.agenda.Agrees after
  | none => firings.overflowed = true

theorem Agrees.fireWithin {glances : Nat} (agrees : agenda.Agrees ledger)
    (enough : agenda.glancesLeft now < glances) :
    ∃ fired outcome, ledger.Fires now fired outcome ∧
      (agenda.fireWithin now glances).Match fired outcome := by
  induction glances generalizing agenda ledger with
  | zero => exact absurd enough (Nat.not_lt_zero _)
  | succ glances inductionHypothesis =>
    have sees := agrees.glance now
    rw [Agenda.fireWithin]
    cases glance : agenda.glance now with
    | nothing =>
      rw [glance] at sees
      exact ⟨[], some ledger, .done sees, rfl, rfl, agrees⟩
    | dropped next =>
      rw [glance] at sees
      exact inductionHypothesis sees.1 (Nat.lt_of_lt_of_le sees.2 (Nat.le_of_lt_succ enough))
    | fired next firing =>
      rw [glance] at sees
      obtain ⟨timer, alarm, after, fires, rfl, agreesNow, fewer⟩ := sees
      obtain ⟨fired, outcome, more, same⟩ := inductionHypothesis agreesNow (by omega)
      refine ⟨(timer, alarm) :: fired, outcome, .fire fires more, ?_⟩
      cases outcome with
      | none => exact same
      | some last =>
        obtain ⟨overflowed, told, agreesThen⟩ := same
        exact ⟨overflowed, by rw [List.map_cons, ← told], agreesThen⟩
    | overflow next =>
      rw [glance] at sees
      obtain ⟨timer, alarm, period, first, due, periodic, unfit⟩ := sees
      exact ⟨[], none, .overflow first due periodic unfit, rfl⟩

theorem Agrees.fireDue (agrees : agenda.Agrees ledger) (now : Nat) :
    ∃ fired outcome, ledger.Fires now fired outcome ∧ (agenda.fireDue now).Match fired outcome := by
  have bounded := agenda.glancesLeft_le now
  exact agrees.fireWithin (by omega)

end Agenda

end TaskMachine

/-
An agenda on which a poll broke off can be used on, but it is not whole. The
poll had taken a timer out of the line before it found that the timer's next
firing cannot be written down, and it left it so: the timer is stranded, still
to fire but without a place in the line. It never fires again, and while it is
the only one that is left there is something pending and no next deadline.

Nothing else strands a timer, and nothing puts it back: it is gone when it is
cancelled. A poll that breaks off since whoever is told of a firing fails leaves
all timers in their places.
-/

import TaskMachine.Proofs.Agenda.Replies

namespace TaskMachine

namespace Agenda

/-- What can come of an agenda without timers, if it is used on after polls that broke off: at a
timer whose next firing cannot be written down, or after any glance. -/
inductive Used : Agenda → Prop
  | empty : Used .empty
  | serve {agenda : Agenda} (request : Request) (used : Used agenda) : Used (agenda.serve request).1
  | broken {agenda : Agenda} (now glances : Nat) (used : Used agenda) :
      Used (agenda.fireWithin now glances).agenda

/-- A timer is still to fire but has no place in the line. -/
def Stranded (agenda : Agenda) (timer : TimerId) : Prop :=
  agenda.pending.contains timer = true ∧ timer ∉ agenda.line

/-- Firing breaks off at a timer that is due and whose next firing cannot be written down. It is
stranded, and no other that was not so before. -/
structure Strands (agenda : Agenda) (now : Nat) (lost : TimerId) (next : Agenda) : Prop where
  placed : ¬ agenda.Stranded lost
  unfit : ∃ entry period, next.pending.find? lost = some entry ∧ entry.deadline ≤ now ∧
    entry.period = some period ∧ instantEnd ≤ entry.deadline + period
  stranded : ∀ timer, next.Stranded timer ↔ agenda.Stranded timer ∨ timer = lost

/-- No timer stands in the line twice, and all numbers were handed out. -/
structure Tidy (agenda : Agenda) : Prop where
  distinct : agenda.line.Nodup
  lined : ∀ timer ∈ agenda.line, timer.number ≤ agenda.last
  issued : ∀ timer, agenda.pending.contains timer = true → timer.number ≤ agenda.last

variable {agenda next : Agenda} {timer lost : TimerId} {now : Nat}

theorem contains_iff : agenda.pending.contains timer = true ↔
    ∃ entry, agenda.pending.find? timer = some entry := Option.isSome_iff_exists

theorem mem_lineUp (pending : Table TimerId Timer) (line : List TimerId) (deadline : Nat)
    (timer other : TimerId) :
    other ∈ lineUp pending line deadline timer ↔ other = timer ∨ other ∈ line :=
  (perm_lineUp pending line deadline timer).mem_iff.trans List.mem_cons

theorem contains_insert (pending : Table TimerId Timer) (timer other : TimerId) (entry : Timer) :
    (pending.insert timer entry).contains other = true ↔
      other = timer ∨ pending.contains other = true := by
  by_cases same : other = timer
  · subst same
    simp [Table.contains]
  · simp [Table.contains, Table.find?_insert_other _ _ same, same]

theorem contains_erase (pending : Table TimerId Timer) (timer other : TimerId) :
    (pending.erase timer).contains other = true ↔
      other ≠ timer ∧ pending.contains other = true := by
  by_cases same : other = timer
  · subst same
    simp [Table.contains]
  · simp [Table.contains, Table.find?_erase_other _ same, same]

/-! ### Single changes -/

section

variable {rest : List TimerId} {entry : Timer}

/-- The head of the line leaves it. -/
theorem Tidy.drop (tidy : agenda.Tidy) (line : agenda.line = timer :: rest) :
    ({ agenda with line := rest } : Agenda).Tidy where
  distinct := (List.nodup_cons.mp (line ▸ tidy.distinct)).2
  lined := fun other member => tidy.lined other (line ▸ List.mem_cons_of_mem _ member)
  issued := tidy.issued

theorem Tidy.cancel (tidy : agenda.Tidy) (timer : TimerId) : (agenda.cancel timer).1.Tidy where
  distinct := tidy.distinct
  lined := tidy.lined
  issued := fun other known =>
    tidy.issued other ((contains_erase agenda.pending timer other).mp known).2

/-- A timer that has no place joins the line, with a number that was handed out. -/
theorem Tidy.join (tidy : agenda.Tidy) (absent : timer ∉ agenda.line) {last : Nat}
    (grows : agenda.last ≤ last) (numbered : timer.number ≤ last) (among : Table TimerId Timer)
    (deadline : Nat) :
    ({ pending := agenda.pending.insert timer entry
       line := lineUp among agenda.line deadline timer
       last } : Agenda).Tidy where
  distinct := (perm_lineUp _ _ _ _).nodup_iff.mpr (List.nodup_cons.mpr ⟨absent, tidy.distinct⟩)
  lined := fun other member => by
    rcases (mem_lineUp _ _ _ _ _).mp member with rfl | before
    · exact numbered
    · exact Nat.le_trans (tidy.lined other before) grows
  issued := fun other known => by
    rcases (contains_insert _ _ _ _).mp known with rfl | before
    · exact numbered
    · exact Nat.le_trans (tidy.issued other before) grows

/-- The head of a line leaves it: then it is stranded, if it is still to fire. -/
theorem Tidy.stranded_drop (tidy : agenda.Tidy) (line : agenda.line = timer :: rest)
    (other : TimerId) : ({ agenda with line := rest } : Agenda).Stranded other ↔
      agenda.Stranded other ∨ other = timer ∧ agenda.pending.contains timer = true := by
  have apart : timer ∉ rest := (List.nodup_cons.mp (line ▸ tidy.distinct)).1
  unfold Stranded
  rw [line, List.mem_cons]
  by_cases same : other = timer
  · subst same
    simp [apart]
  · simp [same]

theorem stranded_cancel (agenda : Agenda) (timer other : TimerId) :
    (agenda.cancel timer).1.Stranded other ↔ agenda.Stranded other ∧ other ≠ timer := by
  show (agenda.pending.erase timer).contains other = true ∧ other ∉ agenda.line ↔ _
  rw [contains_erase, Stranded]
  grind

/-- A timer that joins the line is not stranded. -/
theorem stranded_join (agenda : Agenda) (timer : TimerId) (last : Nat) (entry : Timer)
    (among : Table TimerId Timer) (deadline : Nat) (other : TimerId) :
    ({ pending := agenda.pending.insert timer entry
       line := lineUp among agenda.line deadline timer
       last } : Agenda).Stranded other ↔ agenda.Stranded other ∧ other ≠ timer := by
  unfold Stranded
  rw [contains_insert, mem_lineUp]
  grind

end

/-! ### Glances -/

/-- What a glance leaves of the places of an agenda. -/
def Leaves (agenda : Agenda) (now : Nat) : Glance → Prop
  | .nothing => True
  | .dropped next => next.Tidy ∧ ∀ timer, next.Stranded timer ↔ agenda.Stranded timer
  | .fired next firing => next.Tidy ∧ ¬ agenda.Stranded firing.timer ∧
      ∀ timer, next.Stranded timer ↔ agenda.Stranded timer
  | .overflow next => next.Tidy ∧ ∃ lost, agenda.Strands now lost next

theorem Tidy.glance (tidy : agenda.Tidy) (now : Nat) : agenda.Leaves now (agenda.glance now) := by
  rw [Agenda.glance]
  cases line : agenda.line with
  | nil => trivial
  | cons timer rest =>
    have dropped := tidy.drop line
    have strands := tidy.stranded_drop line
    have placed : ¬ agenda.Stranded timer := fun stranded =>
      stranded.2 (line ▸ List.mem_cons_self)
    cases pending : agenda.pending.find? timer with
    | none =>
      have gone : agenda.pending.contains timer = false := by
        rw [Table.contains, pending]
        rfl
      simp only [pending]
      refine ⟨dropped, fun other => ?_⟩
      rw [strands, gone]
      simp
    | some entry =>
      by_cases early : now < entry.deadline
      · simp only [pending, early, if_true]
        trivial
      · simp only [pending, early, if_false]
        cases periodic : entry.period with
        | none =>
          refine ⟨dropped.cancel timer, placed, fun other => ?_⟩
          show (({ agenda with line := rest } : Agenda).cancel timer).1.Stranded other ↔ _
          rw [stranded_cancel, strands]
          grind
        | some period =>
          dsimp only
          rw [later?]
          by_cases fits : entry.deadline + period < instantEnd
          · rw [if_pos fits]
            have absent : timer ∉ rest := (List.nodup_cons.mp (line ▸ tidy.distinct)).1
            have numbered := tidy.lined timer (line ▸ List.mem_cons_self)
            refine ⟨dropped.join absent (Nat.le_refl _) numbered _ _, placed, fun other => ?_⟩
            refine (stranded_join ({ agenda with line := rest } : Agenda) ..).trans ?_
            rw [strands]
            grind
          · rw [if_neg fits]
            refine ⟨dropped, timer, placed, ?_, fun other => ?_⟩
            · exact ⟨entry, period, pending, Nat.le_of_not_lt early, periodic,
                Nat.le_of_not_lt fits⟩
            · rw [strands, Table.contains, pending]
              simp

/-! ### Polls -/

theorem Strands.of_same (same : ∀ timer, next.Stranded timer ↔ agenda.Stranded timer)
    {after : Agenda} (strands : next.Strands now lost after) : agenda.Strands now lost after where
  placed := fun stranded => strands.placed ((same lost).mpr stranded)
  unfit := strands.unfit
  stranded := fun timer => by rw [strands.stranded, same]

/-- What firing leaves of the places of an agenda, however many glances it takes. -/
structure Polled (agenda : Agenda) (now : Nat) (firings : Firings) : Prop where
  tidy : firings.agenda.Tidy
  placed : ∀ firing ∈ firings.fired, ¬ agenda.Stranded firing.timer
  whole : firings.overflowed = false →
    ∀ timer, firings.agenda.Stranded timer ↔ agenda.Stranded timer
  strands : firings.overflowed = true → ∃ lost, agenda.Strands now lost firings.agenda

theorem Polled.of_same (same : ∀ timer, next.Stranded timer ↔ agenda.Stranded timer)
    {firings : Firings} (polled : next.Polled now firings) : agenda.Polled now firings where
  tidy := polled.tidy
  placed := fun firing member stranded =>
    polled.placed firing member ((same firing.timer).mpr stranded)
  whole := fun fits timer => (polled.whole fits timer).trans (same timer)
  strands := fun overflowed => by
    obtain ⟨lost, strands⟩ := polled.strands overflowed
    exact ⟨lost, strands.of_same same⟩

/-- Nothing is due. -/
theorem Tidy.polled (tidy : agenda.Tidy) (now : Nat) : agenda.Polled now ⟨agenda, [], false⟩ where
  tidy
  placed := fun _ member => absurd member List.not_mem_nil
  whole := fun _ _ => Iff.rfl
  strands := nofun

/-- The first timer that is due is stranded. -/
theorem Strands.polled (strands : agenda.Strands now lost next) (tidy : next.Tidy) :
    agenda.Polled now ⟨next, [], true⟩ where
  tidy
  placed := fun _ member => absurd member List.not_mem_nil
  whole := nofun
  strands := fun _ => ⟨lost, strands⟩

theorem Tidy.fireWithin (tidy : agenda.Tidy) (now glances : Nat) :
    agenda.Polled now (agenda.fireWithin now glances) := by
  induction glances generalizing agenda with
  | zero => exact tidy.polled now
  | succ glances inductionHypothesis =>
    have leaves := tidy.glance now
    rw [Agenda.fireWithin]
    cases glance : agenda.glance now with
    | nothing => exact tidy.polled now
    | dropped next =>
      rw [glance] at leaves
      obtain ⟨tidyNow, same⟩ := leaves
      exact (inductionHypothesis tidyNow).of_same same
    | fired next firing =>
      rw [glance] at leaves
      obtain ⟨tidyNow, placed, same⟩ := leaves
      have rest := (inductionHypothesis tidyNow).of_same same
      exact { rest with placed := List.forall_mem_cons.mpr ⟨placed, rest.placed⟩ }
    | overflow next =>
      rw [glance] at leaves
      obtain ⟨tidyNow, lost, strands⟩ := leaves
      exact strands.polled tidyNow

/-! ### Requests -/

theorem tidy_empty : empty.Tidy where
  distinct := .nil
  lined := fun _ member => absurd member List.not_mem_nil
  issued := nofun

theorem not_mem_line_next (tidy : agenda.Tidy) : (⟨agenda.last + 1⟩ : TimerId) ∉ agenda.line :=
  fun member => absurd (tidy.lined _ member) (Nat.not_succ_le_self _)

theorem Tidy.serve (tidy : agenda.Tidy) (request : Request) : (agenda.serve request).1.Tidy := by
  cases request with
  | start now after period task =>
    exact tidy.join (not_mem_line_next tidy) (Nat.le_succ _) (Nat.le_refl _) _ _
  | cancel timer => exact tidy.cancel timer
  | hasPending => exact tidy
  | nextDeadline => exact tidy
  | poll now => exact (tidy.fireWithin now _).tidy

theorem Used.tidy (used : agenda.Used) : agenda.Tidy := by
  induction used with
  | empty => exact tidy_empty
  | serve request _ inductionHypothesis => exact inductionHypothesis.serve request
  | broken now glances _ inductionHypothesis =>
    exact (inductionHypothesis.fireWithin now glances).tidy

/-- A request that is served in whole strands no timer; a stranded one that is cancelled is gone. -/
theorem Tidy.stranded_serve (tidy : agenda.Tidy) (request : Request)
    (fits : (agenda.serve request).2 ≠ .overflowed) (timer : TimerId) :
    (agenda.serve request).1.Stranded timer ↔ agenda.Stranded timer ∧ request ≠ .cancel timer := by
  cases request with
  | start now after period task =>
    refine (stranded_join agenda ⟨agenda.last + 1⟩ ..).trans ?_
    have unknown (stranded : agenda.Stranded timer) : timer ≠ ⟨agenda.last + 1⟩ := by
      rintro rfl
      exact absurd (tidy.issued _ stranded.1) (Nat.not_succ_le_self _)
    exact ⟨fun both => ⟨both.1, nofun⟩, fun both => ⟨both.1, unknown both.1⟩⟩
  | cancel other =>
    refine (stranded_cancel agenda other timer).trans ?_
    simp [eq_comm]
  | hasPending => exact (and_iff_left nofun).symm
  | nextDeadline => exact (and_iff_left nofun).symm
  | poll now =>
    have whole : (agenda.fireDue now).overflowed = false := by
      by_contra overflowed
      rw [Bool.not_eq_false] at overflowed
      exact fits (if_pos overflowed)
    have same := (tidy.fireWithin now _).whole whole timer
    exact same.trans (and_iff_left nofun).symm

theorem Tidy.strands_serve (tidy : agenda.Tidy) (request : Request)
    (overflowed : (agenda.serve request).2 = .overflowed) :
    ∃ now lost, request = .poll now ∧ agenda.Strands now lost (agenda.serve request).1 := by
  cases request with
  | poll now =>
    have broken : (agenda.fireDue now).overflowed = true := by
      by_contra whole
      exact absurd ((if_neg whole).symm.trans overflowed) nofun
    obtain ⟨lost, strands⟩ := (tidy.fireWithin now _).strands broken
    exact ⟨now, lost, rfl, strands⟩
  | start => exact absurd overflowed nofun
  | cancel => exact absurd overflowed nofun
  | hasPending => exact absurd overflowed nofun
  | nextDeadline => exact absurd overflowed nofun

theorem Reachable.not_stranded (reachable : agenda.Reachable) :
    agenda.Tidy ∧ ∀ timer, ¬ agenda.Stranded timer := by
  induction reachable with
  | empty => exact ⟨tidy_empty, fun _ stranded => absurd stranded.1 nofun⟩
  | serve request _ fits inductionHypothesis =>
    obtain ⟨tidy, none⟩ := inductionHypothesis
    refine ⟨tidy.serve request, fun timer stranded => ?_⟩
    exact none timer ((tidy.stranded_serve request fits timer).mp stranded).1

/-! ### The main statement -/

theorem nextDeadline_isSome_iff (agenda : Agenda) : agenda.nextDeadline.isSome = true ↔
    ∃ timer ∈ agenda.line, agenda.pending.contains timer = true := by
  rw [nextDeadline, Option.isSome_map, List.findSome?_isSome_iff]
  rfl

theorem hasPending_iff_stranded (agenda : Agenda) : agenda.hasPending = true ↔
    agenda.nextDeadline.isSome = true ∨ ∃ timer, agenda.Stranded timer := by
  rw [nextDeadline_isSome_iff, hasPending_iff_exists]
  constructor
  · rintro ⟨timer, entry, pending⟩
    have known := contains_iff.mpr ⟨entry, pending⟩
    by_cases member : timer ∈ agenda.line
    · exact Or.inl ⟨timer, member, known⟩
    · exact Or.inr ⟨timer, known, member⟩
  · rintro (⟨timer, _, known⟩ | ⟨timer, known, _⟩)
    · exact ⟨timer, contains_iff.mp known⟩
    · exact ⟨timer, contains_iff.mp known⟩

theorem Tidy.count_eq_one_iff (tidy : agenda.Tidy) (known : agenda.pending.contains timer = true) :
    agenda.line.count timer = 1 ↔ ¬ agenda.Stranded timer := by
  rw [tidy.distinct.count]
  by_cases member : timer ∈ agenda.line
  · rw [if_pos member]
    exact iff_of_true rfl fun stranded => stranded.2 member
  · rw [if_neg member]
    exact iff_of_false Nat.zero_ne_one (not_not_intro ⟨known, member⟩)

/-- Something is pending exactly if there is a next deadline or a timer is stranded, and a pending
timer that is not stranded stands in the line once. A timer is stranded only by a poll that finds
that its next firing cannot be written down; it stays so until it is cancelled, and does not fire.
As long as no poll overflows no timer is stranded. -/
theorem Used.places (used : agenda.Used) :
    (agenda.hasPending = true ↔
      agenda.nextDeadline.isSome = true ∨ ∃ timer, agenda.Stranded timer) ∧
    (∀ timer, agenda.pending.contains timer = true →
      (agenda.line.count timer = 1 ↔ ¬ agenda.Stranded timer)) ∧
    (∀ request, (agenda.serve request).2 ≠ .overflowed → ∀ timer,
      (agenda.serve request).1.Stranded timer ↔ agenda.Stranded timer ∧ request ≠ .cancel timer) ∧
    (∀ request, (agenda.serve request).2 = .overflowed →
      ∃ now lost, request = .poll now ∧ agenda.Strands now lost (agenda.serve request).1) ∧
    (∀ now glances,
      (∀ firing ∈ (agenda.fireWithin now glances).fired, ¬ agenda.Stranded firing.timer) ∧
        ((agenda.fireWithin now glances).overflowed = false → ∀ timer,
          (agenda.fireWithin now glances).agenda.Stranded timer ↔ agenda.Stranded timer)) ∧
    (agenda.Reachable → ∀ timer, ¬ agenda.Stranded timer) := by
  have tidy := used.tidy
  refine ⟨agenda.hasPending_iff_stranded, fun timer known => tidy.count_eq_one_iff known,
    tidy.stranded_serve, tidy.strands_serve, fun now glances => ?_,
    fun reachable => reachable.not_stranded.2⟩
  have polled := tidy.fireWithin now glances
  exact ⟨polled.placed, polled.whole⟩

/-- A timer that is due at once, and that never again. -/
def unending : Agenda := (empty.start 0 0 (some longest) ⟨1⟩).1

theorem unending_used : unending.Used := .serve (.start 0 0 (some longest) ⟨1⟩) .empty

theorem unending_places : unending.Used ∧ (unending.serve (.poll 0)).2 = .overflowed ∧
    ∃ now lost, Request.poll 0 = .poll now ∧
      unending.Strands now lost (unending.serve (.poll 0)).1 := by
  have overflowed : (unending.serve (.poll 0)).2 = .overflowed := by decide +kernel
  obtain ⟨_, _, _, broken, _⟩ := unending_used.places
  exact ⟨unending_used, overflowed, broken (.poll 0) overflowed⟩

/-- After the poll something is pending, and there is no next deadline. -/
theorem pending_without_deadline :
    ¬ ∀ agenda : Agenda, agenda.Used →
      (agenda.hasPending = true ↔ agenda.nextDeadline.isSome = true) ∧
        ∀ timer, agenda.pending.contains timer = true → agenda.line.count timer = 1 := by
  intro sound
  have whole := (sound _ (.serve (.poll 0) unending_used)).1
  revert whole
  decide +kernel

end Agenda

end TaskMachine

/-
The links of a chain from the tail to the head stand in a row: each became the
head right after the one in front of it. A link of the row is hung behind the
one in front of it, or there is a gap, and then someone is about to close it.

This file says what becomes of the row at the three things that happen to it: a
link is appended behind a gap, a gap is closed, and the first link is taken off.
That can only be done when something was hung behind it, so no gap ends at a
link that is gone.
-/

import TaskMachine.Inbox.Receiving

namespace TaskMachine

/-! ### Neighbours in a list -/

/-- One number stands right in front of another in a list. -/
def Follows (row : List Nat) (first second : Nat) : Prop := [first, second] <:+: row

theorem Follows.mem_left {row : List Nat} {first second : Nat}
    (follows : Follows row first second) :
    first ∈ row := follows.subset List.mem_cons_self

theorem Follows.mem_right {row : List Nat} {first second : Nat}
    (follows : Follows row first second) : second ∈ row :=
  follows.subset (List.mem_cons_of_mem _ List.mem_cons_self)

theorem follows_cons_iff {row : List Nat} {front first second : Nat} :
    Follows (front :: row) first second ↔
      (first = front ∧ row.head? = some second) ∨ Follows row first second := by
  unfold Follows
  rw [List.infix_cons_iff, List.cons_prefix_cons]
  refine or_congr (and_congr_right fun _ => ?_) Iff.rfl
  cases row with
  | nil => simp
  | cons head rest => simp [List.cons_prefix_cons, eq_comm]

theorem follows_concat_iff {row : List Nat} {back first second : Nat} :
    Follows (row ++ [back]) first second ↔
      Follows row first second ∨ (row.getLast? = some first ∧ second = back) := by
  unfold Follows
  rw [List.infix_concat_iff, or_comm]
  refine or_congr Iff.rfl ?_
  constructor
  · rintro ⟨before, same⟩
    have split : (before ++ [first]) ++ [second] = row ++ [back] := by simpa using same
    obtain ⟨rows, backs⟩ := List.append_inj' split rfl
    exact ⟨by simp [← rows], by simpa using backs⟩
  · rintro ⟨last, rfl⟩
    obtain ⟨before, rfl⟩ := List.getLast?_eq_some_iff.mp last
    exact ⟨before, by simp⟩

/-- In a list without repetitions only one number stands right behind another. -/
theorem Follows.unique {row : List Nat} (distinct : row.Nodup) {first second third : Nat}
    (follows : Follows row first second) (other : Follows row first third) : second = third := by
  induction row with
  | nil => exact absurd follows.mem_left List.not_mem_nil
  | cons front rest inductionHypothesis =>
    obtain ⟨absent, restDistinct⟩ := List.nodup_cons.mp distinct
    rw [follows_cons_iff] at follows other
    rcases follows with ⟨rfl, head⟩ | follows
    · rcases other with ⟨_, sameHead⟩ | other
      · exact Option.some.inj (head.symm.trans sameHead)
      · exact absurd other.mem_left absent
    · rcases other with ⟨rfl, _⟩ | other
      · exact absurd follows.mem_left absent
      · exact inductionHypothesis restDistinct follows other

/-- Nothing stands behind the last number of a list without repetitions. -/
theorem Follows.ne_last {row : List Nat} (distinct : row.Nodup) {first second last : Nat}
    (follows : Follows row first second) (back : row.getLast? = some last) : first ≠ last := by
  obtain ⟨before, rfl⟩ := List.getLast?_eq_some_iff.mp back
  rintro rfl
  have absent : first ∉ before := by
    have apart := (List.nodup_append.mp distinct).2.2
    exact fun member => apart first member first (by simp) rfl
  rcases follows_concat_iff.mp follows with inside | ⟨again, _⟩
  · exact absent inside.mem_left
  · exact absent (List.mem_of_getLast? again)

/-! ### The row of links -/

/-- The links of a chain from the tail to the head stand in a row, and all gaps between them are
about to be closed. -/
structure Chain.Strung {Content : Type} (chain : Chain Content) (closing : Nat → Nat → Prop)
    (row : List Nat) : Prop where
  distinct : row.Nodup
  front : row.head? = some chain.tail
  back : row.getLast? = some chain.head
  present : ∀ link ∈ row, ∃ entry, chain.link? link = some entry
  /-- Nothing is hung behind the head. -/
  loose : chain.next? chain.head = none
  /-- A link is hung behind the one in front of it, or is about to be. -/
  joined : ∀ {first second}, Follows row first second →
    chain.next? first = some second ∨ (chain.next? first = none ∧ closing first second)
  /-- Whoever is about to close a gap finds one. -/
  gap : ∀ {first second}, closing first second →
    Follows row first second ∧ chain.next? first = none

namespace Chain.Strung

variable {Content : Type} {chain : Chain Content} {closing closing' : Nat → Nat → Prop}
  {row : List Nat}

theorem head_mem (strung : chain.Strung closing row) : chain.head ∈ row :=
  List.mem_of_getLast? strung.back

theorem tail_mem (strung : chain.Strung closing row) : chain.tail ∈ row :=
  List.mem_of_head? strung.front

/-- The row does not depend on links that are not in it. -/
theorem of_links (strung : chain.Strung closing row) {other : Chain Content}
    (head : other.head = chain.head) (tail : other.tail = chain.tail)
    (links : ∀ link ∈ row, other.link? link = chain.link? link)
    (same : ∀ first second, closing' first second ↔ closing first second) :
    other.Strung closing' row := by
  have behind (link : Nat) (member : link ∈ row) : other.next? link = chain.next? link := by
    rw [next?, links link member, next?]
  exact
    { distinct := strung.distinct
      front := by rw [tail, strung.front]
      back := by rw [head, strung.back]
      present := fun link member => by rw [links link member]; exact strung.present link member
      loose := by rw [head, behind _ strung.head_mem, strung.loose]
      joined := fun {first second} follows => by
        rw [behind first follows.mem_left, same]
        exact strung.joined follows
      gap := fun {first second} closes => by
        obtain ⟨follows, nothing⟩ := strung.gap ((same first second).mp closes)
        exact ⟨follows, by rw [behind first follows.mem_left, nothing]⟩ }

/-- A link that becomes the head stands at the end of the row, behind a gap. -/
theorem swapHead (strung : chain.Strung closing row) {link : Nat} {entry : Link Content}
    (fresh : link ∉ row) (known : chain.link? link = some entry)
    (opened : ∀ first second, closing' first second ↔
      closing first second ∨ (first = chain.head ∧ second = link)) :
    (chain.swapHead link).1.Strung closing' (row ++ [link]) := by
  have behind (other : Nat) (member : other ∈ row) :
      (chain.swapHead link).1.next? other = chain.next? other :=
    next?_setNext_other chain (ne_of_mem_of_not_mem member fresh) none
  have unhung : (chain.swapHead link).1.next? link = none := next?_setNext_self chain known none
  refine
    { distinct := ?_, front := ?_, back := by simp [Chain.swapHead], present := ?_,
      loose := unhung, joined := ?_, gap := ?_ }
  · rw [List.nodup_append]
    refine ⟨strung.distinct, by simp, ?_⟩
    intro other member last single
    rw [List.mem_singleton.mp single]
    exact ne_of_mem_of_not_mem member fresh
  · show (row ++ [link]).head? = some chain.tail
    rw [List.head?_append, strung.front, Option.some_or]
  · intro other member
    show ∃ entry, (chain.setNext link none).link? other = some entry
    rw [link?_setNext]
    split
    · rename_i same
      exact ⟨_, by rw [same, known]; rfl⟩
    · rename_i differ
      refine strung.present other ?_
      simpa [differ] using member
  · intro first second follows
    rw [opened]
    rcases follows_concat_iff.mp follows with inside | ⟨last, rfl⟩
    · rw [behind first inside.mem_left]
      exact (strung.joined inside).imp_right fun ⟨nothing, closes⟩ => ⟨nothing, Or.inl closes⟩
    · obtain rfl : chain.head = first := Option.some.inj (strung.back.symm.trans last)
      rw [behind _ strung.head_mem]
      exact Or.inr ⟨strung.loose, Or.inr ⟨rfl, rfl⟩⟩
  · intro first second closes
    rcases (opened first second).mp closes with closes | ⟨rfl, rfl⟩
    · obtain ⟨follows, nothing⟩ := strung.gap closes
      exact ⟨follows_concat_iff.mpr (Or.inl follows),
        by rw [behind first follows.mem_left, nothing]⟩
    · exact ⟨follows_concat_iff.mpr (Or.inr ⟨strung.back, rfl⟩),
        by rw [behind _ strung.head_mem, strung.loose]⟩

/-- A gap is closed. -/
theorem hang (strung : chain.Strung closing row) {previous link : Nat}
    (closes : closing previous link)
    (closed : ∀ first second, closing' first second ↔ closing first second ∧ first ≠ previous) :
    (chain.hang previous link).Strung closing' row := by
  obtain ⟨follows, _⟩ := strung.gap closes
  obtain ⟨entry, known⟩ := strung.present previous follows.mem_left
  have joins : (chain.hang previous link).next? previous = some link :=
    next?_setNext_self chain known (some link)
  have behind (other : Nat) (differ : other ≠ previous) :
      (chain.hang previous link).next? other = chain.next? other :=
    next?_setNext_other chain differ (some link)
  refine
    { distinct := strung.distinct, front := strung.front, back := strung.back, present := ?_,
      loose := ?_, joined := ?_, gap := ?_ }
  · intro other member
    obtain ⟨otherEntry, otherKnown⟩ := strung.present other member
    show ∃ entry, (chain.setNext previous (some link)).link? other = some entry
    rw [link?_setNext, otherKnown]
    split <;> exact ⟨_, rfl⟩
  · show (chain.hang previous link).next? chain.head = none
    rw [behind _ (follows.ne_last strung.distinct strung.back).symm, strung.loose]
  · intro first second behindFirst
    rw [closed]
    by_cases same : first = previous
    · subst same
      rw [behindFirst.unique strung.distinct follows, joins]
      exact Or.inl rfl
    · rw [behind first same]
      exact (strung.joined behindFirst).imp_right fun ⟨nothing, closes⟩ => ⟨nothing, closes, same⟩
  · intro first second stillCloses
    obtain ⟨closes, differ⟩ := (closed first second).mp stillCloses
    obtain ⟨follows, nothing⟩ := strung.gap closes
    exact ⟨follows, by rw [behind first differ, nothing]⟩

/-- If something is hung behind the tail, it stands behind the tail in the row. -/
theorem eq_cons_of_next? (strung : chain.Strung closing row) {next : Nat}
    (behind : chain.next? chain.tail = some next) :
    ∃ rest, row = chain.tail :: rest ∧ rest.head? = some next ∧ chain.tail ∉ rest := by
  obtain ⟨rest, rfl⟩ : ∃ rest, row = chain.tail :: rest := by
    cases row with
    | nil => exact absurd strung.front (by simp)
    | cons front rest => exact ⟨rest, by rw [Option.some.inj strung.front]⟩
  refine ⟨rest, rfl, ?_, (List.nodup_cons.mp strung.distinct).1⟩
  cases rest with
  | nil =>
    have meet : chain.tail = chain.head := Option.some.inj strung.back
    rw [meet, strung.loose] at behind
    exact absurd behind (by simp)
  | cons second rest =>
    rcases strung.joined (follows_cons_iff.mpr (Or.inl ⟨rfl, rfl⟩)) with joined | ⟨nothing, _⟩
    · rw [joined] at behind
      exact behind
    · rw [nothing] at behind
      exact absurd behind (by simp)

/-- The first link can be taken off the row when something is hung behind it. -/
theorem pass (strung : chain.Strung closing (chain.tail :: row)) {next : Nat}
    (behind : chain.next? chain.tail = some next) {other : Chain Content}
    (head : other.head = chain.head) (tail : other.tail = next)
    (links : ∀ link ∈ row, other.link? link = chain.link? link) :
    other.Strung closing row := by
  obtain ⟨rest, same, front, absent⟩ := strung.eq_cons_of_next? behind
  obtain rfl : row = rest := (List.cons.inj same).2
  have follow (link : Nat) (member : link ∈ row) : other.next? link = chain.next? link := by
    rw [next?, links link member, next?]
  have back : row.getLast? = some chain.head := by
    have whole := strung.back
    cases row with
    | nil => simp at front
    | cons second rest => rwa [List.getLast?_cons_cons] at whole
  refine
    { distinct := (List.nodup_cons.mp strung.distinct).2
      front := by rw [tail, front]
      back := by rw [head, back]
      present := ?_, loose := ?_, joined := ?_, gap := ?_ }
  · intro link member
    rw [links link member]
    exact strung.present link (List.mem_cons_of_mem _ member)
  · rw [head, follow _ (List.mem_of_getLast? back), strung.loose]
  · intro first second follows
    rw [follow first follows.mem_left]
    exact strung.joined (follows_cons_iff.mpr (Or.inr follows))
  · intro first second closes
    obtain ⟨follows, nothing⟩ := strung.gap closes
    rcases follows_cons_iff.mp follows with ⟨rfl, _⟩ | inside
    · rw [nothing] at behind
      exact absurd behind (by simp)
    · exact ⟨inside, by rw [follow first inside.mem_left, nothing]⟩

end Chain.Strung

end TaskMachine

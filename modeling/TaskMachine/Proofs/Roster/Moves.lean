/-
The operations on queues do to the lists what their names say. A task in no
queue can join one; a task in a queue can leave it; the head can go to the tail;
and a walk along the links finds the list. None of them breaks off, and to the
tasks they do nothing but to change their places.
-/

import TaskMachine.Proofs.Roster.Lined

namespace TaskMachine.Roster

variable {roster next : Roster} {lane other : Lane} {slot : Slot} {task : Task}
  {lists : Lane → List Slot}

/-- A queue does not depend on a task that joins or leaves another one, nor on the neighbours that
the task has there. -/
theorem Lines.lined_other (lines : roster.Lines lists) (slot : Slot) (links : Slot → Task → Links)
    (ends : next.ends other = roster.ends other) (absent : slot ∉ lists other)
    (own : ∀ task, next.task? slot = some task → task.lane ≠ some other)
    (others : ∀ place, place ≠ slot →
      (next.task? place).map Task.place =
        (roster.task? place).map fun task => (task.lane, links place task))
    (same : ∀ place ∈ lists other, links place = Task.links) : next.Lined other (lists other) := by
  refine (lines other).of_same ends (fun place member => ?_) (fun place task present outside => ?_)
  · rw [others place (ne_of_mem_of_not_mem member absent), same place member]
    rfl
  · by_cases atSlot : place = slot
    · subst atSlot
      exact own task present
    · intro queued
      have placed := others place atSlot
      rw [present, Option.map_some] at placed
      obtain ⟨earlier, earlierPresent, earlierPlace⟩ := Option.map_eq_some_iff.mp placed.symm
      refine outside ((lines other).complete earlierPresent ?_)
      rw [← queued]
      exact congrArg Prod.fst earlierPlace

/-! ### Joining -/

theorem pushTail_eq (lane : Lane) (present : roster.task? slot = some task)
    (apart : task.lane = none)
    (known : ∀ tail, (roster.ends lane).tail = some tail → ∃ last, roster.task? tail = some last) :
    Roster.pushTail lane slot roster = .ok ⟨⟩
      ((roster.attach lane slot (roster.ends lane).tail).setEnds lane
        ⟨if (roster.ends lane).tail.isSome then (roster.ends lane).head else some slot, some slot,
          (roster.ends lane).length + 1⟩) := by
  have joins (tail : Option Slot) :
      put slot { task with lane := some lane, links := ⟨none, tail⟩ } roster = .ok ⟨⟩
        (roster.alter slot (·.setPlace (some lane) ⟨none, tail⟩)) :=
    put_eq present (·.setPlace (some lane) ⟨none, tail⟩)
  cases last : (roster.ends lane).tail with
  | none =>
    simp [Roster.pushTail, bind_apply, fetch_eq present, apart, get_apply, joins, last, attach,
      alterAt, modify_apply]
  | some tail =>
    obtain ⟨tailTask, tailPresent⟩ := known tail last
    obtain ⟨changed, changedPresent⟩ := task?_alter_present slot
      (·.setPlace (some lane) ⟨none, some tail⟩) tailPresent
    simp [Roster.pushTail, bind_apply, fetch_eq present, apart, get_apply, joins, last, attach,
      alterAt, modify_apply, update_eq changedPresent, Task.setNext]

/-- A task that is in a queue joins none. -/
theorem pushTail_eq_error (lane : Lane) {occupied : Lane} (present : roster.task? slot = some task)
    (queued : task.lane = some occupied) :
    Roster.pushTail lane slot roster = .error (.alreadyEnqueued task.id occupied) roster := by
  simp [Roster.pushTail, bind_apply, fetch_eq present, queued, throw_apply]

/-- Where no task is, none joins a queue. -/
theorem pushTail_eq_missing (lane : Lane) (absent : roster.task? slot = none) :
    Roster.pushTail lane slot roster = .error .noTask roster := by
  rw [Roster.pushTail, bind_apply, fetch_eq_error absent]

/-- A task that is in no queue joins a queue at its tail. -/
theorem Lines.pushTail (lines : roster.Lines lists) (present : roster.task? slot = some task)
    (apart : task.lane = none) (lane : Lane) :
    ∃ next, Roster.pushTail lane slot roster = .ok ⟨⟩ next ∧
      next.Lines (Function.update lists lane (lists lane ++ [slot])) ∧ SameTasks roster next := by
  have ends := (lines lane).ends
  have absent (other : Lane) : slot ∉ lists other := by
    rw [lines.mem_iff present, apart]
    exact nofun
  have notLast : (lists lane).getLast? ≠ some slot := fun last =>
    absent lane (List.mem_of_getLast? last)
  have runs := pushTail_eq lane present apart fun tail last => by
    rw [ends] at last
    obtain ⟨lastTask, lastPresent, _⟩ := (lines lane).present (List.mem_of_getLast? last)
    exact ⟨lastTask, lastPresent⟩
  rw [ends] at runs
  have own := task?_attach_self roster lane notLast
  rw [present, Option.map_some] at own
  refine ⟨_, runs, fun other => ?_,
    (sameTasks_attach roster lane slot _).trans (sameTasks_setEnds _ lane _)⟩
  by_cases same : other = lane
  · subst same
    rw [Function.update_self]
    refine (lines other).push (absent other) ?_ ?_ fun place differ => ?_
    · rw [ends_setEnds_self]
      cases lists other <;> simp
    · rw [task?_setEnds, own]
      rfl
    · rw [task?_setEnds]
      exact place_attach_other roster other _ differ
  · rw [Function.update_of_ne same]
    refine lines.lined_other slot (fun place task =>
      ⟨if (lists lane).getLast? = some place then some slot else task.links.next,
        task.links.previous⟩) ?_ (absent other) ?_ (fun place differ => ?_) ?_
    · rw [ends_setEnds_other _ _ same, ends_attach]
    · intro found foundPresent
      rw [task?_setEnds, own] at foundPresent
      rw [← Option.some.inj foundPresent]
      exact fun queued => same (Option.some.inj queued).symm
    · rw [task?_setEnds]
      exact place_attach_other roster lane _ differ
    · intro place member
      have notLast : (lists lane).getLast? ≠ some place := fun last =>
        lines.apart (List.mem_of_getLast? last) same member
      funext task
      rw [if_neg notLast]

/-! ### Leaving -/

theorem remove_eq (present : roster.task? slot = some task) (queued : task.lane = some lane)
    (previousKnown : ∀ previous, task.links.previous = some previous →
      ∃ before, roster.task? previous = some before)
    (nextKnown : ∀ next, task.links.next = some next →
      ∃ behind, roster.task? next = some behind) :
    remove lane slot roster = .ok ⟨⟩
      ((roster.detach slot task.links).setEnds lane
        ⟨if task.links.previous.isSome then (roster.ends lane).head else task.links.next,
          if task.links.next.isSome then (roster.ends lane).tail else task.links.previous,
          (roster.ends lane).length - 1⟩) := by
  have leaves : put slot { task with lane := none, links := .none } roster = .ok ⟨⟩
      (roster.alter slot (·.setPlace none .none)) := put_eq present (·.setPlace none .none)
  cases ahead : task.links.previous with
  | none =>
    cases behind : task.links.next with
    | none =>
      simp [remove, bind_apply, fetch_eq present, queued, leaves, ahead, behind, detach,
        alterAt, updateEnds_eq, setEnds_setEnds]
    | some next =>
      obtain ⟨second, secondPresent⟩ := nextKnown next behind
      obtain ⟨_, relinked⟩ := task?_alter_present slot (·.setPlace none .none) secondPresent
      simp [remove, bind_apply, fetch_eq present, queued, leaves, ahead, behind, detach,
        alterAt, updateEnds_eq, setEnds_setEnds, alter_setEnds, Task.setPrevious,
        update_eq ((task?_setEnds _ _ _ _).trans relinked)]
  | some previous =>
    obtain ⟨first, firstPresent⟩ := previousKnown previous ahead
    obtain ⟨_, firstRelinked⟩ := task?_alter_present slot (·.setPlace none .none) firstPresent
    cases behind : task.links.next with
    | none =>
      simp [remove, bind_apply, fetch_eq present, queued, leaves, ahead, behind, detach,
        alterAt, updateEnds_eq, setEnds_setEnds, Task.setNext, update_eq firstRelinked]
    | some next =>
      obtain ⟨second, secondPresent⟩ := nextKnown next behind
      obtain ⟨_, relinked⟩ := task?_alter_present slot (·.setPlace none .none) secondPresent
      obtain ⟨_, secondRelinked⟩ := task?_alter_present previous
        (·.setNext (some next)) relinked
      simp only [Task.setNext] at secondRelinked
      simp [remove, bind_apply, fetch_eq present, queued, leaves, ahead, behind, detach,
        alterAt, updateEnds_eq, Task.setNext, Task.setPrevious, update_eq firstRelinked,
        update_eq secondRelinked]

/-- A task leaves no queue but the one that it is in. -/
theorem remove_eq_error (present : roster.task? slot = some task) (apart : task.lane ≠ some lane) :
    Roster.remove lane slot roster = .error .notEnqueued roster := by
  rw [Roster.remove, bind_apply, fetch_eq present]
  simp only [apart, if_false, throw_apply]

/-- Where no task is, none leaves a queue. -/
theorem remove_eq_missing (lane : Lane) (absent : roster.task? slot = none) :
    Roster.remove lane slot roster = .error .noTask roster := by
  rw [Roster.remove, bind_apply, fetch_eq_error absent]

/-- A task that is in a queue leaves it. -/
theorem Lines.remove (lines : roster.Lines lists) (member : slot ∈ lists lane) :
    ∃ next, Roster.remove lane slot roster = .ok ⟨⟩ next ∧
      next.Lines (Function.update lists lane ((lists lane).erase slot)) ∧
      SameTasks roster next := by
  obtain ⟨before, behind, split⟩ := List.append_of_mem member
  have lined := lines lane
  rw [split] at lined
  obtain ⟨task, present, place⟩ := lined.placed rfl
  obtain ⟨queued, links⟩ := Prod.mk.inj place
  obtain ⟨absent, alsoAbsent⟩ := not_mem_behind lined.distinct
  have erased : (lists lane).erase slot = before ++ behind := by
    rw [split, List.erase_append_right _ absent, List.erase_cons_head]
  have front {neighbour : Slot} (last : before.getLast? = some neighbour) :
      neighbour ∈ before ++ slot :: behind :=
    List.mem_append_left _ (List.mem_of_getLast? last)
  have back {neighbour : Slot} (head : behind.head? = some neighbour) :
      neighbour ∈ before ++ slot :: behind :=
    List.mem_append_right _ (List.mem_cons_of_mem _ (List.mem_of_head? head))
  have known {neighbour : Slot} (inside : neighbour ∈ before ++ slot :: behind) :
      ∃ found, roster.task? neighbour = some found := by
    obtain ⟨found, foundPresent, _⟩ := lined.present inside
    exact ⟨found, foundPresent⟩
  have runs := remove_eq present queued (by rw [links]; exact fun _ last => known (front last))
    (by rw [links]; exact fun _ head => known (back head))
  rw [links, lined.ends] at runs
  have own := task?_detach_self roster ⟨behind.head?, before.getLast?⟩
    (fun head => alsoAbsent (List.mem_of_head? head))
    (fun last => absent (List.mem_of_getLast? last))
  rw [present, Option.map_some] at own
  rw [erased]
  refine ⟨_, runs, fun other => ?_,
    (sameTasks_detach roster slot _).trans (sameTasks_setEnds _ lane _)⟩
  have left (ends : Ends) (found : Task) (foundPresent : ((roster.detach slot
      ⟨behind.head?, before.getLast?⟩).setEnds lane ends).task? slot = some found) :
      found.lane ≠ some other := by
    rw [task?_setEnds, own] at foundPresent
    rw [← Option.some.inj foundPresent]
    exact nofun
  by_cases same : other = lane
  · subst same
    rw [Function.update_self]
    refine lined.cut ?_ (left _) fun place differ => ?_
    · rw [ends_setEnds_self]
      rcases List.eq_nil_or_concat' before with rfl | ⟨init, last, rfl⟩ <;> cases behind <;> simp
    · rw [task?_setEnds]
      exact place_detach_other roster _ differ
  · rw [Function.update_of_ne same]
    refine lines.lined_other slot (fun place task =>
      ⟨if before.getLast? = some place then behind.head? else task.links.next,
        if behind.head? = some place then before.getLast? else task.links.previous⟩) ?_
      (lines.apart member same) (left _) (fun place differ => ?_) ?_
    · rw [ends_setEnds_other _ _ same, ends_detach]
    · rw [task?_setEnds]
      exact place_detach_other roster _ differ
    · intro place inOther
      have notInside (inside : place ∈ before ++ slot :: behind) : False := by
        rw [← split] at inside
        exact lines.apart inside same inOther
      funext task
      rw [if_neg fun last => notInside (front last), if_neg fun head => notInside (back head)]

/-- A task that has left its queue is in none. -/
theorem Lines.lane_eq_none (lines : roster.Lines lists) (present : roster.task? slot = some task)
    (absent : ∀ lane, slot ∉ lists lane) : task.lane = none := by
  cases queued : task.lane with
  | none => rfl
  | some lane => exact absurd ((lines.mem_iff present).mpr queued) (absent lane)

/-! ### Going to the tail -/

/-- The head of a queue goes to its tail. -/
theorem Lines.rotate (lines : roster.Lines lists) {rest : List Slot}
    (split : lists lane = slot :: rest) :
    ∃ next, Roster.rotate lane roster = .ok ⟨⟩ next ∧
      next.Lines (Function.update lists lane (rest ++ [slot])) ∧ SameTasks roster next := by
  have ends := (lines lane).ends
  rw [split] at ends
  cases rest with
  | nil =>
    refine ⟨roster, ?_, ?_, SameTasks.refl roster⟩
    · simp [Roster.rotate, bind_apply, get_apply, ends, pure_apply]
    · rw [List.nil_append, ← split, Function.update_eq_self]
      exact lines
  | cons second rest =>
    have member : slot ∈ lists lane := by simp [split]
    obtain ⟨middle, removes, middleLines, middleSame⟩ := lines.remove member
    obtain ⟨task, present, _⟩ := (lines lane).present member
    obtain ⟨moved, movedPresent, _⟩ := middleSame.present present
    have erased : (lists lane).erase slot = second :: rest := by rw [split, List.erase_cons_head]
    rw [erased] at middleLines
    have apart : moved.lane = none := by
      refine middleLines.lane_eq_none movedPresent fun other => ?_
      by_cases same : other = lane
      · subst same
        have distinct := (lines other).distinct
        rw [split] at distinct
        rw [Function.update_self]
        exact (List.nodup_cons.mp distinct).1
      · rw [Function.update_of_ne same]
        exact lines.apart member same
    obtain ⟨next, pushes, nextLines, nextSame⟩ := middleLines.pushTail movedPresent apart lane
    refine ⟨next, ?_, ?_, middleSame.trans nextSame⟩
    · simp [Roster.rotate, bind_apply, get_apply, ends, removes, pushes]
    · rwa [Function.update_self, Function.update_idem] at nextLines

/-! ### Walking along -/

theorem Lined.walk {slots before behind : List Slot} (lined : roster.Lined lane slots)
    (split : slots = before ++ behind) {steps : Nat} (enough : behind.length ≤ steps) :
    roster.walk steps behind.head? = .ok behind := by
  induction behind generalizing before steps with
  | nil => cases steps <;> rfl
  | cons slot behind inductionHypothesis =>
    obtain ⟨task, present, place⟩ := lined.placed split
    obtain ⟨_, links⟩ := Prod.mk.inj place
    cases steps with
    | zero => exact absurd enough (by simp)
    | succ steps =>
      have reshaped : slots = (before ++ [slot]) ++ behind := by simp [split]
      have rest := inductionHypothesis reshaped (Nat.le_of_succ_le_succ enough)
      simp only [List.head?_cons, Roster.walk, present, links, rest]
      rfl

/-- A walk along the links finds the list. -/
theorem Lines.slots (lines : roster.Lines lists) (lane : Lane) :
    roster.slots lane = .ok (lists lane) := by
  have bound := lines.length_le
  have enough : (lists lane).length ≤ roster.tasks.size + 1 := by cases lane <;> omega
  rw [Roster.slots, (lines lane).ends]
  exact (lines lane).walk (List.nil_append _).symm enough

/-- The numbers of the tasks in a queue can be listed. -/
theorem Lines.ids (lines : roster.Lines lists) (lane : Lane) :
    ∃ ids, roster.ids lane = .ok ids := by
  have known (slots : List Slot) (present : ∀ slot ∈ slots, ∃ task, roster.task? slot = some task) :
      ∃ ids, slots.mapM roster.idAt = .ok ids := by
    induction slots with
    | nil => exact ⟨[], rfl⟩
    | cons slot rest inductionHypothesis =>
      obtain ⟨task, slotPresent⟩ := present slot List.mem_cons_self
      obtain ⟨ids, runs⟩ := inductionHypothesis fun other member =>
        present other (List.mem_cons_of_mem _ member)
      refine ⟨task.id :: ids, ?_⟩
      simp [List.mapM_cons, idAt, slotPresent, runs, bind, Except.bind, pure, Except.pure]
  obtain ⟨ids, runs⟩ := known (lists lane) fun slot member => by
    obtain ⟨task, present, _⟩ := (lines lane).present member
    exact ⟨task, present⟩
  refine ⟨ids, ?_⟩
  rw [Roster.ids, lines.slots lane]
  exact runs

end TaskMachine.Roster

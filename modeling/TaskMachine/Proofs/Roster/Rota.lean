/-
The queues of a roster are lists. A `Rota` says what they are to be: it has the
number of the task at each place, and for each queue the list of its places. A
rearrangement of a rota is one of its lists, where nothing is linked; it is
refused by what the lists say, and then nothing changes.

`Mirrors` says that a roster agrees with a rota. Every rearrangement keeps that,
and the roster breaks off just where the rota refuses. So after any number of
them all that can be read off the ends and the links of a queue, from the front
or from the back, is what its list says.
-/

import Mathlib.Data.List.Rotate
import TaskMachine.Proofs.Roster.Moves

namespace TaskMachine

/-- What can be done with the tasks of a roster and with its queues. -/
inductive Rearrangement where
  | join (lane : Lane) (slot : Slot)
  | leave (lane : Lane) (slot : Slot)
  | rotate (lane : Lane)
  /-- A task comes. -/
  | come (task : Task)
  /-- The task at a place goes. -/
  | go (slot : Slot)

/-- What is done to a roster. -/
def Rearrangement.perform : Rearrangement → Rostering Unit
  | join lane slot => Roster.pushTail lane slot
  | leave lane slot => Roster.remove lane slot
  | rotate lane => Roster.rotate lane
  | come task => do let _ ← Roster.add task
  | go slot => Roster.drop slot

/-! ### Lists -/

/-- What the queues of a roster are to be. -/
structure Rota where
  /-- How many places were given out. -/
  places : Nat
  /-- The number of the task at a place, if there is one. -/
  id? : Slot → Option TaskId
  /-- The places in a queue, in order. -/
  slots : Lane → List Slot

namespace Rota

/-- The queue that a place is in. -/
def lane? (rota : Rota) (slot : Slot) : Option Lane :=
  if slot ∈ rota.slots .run then some .run
  else if slot ∈ rota.slots .wait then some .wait
  else none

/-- The rota with another list for a queue. -/
def relist (rota : Rota) (lane : Lane) (slots : List Slot) : Rota :=
  { rota with slots := Function.update rota.slots lane slots }

/-- The rota with another number at a place. -/
def renumber (rota : Rota) (slot : Slot) (id : Option TaskId) : Rota :=
  { rota with id? := Function.update rota.id? slot id }

theorem id?_renumber (rota : Rota) (slot : Slot) (id : Option TaskId) (other : Slot) :
    (rota.renumber slot id).id? other = if other = slot then id else rota.id? other := by
  simp only [renumber, Function.update_apply]

/-- What is done to a rota. -/
def perform (rota : Rota) : Rearrangement → Except Crash Rota
  | .join lane slot =>
    match rota.id? slot, rota.lane? slot with
    | none, _ => .error .noTask
    | some id, some occupied => .error (.alreadyEnqueued id occupied)
    | some _, none => .ok (rota.relist lane (rota.slots lane ++ [slot]))
  | .leave lane slot =>
    match rota.id? slot with
    | none => .error .noTask
    | some _ =>
      if slot ∈ rota.slots lane then .ok (rota.relist lane ((rota.slots lane).erase slot))
      else .error .notEnqueued
  | .rotate lane => .ok (rota.relist lane ((rota.slots lane).rotate 1))
  | .come task =>
    .ok { rota.renumber rota.places (some task.id) with places := rota.places + 1 }
  | .go slot => .ok (rota.renumber slot none)

/-- Tasks come and go only as long as they are in no queue. -/
def Allows (rota : Rota) : Rearrangement → Prop
  | .come task => task.lane = none
  | .go slot => ∀ lane, slot ∉ rota.slots lane
  | _ => True

/-- The rota after a rearrangement, whether it is refused or not. -/
def next (rota : Rota) (change : Rearrangement) : Rota :=
  match rota.perform change with
  | .ok later => later
  | .error _ => rota

/-- The rota after one rearrangement and another. -/
def rearranged : Rota → List Rearrangement → Rota
  | rota, [] => rota
  | rota, change :: rest => (rota.next change).rearranged rest

/-- Tasks come and go only as long as they are in no queue, at every single rearrangement. -/
def Permits : Rota → List Rearrangement → Prop
  | _, [] => True
  | rota, change :: rest => rota.Allows change ∧ (rota.next change).Permits rest

end Rota

namespace Roster

/-- The roster after one rearrangement and another, whether they break off or not. -/
def rearranged : Roster → List Rearrangement → Roster
  | roster, [] => roster
  | roster, change :: rest => (stateAfter change.perform roster).rearranged rest

/-- The tasks of a roster, with nobody in a queue. -/
def rota (roster : Roster) : Rota where
  places := roster.tasks.size
  id? := fun slot => (roster.task? slot).map Task.id
  slots := fun _ => []

/-! ### What can be read off a queue -/

/-- The places from one on, along the neighbours in front, as far as so many steps lead. -/
def walkBack (roster : Roster) : Nat → Option Slot → Except Crash (List Slot)
  | _, none => pure []
  | 0, some _ => throw .endless
  | steps + 1, some slot =>
    match roster.task? slot with
    | none => throw .noTask
    | some task => do
      let rest ← roster.walkBack steps task.links.previous
      pure (slot :: rest)

/-- What can be read off a queue is what a list says. -/
structure Reads (roster : Roster) (lane : Lane) (slots : List Slot) : Prop where
  head : (roster.ends lane).head = slots.head?
  tail : (roster.ends lane).tail = slots.getLast?
  length : (roster.ends lane).length = slots.length
  empty : (roster.ends lane).length = 0 ↔ slots = []
  forwards : roster.slots lane = .ok slots
  backwards : roster.walkBack (roster.tasks.size + 1) (roster.ends lane).tail = .ok slots.reverse

variable {roster next : Roster} {rota : Rota} {lane : Lane} {slot : Slot} {task : Task}
  {lists : Lane → List Slot}

theorem Lined.walkBack {slots before behind : List Slot} (lined : roster.Lined lane slots)
    (split : slots = before ++ behind) {steps : Nat} (enough : before.length ≤ steps) :
    roster.walkBack steps before.getLast? = .ok before.reverse := by
  -- The walk ends at the front of the line, so the part that it has before it shrinks at its back.
  induction before using List.reverseRecOn generalizing behind steps with
  | nil => cases steps <;> rfl
  | append_singleton front slot inductionHypothesis =>
    have reshaped : slots = front ++ slot :: behind := by simp [split]
    obtain ⟨task, present, place⟩ := lined.placed reshaped
    obtain ⟨_, links⟩ := Prod.mk.inj place
    rw [List.length_append, List.length_singleton] at enough
    cases steps with
    | zero => exact absurd enough (Nat.not_succ_le_zero _)
    | succ steps =>
      have rest := inductionHypothesis reshaped (Nat.le_of_succ_le_succ enough)
      rw [List.getLast?_concat, List.reverse_concat]
      simp only [Roster.walkBack, present, links, rest]
      rfl

theorem Lines.reads (lines : roster.Lines lists) (lane : Lane) :
    roster.Reads lane (lists lane) := by
  have ends := (lines lane).ends
  have bound := lines.length_le
  have enough : (lists lane).length ≤ roster.tasks.size + 1 := by cases lane <;> omega
  refine ⟨by rw [ends], by rw [ends], by rw [ends], ?_, lines.slots lane, ?_⟩
  · rw [ends, List.length_eq_zero_iff]
  · rw [ends]
    exact (lines lane).walkBack (List.append_nil _).symm enough

/-! ### Rosters and rotas that agree -/

/-- A roster agrees with a rota. -/
structure Mirrors (roster : Roster) (rota : Rota) : Prop where
  places : roster.tasks.size = rota.places
  id? : ∀ slot, (roster.task? slot).map Task.id = rota.id? slot
  lines : roster.Lines rota.slots

/-- A rearrangement of a roster has the same outcome as that of a rota. -/
def Heeds (roster : Roster) (change : Rearrangement) : Except Crash Rota → Prop
  | .ok later => ∃ next, change.perform roster = .ok ⟨⟩ next ∧ next.Mirrors later
  | .error crash => change.perform roster = .error crash roster

theorem Unqueued.mirrors (unqueued : roster.Unqueued) : roster.Mirrors roster.rota :=
  ⟨rfl, fun _ => rfl, unqueued.lines⟩

namespace Mirrors

theorem id?_of_present (mirrors : roster.Mirrors rota) (present : roster.task? slot = some task) :
    rota.id? slot = some task.id := by
  rw [← mirrors.id?, present, Option.map_some]

theorem id?_of_absent (mirrors : roster.Mirrors rota) (absent : roster.task? slot = none) :
    rota.id? slot = none := by
  rw [← mirrors.id?, absent, Option.map_none]

/-- The lists tell the queue that a task is in. -/
theorem lane?_eq (mirrors : roster.Mirrors rota) (present : roster.task? slot = some task) :
    rota.lane? slot = task.lane := by
  unfold Rota.lane?
  simp only [mirrors.lines.mem_iff present]
  cases task.lane with
  | none => rfl
  | some lane => cases lane <;> rfl

/-- Tasks change their places, and one list is another one. -/
theorem relist (mirrors : roster.Mirrors rota) (same : SameTasks roster next) {slots : List Slot}
    (lines : next.Lines (Function.update rota.slots lane slots)) :
    next.Mirrors (rota.relist lane slots) where
  places := same.1.trans mirrors.places
  id? := by
    intro slot
    rw [same.map Task.id fun _ => rfl]
    exact mirrors.id? slot
  lines := lines

theorem join (mirrors : roster.Mirrors rota) (lane : Lane) (slot : Slot) :
    roster.Heeds (.join lane slot) (rota.perform (.join lane slot)) := by
  unfold Rota.perform
  cases present : roster.task? slot with
  | none =>
    simp only [mirrors.id?_of_absent present]
    exact pushTail_eq_missing lane present
  | some task =>
    simp only [mirrors.id?_of_present present, mirrors.lane?_eq present]
    cases queued : task.lane with
    | some occupied => exact pushTail_eq_error lane present queued
    | none =>
      obtain ⟨next, pushes, lines, same⟩ := mirrors.lines.pushTail present queued lane
      exact ⟨next, pushes, mirrors.relist same lines⟩

theorem leave (mirrors : roster.Mirrors rota) (lane : Lane) (slot : Slot) :
    roster.Heeds (.leave lane slot) (rota.perform (.leave lane slot)) := by
  unfold Rota.perform
  cases present : roster.task? slot with
  | none =>
    simp only [mirrors.id?_of_absent present]
    exact remove_eq_missing lane present
  | some task =>
    simp only [mirrors.id?_of_present present]
    split
    · rename_i member
      obtain ⟨next, removes, lines, same⟩ := mirrors.lines.remove member
      exact ⟨next, removes, mirrors.relist same lines⟩
    · rename_i outside
      rw [mirrors.lines.mem_iff present] at outside
      exact remove_eq_error present outside

theorem rotate (mirrors : roster.Mirrors rota) (lane : Lane) :
    roster.Heeds (.rotate lane) (rota.perform (.rotate lane)) := by
  cases split : rota.slots lane with
  | nil =>
    have ends := (mirrors.lines lane).ends
    have still : Roster.rotate lane roster = .ok ⟨⟩ roster := by
      rw [split] at ends
      simp [Roster.rotate, bind_apply, get_apply, ends, pure_apply]
    refine ⟨roster, still, mirrors.relist (SameTasks.refl roster) ?_⟩
    rw [split, List.rotate_nil, ← split, Function.update_eq_self]
    exact mirrors.lines
  | cons first rest =>
    obtain ⟨next, rotates, lines, same⟩ := mirrors.lines.rotate split
    refine ⟨next, rotates, mirrors.relist same ?_⟩
    rw [split, List.rotate_cons_succ, List.rotate_zero]
    exact lines

theorem come (mirrors : roster.Mirrors rota) (apart : task.lane = none) :
    roster.Heeds (.come task) (rota.perform (.come task)) := by
  refine ⟨_, rfl, ?_, fun slot => ?_, mirrors.lines.add apart⟩
  · rw [Array.size_push, mirrors.places]
  · show _ = (rota.renumber rota.places (some task.id)).id? slot
    rw [task?_push, mirrors.places, Rota.id?_renumber, ← mirrors.id?]
    split <;> rfl

theorem go (mirrors : roster.Mirrors rota) (apart : ∀ lane, slot ∉ rota.slots lane) :
    roster.Heeds (.go slot) (rota.perform (.go slot)) := by
  refine ⟨_, rfl, ?_, fun other => ?_, mirrors.lines.drop apart⟩
  · rw [size_setTask]
    exact mirrors.places
  · rw [task?_drop, Rota.id?_renumber, ← mirrors.id?]
    split <;> rfl

/-- What a rota says of a rearrangement is what becomes of the roster. -/
theorem heeds (mirrors : roster.Mirrors rota) {change : Rearrangement}
    (allowed : rota.Allows change) : roster.Heeds change (rota.perform change) := by
  cases change with
  | join lane slot => exact mirrors.join lane slot
  | leave lane slot => exact mirrors.leave lane slot
  | rotate lane => exact mirrors.rotate lane
  | come task => exact mirrors.come allowed
  | go slot => exact mirrors.go allowed

/-- One rearrangement, whether it succeeds or not. -/
theorem step (mirrors : roster.Mirrors rota) {change : Rearrangement}
    (allowed : rota.Allows change) :
    (stateAfter change.perform roster).Mirrors (rota.next change) := by
  have heeds := mirrors.heeds allowed
  unfold Rota.next
  cases outcome : rota.perform change with
  | ok later =>
    rw [outcome] at heeds
    obtain ⟨next, performs, mirrorsNow⟩ := heeds
    rw [stateAfter_of_ok performs]
    exact mirrorsNow
  | error crash =>
    rw [outcome] at heeds
    have still : stateAfter change.perform roster = roster := by
      rw [stateAfter, show change.perform roster = .error crash roster from heeds]
    rw [still]
    exact mirrors

theorem rearranged (mirrors : roster.Mirrors rota) {changes : List Rearrangement}
    (permitted : rota.Permits changes) :
    (roster.rearranged changes).Mirrors (rota.rearranged changes) := by
  induction changes generalizing roster rota with
  | nil => exact mirrors
  | cons change rest inductionHypothesis =>
    obtain ⟨allowed, later⟩ := permitted
    exact inductionHypothesis (mirrors.step allowed) later

end Mirrors

/-- Whatever is done with two queues that nobody is in, one thing after another: what can be read
off them is what lists say to which the same is done. Whatever is done next succeeds if the lists
allow it, and then does to the queues what it does to the lists; otherwise it breaks off, for the
reason that the lists give, and nothing has changed. -/
theorem Unqueued.reads_rearranged (unqueued : roster.Unqueued) (changes : List Rearrangement)
    (permitted : roster.rota.Permits changes) :
    (∀ lane, (roster.rearranged changes).Reads lane ((roster.rota.rearranged changes).slots lane)) ∧
      ∀ change, (roster.rota.rearranged changes).Allows change →
        match (roster.rota.rearranged changes).perform change with
        | .ok later => ∃ next, change.perform (roster.rearranged changes) = .ok ⟨⟩ next ∧
            ∀ lane, next.Reads lane (later.slots lane)
        | .error crash => change.perform (roster.rearranged changes) =
            .error crash (roster.rearranged changes) := by
  have mirrors := unqueued.mirrors.rearranged permitted
  refine ⟨mirrors.lines.reads, ?_⟩
  intro change allowed
  have heeds := mirrors.heeds allowed
  cases outcome : (roster.rota.rearranged changes).perform change with
  | ok later =>
    rw [outcome] at heeds
    obtain ⟨next, performs, mirrorsNow⟩ := heeds
    exact ⟨next, performs, mirrorsNow.lines.reads⟩
  | error crash =>
    rw [outcome] at heeds
    exact heeds

/-- Three tasks in no queue. -/
def trio : Roster where
  tasks := #[some (.created ⟨1⟩ default none default), some (.created ⟨2⟩ default none default),
    some (.created ⟨3⟩ default none default)]
  run := .empty
  wait := .empty

/-- All three join a queue, the first of them in vain a second time. A fourth task comes and joins
the run queue, whose head goes to the tail and whose new head leaves; a task goes. -/
def shuffle : List Rearrangement :=
  [.join .run 0, .join .run 1, .join .wait 2, .join .wait 0,
    .come (.created ⟨4⟩ default none default), .join .run 3, .rotate .run, .leave .run 1, .go 1]

theorem trio_reads_rearranged : trio.Unqueued ∧ trio.rota.Permits shuffle ∧
    (trio.rearranged shuffle).Reads .run [3, 0] ∧ (trio.rearranged shuffle).Reads .wait [2] ∧
    pushTail .wait 3 (trio.rearranged shuffle) =
      .error (.alreadyEnqueued ⟨4⟩ .run) (trio.rearranged shuffle) ∧
    ∃ next, remove .run 3 (trio.rearranged shuffle) = .ok ⟨⟩ next ∧ next.Reads .run [0] ∧
      next.Reads .wait [2] := by
  have unqueued : trio.Unqueued := by
    refine ⟨fun lane => by cases lane <;> rfl, fun {slot task} present => ?_⟩
    match slot with
    | 0 | 1 | 2 => exact (Option.some.inj present) ▸ rfl
    | _ + 3 => exact absurd present nofun
  have permitted : trio.rota.Permits shuffle := by
    refine ⟨trivial, trivial, trivial, trivial, rfl, trivial, trivial, trivial, ?_, trivial⟩
    intro lane
    cases lane <;> decide
  obtain ⟨reads, heeds⟩ := unqueued.reads_rearranged shuffle permitted
  obtain ⟨next, removes, left⟩ := heeds (.leave .run 3) trivial
  exact ⟨unqueued, permitted, reads .run, reads .wait, heeds (.join .wait 3) trivial, next, removes,
    left .run, left .wait⟩

end Roster

end TaskMachine

/-
The references to tasks are counted exactly. `Counted` says that a task has one
reference for its life, one for each of its children that is still there, and
one for each time that the embedder holds it; while a task is being released it
has one more, which is `owed`. It says besides that the tasks are registered
under their numbers, that parents are there, and that they came before their
children, so that the way from a task to its parent and so on has an end.

Each lemma is about one thing that can happen to the tasks.
-/

import Mathlib.Data.Finset.Card
import Mathlib.Data.Finset.Range
import TaskMachine.Proofs.Roster.Places

namespace TaskMachine

/-- The part of a task that its references depend on. -/
def Task.account (task : Task) : TaskId × Option Slot × Nat × Life :=
  (task.id, task.parent, task.references, task.life)

/-- The task when it has ended. -/
def Task.ended (task : Task) : Task :=
  { task with awaited := none, stack := none, life := .zombie, watchers := [] }

/-- What a life counts for. -/
def Life.count : Life → Nat
  | .alive => 1
  | .zombie => 0

namespace Roster

/-! ### Children -/

/-- The places of the children of the task at a place. -/
def children (roster : Roster) (slot : Slot) : Finset Slot :=
  (Finset.range roster.tasks.size).filter fun child =>
    (roster.task? child).bind Task.parent = some slot

variable {roster next : Roster} {slot child : Slot} {task : Task}

theorem mem_children :
    child ∈ roster.children slot ↔
      ∃ task, roster.task? child = some task ∧ task.parent = some slot := by
  rw [children, Finset.mem_filter, Finset.mem_range, Option.bind_eq_some_iff]
  constructor
  · exact fun ⟨_, found⟩ => found
  · rintro ⟨task, present, own⟩
    exact ⟨lt_size_of_task?_eq_some present, task, present, own⟩

theorem children_congr
    (same : ∀ child, (next.task? child).map Task.parent = (roster.task? child).map Task.parent)
    (slot : Slot) : next.children slot = roster.children slot := by
  have through (entry : Option Task) : entry.bind Task.parent = (entry.map Task.parent).join := by
    cases entry <;> rfl
  ext child
  rw [mem_children, mem_children, ← Option.bind_eq_some_iff, ← Option.bind_eq_some_iff, through,
    through, same child]

theorem children_push (roster : Roster) (task : Task) (slot : Slot) :
    ({ roster with tasks := roster.tasks.push (some task) } : Roster).children slot =
      if task.parent = some slot then insert roster.tasks.size (roster.children slot)
      else roster.children slot := by
  have beyond : roster.tasks.size ∉ roster.children slot := by
    rw [mem_children]
    rintro ⟨found, present, _⟩
    exact absurd (lt_size_of_task?_eq_some present) (Nat.lt_irrefl _)
  ext child
  by_cases new : child = roster.tasks.size
  · subst new
    rw [mem_children, task?_push, if_pos rfl]
    split
    · rename_i own
      simp [own]
    · rename_i other
      simp [other, beyond]
  · have same : child ∈ ({ roster with tasks := roster.tasks.push (some task) } : Roster).children
        slot ↔ child ∈ roster.children slot := by
      rw [mem_children, task?_push, if_neg new, mem_children]
    rw [same]
    split
    · simp [new]
    · rfl

theorem children_drop (roster : Roster) (child slot : Slot) :
    (roster.setTask child none).children slot = (roster.children slot).erase child := by
  ext other
  rw [Finset.mem_erase, mem_children, mem_children, task?_drop]
  split
  · rename_i same
    simp [same]
  · rename_i differ
    simp [differ]

/-! ### Numbers -/

/-- The tasks are registered under their numbers, and nothing else is. -/
def Enrolled (roster : Roster) (registry : Table TaskId Slot) : Prop :=
  ∀ id slot, registry.find? id = some slot ↔ ∃ task, roster.task? slot = some task ∧ task.id = id

section

variable {registry : Table TaskId Slot} {id : TaskId}

/-- Two tasks with one number are one. -/
theorem Enrolled.eq_of_id (enrolled : roster.Enrolled registry) {other : Slot} {found : Task}
    (present : roster.task? slot = some task) (otherPresent : roster.task? other = some found)
    (same : found.id = task.id) : other = slot := by
  have first := (enrolled _ _).mpr ⟨task, present, rfl⟩
  have second := (enrolled _ _).mpr ⟨found, otherPresent, same⟩
  exact Option.some.inj (second.symm.trans first)

/-- No task has a number that is not in use. -/
theorem Enrolled.id_ne (enrolled : roster.Enrolled registry) (fresh : registry.find? id = none)
    (present : roster.task? slot = some task) : task.id ≠ id := by
  intro same
  have known := (enrolled _ _).mpr ⟨task, present, same⟩
  rw [fresh] at known
  exact absurd known nofun

theorem Enrolled.congr (enrolled : roster.Enrolled registry)
    (same : ∀ slot, (next.task? slot).map Task.id = (roster.task? slot).map Task.id) :
    next.Enrolled registry := by
  intro id slot
  rw [enrolled, ← Option.map_eq_some_iff, ← Option.map_eq_some_iff, same]

/-- A task comes under a number that is not in use. -/
theorem Enrolled.push (enrolled : roster.Enrolled registry)
    (fresh : registry.find? task.id = none) :
    ({ roster with tasks := roster.tasks.push (some task) } : Roster).Enrolled
      (registry.insert task.id roster.tasks.size) := by
  intro id other
  by_cases same : id = task.id
  · subst same
    rw [Table.find?_insert_self]
    constructor
    · intro known
      rw [← Option.some.inj known]
      exact ⟨task, by rw [task?_push, if_pos rfl], rfl⟩
    · rintro ⟨found, foundPresent, id⟩
      rcases of_task?_push foundPresent with ⟨rfl, _⟩ | before
      · rfl
      · exact absurd id (enrolled.id_ne fresh before)
  · rw [Table.find?_insert_other registry _ same, enrolled]
    constructor
    · rintro ⟨found, foundPresent, rfl⟩
      exact ⟨found, task?_push_of_present foundPresent, rfl⟩
    · rintro ⟨found, foundPresent, rfl⟩
      rcases of_task?_push foundPresent with ⟨_, rfl⟩ | before
      · exact absurd rfl same
      · exact ⟨found, before, rfl⟩

/-- A task goes, and its number with it. -/
theorem Enrolled.drop (enrolled : roster.Enrolled registry)
    (present : roster.task? slot = some task) :
    (roster.setTask slot none).Enrolled (registry.erase task.id) := by
  intro id other
  by_cases same : id = task.id
  · subst same
    rw [Table.find?_erase_self]
    refine iff_of_false nofun ?_
    rintro ⟨found, foundPresent, id⟩
    obtain ⟨differ, before⟩ := of_task?_drop foundPresent
    exact differ (enrolled.eq_of_id present before id)
  · rw [Table.find?_erase_other registry same, enrolled]
    constructor
    · rintro ⟨found, foundPresent, rfl⟩
      refine ⟨found, task?_drop_of_present ?_ foundPresent, rfl⟩
      rintro rfl
      rw [present] at foundPresent
      exact same (by rw [Option.some.inj foundPresent])
    · rintro ⟨found, foundPresent, rfl⟩
      exact ⟨found, (of_task?_drop foundPresent).2, rfl⟩

end

/-! ### Counted references -/

/-- The references to tasks are counted exactly, but that one may be owed. -/
structure Counted (roster : Roster) (registry : Table TaskId Slot) (nextId : TaskId)
    (held : List TaskId) (owed : Option Slot) : Prop where
  registered : ∀ {id slot}, registry.find? id = some slot ↔
    ∃ task, roster.task? slot = some task ∧ task.id = id
  numbered : ∀ {slot task}, roster.task? slot = some task → task.id.number < nextId.number
  parent : ∀ {slot task parent}, roster.task? slot = some task → task.parent = some parent →
    parent < slot ∧ ∃ found, roster.task? parent = some found
  references : ∀ {slot task}, roster.task? slot = some task →
    task.references = task.life.count + (roster.children slot).card + held.count task.id +
      if owed = some slot then 1 else 0
  referenced : ∀ {slot task}, roster.task? slot = some task → 0 < task.references
  held : ∀ {id}, id ∈ held → ∃ slot, registry.find? id = some slot

variable {registry : Table TaskId Slot} {nextId : TaskId} {held : List TaskId}
  {owed : Option Slot}

theorem counted_empty : empty.Counted .empty .first [] none where
  registered := fun {id slot} => by simp [empty, task?]
  numbered := fun {slot task} present => by simp [empty, task?] at present
  parent := fun {slot task parent} present => by simp [empty, task?] at present
  references := fun {slot task} present => by simp [empty, task?] at present
  referenced := fun {slot task} present => by simp [empty, task?] at present
  held := fun member => absurd member List.not_mem_nil

namespace Counted

theorem enrolled (counted : roster.Counted registry nextId held owed) : roster.Enrolled registry :=
  fun _ _ => counted.registered

/-- Two tasks with one number are one. -/
theorem eq_of_id (counted : roster.Counted registry nextId held owed) {other : Slot}
    {otherTask : Task} (present : roster.task? slot = some task)
    (otherPresent : roster.task? other = some otherTask) (same : otherTask.id = task.id) :
    other = slot :=
  counted.enrolled.eq_of_id present otherPresent same

/-- The references depend on nothing else. -/
theorem congr (counted : roster.Counted registry nextId held owed)
    (same : ∀ slot, (next.task? slot).map Task.account = (roster.task? slot).map Task.account) :
    next.Counted registry nextId held owed := by
  have back {slot : Slot} {task : Task} (present : next.task? slot = some task) :
      ∃ earlier, roster.task? slot = some earlier ∧ earlier.id = task.id ∧
        earlier.parent = task.parent ∧ earlier.references = task.references ∧
        earlier.life = task.life := by
    have moved := same slot
    rw [present, Option.map_some] at moved
    obtain ⟨earlier, earlierPresent, account⟩ := Option.map_eq_some_iff.mp moved.symm
    exact ⟨earlier, earlierPresent, by simpa [Task.account] using account⟩
  have forth {slot : Slot} {task : Task} (present : roster.task? slot = some task) :
      ∃ later, next.task? slot = some later ∧ later.id = task.id := by
    have moved := same slot
    rw [present, Option.map_some] at moved
    obtain ⟨later, laterPresent, account⟩ := Option.map_eq_some_iff.mp moved
    exact ⟨later, laterPresent, congrArg Prod.fst account⟩
  have children (slot : Slot) : next.children slot = roster.children slot := by
    refine children_congr (fun child => ?_) slot
    have moved := same child
    cases now : next.task? child <;> cases before : roster.task? child <;>
      simp_all [Task.account]
  have ids (slot : Slot) : (next.task? slot).map Task.id = (roster.task? slot).map Task.id := by
    have same := congrArg (Option.map Prod.fst) (same slot)
    rwa [Option.map_map, Option.map_map] at same
  refine ⟨counted.enrolled.congr ids _ _, fun present => ?_, fun present own => ?_,
    fun {slot task} present => ?_,
    fun present => ?_, counted.held⟩
  · obtain ⟨earlier, earlierPresent, id, _⟩ := back present
    rw [← id]
    exact counted.numbered earlierPresent
  · obtain ⟨earlier, earlierPresent, _, parent, _⟩ := back present
    obtain ⟨before, found, foundPresent⟩ := counted.parent earlierPresent (parent.trans own)
    obtain ⟨later, laterPresent, _⟩ := forth foundPresent
    exact ⟨before, later, laterPresent⟩
  · obtain ⟨earlier, earlierPresent, id, _, references, life⟩ := back present
    rw [← references, ← life, ← id, children slot]
    exact counted.references earlierPresent
  · obtain ⟨earlier, earlierPresent, _, _, references, _⟩ := back present
    rw [← references]
    exact counted.referenced earlierPresent

/-- A change of one task that is not of what is counted plays no part. -/
theorem alter (counted : roster.Counted registry nextId held owed) (slot : Slot)
    {change : Task → Task} (account : ∀ task, (change task).account = task.account) :
    (roster.alter slot change).Counted registry nextId held owed :=
  counted.congr (map_alter roster slot account)

/-- The next number can be any that is not less. -/
theorem grow (counted : roster.Counted registry nextId held owed) {nextNow : TaskId}
    (grows : nextId.number ≤ nextNow.number) : roster.Counted registry nextNow held owed where
  registered := counted.registered
  numbered := fun present => Nat.lt_of_lt_of_le (counted.numbered present) grows
  parent := counted.parent
  references := counted.references
  referenced := counted.referenced
  held := counted.held

/-- One task changes what it counts, and what is held and owed changes with it. -/
theorem recount (counted : roster.Counted registry nextId held owed)
    (present : roster.task? slot = some task) {changed : Task} (id : changed.id = task.id)
    (parent : changed.parent = task.parent)
    (tasks : ∀ other, next.task? other = if other = slot then some changed else roster.task? other)
    {heldNow : List TaskId} {owedNow : Option Slot}
    (own : changed.references = changed.life.count + (roster.children slot).card +
      heldNow.count task.id + if owedNow = some slot then 1 else 0)
    (positive : 0 < changed.references)
    (others : ∀ {other found}, other ≠ slot → roster.task? other = some found →
      (heldNow.count found.id + if owedNow = some other then 1 else 0) =
        held.count found.id + if owed = some other then 1 else 0)
    (kept : ∀ {id}, id ∈ heldNow → id ∈ held ∨ id = task.id) :
    next.Counted registry nextId heldNow owedNow := by
  have back {other : Slot} {found : Task} (foundPresent : next.task? other = some found) :
      (other = slot ∧ found = changed) ∨ (other ≠ slot ∧ roster.task? other = some found) := by
    rw [tasks] at foundPresent
    split at foundPresent
    · rename_i same
      exact Or.inl ⟨same, (Option.some.inj foundPresent).symm⟩
    · rename_i differ
      exact Or.inr ⟨differ, foundPresent⟩
  have forth {other : Slot} {found : Task} (foundPresent : roster.task? other = some found) :
      ∃ later, next.task? other = some later ∧ later.id = found.id := by
    rw [tasks]
    split
    · rename_i same
      subst same
      rw [present] at foundPresent
      exact ⟨changed, rfl, by rw [id, Option.some.inj foundPresent]⟩
    · exact ⟨found, foundPresent, rfl⟩
  have children (other : Slot) : next.children other = roster.children other := by
    refine children_congr (fun child => ?_) other
    rw [tasks]
    split
    · rename_i same
      rw [same, present, Option.map_some, Option.map_some, parent]
    · rfl
  have ids (other : Slot) : (next.task? other).map Task.id = (roster.task? other).map Task.id := by
    rw [tasks]
    split
    · rename_i same
      rw [same, present, Option.map_some, Option.map_some, id]
    · rfl
  refine ⟨counted.enrolled.congr ids _ _, fun {other found} foundPresent => ?_,
    fun {other found parent'} foundPresent ownParent => ?_, fun {other found} foundPresent => ?_,
    fun {other found} foundPresent => ?_, fun {id'} member => ?_⟩
  · rcases back foundPresent with ⟨rfl, rfl⟩ | ⟨_, before⟩
    · rw [id]
      exact counted.numbered present
    · exact counted.numbered before
  · obtain ⟨before, found', present'⟩ :
        parent' < other ∧ ∃ found, roster.task? parent' = some found := by
      rcases back foundPresent with ⟨rfl, rfl⟩ | ⟨_, before⟩
      · rw [parent] at ownParent
        exact counted.parent present ownParent
      · exact counted.parent before ownParent
    obtain ⟨later, laterPresent, _⟩ := forth present'
    exact ⟨before, later, laterPresent⟩
  · rw [children other]
    rcases back foundPresent with ⟨rfl, rfl⟩ | ⟨differ, before⟩
    · rw [id]
      exact own
    · have known := counted.references before
      have same := others differ before
      omega
  · rcases back foundPresent with ⟨rfl, rfl⟩ | ⟨_, before⟩
    · exact positive
    · exact counted.referenced before
  · rcases kept member with before | rfl
    · exact counted.held before
    · exact ⟨slot, counted.registered.mpr ⟨task, present, rfl⟩⟩

/-! ### References given and taken -/

/-- One task changes what it counts where it is. -/
theorem recountAt (counted : roster.Counted registry nextId held owed)
    (present : roster.task? slot = some task) {change : Task → Task} {references : Nat}
    {life : Life}
    (account : (change task).account = (task.id, task.parent, references, life))
    {heldNow : List TaskId} {owedNow : Option Slot}
    (own : references = life.count + (roster.children slot).card + heldNow.count task.id +
      if owedNow = some slot then 1 else 0) (positive : 0 < references)
    (others : ∀ {other found}, other ≠ slot → roster.task? other = some found →
      (heldNow.count found.id + if owedNow = some other then 1 else 0) =
        held.count found.id + if owed = some other then 1 else 0)
    (kept : ∀ {id}, id ∈ heldNow → id ∈ held ∨ id = task.id) :
    (roster.alter slot change).Counted registry nextId heldNow owedNow := by
  simp only [Task.account, Prod.mk.injEq] at account
  obtain ⟨id, parent, references', life'⟩ := account
  refine counted.recount present id parent (task?_alter_of_present present change) ?_ ?_ others kept
  · rw [references', life']
    exact own
  · rw [references']
    exact positive

/-- A task is given a reference, which is owed to it from then on. -/
theorem borrow (counted : roster.Counted registry nextId held none)
    (present : roster.task? slot = some task) :
    (roster.alter slot fun task => { task with references := task.references + 1 }).Counted registry
      nextId held (some slot) := by
  have known := counted.references present
  refine counted.recountAt present rfl ?_ (Nat.succ_pos task.references) (fun differ _ => ?_) Or.inl
  · simpa using known
  · simp [Ne.symm differ]

/-- A task gives up the reference that is owed, and keeps others. -/
theorem repay (counted : roster.Counted registry nextId held (some slot))
    (present : roster.task? slot = some task) {left : Nat} (more : task.references = left + 2) :
    (roster.alter slot fun task => { task with references := left + 1 }).Counted registry
      nextId held none := by
  have known := counted.references present
  refine counted.recountAt present rfl ?_ (Nat.succ_pos left) (fun differ _ => ?_) Or.inl
  · rw [if_pos rfl, more] at known
    exact Nat.succ.inj known
  · simp [Ne.symm differ]

/-- The embedder holds a task once more. -/
theorem hold (counted : roster.Counted registry nextId held none)
    (present : roster.task? slot = some task) :
    (roster.alter slot fun task => { task with references := task.references + 1 }).Counted registry
      nextId (task.id :: held) none := by
  have known := counted.references present
  refine counted.recountAt present rfl ?_ (Nat.succ_pos task.references)
    (fun differ foundPresent => ?_) fun member => (List.mem_cons.mp member).symm
  · rw [List.count_cons_self, known]
    simp only [reduceCtorEq, if_false]
    omega
  · rw [List.count_cons_of_ne fun same => differ (counted.eq_of_id present foundPresent same.symm)]

/-- The embedder holds a task once less, and the reference is owed. -/
theorem unhold (counted : roster.Counted registry nextId held none)
    (present : roster.task? slot = some task) (member : task.id ∈ held) :
    roster.Counted registry nextId (held.erase task.id) (some slot) := by
  have known := counted.references present
  have positive := List.count_pos_iff.mpr member
  refine counted.recount present rfl rfl (fun other => ?_) ?_ (counted.referenced present)
    (fun differ foundPresent => ?_) fun member => Or.inl (List.mem_of_mem_erase member)
  · split
    · rename_i same
      rw [same, present]
    · rfl
  · rw [if_neg nofun] at known
    rw [if_pos rfl, List.count_erase_self]
    omega
  · rw [List.count_erase_of_ne fun same => differ (counted.eq_of_id present foundPresent same)]
    simp [Ne.symm differ]

/-- A task ends, and the reference that stood for its life is owed. -/
theorem finish (counted : roster.Counted registry nextId held none)
    (present : roster.task? slot = some task) (alive : task.life = .alive) :
    (roster.alter slot Task.ended).Counted registry nextId held (some slot) := by
  have known := counted.references present
  have account : task.ended.account = (task.id, task.parent, task.references, .zombie) := rfl
  refine counted.recountAt present account ?_ (counted.referenced present)
    (fun differ _ => ?_) Or.inl
  · rw [alive] at known
    rw [if_pos rfl, known]
    simp only [Life.count, reduceCtorEq, if_false]
    omega
  · simp [Ne.symm differ]

/-! ### Tasks come and go -/

/-- A task whose last reference is owed goes, and then its parent is owed one. -/
theorem drop (counted : roster.Counted registry nextId held (some slot))
    (present : roster.task? slot = some task) (last : task.references = 1) :
    (roster.setTask slot none).Counted (registry.erase task.id) nextId held task.parent ∧
      task.life = .zombie := by
  have known := counted.references present
  rw [last, if_pos rfl] at known
  have childless : roster.children slot = ∅ := Finset.card_eq_zero.mp (by omega)
  have unheld : held.count task.id = 0 := by omega
  have ended : task.life = .zombie := by
    cases life : task.life with
    | alive =>
      rw [life] at known
      simp only [Life.count] at known
      omega
    | zombie => rfl
  refine ⟨⟨counted.enrolled.drop present _ _,
    fun foundPresent => counted.numbered (of_task?_drop foundPresent).2,
    fun {other found parent} foundPresent own => ?_, fun {other found} foundPresent => ?_,
    fun foundPresent => counted.referenced (of_task?_drop foundPresent).2,
    fun {id} member => ?_⟩, ended⟩
  · obtain ⟨_, before⟩ := of_task?_drop foundPresent
    obtain ⟨sooner, parentTask, parentPresent⟩ := counted.parent before own
    refine ⟨sooner, parentTask, task?_drop_of_present ?_ parentPresent⟩
    rintro rfl
    have child : other ∈ roster.children parent := mem_children.mpr ⟨found, before, own⟩
    rw [childless] at child
    exact absurd child (Finset.notMem_empty other)
  · obtain ⟨differ, before⟩ := of_task?_drop foundPresent
    have exact' := counted.references before
    have notOwed : ¬ some slot = some other := fun same => differ (Option.some.inj same).symm
    rw [if_neg notOwed] at exact'
    rw [children_drop]
    by_cases own : task.parent = some other
    · have child : slot ∈ roster.children other := mem_children.mpr ⟨task, present, own⟩
      have positive := Finset.card_pos.mpr ⟨slot, child⟩
      rw [Finset.card_erase_of_mem child, if_pos own]
      omega
    · have notChild : slot ∉ roster.children other := by
        rw [mem_children]
        rintro ⟨found', present', own'⟩
        rw [present] at present'
        exact own (by rw [Option.some.inj present', own'])
      rw [Finset.erase_eq_of_notMem notChild, if_neg own]
      exact exact'
  · obtain ⟨other, found⟩ := counted.held member
    refine ⟨other, ?_⟩
    rw [Table.find?_erase_other registry, found]
    rintro rfl
    exact List.count_eq_zero.mp unheld member

/-- A place that was not given out yet is the parent of no task. -/
theorem children_size (counted : roster.Counted registry nextId held owed) :
    roster.children roster.tasks.size = ∅ := by
  refine Finset.eq_empty_of_forall_notMem fun child member => ?_
  obtain ⟨childTask, childPresent, childParent⟩ := mem_children.mp member
  obtain ⟨_, parentTask, parentPresent⟩ := counted.parent childPresent childParent
  exact absurd (lt_size_of_task?_eq_some parentPresent) (Nat.lt_irrefl _)

/-- A task that is held is known by its number. -/
theorem count_eq_zero (counted : roster.Counted registry nextId held owed) {id : TaskId}
    (fresh : registry.find? id = none) : held.count id = 0 := by
  refine List.count_eq_zero.mpr fun member => ?_
  obtain ⟨slot, known⟩ := counted.held member
  rw [fresh] at known
  exact absurd known nofun

/-- A task that has not been there before comes, with a reference to its parent. -/
theorem push (counted : roster.Counted registry nextId held task.parent)
    (fresh : registry.find? task.id = none) (alive : task.life = .alive)
    (own : task.references = 1) (numbered : task.id.number < nextId.number)
    (parentKnown : ∀ parent, task.parent = some parent →
      ∃ found, roster.task? parent = some found) :
    ({ roster with tasks := roster.tasks.push (some task) } : Roster).Counted
      (registry.insert task.id roster.tasks.size) nextId held none := by
  have within {other : Slot} {found : Task} (foundPresent : roster.task? other = some found) :
      other ≠ roster.tasks.size :=
    Nat.ne_of_lt (lt_size_of_task?_eq_some foundPresent)
  refine ⟨counted.enrolled.push fresh _ _, fun {other found} foundPresent => ?_,
    fun {other found parent} foundPresent ownParent => ?_, fun {other found} foundPresent => ?_,
    fun {other found} foundPresent => ?_, fun {id} member => ?_⟩
  · rcases of_task?_push foundPresent with ⟨_, rfl⟩ | before
    · exact numbered
    · exact counted.numbered before
  · rcases of_task?_push foundPresent with ⟨rfl, rfl⟩ | before
    · obtain ⟨parentTask, parentPresent⟩ := parentKnown parent ownParent
      exact ⟨lt_size_of_task?_eq_some parentPresent, parentTask,
        task?_push_of_present parentPresent⟩
    · obtain ⟨sooner, parentTask, parentPresent⟩ := counted.parent before ownParent
      exact ⟨sooner, parentTask, task?_push_of_present parentPresent⟩
  · have notOwed : ¬ (none : Option Slot) = some other := by simp
    rw [children_push, if_neg notOwed]
    rcases of_task?_push foundPresent with ⟨rfl, rfl⟩ | before
    · have notOwn : found.parent ≠ some roster.tasks.size := by
        intro ownParent
        obtain ⟨parentTask, parentPresent⟩ := parentKnown _ ownParent
        exact within parentPresent rfl
      rw [if_neg notOwn, counted.children_size, counted.count_eq_zero fresh, own, alive]
      rfl
    · have known := counted.references before
      have newcomer : roster.tasks.size ∉ roster.children other := by
        rw [mem_children]
        rintro ⟨_, childPresent, _⟩
        exact within childPresent rfl
      by_cases ownParent : task.parent = some other
      · rw [if_pos ownParent, Finset.card_insert_of_notMem newcomer]
        rw [if_pos ownParent] at known
        omega
      · rw [if_neg ownParent]
        rw [if_neg ownParent] at known
        exact known
  · rcases of_task?_push foundPresent with ⟨_, rfl⟩ | before
    · rw [own]
      exact Nat.one_pos
    · exact counted.referenced before
  · obtain ⟨other, known⟩ := counted.held member
    refine ⟨other, ?_⟩
    rw [Table.find?_insert_other registry _ ?_, known]
    rintro rfl
    rw [fresh] at known
    exact absurd known nofun

end Counted

end Roster

end TaskMachine

/-
What a thread counts, beside the record. For every task that it has taken in there
is a promise, in the order in which they were taken in; a promise is gone exactly
if it was counted off. A promise that is still there can be counted off, and is
then gone, so none is counted off twice. The two numbers that a thread keeps follow
from that: one only grows, with each task that is taken in, and the other one is
how many promises are left.

`Stride.tallied` says so of one step, whatever it is.
-/

import Mathlib.Data.List.Nodup
import TaskMachine.Proofs.Pool.Verdicts

namespace TaskMachine

namespace Pool

/-! ### What a thread has taken in and counted off -/

/-- The task that a thread takes in, and its completion. -/
def Deed.taken? (thread : Nat) : Deed → Option (TaskId × Nat)
  | took other id completion => if other = thread then some (id, completion) else none
  | _ => none

/-- The completion that a thread counts off. -/
def Deed.counted? (thread : Nat) : Deed → Option Nat
  | counted other completion => if other = thread then some completion else none
  | _ => none

theorem toList_took (thread : Nat) (id : TaskId) (completion : Nat) :
    ((some (Deed.took thread id completion)).bind (Deed.taken? thread)).toList =
      [(id, completion)] :=
  congrArg Option.toList (if_pos rfl)

theorem toList_counted (thread completion : Nat) :
    ((some (Deed.counted thread completion)).bind (Deed.counted? thread)).toList = [completion] :=
  congrArg Option.toList (if_pos rfl)

/-- The tasks that a thread has taken in and their completions, in order. -/
def takenBy (thread : Nat) (deeds : List Deed) : List (TaskId × Nat) :=
  deeds.filterMap (Deed.taken? thread)

/-- The completions that a thread has counted off, in order. -/
def countedBy (thread : Nat) (deeds : List Deed) : List Nat :=
  deeds.filterMap (Deed.counted? thread)

variable {deeds : List Deed} {thread completion : Nat} {id : TaskId}

theorem mem_takenBy : (id, completion) ∈ takenBy thread deeds ↔
    .took thread id completion ∈ deeds := by
  constructor
  · intro member
    obtain ⟨deed, there, is⟩ := List.mem_filterMap.mp member
    cases deed with
    | took other id completion =>
      obtain ⟨rfl, same⟩ := Option.ite_none_right_eq_some.mp is
      obtain ⟨rfl, rfl⟩ := Prod.mk.inj (Option.some.inj same)
      exact there
    | _ => exact absurd is nofun
  · exact fun there => List.mem_filterMap.mpr ⟨_, there, if_pos rfl⟩

theorem mem_countedBy : completion ∈ countedBy thread deeds ↔
    .counted thread completion ∈ deeds := by
  constructor
  · intro member
    obtain ⟨deed, there, is⟩ := List.mem_filterMap.mp member
    cases deed with
    | counted other completion =>
      obtain ⟨rfl, same⟩ := Option.ite_none_right_eq_some.mp is
      obtain rfl := Option.some.inj same
      exact there
    | _ => exact absurd is nofun
  · exact fun there => List.mem_filterMap.mpr ⟨_, there, if_pos rfl⟩

theorem takenBy_append (thread : Nat) (deeds : List Deed) (deed : Option Deed) :
    takenBy thread (deeds ++ deed.toList) =
      takenBy thread deeds ++ (deed.bind (Deed.taken? thread)).toList := by
  rw [takenBy, takenBy, List.filterMap_append]
  cases deed with
  | none => rfl
  | some deed => cases taken : deed.taken? thread <;> simp [taken]

theorem countedBy_append (thread : Nat) (deeds : List Deed) (deed : Option Deed) :
    countedBy thread (deeds ++ deed.toList) =
      countedBy thread deeds ++ (deed.bind (Deed.counted? thread)).toList := by
  rw [countedBy, countedBy, List.filterMap_append]
  cases deed with
  | none => rfl
  | some deed => cases counted : deed.counted? thread <;> simp [counted]

end Pool

/-! ### The promises of a thread -/

theorem getElem?_append_one {Item : Type} (items : List Item) (last : Item) (index : Nat) :
    (items ++ [last])[index]? = if index = items.length then some last else items[index]? := by
  rw [List.getElem?_append, List.getElem?_singleton]
  rcases Nat.lt_trichotomy index items.length with below | rfl | above
  · rw [if_pos below, if_neg (Nat.ne_of_lt below)]
  · rw [if_neg (Nat.lt_irrefl _), if_pos (Nat.sub_self _), if_pos rfl]
  · rw [if_neg (Nat.lt_asymm above), if_neg (Nat.sub_ne_zero_of_lt above),
      if_neg (Nat.ne_of_gt above), List.getElem?_eq_none (Nat.le_of_lt above)]

/-- What is found in a list with one more item was there before, or is the item. -/
theorem getElem?_append_one_eq_some_iff {Item : Type} {items : List Item} {last found : Item}
    {index : Nat} : (items ++ [last])[index]? = some found ↔
      items[index]? = some found ∨ index = items.length ∧ found = last := by
  rw [getElem?_append_one]
  split
  · rename_i is
    rw [is, List.getElem?_eq_none (Nat.le_refl _), Option.some.injEq, eq_comm]
    exact ⟨fun same => Or.inr ⟨rfl, same⟩, fun either => (either.resolve_left nofun).2⟩
  · rename_i differs
    exact (or_iff_left fun either => differs either.1).symm

/-- What a thread has promised and what it counts agree with what it has taken in and with what it
has counted off. -/
structure Worker.Tallied (worker : Worker) (taken : List (TaskId × Nat)) (counted : List Nat) :
    Prop where
  promises : ∀ promise : Nat, worker.promises[promise]? =
    taken[promise]?.map fun task => if task.2 ∈ counted then none else some task.2
  once : (taken.map Prod.snd).Nodup
  countedOnce : counted.Nodup
  among : counted ⊆ taken.map Prod.snd
  executing : worker.executing + counted.length = taken.length
  total : worker.total = taken.length
  fresh : ∀ command ∈ worker.commands, command.completion ∉ taken.map Prod.snd

namespace Worker.Tallied

variable {worker later : Worker} {taken : List (TaskId × Nat)} {counted : List Nat}
  {promise completion : Nat} {id : TaskId}

/-- A thread that has been sent messages at most, or has lost tasks on their way to it. -/
theorem congr (tallied : worker.Tallied taken counted) (promises : later.promises = worker.promises)
    (executing : later.executing = worker.executing) (total : later.total = worker.total)
    (commands : later.commands ⊆ worker.commands) : later.Tallied taken counted where
  promises := promises ▸ tallied.promises
  once := tallied.once
  countedOnce := tallied.countedOnce
  among := tallied.among
  executing := executing ▸ tallied.executing
  total := total ▸ tallied.total
  fresh := fun command member => tallied.fresh command (commands member)

/-- A task is sent, whose completion is new. -/
theorem sent (tallied : worker.Tallied taken counted) {command : Command}
    (fresh : command.completion ∉ taken.map Prod.snd) (mailroom : Mailroom) :
    (worker.sent mailroom command).Tallied taken counted where
  promises := tallied.promises
  once := tallied.once
  countedOnce := tallied.countedOnce
  among := tallied.among
  executing := tallied.executing
  total := tallied.total
  fresh := fun other member => by
    rcases List.mem_append.mp member with earlier | now
    · exact tallied.fresh other earlier
    · exact List.mem_singleton.mp now ▸ fresh

theorem size_promises (tallied : worker.Tallied taken counted) :
    worker.promises.size = taken.length := by
  have promises := tallied.promises taken.length
  have before := tallied.promises worker.promises.size
  rw [List.getElem?_eq_none (Nat.le_refl _)] at promises
  rw [Array.getElem?_eq_none (Nat.le_refl _)] at before
  refine Nat.le_antisymm (Array.getElem?_eq_none_iff.mp promises) ?_
  exact List.getElem?_eq_none_iff.mp (Option.map_eq_none_iff.mp before.symm)

/-- A promise is there for a task that was taken in and not counted off. -/
theorem promised_iff (tallied : worker.Tallied taken counted) :
    worker.promises[promise]?.join = some completion ↔
      (∃ id, taken[promise]? = some (id, completion)) ∧ completion ∉ counted := by
  rw [Option.join_eq_some_iff, tallied.promises, Option.map_eq_some_iff]
  constructor
  · rintro ⟨⟨id, other⟩, there, is⟩
    obtain ⟨apart, is⟩ := Option.ite_none_left_eq_some.mp is
    obtain rfl := Option.some.inj is
    exact ⟨⟨id, there⟩, apart⟩
  · rintro ⟨⟨id, there⟩, apart⟩
    exact ⟨(id, completion), there, if_neg apart⟩

/-- Two tasks have two completions. -/
theorem eq_of_completion (tallied : worker.Tallied taken counted) {other : Nat} {another : TaskId}
    (there : taken[promise]? = some (id, completion))
    (otherThere : taken[other]? = some (another, completion)) : promise = other := by
  obtain ⟨within, _⟩ := List.getElem?_eq_some_iff.mp there
  have within : promise < (taken.map Prod.snd).length := (List.length_map Prod.snd).symm ▸ within
  refine (List.getElem?_inj within tallied.once).mp ?_
  rw [List.getElem?_map, List.getElem?_map, there, otherThere]
  rfl

/-- As many tasks have been counted off as were. -/
theorem countP_counted (tallied : worker.Tallied taken counted) :
    (taken.countP fun task => task.2 ∈ counted) = counted.length := by
  have perm : ((taken.map Prod.snd).filter (· ∈ counted)).Perm counted := by
    refine (List.perm_ext_iff_of_nodup (tallied.once.filter _) tallied.countedOnce).mpr ?_
    intro completion
    rw [List.mem_filter, decide_eq_true_iff]
    exact and_iff_right_of_imp fun member => tallied.among member
  rw [← perm.length_eq, ← List.countP_eq_length_filter, List.countP_map]
  rfl

/-- A thread counts the tasks that it has taken in and not counted off. -/
theorem executing_eq (tallied : worker.Tallied taken counted) :
    worker.executing = taken.countP fun task => task.2 ∉ counted := by
  have all := taken.length_eq_countP_add_countP fun task => decide (task.2 ∈ counted)
  have executing := tallied.executing
  rw [tallied.countP_counted] at all
  simp only [decide_eq_true_eq] at all
  omega

/-- A task is taken in. -/
theorem takesIn (tallied : worker.Tallied taken counted) {command : Command} {rest : List Command}
    (next : worker.commands = command :: rest)
    (once : (worker.commands.map Command.completion).Nodup) (scheduler : Scheduler) :
    Tallied
      { worker with
        scheduler
        commands := rest
        promises := worker.promises.push (some command.completion)
        executing := worker.executing + 1
        total := worker.total + 1 }
      (taken ++ [(command.id, command.completion)]) counted := by
  rw [next, List.map_cons, List.nodup_cons] at once
  have fresh := tallied.fresh command (next ▸ List.mem_cons_self)
  have uncounted : command.completion ∉ counted := fun member => fresh (tallied.among member)
  have completions : (taken ++ [(command.id, command.completion)]).map Prod.snd =
      taken.map Prod.snd ++ [command.completion] := List.map_append
  refine ⟨fun promise => ?_, ?_, tallied.countedOnce, ?_, ?_, ?_, fun other member => ?_⟩
  · show (worker.promises.push (some command.completion))[promise]? = _
    rw [Array.getElem?_push, getElem?_append_one, tallied.size_promises]
    split
    · rw [Option.map_some, if_neg uncounted]
    · exact tallied.promises promise
  · rw [completions]
    exact tallied.once.append (List.pairwise_singleton _ _) (List.disjoint_singleton.mpr fresh)
  · rw [completions]
    exact List.subset_append_of_subset_left _ tallied.among
  · have executing := tallied.executing
    rw [List.length_append, List.length_singleton, ← executing]
    exact Nat.add_right_comm _ _ _
  · rw [List.length_append, List.length_singleton, ← tallied.total]
  · rw [completions, List.mem_append, List.mem_singleton]
    rintro (earlier | same)
    · exact tallied.fresh other (next ▸ List.mem_cons_of_mem _ member) earlier
    · exact once.1 (same ▸ List.mem_map_of_mem member)

/-- A promise is counted off. There is one less then, and there was one. -/
theorem countsOff (tallied : worker.Tallied taken counted)
    (promised : worker.promises[promise]?.join = some completion) (phase : Phase) :
    0 < worker.executing ∧
    Tallied
      { worker with
        promises := worker.promises.setIfInBounds promise none
        executing := worker.executing - 1
        phase }
      taken (counted ++ [completion]) := by
  obtain ⟨⟨id, there⟩, uncounted⟩ := tallied.promised_iff.mp promised
  have known : completion ∈ taken.map Prod.snd :=
    List.mem_map_of_mem (f := Prod.snd) (List.mem_of_getElem? there)
  have once : (counted ++ [completion]).Nodup :=
    tallied.countedOnce.append (List.pairwise_singleton _ _)
      (List.disjoint_singleton.mpr uncounted)
  have among : counted ++ [completion] ⊆ taken.map Prod.snd :=
    List.append_subset.mpr ⟨tallied.among, List.cons_subset.mpr ⟨known, List.nil_subset _⟩⟩
  have fewer : counted.length + 1 ≤ taken.length := by
    have fewer := (once.subperm among).length_le
    rwa [List.length_append, List.length_singleton, List.length_map] at fewer
  have executing := tallied.executing
  refine ⟨by omega, fun other => ?_, tallied.once, once, among, ?_, tallied.total, tallied.fresh⟩
  · show (worker.promises.setIfInBounds promise none)[other]? = _
    rw [Array.getElem?_setIfInBounds]
    split
    · rename_i same
      obtain ⟨within, _⟩ := List.getElem?_eq_some_iff.mp there
      rw [← same, there, if_pos (tallied.size_promises ▸ within), Option.map_some,
        if_pos (List.mem_append_right _ List.mem_cons_self)]
    · rename_i differ
      rw [tallied.promises]
      refine Option.map_congr fun task member => if_congr ?_ rfl rfl
      obtain ⟨another, other⟩ := task
      rw [List.mem_append, List.mem_singleton]
      refine (or_iff_left ?_).symm
      rintro rfl
      exact differ (tallied.eq_of_completion there member)
  · rw [List.length_append, List.length_singleton]
    show worker.executing - 1 + _ = _
    omega

end Worker.Tallied

/-- A thread at the start. -/
theorem Worker.tallied_new (config : Config) (patience : Nat) :
    (Worker.new config patience).Tallied [] [] where
  promises := fun _ => rfl
  once := List.nodup_nil
  countedOnce := List.nodup_nil
  among := List.nil_subset _
  executing := rfl
  total := rfl
  fresh := fun _ member => absurd member List.not_mem_nil

/-! ### Steps -/

variable {pool : Pool} {index : Nat} {worker after : Worker} {nextId : TaskId}
  {deed : Option Pool.Deed} {taken : List (TaskId × Nat)} {counted : List Nat}

/-- Whatever a thread does, what it counts agrees with what it has done. -/
theorem Stride.tallied (stride : Stride pool index worker after nextId deed)
    (tallied : worker.Tallied taken counted) (once : worker.owing.Nodup) :
    after.Tallied (taken ++ (deed.bind (Pool.Deed.taken? index)).toList)
      (counted ++ (deed.bind (Pool.Deed.counted? index)).toList) := by
  have idly {later : Worker} (tallied : later.Tallied taken counted) :
      later.Tallied (taken ++ []) (counted ++ []) := by
    rwa [List.append_nil, List.append_nil]
  cases stride with
  | looks | receives | ticks | goesOn | skips | fills | waits | wakes | drained =>
    exact idly (tallied.congr rfl rfl rfl (List.Subset.refl _))
  | closes | crashes => exact idly (tallied.congr rfl rfl rfl (List.nil_subset _))
  | drains _ next =>
    exact idly (tallied.congr rfl rfl rfl (next ▸ List.subset_cons_self _ _))
  | takesIn _ next =>
    rw [Pool.toList_took]
    show Worker.Tallied _ _ (counted ++ [])
    rw [List.append_nil]
    exact tallied.takesIn next (List.nodup_append.mp once).1 _
  | countsOff _ promised =>
    rw [Pool.toList_counted]
    show Worker.Tallied _ (taken ++ []) _
    rw [List.append_nil]
    exact (tallied.countsOff promised _).2

end TaskMachine

/-
Tasks are known by numbers. The numbers are handed out from a counter, starting
at one.
-/

namespace TaskMachine

/-- The number of a task. -/
structure TaskId where
  number : Nat
  deriving DecidableEq, Repr, Inhabited

namespace TaskId

/-- The number of the first task. -/
def first : TaskId := ⟨1⟩

/-- The number after this one. -/
def next (id : TaskId) : TaskId := ⟨id.number + 1⟩

/-- How a task is referred to in texts. -/
def text (id : TaskId) : String := "#" ++ id.number.repr

/-- The number of a task as a number that programs can work with. -/
def toFloat (id : TaskId) : Float := id.number.toUInt64.toFloat

end TaskId

end TaskMachine

/-
How a task of a pool is listed for debugging: by its number and its outcome.
-/

import TaskMachine.Pool.Basic
import TaskMachine.Value.Listing

namespace TaskMachine

/-- The listing of a failure. -/
def Failure.listing : Failure → String
  | .fault reason => "Fault(" ++ reason.listing ++ ")"
  | .orphaned => "Orphaned"
  | .shutdown => "Shutdown"

/-- The listing of an outcome. -/
def outcomeListing : Outcome → String
  | .ok values => "Ok(" ++ bracketed (values.map Value.listing) ++ ")"
  | .error failure => "Err(" ++ failure.listing ++ ")"

/-- The listing of a task of a pool. -/
def Pool.listing (pool : Pool) (handle : Handle) : String :=
  "TaskHandle \x7b id: TaskId(" ++ handle.id.number.repr ++ "), result: " ++
    (match pool.result? handle.completion with
      | some outcome => "Some(" ++ outcomeListing outcome ++ ")"
      | none => "None") ++
    ", .. \x7d"

end TaskMachine

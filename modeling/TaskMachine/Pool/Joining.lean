/-
What a holder of a pool can wait for. While it waits, the threads make their
steps in turn, one each in a round, and from time to time the clock goes on to
the next timer that is due. That is one of the orders in which the steps can be
made; where an answer hangs on the order, it is the answer of this one.
-/

import TaskMachine.Pool.Worker

namespace TaskMachine.Pool

/-- One step of each thread that can make one. Tells whether there was one. -/
def round (pool : Pool) : Pool × Bool :=
  (List.range pool.workers.size).foldl
    (fun (pool, moved) index =>
      match pool.step index with
      | some next => (next, true)
      | none => (pool, moved))
    (pool, false)

/-- So many rounds, or as many as it takes until no thread can make a step. Tells whether none
can. -/
def settle : Nat → Pool → Pool × Bool
  | 0, pool => (pool, false)
  | rounds + 1, pool =>
    match pool.round with
    | (next, true) => settle rounds next
    | (next, false) => (next, true)

/-- When the next timer of any thread is due. -/
def nextDeadline (pool : Pool) : Option Nat :=
  (pool.workers.toList.filterMap fun worker => worker.scheduler.agenda.nextDeadline).min?

/-- How many rounds the threads are given between two looks at what is waited for. -/
def patience : Nat := 1000

/-- The time that so many rounds are taken to last, in nanoseconds. -/
def lookTime : Nat := 1000000

/-- Waits until a task has an outcome or a time is reached, for at most so many looks. Without a
time, and with no thread that can make a step and no timer that is due, it gives up. -/
def joinWithin (completion : Nat) (until? : Option Nat) : Nat → Pool → Pool × Option Outcome
  | 0, pool => (pool, none)
  | looks + 1, pool =>
    let (settled, quiet) := pool.settle patience
    match settled.result? completion with
    | some outcome => (settled, some outcome)
    | none =>
      let ahead := (settled.nextDeadline).filter (settled.clock < ·)
      match ahead, until? with
      | some deadline, none => joinWithin completion until? looks { settled with clock := deadline }
      | none, none => if quiet then (settled, none) else joinWithin completion until? looks settled
      | some deadline, some limit =>
        if deadline ≤ limit then
          joinWithin completion until? looks { settled with clock := deadline }
        else ({ settled with clock := max settled.clock limit }, none)
      | none, some limit =>
        if quiet ∨ limit ≤ settled.clock then
          ({ settled with clock := max settled.clock limit }, none)
        else joinWithin completion until? looks { settled with clock := settled.clock + lookTime }

/-- More looks than any wait that ends can take. -/
def manyLooks : Nat := Nat.pow 2 60

/-- Waits until a task has an outcome. -/
def join (pool : Pool) (handle : Handle) : Pool × Option Outcome :=
  pool.joinWithin handle.completion none manyLooks

/-- Waits until a task has an outcome, but no longer than so many nanoseconds. -/
def joinFor (pool : Pool) (handle : Handle) (duration : Nat) : Pool × Option Outcome :=
  pool.joinWithin handle.completion (some (pool.clock + duration)) manyLooks

/-- Shuts the pool down and waits until all threads have stopped. Tells whether none of them was
stopped by a crash. A second shutdown does nothing. -/
def shutdown (pool : Pool) : Pool × Bool :=
  if pool.stopping then (pool, true)
  else
    let (stopped, _) := pool.beginShutdown.unlist.unparkAll.settle manyLooks
    (stopped, stopped.workers.all Worker.isSound)

end TaskMachine.Pool

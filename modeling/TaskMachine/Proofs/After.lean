/-
What holds after an operation that may break off. `After` puts one condition on
the result with the state that goes with it, and another on the crash with the
state that it leaves. The lemmas follow how operations are put together, so that
what is known of the parts is used by name and no part is opened twice.
-/

namespace TaskMachine

variable {Failure State Result Other : Type}

/-! ### What operations do, step by step -/

theorem bind_apply (operation : EStateM Failure State Result)
    (next : Result → EStateM Failure State Other) (state : State) :
    (operation >>= next) state =
      match operation state with
      | .ok result middle => next result middle
      | .error crash middle => .error crash middle := rfl

theorem pure_apply (result : Result) (state : State) :
    (pure result : EStateM Failure State Result) state = .ok result state := rfl

theorem throw_apply (crash : Failure) (state : State) :
    (throw crash : EStateM Failure State Result) state = .error crash state := rfl

theorem get_apply (state : State) :
    (get : EStateM Failure State State) state = .ok state state := rfl

theorem modify_apply (change : State → State) (state : State) :
    (modify change : EStateM Failure State PUnit) state = .ok ⟨⟩ (change state) := rfl

/-! ### What holds afterwards -/

/-- One condition holds if an operation succeeds, and another if it breaks off. -/
def After (operation : EStateM Failure State Result) (state : State)
    (success : Result → State → Prop) (failure : Failure → State → Prop) : Prop :=
  match operation state with
  | .ok result next => success result next
  | .error crash next => failure crash next

/-- The state that an operation leaves, whether it succeeds or breaks off. -/
def stateAfter (operation : EStateM Failure State Result) (state : State) : State :=
  match operation state with
  | .ok _ next => next
  | .error _ next => next

theorem stateAfter_of_ok {operation : EStateM Failure State Result} {state next : State}
    {result : Result} (runs : operation state = .ok result next) :
    stateAfter operation state = next := by
  rw [stateAfter, runs]

/-- What an operation answers if it succeeds. -/
def answer? (operation : EStateM Failure State Result) (state : State) : Option Result :=
  match operation state with
  | .ok result _ => some result
  | .error _ _ => none

/-- The crash at which an operation breaks off. -/
def crash? (operation : EStateM Failure State Result) (state : State) : Option Failure :=
  match operation state with
  | .ok _ _ => none
  | .error crash _ => some crash

theorem eq_ok_of_answer? {operation : EStateM Failure State Result} {state : State}
    {result : Result} (answers : answer? operation state = some result) :
    operation state = .ok result (stateAfter operation state) := by
  rw [answer?] at answers
  rw [stateAfter]
  cases runs : operation state with
  | ok found next =>
    rw [runs] at answers
    rw [← Option.some.inj answers]
  | error crash next =>
    rw [runs] at answers
    exact absurd answers nofun

namespace After

variable {operation : EStateM Failure State Result} {state : State}
  {success success' : Result → State → Prop} {failure failure' : Failure → State → Prop}

theorem of_ok {result : Result} {next : State} (runs : operation state = .ok result next)
    (succeeds : success result next) : After operation state success failure := by
  rw [After, runs]
  exact succeeds

theorem of_error {crash : Failure} {next : State} (runs : operation state = .error crash next)
    (fails : failure crash next) : After operation state success failure := by
  rw [After, runs]
  exact fails

theorem ok {result : Result} {next : State} (after : After operation state success failure)
    (runs : operation state = .ok result next) : success result next := by
  rw [After, runs] at after
  exact after

theorem error {crash : Failure} {next : State} (after : After operation state success failure)
    (runs : operation state = .error crash next) : failure crash next := by
  rw [After, runs] at after
  exact after

theorem mono (after : After operation state success failure)
    (succeeds : ∀ result next, success result next → success' result next)
    (fails : ∀ crash next, failure crash next → failure' crash next) :
    After operation state success' failure' := by
  cases runs : operation state with
  | ok result next => exact of_ok runs (succeeds result next (after.ok runs))
  | error crash next => exact of_error runs (fails crash next (after.error runs))

theorem imp (after : After operation state success failure)
    (succeeds : ∀ result next, success result next → success' result next) :
    After operation state success' failure :=
  after.mono succeeds fun _ _ => id

theorem and (after : After operation state success failure)
    (also : After operation state success' failure') :
    After operation state (fun result next => success result next ∧ success' result next)
      fun crash next => failure crash next ∧ failure' crash next := by
  cases runs : operation state with
  | ok result next => exact of_ok runs ⟨after.ok runs, also.ok runs⟩
  | error crash next => exact of_error runs ⟨after.error runs, also.error runs⟩

/-- What an operation does is what it does. -/
theorem known : After operation state (fun result next => operation state = .ok result next)
    fun crash next => operation state = .error crash next := by
  rw [After]
  cases operation state with
  | ok result next => rfl
  | error crash next => rfl

theorem pure {result : Result} (succeeds : success result state) :
    After (pure result) state success failure := succeeds

theorem throw {crash : Failure} (fails : failure crash state) :
    After (throw crash : EStateM Failure State Result) state success failure := fails

/-- One operation and then another: what the second one needs has to hold after the first. -/
theorem bind {next : Result → EStateM Failure State Other} {success : Other → State → Prop}
    (after : After operation state (fun result state => After (next result) state success failure)
      failure) : After (operation >>= next) state success failure := by
  cases runs : operation state with
  | ok result middle =>
    have continues : (operation >>= next) state = next result middle := by
      rw [bind_apply, runs]
    rw [After, continues]
    exact after.ok runs
  | error crash middle =>
    have stops : (operation >>= next) state = .error crash middle := by
      rw [bind_apply, runs]
    exact of_error stops (after.error runs)

/-- What holds after two operations holds after the second one, where the first one leads. -/
theorem unbind {next : Result → EStateM Failure State Other} {success : Other → State → Prop}
    (after : After (operation >>= next) state success failure) :
    After operation state (fun result state => After (next result) state success failure)
      failure := by
  cases runs : operation state with
  | ok result middle =>
    have continues : (operation >>= next) state = next result middle := by
      rw [bind_apply, runs]
    rw [After, continues] at after
    exact of_ok runs after
  | error crash middle =>
    have stops : (operation >>= next) state = .error crash middle := by
      rw [bind_apply, runs]
    exact of_error runs (after.error stops)

/-- One operation and then another, with what is known between them. -/
theorem andThen {next : Result → EStateM Failure State Other} {success' : Other → State → Prop}
    (first : After operation state success failure)
    (second : ∀ result middle, success result middle →
      After (next result) middle success' failure) :
    After (operation >>= next) state success' failure :=
  bind (first.imp second)

theorem get {success : State → State → Prop} (succeeds : success state state) :
    After (get : EStateM Failure State State) state success failure := succeeds

theorem set {next : State} {success : PUnit → State → Prop} (succeeds : success ⟨⟩ next) :
    After (set next : EStateM Failure State PUnit) state success failure := succeeds

theorem modify {change : State → State} {success : PUnit → State → Prop}
    (succeeds : success ⟨⟩ (change state)) :
    After (modify change : EStateM Failure State PUnit) state success failure := succeeds

theorem modifyGet {change : State → Result × State}
    (succeeds : success (change state).1 (change state).2) :
    After (modifyGet change : EStateM Failure State Result) state success failure := succeeds

/-- What each of several operations keeps holds after all of them. -/
theorem forM {Item : Type} {items : List Item} {operation : Item → EStateM Failure State PUnit}
    {kept : State → Prop} (each : ∀ item ∈ items, ∀ state, kept state →
      After (operation item) state (fun _ => kept) failure) (holds : kept state) :
    After (items.forM operation) state (fun _ => kept) failure := by
  induction items generalizing state with
  | nil => exact pure holds
  | cons item rest inductionHypothesis =>
    refine bind ((each item List.mem_cons_self state holds).mono (fun _ next kept => ?_)
      fun _ _ => id)
    exact inductionHypothesis (fun other member => each other (List.mem_cons_of_mem _ member)) kept

end After

end TaskMachine

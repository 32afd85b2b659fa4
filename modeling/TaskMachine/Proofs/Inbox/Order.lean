/-
Messages come out of a chain in the order in which their links became the head.

Whatever the order of the accesses, what was received is the beginning of what
was sent. While no sender is halfway, there is no gap in the row but the one in
front of the stub, and a receiver that is left alone finds whatever the row
carries.
-/

import TaskMachine.Proofs.Inbox.Row

namespace TaskMachine

variable {Content : Type}

/-! ### The stages come to an end -/

/-- How many stages are left at most. -/
def Stage.left : Stage Content → Nat
  | .start => 6
  | .passed => 5
  | .last => 4
  | .closing => 3
  | .hanging _ => 2
  | .again => 1
  | .done _ => 0

theorem Stage.ne_done {stage : Stage Content} (left : 0 < stage.left) (taken : Option Content) :
    stage ≠ .done taken := by
  rintro rfl
  exact absurd left (by simp [Stage.left])

theorem Chain.left_receiveStep (chain : Chain Content) {stage : Stage Content}
    (busy : ∀ taken, stage ≠ .done taken) : (chain.receiveStep stage).2.left < stage.left := by
  cases stage with
  | start =>
    simp only [receiveStep]
    split <;> split <;> simp [Stage.left, take]
  | passed | again =>
    simp only [receiveStep]
    split <;> simp [Stage.left, take]
  | last =>
    simp only [receiveStep]
    split <;> simp [Stage.left]
  | closing | hanging previous => simp [receiveStep, Stage.left]
  | done taken => exact absurd rfl (busy taken)

theorem Stage.taken_eq_none {stage : Stage Content} (busy : ∀ taken, stage ≠ .done taken) :
    stage.taken = none := by
  cases stage with
  | done taken => exact absurd rfl (busy taken)
  | _ => rfl

/-- A receiver that is done stays where it is. -/
theorem Chain.receiveSteps_done (chain : Chain Content) (taken : Option Content) (count : Nat) :
    chain.receiveSteps count (.done taken) = (chain, .done taken) := by
  induction count with
  | zero => rfl
  | succ count inductionHypothesis => exact inductionHypothesis

/-- After as many stages as are left the receiver is done. -/
theorem Chain.receiveSteps_ends (chain : Chain Content) {stage : Stage Content} {count : Nat}
    (enough : stage.left ≤ count) : ∃ taken, (chain.receiveSteps count stage).2 = .done taken := by
  induction count generalizing chain stage with
  | zero =>
    cases stage with
    | done taken => exact ⟨taken, rfl⟩
    | _ => simp [Stage.left] at enough
  | succ count inductionHypothesis =>
    by_cases busy : ∀ taken, stage ≠ .done taken
    · have fewer := Nat.lt_of_lt_of_le (chain.left_receiveStep busy) enough
      exact inductionHypothesis (chain.receiveStep stage).1 (Nat.le_of_lt_succ fewer)
    · obtain ⟨taken, rfl⟩ : ∃ taken, stage = .done taken := by simpa using busy
      exact ⟨taken, congrArg Prod.snd (chain.receiveSteps_done taken _)⟩

namespace Traffic

/-! ### A receiver that is left alone -/

/-- No sender is between its two accesses. -/
def Calm (traffic : Traffic Content) : Prop :=
  ∀ sender previous link, traffic.senders sender ≠ .halfway previous link

/-- What more is known at a stage of the receiver while no sender is halfway. -/
def AloneFits (traffic : Traffic Content) : Prop :=
  match traffic.stage with
  | .last | .closing => traffic.chain.next? traffic.chain.tail = none
  | .hanging previous => previous = traffic.chain.tail
  | .again => traffic.chain.next? traffic.chain.tail ≠ none
  | .done none => traffic.received = traffic.sent.map Prod.snd
  | .start | .passed | .done (some _) => True

/-- Without a gap in it, a row with nothing hung behind its first link holds nothing else. -/
theorem Row.eq_singleton_of_calm {traffic : Traffic Content} {row : List Nat}
    (fits : Row traffic row) (calm : traffic.Calm) (quiet : traffic.stage.isHanging = false)
    (nothing : traffic.chain.next? traffic.chain.tail = none) : row = [traffic.chain.tail] := by
  cases row with
  | nil => exact absurd fits.strung.front (by simp)
  | cons front rest =>
    obtain rfl : front = traffic.chain.tail := Option.some.inj fits.strung.front
    cases rest with
    | nil => rfl
    | cons second rest =>
      rcases fits.strung.joined (follows_cons_iff.mpr (Or.inl ⟨rfl, rfl⟩)) with
        joined | ⟨_, ⟨sender, place⟩ | ⟨place, _⟩⟩
      · rw [joined] at nothing
        exact absurd nothing (by simp)
      · exact absurd place (calm sender _ _)
      · exact absurd place (Stage.ne_hanging quiet _)

/-- If the row holds nothing but the stub, all that was sent was received. -/
theorem Row.received_of_stub {traffic : Traffic Content}
    (fits : Row traffic [Chain.stub]) : traffic.received = traffic.sent.map Prod.snd := by
  rw [fits.account]
  simp [fits.content?_stub]

/-- If the row holds nothing but its first link, that is the head. -/
theorem Row.head_eq_tail {traffic : Traffic Content}
    (fits : Row traffic [traffic.chain.tail]) : traffic.chain.head = traffic.chain.tail :=
  (Option.some.inj fits.strung.back).symm

/-- A receiver that takes a link other than the stub leaves with a message. -/
theorem Row.alone_take {traffic : Traffic Content} {row : List Nat} (fits : Row traffic row)
    {next : Nat} (result : traffic.chain.receiveStep traffic.stage = traffic.chain.take next)
    (notStub : traffic.chain.tail ≠ Chain.stub) : traffic.receive.AloneFits := by
  obtain ⟨content, carried⟩ := fits.laden _ fits.strung.tail_mem notStub
  rw [Chain.content?] at carried
  rw [Chain.take, carried] at result
  rw [Traffic.receive_eq result]
  trivial

/-- What is known while no sender is halfway stays known when the receiver goes through a
stage. -/
theorem Row.alone_receive {traffic : Traffic Content} {row : List Nat} (fits : Row traffic row)
    (calm : traffic.Calm) (alone : traffic.AloneFits)
    (busy : ∀ taken, traffic.stage ≠ .done taken) : traffic.receive.AloneFits := by
  have stage := fits.stage
  cases place : traffic.stage with
  | start =>
    cases behind : traffic.chain.next? traffic.chain.tail with
    | none =>
      by_cases atStub : traffic.chain.tail = Chain.stub
      · have result : traffic.chain.receiveStep traffic.stage = (traffic.chain, .done none) := by
          rw [place, Chain.receiveStep, behind]
          exact if_pos atStub
        obtain rfl := fits.eq_singleton_of_calm calm (by rw [place]; rfl) behind
        rw [atStub] at fits
        simpa [Traffic.receive_eq result, AloneFits, Stage.taken] using fits.received_of_stub
      · have result : traffic.chain.receiveStep traffic.stage = (traffic.chain, .last) := by
          rw [place, Chain.receiveStep, behind]
          exact if_neg atStub
        rw [Traffic.receive_eq result]
        exact behind
    | some next =>
      by_cases atStub : traffic.chain.tail = Chain.stub
      · have result : traffic.chain.receiveStep traffic.stage =
            ({ traffic.chain with tail := next }, .passed) := by
          rw [place, Chain.receiveStep, behind]
          exact if_pos atStub
        rw [Traffic.receive_eq result]
        trivial
      · have result : traffic.chain.receiveStep traffic.stage = traffic.chain.take next := by
          rw [place, Chain.receiveStep, behind]
          exact if_neg atStub
        exact fits.alone_take result atStub
  | passed =>
    rw [place] at stage
    cases behind : traffic.chain.next? traffic.chain.tail with
    | none =>
      have result : traffic.chain.receiveStep traffic.stage = (traffic.chain, .last) := by
        rw [place, Chain.receiveStep, behind]
      rw [Traffic.receive_eq result]
      exact behind
    | some next =>
      have result : traffic.chain.receiveStep traffic.stage = traffic.chain.take next := by
        rw [place, Chain.receiveStep, behind]
      exact fits.alone_take result (ne_of_mem_of_not_mem fits.strung.tail_mem stage)
  | last =>
    have nothing : traffic.chain.next? traffic.chain.tail = none := by
      simpa [AloneFits, place] using alone
    obtain rfl := fits.eq_singleton_of_calm calm (by rw [place]; rfl) nothing
    have result : traffic.chain.receiveStep traffic.stage = (traffic.chain, .closing) := by
      rw [place, Chain.receiveStep]
      exact if_pos fits.head_eq_tail.symm
    rw [Traffic.receive_eq result]
    exact nothing
  | closing =>
    have nothing : traffic.chain.next? traffic.chain.tail = none := by
      simpa [AloneFits, place] using alone
    obtain rfl := fits.eq_singleton_of_calm calm (by rw [place]; rfl) nothing
    rw [Traffic.receive_eq (by rw [place, Chain.receiveStep])]
    exact fits.head_eq_tail
  | hanging previous =>
    obtain rfl : previous = traffic.chain.tail := by simpa [AloneFits, place] using alone
    obtain ⟨entry, known⟩ := fits.strung.present _ fits.strung.tail_mem
    have hung : (traffic.chain.hang traffic.chain.tail Chain.stub).next? traffic.chain.tail =
        some Chain.stub := Chain.next?_setNext_self traffic.chain known (some Chain.stub)
    rw [Traffic.receive_eq (by rw [place, Chain.receiveStep])]
    show (traffic.chain.hang traffic.chain.tail Chain.stub).next? traffic.chain.tail ≠ none
    rw [hung]
    exact Option.some_ne_none _
  | again =>
    have something : traffic.chain.next? traffic.chain.tail ≠ none := by
      simpa [AloneFits, place] using alone
    rw [place] at stage
    obtain ⟨next, behind⟩ := Option.ne_none_iff_exists'.mp something
    have result : traffic.chain.receiveStep traffic.stage = traffic.chain.take next := by
      rw [place, Chain.receiveStep, behind]
    exact fits.alone_take result stage
  | done taken => exact absurd place (busy taken)

/-- While no sender makes its link the head, no sender is halfway, and what is known at the stages
of the receiver stays known. -/
theorem Row.alone_step {traffic next : Traffic Content} {row : List Nat} (fits : Row traffic row)
    {move : Move Content} (step : Step traffic move next) (quiet : ∀ sender, move ≠ .swap sender)
    (calm : traffic.Calm) (alone : traffic.AloneFits) : next.Calm ∧ next.AloneFits := by
  cases step with
  | @load sender content resting =>
    refine ⟨fun other previous link place => ?_, ?_⟩
    · have senders : (traffic.load sender content).senders = Function.update traffic.senders sender
          (.loaded traffic.chain.links.size content) := rfl
      rw [senders, Function.update_apply] at place
      split at place
      · exact absurd place (by simp)
      · exact calm other previous link place
    · have behind : (traffic.load sender content).chain.next? traffic.chain.tail =
          traffic.chain.next? traffic.chain.tail := by
        obtain ⟨entry, known⟩ := fits.strung.present _ fits.strung.tail_mem
        have kept : (traffic.load sender content).chain.link? traffic.chain.tail = some entry :=
          Chain.link?_allocate_other traffic.chain content known
        rw [Chain.next?, kept, Chain.next?, known]
      have stage : (traffic.load sender content).stage = traffic.stage := rfl
      have tail : (traffic.load sender content).chain.tail = traffic.chain.tail := rfl
      unfold AloneFits at alone ⊢
      rw [stage, tail, behind]
      exact alone
  | @swap sender link content loaded => exact absurd rfl (quiet sender)
  | @hang sender previous link halfway => exact absurd halfway (calm sender previous link)
  | begin rests => exact ⟨calm, trivial⟩
  | receive busy => exact ⟨calm, fits.alone_receive calm alone busy⟩

/-! ### Runs -/

/-- Any number of steps, one after another. -/
inductive Run : Traffic Content → List (Move Content) → Traffic Content → Prop where
  | rest {traffic : Traffic Content} : Run traffic [] traffic
  | step {traffic next last : Traffic Content} {move : Move Content} {moves : List (Move Content)}
      (step : Step traffic move next) (run : Run next moves last) : Run traffic (move :: moves) last

/-- A receiver that is left alone by senders, from when it begins until it finds nothing, has
received all that was sent. -/
theorem Row.received_of_alone {traffic last : Traffic Content} {moves : List (Move Content)}
    (run : Run traffic moves last) (quiet : ∀ sender, Move.swap sender ∉ moves) {row : List Nat}
    (fits : Row traffic row) (calm : traffic.Calm) (alone : traffic.AloneFits)
    (nothing : last.stage = .done none) : last.received = last.sent.map Prod.snd := by
  induction run generalizing row with
  | rest => simpa [AloneFits, nothing] using alone
  | @step traffic next last move moves step _ inductionHypothesis =>
    have notSwap (sender : Nat) : move ≠ .swap sender := by
      rintro rfl
      exact quiet sender List.mem_cons_self
    obtain ⟨after, stillFits⟩ := fits.step step
    obtain ⟨stillCalm, stillAlone⟩ := fits.alone_step step notSwap calm alone
    exact inductionHypothesis (fun sender member => quiet sender (List.mem_cons_of_mem _ member))
      stillFits stillCalm stillAlone nothing

/-- A sender that nobody comes between appends its message as `Chain.enqueue` does. -/
theorem Run.enqueue (traffic : Traffic Content) {sender : Nat} (content : Content)
    (resting : traffic.senders sender = .resting) :
    Run traffic [.load sender content, .swap sender, .hang sender]
      { traffic with
        chain := (traffic.chain.enqueue content).1
        sent := traffic.sent ++ [(sender, content)]
        posted := Function.update traffic.posted sender (traffic.posted sender ++ [content]) } := by
  have loaded : (traffic.load sender content).senders sender =
      .loaded traffic.chain.links.size content := by
    simp [Traffic.load, Chain.allocate]
  have halfway : ((traffic.load sender content).swap sender traffic.chain.links.size
      content).senders sender = .halfway traffic.chain.head traffic.chain.links.size := by
    simp [Traffic.swap, Traffic.load, Chain.swapHead, Chain.allocate, Chain.setNext]
  have rests : Function.update traffic.senders sender .resting = traffic.senders := by
    rw [← resting, Function.update_eq_self]
  have run := Run.step (.load content resting) (.step (.swap loaded) (.step (.hang halfway) .rest))
  simpa [Traffic.hang, Traffic.swap, Traffic.load, Chain.enqueue, Chain.push, Chain.swapHead,
    Chain.allocate, Chain.setNext, rests] using run

/-- A receiver that nobody comes between goes through so many stages as `Chain.receiveSteps`
does. -/
theorem Run.receiveSteps (count : Nat) (traffic : Traffic Content)
    (busy : ∀ taken, traffic.stage ≠ .done taken) (enough : traffic.stage.left ≤ count)
    {chain : Chain Content} {stage : Stage Content}
    (result : traffic.chain.receiveSteps count traffic.stage = (chain, stage)) :
    ∃ moves, (∀ move ∈ moves, move = .receive) ∧ Run traffic moves
      { traffic with chain, stage, received := traffic.received ++ stage.taken.toList } := by
  induction count generalizing traffic with
  | zero =>
    cases place : traffic.stage with
    | done taken => exact absurd place (busy taken)
    | _ => simp [place, Stage.left] at enough
  | succ count inductionHypothesis =>
    have fewer := traffic.chain.left_receiveStep busy
    have first : Step traffic .receive traffic.receive := .receive busy
    cases step : traffic.chain.receiveStep traffic.stage with
    | mk next reached =>
      rw [Traffic.receive_eq step] at first
      simp only [step] at fewer
      simp only [Chain.receiveSteps, step] at result
      by_cases stillBusy : ∀ taken, reached ≠ .done taken
      · rw [Stage.taken_eq_none stillBusy, Option.toList_none, List.append_nil] at first
        obtain ⟨moves, onlyReceives, run⟩ := inductionHypothesis
          { traffic with chain := next, stage := reached } stillBusy
          (show reached.left ≤ count by omega) result
        refine ⟨.receive :: moves, ?_, .step first run⟩
        simpa using onlyReceives
      · obtain ⟨taken, rfl⟩ : ∃ taken, reached = .done taken := by simpa using stillBusy
        rw [Chain.receiveSteps_done] at result
        obtain ⟨rfl, rfl⟩ := Prod.mk.inj result
        exact ⟨[.receive], by simp, .step first .rest⟩

/-- A receiver that nobody comes between takes what `Chain.dequeue` takes. -/
theorem Run.dequeue (traffic : Traffic Content) {taken : Option Content}
    (rests : traffic.stage = .done taken) :
    ∃ moves, (∀ move ∈ moves, move = .receive) ∧ Run traffic (.begin :: moves)
      { traffic with
        chain := traffic.chain.dequeue.1
        stage := .done traffic.chain.dequeue.2
        received := traffic.received ++ traffic.chain.dequeue.2.toList } := by
  obtain ⟨last, ends⟩ := traffic.chain.receiveSteps_ends
    (show (Stage.start : Stage Content).left ≤ Chain.stageBound from Nat.le_refl _)
  have result : traffic.chain.receiveSteps Chain.stageBound .start =
      (traffic.chain.dequeue.1, .done traffic.chain.dequeue.2) := by
    refine Prod.ext rfl (ends.trans ?_)
    exact congrArg Stage.done (congrArg Stage.taken ends).symm
  obtain ⟨moves, onlyReceives, run⟩ :=
    Run.receiveSteps Chain.stageBound traffic.begin (by simp [Traffic.begin]) (Nat.le_refl _) result
  exact ⟨moves, onlyReceives, .step (.begin rests) run⟩

/-! ### What a chain in use guarantees -/

/-- Whatever the order of the accesses: what was received is the beginning of what was sent, and
each sender's share of it is the beginning of what that sender set out to send; a receiver that
begins while no sender is halfway, and that no sender comes between, finds nothing only if it has
received all that was sent; and a step touches no link that was taken away, whatever might stand
in the place of that link. -/
theorem Reachable.fifo {traffic : Traffic Content} (reachable : Reachable traffic) :
    (∃ taken waiting, traffic.sent = taken ++ waiting ∧ taken.map Prod.snd = traffic.received ∧
      ∀ sender, (taken.filter fun entry => entry.1 = sender).map Prod.snd <+:
        traffic.posted sender) ∧
    (∀ taken, traffic.stage = .done taken → traffic.Calm →
      ∀ moves last, Run traffic.begin moves last → (∀ sender, Move.swap sender ∉ moves) →
        last.stage = .done none → last.received = last.sent.map Prod.snd) ∧
    ∀ move next, Step traffic move next →
      (∀ link ∈ traffic.touched move, (traffic.chain.link? link).isSome) ∧
      ∀ link < traffic.chain.links.size, traffic.chain.link? link = none →
        ∀ entry, Step (traffic.overwrite link entry) move (next.overwrite link entry) := by
  obtain ⟨row, fits⟩ := reachable.row
  refine ⟨?_, ?_, ?_⟩
  · have account := fits.account
    obtain ⟨taken, waiting, split, heard, _⟩ := List.map_eq_append_iff.mp account
    refine ⟨taken, waiting, split, heard, fun sender => ?_⟩
    rw [fits.posted sender, split, List.filter_append, List.map_append, List.append_assoc]
    exact List.prefix_append _ _
  · intro taken rests calm moves last run quiet nothing
    obtain ⟨begun, begunFits⟩ := fits.step (.begin rests)
    exact begunFits.received_of_alone run quiet calm trivial nothing
  · intro move next step
    refine ⟨fun link touches => fits.touched_present touches, fun link made gone entry => ?_⟩
    refine step.overwrite made (fun touches => ?_) entry
    have present := fits.touched_present touches
    rw [gone] at present
    exact absurd present (by simp)

/-- The receiver finds the tail to be the head, and before it appends the stub a second sender
makes its link the head: the stub ends up behind the link of the second sender. -/
def raced : Traffic String :=
  ((((start.load 1 "first").swap 1 1 "first").hang 1 0 1).begin.receive.receive.receive.load 2
    "second").swap 2 2 "second" |>.receive.receive.receive.hang 2 1 2

theorem raced_reachable : Reachable raced := by
  have appended : Reachable (((start.load 1 "first").swap 1 1 "first").hang 1 0 1) :=
    .step (.step (.step .start (.load "first" rfl)) (.swap rfl)) (.hang rfl)
  have closing := Reachable.step (.step (.step (.step appended (.begin rfl))
    (.receive (Stage.ne_done (by decide)))) (.receive (Stage.ne_done (by decide))))
    (.receive (Stage.ne_done (by decide)))
  have overtaken := Reachable.step (.step closing (@Step.load _ _ 2 "second" rfl))
    (@Step.swap _ _ 2 _ _ rfl)
  exact .step (.step (.step (.step overtaken (.receive (Stage.ne_done (by decide))))
    (.receive (Stage.ne_done (by decide)))) (.receive (Stage.ne_done (by decide))))
    (@Step.hang _ _ 2 _ _ rfl)

/-- In the race nothing is received at first, though two messages were sent; a receiver that is
left alone then takes both before it finds nothing. -/
theorem raced_fifo :
    raced.received = [] ∧ raced.sent = [(1, "first"), (2, "second")] ∧
    raced.chain.head = Chain.stub ∧
    raced.begin.receive.begin.receive.begin.receive.received = ["first", "second"] := by
  refine ⟨rfl, rfl, rfl, ?_⟩
  have run : Run raced.begin [.receive, .begin, .receive, .begin, .receive]
      raced.begin.receive.begin.receive.begin.receive :=
    .step (.receive (Stage.ne_done (by decide))) (.step (.begin rfl)
      (.step (.receive (Stage.ne_done (by decide))) (.step (.begin rfl)
        (.step (.receive (Stage.ne_done (by decide))) .rest))))
  have calm : raced.Calm := by
    intro sender previous link
    simp [raced, Traffic.hang, Traffic.swap, Traffic.load, Traffic.receive, Traffic.begin, start]
  exact raced_reachable.fifo.2.1 none rfl calm _ _ run (by simp) rfl

end Traffic

end TaskMachine

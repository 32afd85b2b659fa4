/-
No wake-up is lost. While a task waits for messages its inbox is `Attended`: it
holds nothing but the stub, or some sender has found the stub to have been the
head and is on its way to wake the task, or the task is among those that were
woken already. A sender that ends the first case begins the second, and only the
thread itself ends the last one, by resuming the task.

The thread moves a task to the wait queue after it has seen the stub at both
ends of the inbox, and from then on the inbox is attended, whatever senders do
before the task is in the queue.
-/

import TaskMachine.Proofs.Inbox.Heard
import TaskMachine.Proofs.Inbox.Row
import TaskMachine.Proofs.Scheduler.Exchange
import TaskMachine.Proofs.Scheduler.Waiting

namespace TaskMachine

/-- The chain of an inbox. -/
def Mailroom.chain (mailroom : Mailroom) (inbox : Nat) : Chain Message :=
  (mailroom.inboxes[inbox]?.map fun entry => entry.2.chain).getD .empty

namespace Exchange

/-! ### What an access leaves as it is -/

section

variable (exchange : Exchange) (inbox sender : Nat) (traffic : Traffic Message)

@[simp] theorem owner?_access (other : Nat) :
    (exchange.access inbox traffic).scheduler.mailroom.owner? other =
      exchange.scheduler.mailroom.owner? other := by
  simp only [access, setMailroom, Mailroom.owner?, Array.getElem?_modify]
  split
  · cases exchange.scheduler.mailroom.inboxes[other]? <;> rfl
  · rfl

@[simp] theorem owner?_countWake (other : Nat) :
    (exchange.countWake inbox).scheduler.mailroom.owner? other =
      exchange.scheduler.mailroom.owner? other := by
  simp only [countWake, setMailroom, Mailroom.owner?, Array.getElem?_modify]
  split
  · cases exchange.scheduler.mailroom.inboxes[other]? <;> rfl
  · rfl

theorem traffic_access_self : (exchange.access inbox traffic).traffic inbox = traffic := by
  simp [access]

theorem traffic_access_other {other : Nat} (differ : other ≠ inbox) :
    (exchange.access inbox traffic).traffic other = exchange.traffic other := by
  simp [access, differ]

theorem chain_access_self (known : exchange.Has inbox) :
    (exchange.access inbox traffic).scheduler.mailroom.chain inbox = traffic.chain := by
  have within : inbox < exchange.scheduler.mailroom.inboxes.size := known
  simp only [access, setMailroom, Mailroom.chain]
  rw [Array.getElem?_modify, if_pos rfl, Array.getElem?_eq_getElem within]
  rfl

theorem chain_access_other {other : Nat} (differ : other ≠ inbox) :
    (exchange.access inbox traffic).scheduler.mailroom.chain other =
      exchange.scheduler.mailroom.chain other := by
  simp [access, setMailroom, Mailroom.chain, Array.getElem?_modify, differ.symm]

@[simp] theorem chain_countWake (other : Nat) :
    (exchange.countWake inbox).scheduler.mailroom.chain other =
      exchange.scheduler.mailroom.chain other := by
  simp only [countWake, setMailroom, Mailroom.chain, Array.getElem?_modify]
  split
  · cases exchange.scheduler.mailroom.inboxes[other]? <;> rfl
  · rfl

end

/-! ### Attended inboxes -/

/-- A task is among those that were woken and are still to be resumed. -/
def Listed (exchange : Exchange) (id : TaskId) : Prop :=
  id ∈ exchange.scheduler.mailroom.woken ∨ id ∈ exchange.thread.batch

/-- The owner of an inbox need not be woken, or is about to be, or has been. -/
def Attended (exchange : Exchange) (inbox : Nat) (owner : TaskId) : Prop :=
  ((exchange.traffic inbox).chain.tail = Chain.stub ∧
      (exchange.traffic inbox).chain.head = Chain.stub) ∨
    (∃ sender link, (exchange.traffic inbox).senders sender = .halfway Chain.stub link) ∨
    (∃ sender, exchange.calling inbox sender = .waking) ∨ exchange.Listed owner

variable {exchange next : Exchange} {inbox : Nat} {owner : TaskId}

/-- What has to be shown of an attended inbox after a step. -/
theorem Attended.imp (attended : exchange.Attended inbox owner)
    (empty : (exchange.traffic inbox).chain.tail = Chain.stub →
      (exchange.traffic inbox).chain.head = Chain.stub → next.Attended inbox owner)
    (halfway : ∀ sender link, (exchange.traffic inbox).senders sender = .halfway Chain.stub link →
      next.Attended inbox owner)
    (waking : ∀ sender, exchange.calling inbox sender = .waking → next.Attended inbox owner)
    (listed : exchange.Listed owner → next.Listed owner) : next.Attended inbox owner := by
  rcases attended with ⟨tail, head⟩ | ⟨sender, link, place⟩ | ⟨sender, place⟩ | member
  · exact empty tail head
  · exact halfway sender link place
  · exact waking sender place
  · exact Or.inr (Or.inr (Or.inr (listed member)))

/-- An inbox stays attended when nothing happens to it. -/
theorem Attended.of_same (attended : exchange.Attended inbox owner)
    (traffic : next.traffic inbox = exchange.traffic inbox)
    (calling : next.calling inbox = exchange.calling inbox)
    (listed : exchange.Listed owner → next.Listed owner) : next.Attended inbox owner := by
  refine attended.imp (fun tail head => Or.inl ?_) (fun sender link place => Or.inr (Or.inl ?_))
    (fun sender place => Or.inr (Or.inr (Or.inl ?_))) listed
  · rw [traffic]
    exact ⟨tail, head⟩
  · rw [traffic]
    exact ⟨sender, link, place⟩
  · rw [calling]
    exact ⟨sender, place⟩

/-- An inbox stays attended when the thread goes on and no woken task is left out. -/
theorem Attended.goOn (attended : exchange.Attended inbox owner) {thread : Thread}
    (batch : ∀ id ∈ exchange.thread.batch, id ∈ thread.batch) :
    (exchange.goOn thread).Attended inbox owner :=
  attended.of_same rfl rfl fun listed => listed.imp_right (batch owner)

/-- An inbox stays attended when more tasks are woken. -/
theorem Attended.setMailroom (attended : exchange.Attended inbox owner) {mailroom : Mailroom}
    (woken : ∀ id ∈ exchange.scheduler.mailroom.woken, id ∈ mailroom.woken) :
    (exchange.setMailroom mailroom).Attended inbox owner :=
  attended.of_same rfl rfl fun listed => listed.imp_left (woken owner)

/-- An inbox stays attended at an access to a chain, if this keeps the cases that concern the
chain. -/
theorem Attended.access (attended : exchange.Attended inbox owner) {place : Nat}
    {traffic : Traffic Message}
    (empty : (exchange.traffic place).chain.tail = Chain.stub →
      (exchange.traffic place).chain.head = Chain.stub →
      (traffic.chain.tail = Chain.stub ∧ traffic.chain.head = Chain.stub) ∨
        ∃ sender link, traffic.senders sender = .halfway Chain.stub link)
    (halfway : ∀ sender link, (exchange.traffic place).senders sender = .halfway Chain.stub link →
      ∃ sender link, traffic.senders sender = .halfway Chain.stub link) :
    (exchange.access place traffic).Attended inbox owner := by
  by_cases same : inbox = place
  · subst same
    have is := exchange.traffic_access_self inbox traffic
    refine attended.imp (fun tail head => ?_) (fun sender link place => Or.inr (Or.inl ?_))
      (fun sender place => Or.inr (Or.inr (Or.inl ⟨sender, place⟩))) id
    · rw [Attended, is]
      rcases empty tail head with still | begun
      · exact Or.inl still
      · exact Or.inr (Or.inl begun)
    · rw [is]
      exact halfway sender link place
  · exact attended.of_same (exchange.traffic_access_other place traffic same) rfl id

/-- The receiver leaves a chain that holds nothing but the stub as it is. -/
theorem receive_of_stub {Content : Type} {traffic : Traffic Content} {row : List Nat}
    (fits : traffic.Row row) (tail : traffic.chain.tail = Chain.stub)
    (head : traffic.chain.head = Chain.stub) : traffic.receive.chain = traffic.chain := by
  have single := fits.eq_singleton (tail.trans head.symm)
  have loose := fits.strung.loose
  rw [head, ← tail] at loose
  have stage := fits.stage
  have occurs : Chain.stub ∈ row := by simp [single, tail]
  cases place : traffic.stage with
  | start =>
    have result : traffic.chain.receiveStep traffic.stage = (traffic.chain, .done none) := by
      rw [place, Chain.receiveStep, loose]
      exact if_pos tail
    rw [Traffic.receive_eq result]
  | done taken => rw [Traffic.receive_eq (by rw [place, Chain.receiveStep])]
  | passed | closing =>
    rw [place] at stage
    exact absurd occurs stage
  | last | hanging previous | again =>
    rw [place] at stage
    exact absurd tail stage

theorem Attended.load (attended : exchange.Attended inbox owner) {place sender : Nat}
    (message : Message) (resting : (exchange.traffic place).senders sender = .resting) :
    (exchange.access place ((exchange.traffic place).load sender message)).Attended inbox
      owner := by
  refine attended.access (fun tail head => Or.inl ⟨tail, head⟩) fun other link halfway => ?_
  exact ⟨other, link, update_apart halfway (by simp [resting])⟩

/-- A sender that makes its link the head finds the stub to have been the head before, if the inbox
was attended because it was empty. -/
theorem Attended.swap (attended : exchange.Attended inbox owner) {place sender link : Nat}
    {message : Message} (loaded : (exchange.traffic place).senders sender = .loaded link message) :
    (exchange.access place ((exchange.traffic place).swap sender link message)).Attended inbox
      owner := by
  refine attended.access (fun tail head => Or.inr ⟨sender, link, ?_⟩) fun other hung halfway => ?_
  · simp [Traffic.swap, Chain.swapHead, head]
  · exact ⟨other, hung, update_apart halfway (by simp [loaded])⟩

theorem Attended.hang (attended : exchange.Attended inbox owner) {place sender previous link : Nat}
    (halfway : (exchange.traffic place).senders sender = .halfway previous link) :
    (exchange.hang place sender previous link).Attended inbox owner := by
  rw [Exchange.hang]
  split
  · by_cases same : inbox = place
    · subst same
      exact Or.inr (Or.inr (Or.inl ⟨sender, by simp [call]⟩))
    · refine attended.of_same (exchange.traffic_access_other place _ same) ?_ id
      show Function.update _ place _ inbox = _
      rw [Function.update_of_ne same]
      rfl
  · rename_i notStub
    refine attended.access (fun tail head => Or.inl ⟨tail, head⟩) fun other hung also => ?_
    refine ⟨other, hung, update_apart also ?_⟩
    rw [halfway]
    exact fun same => notStub (Sending.halfway.inj same).1

theorem Attended.wake (attended : exchange.Attended inbox owner)
    (owned : exchange.scheduler.mailroom.owner? inbox = some owner) {place sender : Nat}
    {rouser : TaskId} {entry : Inbox}
    (found : exchange.scheduler.mailroom.inboxes[place]? = some (rouser, entry)) :
    (exchange.wake place sender rouser).Attended inbox owner := by
  by_cases same : inbox = place
  · subst same
    obtain rfl : rouser = owner := by
      rw [Mailroom.owner?, found] at owned
      exact Option.some.inj owned
    exact Or.inr (Or.inr (Or.inr (Or.inl (Mailroom.mem_insertWoken.mpr (Or.inl rfl)))))
  · refine attended.of_same rfl ?_ fun listed =>
      listed.imp_left fun member => Mailroom.mem_insertWoken.mpr (Or.inr member)
    show Function.update _ place _ inbox = _
    rw [Function.update_of_ne same]
    rfl

theorem Attended.unpark (attended : exchange.Attended inbox owner) {place sender : Nat}
    (unparking : exchange.calling place sender = .unparking) :
    (exchange.unpark place sender).Attended inbox owner := by
  refine attended.imp (fun tail head => Or.inl ⟨tail, head⟩)
    (fun other link halfway => Or.inr (Or.inl ⟨other, link, halfway⟩))
    (fun other waking => Or.inr (Or.inr (Or.inl ⟨other, ?_⟩))) id
  show Function.update exchange.calling place
    (Function.update (exchange.calling place) sender .resting) inbox other = .waking
  by_cases same : inbox = place
  · subst same
    rw [Function.update_self]
    exact update_apart waking (by simp [unparking])
  · rw [Function.update_of_ne same, waking]

/-- An inbox that was attended before a step is so afterwards, unless the step resumes its
owner. -/
theorem Step.attended (step : Step exchange next)
    (reachable : ∀ inbox, (exchange.traffic inbox).Reachable)
    (owned : exchange.scheduler.mailroom.owner? inbox = some owner)
    (attended : exchange.Attended inbox owner)
    (stays : ∀ batch, exchange.thread = .resuming (owner :: batch) →
      next.thread ≠ .resuming batch) : next.Attended inbox owner := by
  cases step with
  | load message known resting quiet => exact attended.load message resting
  | swap known loaded => exact attended.swap loaded
  | hang known halfway => exact attended.hang halfway
  | wake found waking => exact attended.wake owned found
  | unpark unparking => exact attended.unpark unparking
  | rouse id =>
    refine attended.setMailroom fun other member => ?_
    rw [Mailroom.woken_wake]
    exact Mailroom.mem_insertWoken.mpr (Or.inr member)
  | @begin place taken known free rests =>
    have begun : (exchange.access place (exchange.traffic place).begin).Attended inbox owner :=
      attended.access (fun tail head => Or.inl ⟨tail, head⟩)
        fun sender link halfway => ⟨sender, link, halfway⟩
    refine begun.goOn fun other member => ?_
    have nobody : exchange.thread.batch = [] := by
      rw [free]
      rfl
    exact absurd (nobody ▸ member) List.not_mem_nil
  | @receive place known receiving busy =>
    obtain ⟨row, fits⟩ := (reachable place).row
    refine attended.access (fun tail head => Or.inl ?_)
      fun sender link halfway => ⟨sender, link, halfway⟩
    rw [receive_of_stub fits tail head]
    exact ⟨tail, head⟩
  | leave receiving rests => exact attended.goOn (by simp [receiving, Thread.batch])
  | turn free present => exact attended.goOn (by simp [free, Thread.batch])
  | look looking => exact attended.goOn (by simp [looking, Thread.batch])
  | compare comparing => exact attended.goOn (by simp [comparing, Thread.batch])
  | suspend suspending runs =>
    have mailroom := congrArg Scheduler.mailroom ((Scheduler.after_suspend _ _ _).ok runs).rest
    refine attended.of_same rfl rfl fun listed => ?_
    simp only [Listed, suspending, Thread.batch, mailroom] at listed ⊢
    exact listed
  | takeWoken free =>
    refine attended.of_same rfl rfl fun listed => Or.inr ?_
    show owner ∈ exchange.scheduler.mailroom.woken
    simpa [Listed, free, Thread.batch] using listed
  | @resume id batch scheduler resuming runs =>
    have mailroom : scheduler.mailroom = exchange.scheduler.mailroom := by
      rcases (Scheduler.after_resumeIf _ _ _).ok runs with ⟨same, _⟩ | ⟨slot, _, rewaited⟩
      · rw [same]
      · rw [rewaited.rest]
    have other : owner ≠ id := by
      rintro rfl
      exact stays batch resuming rfl
    refine attended.of_same rfl rfl fun listed => ?_
    simp only [Listed, resuming, Thread.batch, mailroom] at listed ⊢
    simpa [other] using listed
  | finish resuming => exact attended.goOn (by simp [resuming, Thread.batch])
  | between free discreet =>
    refine attended.of_same rfl rfl fun listed => ?_
    simp only [Listed, discreet.woken] at listed ⊢
    exact listed

/-! ### Every state that can be reached -/

/-- What holds in every state that can be reached. -/
structure Sane (exchange : Exchange) : Prop where
  reachable : ∀ inbox, (exchange.traffic inbox).Reachable
  /-- The inboxes of the scheduler are those in use. -/
  chains : ∀ inbox, (exchange.traffic inbox).chain = exchange.scheduler.mailroom.chain inbox
  registered : exchange.scheduler.Registered
  /-- The thread looks at the inbox of the task that is to wait. -/
  looks : ∀ {slot inbox}, exchange.thread = .looking slot inbox ∨
    exchange.thread = .comparing slot inbox →
    ∀ task, exchange.scheduler.roster.task? slot = some task →
      task.mailbox.inbox = inbox
  /-- It has seen the stub at the tail. -/
  tail : ∀ {slot inbox}, exchange.thread = .comparing slot inbox →
    (exchange.traffic inbox).chain.tail = Chain.stub
  /-- The inbox of a task is attended if the task waits for messages or is about to. -/
  attended : ∀ {slot task}, exchange.scheduler.roster.task? slot = some task →
    task.awaited = some .message ∨ exchange.thread = .suspending slot →
    exchange.scheduler.mailroom.owner? task.mailbox.inbox = some task.id →
    exchange.Attended task.mailbox.inbox task.id

theorem sane_start (config : Config) (patience : Nat) (respond : List Notice → List Letter) :
    (start config patience respond).Sane where
  reachable _ := .start
  chains _ := rfl
  registered slot task present := by
    simp [start, Scheduler.new, Roster.empty, Roster.task?] at present
  looks thread := by simp [start] at thread
  tail thread := by simp [start] at thread
  attended present := by simp [start, Scheduler.new, Roster.empty, Roster.task?] at present

/-- An access to a chain is a step of the chain in use. -/
theorem reachable_access (reachable : ∀ inbox, (exchange.traffic inbox).Reachable) {place : Nat}
    {move : Move Message} {traffic : Traffic Message}
    (step : Traffic.Step (exchange.traffic place) move traffic) (inbox : Nat) :
    ((exchange.access place traffic).traffic inbox).Reachable := by
  by_cases same : inbox = place
  · subst same
    rw [traffic_access_self]
    exact (reachable inbox).step step
  · rw [exchange.traffic_access_other place traffic same]
    exact reachable inbox

theorem Step.reachable (step : Step exchange next)
    (reachable : ∀ inbox, (exchange.traffic inbox).Reachable) (inbox : Nat) :
    (next.traffic inbox).Reachable := by
  cases step with
  | load message known resting quiet =>
    exact reachable_access reachable (.load message resting) inbox
  | swap known loaded => exact reachable_access reachable (.swap loaded) inbox
  | hang known halfway =>
    have hung := reachable_access reachable (.hang halfway) inbox
    rw [Exchange.hang]
    split <;> exact hung
  | begin known free rests => exact reachable_access reachable (.begin rests) inbox
  | receive known receiving busy => exact reachable_access reachable (.receive busy) inbox
  | _ => exact reachable inbox

/-- After an access to a chain the inboxes of the scheduler are still those in use. -/
theorem chains_access
    (chains : ∀ inbox, (exchange.traffic inbox).chain = exchange.scheduler.mailroom.chain inbox)
    {place : Nat} (known : exchange.Has place) (traffic : Traffic Message) (inbox : Nat) :
    ((exchange.access place traffic).traffic inbox).chain =
      (exchange.access place traffic).scheduler.mailroom.chain inbox := by
  by_cases same : inbox = place
  · subst same
    rw [traffic_access_self, exchange.chain_access_self inbox traffic known]
  · rw [exchange.traffic_access_other place traffic same,
      exchange.chain_access_other place traffic same, chains inbox]

theorem Step.chains (step : Step exchange next)
    (chains : ∀ inbox, (exchange.traffic inbox).chain = exchange.scheduler.mailroom.chain inbox)
    (inbox : Nat) : (next.traffic inbox).chain = next.scheduler.mailroom.chain inbox := by
  cases step with
  | load message known resting quiet => exact chains_access chains known _ inbox
  | swap known loaded => exact chains_access chains known _ inbox
  | @hang place sender previous link known halfway =>
    have hung := chains_access chains known
      ((exchange.traffic place).hang sender previous link) inbox
    rw [Exchange.hang]
    split
    · rw [← chain_countWake] at hung
      exact hung
    · exact hung
  | begin known free rests => exact chains_access chains known _ inbox
  | receive known receiving busy => exact chains_access chains known _ inbox
  | rouse id =>
    have same : (exchange.scheduler.mailroom.wake id).chain inbox =
        exchange.scheduler.mailroom.chain inbox := by
      rw [Mailroom.chain, Mailroom.inboxes_wake, Mailroom.chain]
    exact (chains inbox).trans same.symm
  | suspend suspending runs =>
    rw [((Scheduler.after_suspend _ _ _).ok runs).rest]
    exact chains inbox
  | resume resuming runs =>
    rcases (Scheduler.after_resumeIf _ _ _).ok runs with ⟨same, _⟩ | ⟨slot, _, rewaited⟩
    · rw [same]
      exact chains inbox
    · rw [rewaited.rest]
      exact chains inbox
  | between free discreet =>
    show (exchange.traffic inbox).chain = _
    rw [chains inbox, Mailroom.chain, Mailroom.chain]
    rcases Nat.lt_or_ge inbox exchange.scheduler.mailroom.inboxes.size with within | beyond
    · rw [discreet.kept inbox within]
    · rw [Array.getElem?_eq_none beyond]
      cases added : (Mailroom.inboxes _)[inbox]? with
      | none => rfl
      | some entry =>
        rw [Option.map_some, discreet.fresh inbox entry.1 entry.2 beyond added]
        rfl
  | _ => exact chains inbox

theorem registered_rewaited {before after : Scheduler} {slot : Slot} {awaited : Option Awaited}
    (rewaited : before.Rewaited slot awaited after) (registered : before.Registered) :
    after.Registered := by
  intro place task present
  obtain ⟨earlier, earlierPresent, id, _, _⟩ := rewaited.earlier present
  rw [rewaited.rest, id]
  exact registered place earlier earlierPresent

theorem Step.registered (step : Step exchange next) (registered : exchange.scheduler.Registered) :
    next.scheduler.Registered := by
  cases step with
  | hang known halfway =>
    rw [Exchange.hang]
    split <;> exact registered
  | suspend suspending runs =>
    exact registered_rewaited ((Scheduler.after_suspend _ _ _).ok runs) registered
  | resume resuming runs =>
    rcases (Scheduler.after_resumeIf _ _ _).ok runs with ⟨same, _⟩ | ⟨slot, _, rewaited⟩
    · rw [same]
      exact registered
    · exact registered_rewaited rewaited registered
  | between free discreet => exact discreet.registered registered
  | _ => exact registered

/-- Who is woken for an inbox never changes, and an inbox that is new is empty. -/
theorem Step.owner? (step : Step exchange next)
    (owned : next.scheduler.mailroom.owner? inbox = some owner) :
    exchange.scheduler.mailroom.owner? inbox = some owner ∨
      next.scheduler.mailroom.chain inbox = .empty := by
  cases step with
  | load message known resting quiet => exact Or.inl (by rwa [owner?_access] at owned)
  | swap known loaded => exact Or.inl (by rwa [owner?_access] at owned)
  | @hang place sender previous link known halfway =>
    refine Or.inl ?_
    rw [Exchange.hang] at owned
    split at owned
    · rw [← exchange.owner?_access place ((exchange.traffic place).hang sender previous link),
        ← owner?_countWake]
      exact owned
    · rwa [owner?_access] at owned
  | rouse id =>
    have same : (exchange.scheduler.mailroom.wake id).owner? inbox =
        exchange.scheduler.mailroom.owner? inbox := by
      rw [Mailroom.owner?, Mailroom.inboxes_wake, Mailroom.owner?]
    exact Or.inl (same ▸ owned)
  | begin known free rests =>
    refine Or.inl ?_
    rw [← exchange.owner?_access]
    exact owned
  | receive known receiving busy => exact Or.inl (by rwa [owner?_access] at owned)
  | suspend suspending runs =>
    rw [((Scheduler.after_suspend _ _ _).ok runs).rest] at owned
    exact Or.inl owned
  | resume resuming runs =>
    refine Or.inl ?_
    rcases (Scheduler.after_resumeIf _ _ _).ok runs with ⟨same, _⟩ | ⟨slot, _, rewaited⟩
    · rw [same] at owned
      exact owned
    · rw [rewaited.rest] at owned
      exact owned
  | between free discreet =>
    rcases Nat.lt_or_ge inbox exchange.scheduler.mailroom.inboxes.size with within | beyond
    · refine Or.inl ?_
      rw [Mailroom.owner?, ← discreet.kept inbox within]
      exact owned
    · obtain ⟨entry, added, _⟩ := Option.map_eq_some_iff.mp owned
      refine Or.inr ?_
      rw [Mailroom.chain, added, Option.map_some, discreet.fresh inbox entry.1 entry.2 beyond added]
      rfl
  | _ => exact Or.inl owned

/-- What the thread has seen of an inbox stays so until the task is in the wait queue. -/
theorem Sane.step_looks (sane : exchange.Sane) (step : Step exchange next) {slot : Slot}
    {inbox : Nat} (thread : next.thread = .looking slot inbox ∨ next.thread = .comparing slot inbox)
    (task : Task) (present : next.scheduler.roster.task? slot = some task) :
    task.mailbox.inbox = inbox := by
  cases step with
  | @hang place sender previous link known halfway =>
    rw [Exchange.hang] at thread present
    split at thread <;> split at present <;> exact sane.looks thread task present
  | @turn looked found free foundPresent =>
    obtain ⟨rfl, rfl⟩ : looked = slot ∧ found.mailbox.inbox = inbox := by
      simpa [goOn] using thread
    rw [Option.some.inj (foundPresent.symm.trans present)]
  | @look looked place looking =>
    simp only [Exchange.look, goOn] at thread
    split at thread
    · obtain ⟨rfl, rfl⟩ : looked = slot ∧ place = inbox := by simpa using thread
      exact sane.looks (Or.inl looking) task present
    · simp at thread
  | compare comparing =>
    simp only [Exchange.compare, goOn] at thread
    split at thread <;> simp at thread
  | begin | leave | suspend | takeWoken | finish | resume => simp [goOn] at thread
  | between free discreet => simp [free] at thread
  | _ => exact sane.looks thread task present

/-- An access to a chain that leaves the tail where it is. -/
theorem tail_access (exchange : Exchange) (place : Nat) {traffic : Traffic Message}
    (same : traffic.chain.tail = (exchange.traffic place).chain.tail) (inbox : Nat) :
    ((exchange.access place traffic).traffic inbox).chain.tail =
      (exchange.traffic inbox).chain.tail := by
  by_cases here : inbox = place
  · subst here
    rw [traffic_access_self, same]
  · rw [exchange.traffic_access_other place traffic here]

theorem Sane.step_tail (sane : exchange.Sane) (step : Step exchange next) {slot : Slot}
    {inbox : Nat} (thread : next.thread = .comparing slot inbox) :
    (next.traffic inbox).chain.tail = Chain.stub := by
  cases step with
  | @load place sender message known resting quiet =>
    exact (tail_access exchange place (by rfl) inbox).trans (sane.tail thread)
  | @swap place sender link message known loaded =>
    exact (tail_access exchange place (by rfl) inbox).trans (sane.tail thread)
  | @hang place sender previous link known halfway =>
    have same : ((exchange.access place
        ((exchange.traffic place).hang sender previous link)).traffic inbox).chain.tail =
          (exchange.traffic inbox).chain.tail := tail_access exchange place (by rfl) inbox
    rw [Exchange.hang] at thread ⊢
    split at thread <;> split <;> exact same.trans (sane.tail thread)
  | @look looked place looking =>
    simp only [Exchange.look, goOn] at thread
    split at thread
    · rename_i seen
      obtain ⟨rfl, rfl⟩ : looked = slot ∧ place = inbox := by simpa using thread
      exact seen.1
    · simp at thread
  | compare comparing =>
    simp only [Exchange.compare, goOn] at thread
    split at thread <;> simp at thread
  | receive known receiving busy => exact absurd (receiving.symm.trans thread) (by simp)
  | turn | begin | leave | suspend | takeWoken | finish | resume => simp [goOn] at thread
  | between free discreet => simp [free] at thread
  | _ => exact sane.tail thread

/-- Only when the thread resumes a woken task is that task left out. -/
theorem Step.resumes (step : Step exchange next) {id : TaskId} {batch : List TaskId}
    (before : exchange.thread = .resuming (id :: batch)) (after : next.thread = .resuming batch) :
    Scheduler.resumeIf id .message exchange.scheduler = .ok ⟨⟩ next.scheduler := by
  have differ : id :: batch ≠ batch := List.cons_ne_self id batch
  cases step with
  | @hang place sender previous link known halfway =>
    rw [Exchange.hang] at after
    split at after <;> exact absurd (Thread.resuming.inj (before.symm.trans after)) differ
  | @resume resumed rest scheduler resuming runs =>
    obtain ⟨rfl, _⟩ := List.cons.inj (Thread.resuming.inj (before.symm.trans resuming))
    exact runs
  | begin known free rests | turn free present | takeWoken free | between free discreet =>
    exact absurd (before.symm.trans free) (by simp)
  | leave receiving rests => exact absurd (before.symm.trans receiving) (by simp)
  | look looking => exact absurd (before.symm.trans looking) (by simp)
  | compare comparing => exact absurd (before.symm.trans comparing) (by simp)
  | suspend suspending runs => exact absurd (before.symm.trans suspending) (by simp)
  | finish resuming => exact absurd (before.symm.trans resuming) (by simp)
  | _ => exact absurd (Thread.resuming.inj (before.symm.trans after)) differ

/-- A task that waits for messages after a step, or is about to, did so before, or else the thread
has just seen the stub at both ends of its inbox. -/
theorem Sane.step_waits (sane : exchange.Sane) (step : Step exchange next) {slot : Slot}
    {task : Task} (present : next.scheduler.roster.task? slot = some task)
    (waits : task.awaited = some .message ∨ next.thread = .suspending slot) :
    (∃ earlier, exchange.scheduler.roster.task? slot = some earlier ∧ task.id = earlier.id ∧
      task.mailbox = earlier.mailbox ∧
      (earlier.awaited = some .message ∨ exchange.thread = .suspending slot)) ∨
    ((next.traffic task.mailbox.inbox).chain.tail = Chain.stub ∧
      (next.traffic task.mailbox.inbox).chain.head = Chain.stub) := by
  cases step with
  | @hang place sender previous link known halfway =>
    rw [Exchange.hang] at present waits
    split at present <;> split at waits <;> exact Or.inl ⟨task, present, rfl, rfl, waits⟩
  | begin | leave | turn | takeWoken | finish =>
    exact Or.inl ⟨task, present, rfl, rfl, waits.imp_right fun thread => by simp [goOn] at thread⟩
  | @look looked place looking =>
    refine Or.inl ⟨task, present, rfl, rfl, waits.imp_right fun thread => ?_⟩
    simp only [Exchange.look, goOn] at thread
    split at thread <;> simp at thread
  | @compare compared place comparing =>
    rcases waits with waits | thread
    · exact Or.inl ⟨task, present, rfl, rfl, Or.inl waits⟩
    · simp only [Exchange.compare, goOn] at thread
      split at thread
      · rename_i seen
        obtain rfl : compared = slot := by simpa using thread
        have here := sane.looks (Or.inr comparing) task present
        refine Or.inr ?_
        rw [here]
        exact ⟨sane.tail comparing, seen⟩
      · simp at thread
  | @suspend suspended scheduler suspending runs =>
    refine Or.inl ?_
    obtain ⟨earlier, earlierPresent, id, mailbox, awaited⟩ :=
      ((Scheduler.after_suspend _ _ _).ok runs).earlier present
    refine ⟨earlier, earlierPresent, id, mailbox, ?_⟩
    split at awaited
    · rename_i here
      exact Or.inr (by rw [here, suspending])
    · refine Or.inl ?_
      rw [← awaited]
      simpa using waits
  | @resume id batch scheduler resuming runs =>
    refine Or.inl ?_
    have waiting : task.awaited = some .message := by simpa using waits
    rcases (Scheduler.after_resumeIf _ _ _).ok runs with ⟨same, _⟩ | ⟨resumed, _, rewaited⟩
    · rw [same] at present
      exact ⟨task, present, rfl, rfl, Or.inl waiting⟩
    · obtain ⟨earlier, earlierPresent, id, mailbox, awaited⟩ := rewaited.earlier present
      refine ⟨earlier, earlierPresent, id, mailbox, Or.inl ?_⟩
      split at awaited
      · rw [awaited] at waiting
        exact absurd waiting (by simp)
      · rw [← awaited, waiting]
  | between free discreet =>
    have waiting : task.awaited = some .message := by simpa [free] using waits
    obtain ⟨earlier, earlierPresent, awaited, id, mailbox⟩ :=
      discreet.waits slot task present waiting
    exact Or.inl ⟨earlier, earlierPresent, id.symm, mailbox.symm, Or.inl awaited⟩
  | _ => exact Or.inl ⟨task, present, rfl, rfl, waits⟩

/-- The inbox of a task that waits for messages, or is about to, is attended after every step. -/
theorem Sane.step_attended (sane : exchange.Sane) (step : Step exchange next) {slot : Slot}
    {task : Task} (present : next.scheduler.roster.task? slot = some task)
    (waits : task.awaited = some .message ∨ next.thread = .suspending slot)
    (owned : next.scheduler.mailroom.owner? task.mailbox.inbox = some task.id) :
    next.Attended task.mailbox.inbox task.id := by
  rcases step.owner? owned with owned | fresh
  · rcases sane.step_waits step present waits with
      ⟨earlier, earlierPresent, id, mailbox, earlierWaits⟩ | seen
    · rw [id, mailbox] at owned ⊢
      have before := sane.attended earlierPresent earlierWaits owned
      refine step.attended sane.reachable owned before fun batch resuming resumed => ?_
      -- The task would have been resumed, but it still waits.
      have waiting : task.awaited = some .message := by simpa [resumed] using waits
      have known := sane.registered slot earlier earlierPresent
      rcases (Scheduler.after_resumeIf _ _ _).ok (step.resumes resuming resumed) with
        ⟨same, skipped⟩ | ⟨other, found, rewaited⟩
      · rw [same] at present
        exact skipped slot task known present waiting
      · obtain rfl : other = slot := Option.some.inj (found.symm.trans known)
        obtain ⟨_, _, _, _, awaited⟩ := rewaited.earlier present
        rw [if_pos rfl, waiting] at awaited
        exact absurd awaited (by simp)
    · exact Or.inl seen
  · have empty := (step.chains sane.chains _).trans fresh
    exact Or.inl (by rw [empty]; exact ⟨rfl, rfl⟩)

theorem Sane.step (sane : exchange.Sane) (step : Step exchange next) : next.Sane where
  reachable := step.reachable sane.reachable
  chains := step.chains sane.chains
  registered := step.registered sane.registered
  looks := sane.step_looks step
  tail := sane.step_tail step
  attended := sane.step_attended step

theorem Reachable.sane (reachable : Reachable exchange) : exchange.Sane := by
  induction reachable with
  | start config patience respond => exact sane_start config patience respond
  | step _ step inductionHypothesis => exact inductionHypothesis.step step

/-! ### No wake-up is lost -/

/-- While a task waits for messages and no send to its inbox is in progress, a message in the inbox
that was not received yet means that the task is among those that were woken, or that the thread
has taken and not resumed yet. What the thread does besides is `Discreet`: it may do whatever it
likes to its tasks, but it gives none a number that is in use. Two tasks of one number are no longer
both registered, and a wake-up for the number would reach one of them only. -/
theorem Reachable.no_wake_lost (reachable : Reachable exchange) {slot : Slot} {task : Task}
    (present : exchange.scheduler.roster.task? slot = some task)
    (waits : task.awaited = some .message)
    (owned : exchange.scheduler.mailroom.owner? task.mailbox.inbox = some task.id)
    (quiet : exchange.Quiet task.mailbox.inbox) {message : Message}
    (waiting : message ∈ (exchange.traffic task.mailbox.inbox).undelivered) :
    task.id ∈ exchange.scheduler.mailroom.woken ∨ task.id ∈ exchange.thread.batch := by
  have sane := reachable.sane
  rcases sane.attended present (Or.inl waits) owned with
    ⟨tail, head⟩ | ⟨sender, link, halfway⟩ | ⟨sender, waking⟩ | listed
  · obtain ⟨row, fits⟩ := (sane.reachable task.mailbox.inbox).row
    obtain rfl := fits.eq_singleton (tail.trans head.symm)
    rw [tail] at fits
    have nothing := fits.undelivered_eq
    rw [List.filterMap_cons_none fits.content?_stub, List.filterMap_nil] at nothing
    rw [nothing] at waiting
    exact absurd waiting List.not_mem_nil
  · rw [(quiet sender).1] at halfway
    exact absurd halfway (by simp)
  · rw [(quiet sender).2] at waking
    exact absurd waking (by simp)
  · exact listed

/-- A task has been spawned. -/
def spawned : Exchange :=
  let fresh := start ⟨0⟩ 0 fun _ => []
  { fresh with scheduler := stateAfter (Scheduler.spawn default none) fresh.scheduler }

/-- The thread has seen that the inbox of the task is empty. -/
def compared : Exchange := ((spawned.goOn (.looking 0 0)).look 0 0).compare 0 0

/-- The task waits for messages. -/
def asleep : Exchange :=
  { compared with
    scheduler := stateAfter (Scheduler.suspend 0 .message) compared.scheduler
    thread := .free }

/-- A sender has made its link the head. -/
def begun (exchange : Exchange) (sender link : Nat) : Exchange :=
  let loaded := exchange.access 0 ((exchange.traffic 0).load sender ⟨.nil, none⟩)
  loaded.access 0 ((loaded.traffic 0).swap sender link ⟨.nil, none⟩)

/-- A second sender has hung its link before the first one has. -/
def crowded : Exchange := ((asleep.begun 1 1).begun 2 2).hang 0 2 1 2

/-- The first sender has woken the task. -/
def roused : Exchange := ((crowded.hang 0 1 0 1).wake 0 1 ⟨1⟩).unpark 0 1

theorem discreet_spawned : (start ⟨0⟩ 0 fun _ => []).scheduler.Discreet spawned.scheduler where
  kept inbox within := absurd within (Nat.not_lt_zero inbox)
  fresh inbox owner entry beyond added := by
    cases inbox with
    | zero => exact (congrArg Prod.snd (Option.some.inj added)).symm
    | succ inbox =>
      have nothing : spawned.scheduler.mailroom.inboxes[inbox + 1]? = none :=
        Array.getElem?_eq_none (Nat.le_add_left 1 inbox)
      rw [nothing] at added
      exact absurd added (by simp)
  woken := rfl
  waits slot task present awaited := by
    cases slot with
    | zero =>
      obtain rfl := Option.some.inj present
      exact absurd awaited nofun
    | succ slot =>
      have nothing : spawned.scheduler.roster.task? (slot + 1) = none :=
        Roster.task?_eq_none (Nat.le_add_left 1 slot)
      rw [nothing] at present
      exact absurd present (by simp)
  registered _ slot task present := by
    cases slot with
    | zero =>
      obtain rfl := Option.some.inj present
      rfl
    | succ slot =>
      have nothing : spawned.scheduler.roster.task? (slot + 1) = none :=
        Roster.task?_eq_none (Nat.le_add_left 1 slot)
      rw [nothing] at present
      exact absurd present (by simp)

theorem asleep_reachable : Reachable asleep := by
  have spawned : Reachable spawned :=
    .step (.start ⟨0⟩ 0 fun _ => []) (.between rfl discreet_spawned)
  obtain ⟨task, present, inbox⟩ : ∃ task, Exchange.spawned.scheduler.roster.task? 0 = some task ∧
      task.mailbox.inbox = 0 := ⟨_, rfl, rfl⟩
  have turned := Reachable.step spawned (.turn rfl present)
  rw [inbox] at turned
  have compared : Reachable compared := .step (.step turned (.look rfl)) (.compare rfl)
  exact .step compared (.suspend rfl rfl)

theorem begun_reachable (reachable : Reachable exchange) (sender link : Nat)
    (known : exchange.Has 0) (resting : (exchange.traffic 0).senders sender = .resting)
    (quiet : exchange.calling 0 sender = .resting)
    (made : (exchange.traffic 0).chain.links.size = link) :
    Reachable (exchange.begun sender link) := by
  subst made
  have loaded := Reachable.step reachable (.load ⟨.nil, none⟩ known resting quiet)
  refine .step loaded (.swap ?_ ?_)
  · simpa [Has, access, setMailroom] using known
  · simp [traffic_access_self, Traffic.load, Chain.allocate]

theorem roused_reachable : Reachable roused := by
  have first : Reachable (asleep.begun 1 1) :=
    begun_reachable asleep_reachable 1 1 Nat.zero_lt_one rfl rfl rfl
  have second : Reachable ((asleep.begun 1 1).begun 2 2) :=
    begun_reachable first 2 2 Nat.zero_lt_one rfl rfl rfl
  have crowded : Reachable crowded := .step second (.hang Nat.zero_lt_one rfl)
  have hung : Reachable (Exchange.crowded.hang 0 1 0 1) := .step crowded (.hang Nat.zero_lt_one rfl)
  have woken : Reachable ((Exchange.crowded.hang 0 1 0 1).wake 0 1 ⟨1⟩) :=
    .step hung (.wake (by rfl) (by rfl))
  exact .step woken (.unpark rfl)

/-- The task waits, both messages are in its inbox, and the task is among those that were woken. -/
theorem roused_no_wake_lost :
    ∃ task, roused.scheduler.roster.task? 0 = some task ∧ task.awaited = some .message ∧
      (roused.traffic task.mailbox.inbox).undelivered = [⟨.nil, none⟩, ⟨.nil, none⟩] ∧
      (task.id ∈ roused.scheduler.mailroom.woken ∨ task.id ∈ roused.thread.batch) := by
  obtain ⟨task, present, waits, id, inbox⟩ : ∃ task, roused.scheduler.roster.task? 0 = some task ∧
      task.awaited = some .message ∧ task.id = ⟨1⟩ ∧ task.mailbox.inbox = 0 :=
    ⟨_, rfl, rfl, rfl, rfl⟩
  have undelivered : (roused.traffic task.mailbox.inbox).undelivered =
      [⟨.nil, none⟩, ⟨.nil, none⟩] := by
    rw [inbox]
    rfl
  have owned : roused.scheduler.mailroom.owner? task.mailbox.inbox = some task.id := by
    rw [inbox, id]
    rfl
  have quiet : roused.Quiet task.mailbox.inbox := by
    have senders : (roused.traffic 0).senders =
        Function.update (Function.update (Function.update (Function.update (Function.update
          (Function.update (fun _ => .resting) 1 (.loaded 1 ⟨.nil, none⟩)) 1 (.halfway 0 1)) 2
          (.loaded 2 ⟨.nil, none⟩)) 2 (.halfway 1 2)) 2 .resting) 1 .resting := rfl
    have calling : roused.calling 0 = Function.update (Function.update (Function.update
        (fun _ => .resting) 1 .waking) 1 .unparking) 1 .resting := rfl
    intro sender
    rw [inbox, senders, calling]
    by_cases first : sender = 1 <;> by_cases second : sender = 2 <;> simp [first, second]
  exact ⟨task, present, waits, undelivered,
    roused_reachable.no_wake_lost present waits owned quiet
      (by rw [undelivered]; exact List.mem_cons_self)⟩

end Exchange

end TaskMachine

/-
In a chain in use the links stand in a row. `Row` states this together with what
every link carries, with what can be said at each stage of the receiver, and
with the account: what was received and what the row still carries is what was
sent, in order.

A gap in the row is about to be closed by the sender that is halfway there, or
by the receiver, if it is the one in front of the stub. Every step keeps the
row: it appends a link, closes a gap or takes the first link away.
-/

import Mathlib.Data.List.Basic
import TaskMachine.Proofs.Inbox.Strung
import TaskMachine.Proofs.Inbox.Traffic

namespace TaskMachine

/-! ### The row of a chain in use -/

/-- What a sender has made a link for and not sent yet. -/
def Sending.unsent {Content : Type} : Sending Content → List Content
  | .loaded _ content => [content]
  | .resting | .halfway .. => []

/-- The receiver is about to hang the stub. -/
def Stage.isHanging {Content : Type} : Stage Content → Bool
  | .hanging _ => true
  | _ => false

theorem Stage.ne_hanging {Content : Type} {stage : Stage Content} (quiet : stage.isHanging = false)
    (previous : Nat) : stage ≠ .hanging previous := by
  rintro rfl
  exact absurd quiet (by simp [isHanging])

namespace Traffic

variable {Content : Type}

/-- The gap between two links is about to be closed: by a sender, or by the receiver if the
second one is the stub. -/
def Closing (traffic : Traffic Content) (first second : Nat) : Prop :=
  (∃ sender, traffic.senders sender = .halfway first second) ∨
    (traffic.stage = .hanging first ∧ second = Chain.stub)

/-- What is known of the row at a stage of the receiver. -/
def StageFits (tail : Nat) (row : List Nat) : Stage Content → Prop
  | .start | .done _ => True
  | .passed | .closing => Chain.stub ∉ row
  | .last | .hanging _ | .again => tail ≠ Chain.stub

/-- What is known of the row stays known when a link other than the stub joins it. -/
theorem StageFits.concat {tail link : Nat} {row : List Nat} {stage : Stage Content}
    (fits : StageFits tail row stage) (notStub : link ≠ Chain.stub) :
    StageFits tail (row ++ [link]) stage := by
  have grown (absent : Chain.stub ∉ row) : Chain.stub ∉ row ++ [link] := by
    simp [absent, notStub.symm]
  cases stage with
  | start | done _ => trivial
  | passed | closing => exact grown fits
  | last | hanging _ | again => exact fits

/-- The links of a chain in use stand in a row, which carries what was sent and not received. -/
structure Row (traffic : Traffic Content) (row : List Nat) : Prop where
  strung : traffic.chain.Strung traffic.Closing row
  /-- The stub is always there and carries nothing. -/
  stubbed : ∃ next, traffic.chain.link? Chain.stub = some ⟨next, none⟩
  /-- All other links of the row carry messages. -/
  laden : ∀ link ∈ row, link ≠ Chain.stub → ∃ content, traffic.chain.content? link = some content
  /-- A link that was only made is not in the row yet. -/
  loaded : ∀ {sender link content}, traffic.senders sender = .loaded link content →
    link ∉ row ∧ traffic.chain.link? link = some ⟨none, some content⟩
  /-- No sender appends the stub. -/
  unstubbed : ∀ {sender link}, (traffic.senders sender).link? = some link → link ≠ Chain.stub
  /-- No two senders append the same link. -/
  owned : ∀ {sender other link}, (traffic.senders sender).link? = some link →
    (traffic.senders other).link? = some link → other = sender
  stage : StageFits traffic.chain.tail row traffic.stage
  /-- What was sent was received, or the row carries it. -/
  account : traffic.sent.map Prod.snd = traffic.received ++ row.filterMap traffic.chain.content?
  /-- What a sender has set out to send was sent, but for what it has only made a link for. -/
  posted : ∀ sender, traffic.posted sender =
    ((traffic.sent.filter fun entry => entry.1 = sender).map Prod.snd) ++
      (traffic.senders sender).unsent

theorem row_start : Row (start : Traffic Content) [Chain.stub] where
  strung :=
    { distinct := by simp
      front := rfl
      back := rfl
      present := fun link member => by
        rw [List.mem_singleton.mp member]
        exact ⟨_, rfl⟩
      loose := rfl
      joined := fun follows => by
        rcases follows_cons_iff.mp follows with ⟨_, head⟩ | inside
        · simp at head
        · exact absurd inside.mem_left List.not_mem_nil
      gap := fun closes => by simp [Closing, start] at closes }
  stubbed := ⟨none, rfl⟩
  laden link member notStub := absurd (List.mem_singleton.mp member) notStub
  loaded loaded := by simp [start] at loaded
  unstubbed owns := by simp [start, Sending.link?] at owns
  owned owns := by simp [start, Sending.link?] at owns
  stage := trivial
  account := rfl
  posted sender := rfl

namespace Row

variable {traffic : Traffic Content} {row : List Nat} {sender : Nat}

/-- The link that a sender is about to append was made. -/
theorem known_of_owns (fits : Row traffic row) {link : Nat}
    (owns : (traffic.senders sender).link? = some link) :
    ∃ entry, traffic.chain.link? link = some entry := by
  cases place : traffic.senders sender with
  | resting => simp [place, Sending.link?] at owns
  | loaded own content =>
    obtain rfl : own = link := by simpa [place, Sending.link?] using owns
    exact ⟨_, (fits.loaded place).2⟩
  | halfway previous own =>
    obtain rfl : own = link := by simpa [place, Sending.link?] using owns
    exact fits.strung.present own (fits.strung.gap (Or.inl ⟨sender, place⟩)).1.mem_right

/-- The stub stays the stub when something else is set to be behind a link. -/
theorem stubbed_setNext (fits : Row traffic row) (link : Nat) (behind : Option Nat) :
    ∃ next, (traffic.chain.setNext link behind).link? Chain.stub = some ⟨next, none⟩ := by
  obtain ⟨next, known⟩ := fits.stubbed
  rw [Chain.link?_setNext, known]
  split <;> exact ⟨_, rfl⟩

/-- Making a link changes nothing about the row. -/
theorem load (fits : Row traffic row) (content : Content)
    (resting : traffic.senders sender = .resting) : Row (traffic.load sender content) row := by
  have kept {link : Nat} {entry : Link Content} (known : traffic.chain.link? link = some entry) :
      (traffic.load sender content).chain.link? link = some entry :=
    Chain.link?_allocate_other traffic.chain content known
  have same (link : Nat) (member : link ∈ row) :
      (traffic.load sender content).chain.link? link = traffic.chain.link? link := by
    obtain ⟨entry, known⟩ := fits.strung.present link member
    rw [kept known, known]
  have carries (link : Nat) (member : link ∈ row) :
      (traffic.load sender content).chain.content? link = traffic.chain.content? link := by
    rw [Chain.content?, same link member, Chain.content?]
  have made : (traffic.load sender content).chain.link? traffic.chain.links.size =
      some ⟨none, some content⟩ := Chain.link?_allocate_self traffic.chain content
  have beyond {link : Nat} {entry : Link Content}
      (known : traffic.chain.link? link = some entry) : link ≠ traffic.chain.links.size :=
    Nat.ne_of_lt (Chain.lt_size_of_link?_eq_some known)
  have senders : (traffic.load sender content).senders = Function.update traffic.senders sender
      (.loaded traffic.chain.links.size content) := rfl
  refine
    { strung := fits.strung.of_links rfl rfl same fun first second => ?_
      stubbed := fits.stubbed.imp fun next => kept
      laden := ?_, loaded := ?_, unstubbed := ?_, owned := ?_, stage := fits.stage
      account := ?_, posted := ?_ }
  · refine or_congr (exists_congr fun other => ?_) Iff.rfl
    rw [senders, Function.update_apply]
    split
    · rename_i own
      simp [own, resting]
    · rfl
  · intro link member notStub
    rw [carries link member]
    exact fits.laden link member notStub
  · intro other link carried place
    rw [senders, Function.update_apply] at place
    split at place
    · obtain ⟨rfl, rfl⟩ : traffic.chain.links.size = link ∧ content = carried := by
        simpa using place
      refine ⟨fun member => ?_, made⟩
      obtain ⟨entry, known⟩ := fits.strung.present _ member
      exact beyond known rfl
    · obtain ⟨absent, known⟩ := fits.loaded place
      exact ⟨absent, kept known⟩
  · intro other link owns
    rw [senders, Function.update_apply] at owns
    split at owns
    · obtain ⟨next, stubKnown⟩ := fits.stubbed
      obtain rfl : traffic.chain.links.size = link := by simpa [Sending.link?] using owns
      exact (beyond stubKnown).symm
    · exact fits.unstubbed owns
  · intro first second link owns alsoOwns
    have unowned (other : Nat)
        (otherOwns : (traffic.senders other).link? = some traffic.chain.links.size) : False := by
      obtain ⟨entry, known⟩ := fits.known_of_owns otherOwns
      exact beyond known rfl
    rw [senders, Function.update_apply] at owns alsoOwns
    split at owns <;> split at alsoOwns
    · rename_i own also
      rw [also, own]
    · obtain rfl : traffic.chain.links.size = link := by simpa [Sending.link?] using owns
      exact (unowned second alsoOwns).elim
    · obtain rfl : traffic.chain.links.size = link := by simpa [Sending.link?] using alsoOwns
      exact (unowned first owns).elim
    · exact fits.owned owns alsoOwns
  · rw [List.filterMap_congr carries]
    exact fits.account
  · intro other
    have before := fits.posted other
    by_cases own : other = sender
    · subst own
      simp only [Traffic.load, Function.update_self, before, resting, Sending.unsent,
        List.append_nil]
    · simp only [Traffic.load, Function.update_of_ne own]
      exact before

/-- A link that becomes the head leaves a gap behind the head before. -/
theorem closing_swap {link : Nat} {content : Content}
    (place : traffic.senders sender = .loaded link content) (first second : Nat) :
    (traffic.swap sender link content).Closing first second ↔
      traffic.Closing first second ∨ (first = traffic.chain.head ∧ second = link) := by
  have senders : (traffic.swap sender link content).senders = Function.update traffic.senders sender
      (.halfway traffic.chain.head link) := rfl
  rw [Closing, Closing, or_right_comm]
  refine or_congr ?_ Iff.rfl
  constructor
  · rintro ⟨other, otherPlace⟩
    rw [senders, Function.update_apply] at otherPlace
    split at otherPlace
    · obtain ⟨rfl, rfl⟩ : traffic.chain.head = first ∧ link = second := by
        simpa using otherPlace
      exact Or.inr ⟨rfl, rfl⟩
    · exact Or.inl ⟨other, otherPlace⟩
  · rintro (⟨other, otherPlace⟩ | ⟨rfl, rfl⟩)
    · exact ⟨other, by rw [senders]; exact update_apart otherPlace (by simp [place])⟩
    · exact ⟨sender, by rw [senders, Function.update_self]⟩

/-- The row grows by a link that becomes the head, and so does what was sent. -/
theorem swap (fits : Row traffic row) {link : Nat} {content : Content}
    (place : traffic.senders sender = .loaded link content) :
    Row (traffic.swap sender link content) (row ++ [link]) := by
  obtain ⟨absent, known⟩ := fits.loaded place
  have mine : (traffic.senders sender).link? = some link := by rw [place]; rfl
  have notStub := fits.unstubbed mine
  have senders : (traffic.swap sender link content).senders = Function.update traffic.senders sender
      (.halfway traffic.chain.head link) := rfl
  have links (other : Nat) :
      (traffic.swap sender link content).chain.link? other = traffic.chain.link? other := by
    show (traffic.chain.setNext link none).link? other = _
    rw [Chain.link?_setNext]
    split
    · rename_i same
      rw [same, known]
      rfl
    · rfl
  have carries : (traffic.swap sender link content).chain.content? = traffic.chain.content? := by
    funext other
    rw [Chain.content?, links, Chain.content?]
  have owns (other : Nat) : ((traffic.swap sender link content).senders other).link? =
      (traffic.senders other).link? := by
    rw [senders, Function.update_apply]
    split
    · rename_i same
      rw [same, mine]
      rfl
    · rfl
  refine
    { strung := fits.strung.swapHead absent known (closing_swap place)
      stubbed := ?_, laden := ?_, loaded := ?_, unstubbed := ?_, owned := ?_, stage := ?_
      account := ?_, posted := ?_ }
  · rw [links]
    exact fits.stubbed
  · intro other member otherNotStub
    rw [carries]
    rcases List.mem_append.mp member with member | member
    · exact fits.laden other member otherNotStub
    · rw [List.mem_singleton.mp member, Chain.content?, known]
      exact ⟨content, rfl⟩
  · intro other loading carried otherPlace
    rw [senders, Function.update_apply] at otherPlace
    split at otherPlace
    · simp at otherPlace
    · rename_i differ
      obtain ⟨otherAbsent, otherKnown⟩ := fits.loaded otherPlace
      refine ⟨fun member => ?_, by rw [links, otherKnown]⟩
      rcases List.mem_append.mp member with member | member
      · exact otherAbsent member
      · refine differ (fits.owned mine ?_)
        rw [otherPlace, List.mem_singleton.mp member]
        rfl
  · intro other otherLink otherOwns
    rw [owns] at otherOwns
    exact fits.unstubbed otherOwns
  · intro first second other firstOwns secondOwns
    rw [owns] at firstOwns secondOwns
    exact fits.owned firstOwns secondOwns
  · exact fits.stage.concat notStub
  · have carried : traffic.chain.content? link = some content := by
      rw [Chain.content?, known]
      rfl
    rw [carries, List.filterMap_append, ← List.append_assoc]
    show (traffic.sent ++ [(sender, content)]).map Prod.snd = _
    rw [List.map_append, fits.account]
    simp [Traffic.swap, carried]
  · intro other
    have before := fits.posted other
    rw [senders]
    show traffic.posted other = ((traffic.sent ++ [(sender, content)]).filter
      fun entry => entry.1 = other).map Prod.snd ++ _
    rw [List.filter_append, List.map_append, before]
    by_cases own : other = sender
    · subst own
      simp [place, Sending.unsent]
    · simp [Function.update_of_ne own, Ne.symm own]

/-- A link that is hung closes the gap in front of it, and no other. -/
theorem closing_hang (fits : Row traffic row) {previous link : Nat}
    (place : traffic.senders sender = .halfway previous link) (first second : Nat) :
    (traffic.hang sender previous link).Closing first second ↔
      traffic.Closing first second ∧ first ≠ previous := by
  have mine : (traffic.senders sender).link? = some link := by rw [place]; rfl
  obtain ⟨follows, _⟩ := fits.strung.gap (Or.inl ⟨sender, place⟩)
  have senders : (traffic.hang sender previous link).senders =
      Function.update traffic.senders sender .resting := rfl
  constructor
  · rintro (⟨other, otherPlace⟩ | ⟨stage, rfl⟩)
    · rw [senders, Function.update_apply] at otherPlace
      split at otherPlace
      · simp at otherPlace
      · rename_i differ
        have closes : traffic.Closing first second := Or.inl ⟨other, otherPlace⟩
        refine ⟨closes, ?_⟩
        rintro rfl
        refine differ (fits.owned mine ?_)
        rw [otherPlace, (fits.strung.gap closes).1.unique fits.strung.distinct follows]
        rfl
    · have closes : traffic.Closing first Chain.stub := Or.inr ⟨stage, rfl⟩
      refine ⟨closes, ?_⟩
      rintro rfl
      exact fits.unstubbed mine (follows.unique fits.strung.distinct (fits.strung.gap closes).1)
  · rintro ⟨⟨other, otherPlace⟩ | byReceiver, differ⟩
    · refine Or.inl ⟨other, ?_⟩
      rw [senders]
      exact update_apart otherPlace (by simpa [place] using fun same _ => differ same.symm)
    · exact Or.inr byReceiver

/-- The row stays when a gap in it is closed. -/
theorem hang (fits : Row traffic row) {previous link : Nat}
    (place : traffic.senders sender = .halfway previous link) :
    Row (traffic.hang sender previous link) row := by
  obtain ⟨follows, _⟩ := fits.strung.gap (Or.inl ⟨sender, place⟩)
  have senders : (traffic.hang sender previous link).senders =
      Function.update traffic.senders sender .resting := rfl
  have carries : (traffic.hang sender previous link).chain.content? = traffic.chain.content? :=
    funext fun other => Chain.content?_setNext traffic.chain previous other (some link)
  have stays {other : Nat} {otherLink : Nat}
      (owns : ((traffic.hang sender previous link).senders other).link? = some otherLink) :
      (traffic.senders other).link? = some otherLink := by
    rw [senders, Function.update_apply] at owns
    split at owns
    · simp [Sending.link?] at owns
    · exact owns
  have links {other : Nat} (differ : other ∉ row) :
      (traffic.hang sender previous link).chain.link? other = traffic.chain.link? other := by
    show (traffic.chain.setNext previous (some link)).link? other = _
    rw [Chain.link?_setNext, if_neg (ne_of_mem_of_not_mem follows.mem_left differ).symm]
  refine
    { strung := fits.strung.hang (Or.inl ⟨sender, place⟩) (fits.closing_hang place)
      stubbed := fits.stubbed_setNext previous (some link)
      laden := ?_, loaded := ?_, unstubbed := fun owns => fits.unstubbed (stays owns)
      owned := fun owns alsoOwns => fits.owned (stays owns) (stays alsoOwns)
      stage := fits.stage, account := ?_, posted := ?_ }
  · rw [carries]
    exact fits.laden
  · intro other loading content otherPlace
    rw [senders, Function.update_apply] at otherPlace
    split at otherPlace
    · simp at otherPlace
    · obtain ⟨absent, known⟩ := fits.loaded otherPlace
      exact ⟨absent, by rw [links absent, known]⟩
  · rw [carries]
    exact fits.account
  · intro other
    have before := fits.posted other
    rw [senders]
    by_cases own : other = sender
    · subst own
      rw [place] at before
      rw [Function.update_self]
      exact before
    · rw [Function.update_of_ne own]
      exact before

/-! ### The receiver -/

/-- The receiver goes on to another stage, and nothing else changes. -/
theorem goOn (fits : Row traffic row) {stage : Stage Content}
    (before : traffic.stage.isHanging = false) (after : stage.isHanging = false)
    (known : StageFits traffic.chain.tail row stage) : Row { traffic with stage } row where
  strung := fits.strung.of_links rfl rfl (fun _ _ => rfl) fun first _ =>
    or_congr Iff.rfl (and_congr_left fun _ => iff_of_false (Stage.ne_hanging after first)
      (Stage.ne_hanging before first))
  stubbed := fits.stubbed
  laden := fits.laden
  loaded := fits.loaded
  unstubbed := fits.unstubbed
  owned := fits.owned
  stage := known
  account := fits.account
  posted := fits.posted

/-- The first link leaves the row, and what it carried is received. -/
theorem consume {rest : List Nat} (fits : Row traffic (traffic.chain.tail :: rest)) {next : Nat}
    (behind : traffic.chain.next? traffic.chain.tail = some next) {chain : Chain Content}
    {stage : Stage Content} (head : chain.head = traffic.chain.head) (tail : chain.tail = next)
    (links : ∀ link, link ≠ traffic.chain.tail ∨ link = Chain.stub →
      chain.link? link = traffic.chain.link? link)
    (before : traffic.stage.isHanging = false) (after : stage.isHanging = false)
    (known : StageFits next rest stage)
    {received : List Content}
    (hears : received =
      traffic.received ++ (traffic.chain.content? traffic.chain.tail).toList) :
    Row { traffic with chain, stage, received } rest := by
  have apart {link : Nat} (member : link ∈ rest) : link ≠ traffic.chain.tail :=
    ne_of_mem_of_not_mem member (List.nodup_cons.mp fits.strung.distinct).1
  have same (link : Nat) (member : link ∈ rest) : chain.link? link = traffic.chain.link? link :=
    links link (Or.inl (apart member))
  have carries (link : Nat) (member : link ∈ rest) :
      chain.content? link = traffic.chain.content? link := by
    rw [Chain.content?, same link member, Chain.content?]
  refine
    { strung := (fits.strung.pass behind head tail same).of_links rfl rfl (fun _ _ => rfl)
        fun first _ => or_congr Iff.rfl
          (and_congr_left fun _ => iff_of_false (Stage.ne_hanging after first)
      (Stage.ne_hanging before first))
      stubbed := ?_, laden := ?_, loaded := ?_, unstubbed := fits.unstubbed, owned := fits.owned
      stage := ?_, account := ?_, posted := fits.posted }
  · rw [links Chain.stub (Or.inr rfl)]
    exact fits.stubbed
  · intro link member notStub
    rw [carries link member]
    exact fits.laden link (List.mem_cons_of_mem _ member) notStub
  · intro other loading content place
    obtain ⟨absent, loadingKnown⟩ := fits.loaded place
    rw [List.mem_cons, not_or] at absent
    exact ⟨absent.2, by rw [links loading (Or.inl absent.1), loadingKnown]⟩
  · rw [tail]
    exact known
  · rw [fits.account, hears, List.filterMap_congr carries, List.filterMap_cons]
    cases traffic.chain.content? traffic.chain.tail <;> simp

/-- The receiver takes the first link away. -/
theorem take (fits : Row traffic row) {next : Nat}
    (behind : traffic.chain.next? traffic.chain.tail = some next)
    (notStub : traffic.chain.tail ≠ Chain.stub)
    (before : traffic.stage.isHanging = false) :
    ∃ rest, Row
      { traffic with
        chain := (traffic.chain.take next).1
        stage := (traffic.chain.take next).2
        received := traffic.received ++ (traffic.chain.take next).2.taken.toList } rest := by
  obtain ⟨rest, rfl, _, _⟩ := fits.strung.eq_cons_of_next? behind
  have links (link : Nat) (apart : link ≠ traffic.chain.tail ∨ link = Chain.stub) :
      (traffic.chain.take next).1.link? link = traffic.chain.link? link := by
    have differ : traffic.chain.tail ≠ link := by
      rcases apart with differ | rfl
      · exact differ.symm
      · exact notStub
    simp [Chain.take, Chain.link?, Array.getElem?_setIfInBounds_ne differ]
  have leaves : (traffic.chain.take next).2.isHanging = false := rfl
  refine ⟨rest, fits.consume behind ?_ ?_ links before leaves trivial rfl⟩ <;> rfl

/-- The stub carries nothing. -/
theorem content?_stub (fits : Row traffic row) : traffic.chain.content? Chain.stub = none := by
  obtain ⟨next, known⟩ := fits.stubbed
  rw [Chain.content?, known]
  rfl

/-- The row carries what was sent and not received yet. -/
theorem undelivered_eq (fits : Row traffic row) :
    traffic.undelivered = row.filterMap traffic.chain.content? := by
  rw [undelivered, fits.account, List.drop_left]

/-- The row grows by the stub when the receiver makes it the head. -/
theorem swapStub (fits : Row traffic row) (place : traffic.stage = .closing) :
    Row
      { traffic with
        chain := (traffic.chain.swapHead Chain.stub).1
        stage := .hanging traffic.chain.head } (row ++ [Chain.stub]) := by
  have absent : Chain.stub ∉ row := by simpa [place, StageFits] using fits.stage
  obtain ⟨next, known⟩ := fits.stubbed
  have carries : (traffic.chain.swapHead Chain.stub).1.content? = traffic.chain.content? :=
    funext fun other => Chain.content?_setNext traffic.chain Chain.stub other none
  refine
    { strung := fits.strung.swapHead absent known fun first second => ?_
      stubbed := fits.stubbed_setNext Chain.stub none
      laden := ?_, loaded := ?_, unstubbed := fits.unstubbed, owned := fits.owned
      stage := ?_, account := ?_, posted := fits.posted }
  · simp [Closing, place, eq_comm]
  · intro other member notStub
    rw [carries]
    refine fits.laden other ?_ notStub
    simpa [notStub] using member
  · intro other loading content otherPlace
    obtain ⟨loadingAbsent, loadingKnown⟩ := fits.loaded otherPlace
    have notStub : loading ≠ Chain.stub := fits.unstubbed (by rw [otherPlace]; rfl)
    refine ⟨by simp [loadingAbsent, notStub], ?_⟩
    show (traffic.chain.setNext Chain.stub none).link? loading = _
    rw [Chain.link?_setNext, if_neg notStub, loadingKnown]
  · show traffic.chain.tail ≠ Chain.stub
    exact ne_of_mem_of_not_mem fits.strung.tail_mem absent
  · rw [carries, List.filterMap_append, fits.account]
    simp [fits.content?_stub]

/-- The row stays when the receiver hangs the stub. -/
theorem hangStub (fits : Row traffic row) {previous : Nat}
    (place : traffic.stage = .hanging previous) :
    Row
      { traffic with
        chain := traffic.chain.hang previous Chain.stub
        stage := .again } row := by
  have byReceiver : traffic.Closing previous Chain.stub := Or.inr ⟨place, rfl⟩
  obtain ⟨follows, _⟩ := fits.strung.gap byReceiver
  have carries : (traffic.chain.hang previous Chain.stub).content? = traffic.chain.content? :=
    funext fun other => Chain.content?_setNext traffic.chain previous other (some Chain.stub)
  refine
    { strung := fits.strung.hang byReceiver fun first second => ?_
      stubbed := fits.stubbed_setNext previous (some Chain.stub)
      laden := ?_, loaded := ?_, unstubbed := fits.unstubbed, owned := fits.owned
      stage := ?_, account := ?_, posted := fits.posted }
  · constructor
    · rintro (⟨other, otherPlace⟩ | ⟨stage, _⟩)
      · have closes : traffic.Closing first second := Or.inl ⟨other, otherPlace⟩
        refine ⟨closes, ?_⟩
        rintro rfl
        have same := follows.unique fits.strung.distinct (fits.strung.gap closes).1
        exact fits.unstubbed (by rw [otherPlace]; rfl) same.symm
      · simp at stage
    · rintro ⟨⟨other, otherPlace⟩ | ⟨stage, _⟩, differ⟩
      · exact Or.inl ⟨other, otherPlace⟩
      · rw [place] at stage
        exact absurd (Stage.hanging.inj stage).symm differ
  · rw [carries]
    exact fits.laden
  · intro other loading content otherPlace
    obtain ⟨absent, known⟩ := fits.loaded otherPlace
    refine ⟨absent, ?_⟩
    show (traffic.chain.setNext previous (some Chain.stub)).link? loading = _
    rw [Chain.link?_setNext, if_neg (ne_of_mem_of_not_mem follows.mem_left absent).symm, known]
  · have stage := fits.stage
    rw [place] at stage
    exact stage
  · rw [carries]
    exact fits.account

/-- If the tail is the head, the row holds nothing else. -/
theorem eq_singleton (fits : Row traffic row) (meet : traffic.chain.tail = traffic.chain.head) :
    row = [traffic.chain.tail] := by
  cases row with
  | nil => exact absurd fits.strung.front (by simp)
  | cons front rest =>
    obtain rfl : front = traffic.chain.tail := Option.some.inj fits.strung.front
    cases rest with
    | nil => rfl
    | cons second rest =>
      have last := fits.strung.back
      rw [List.getLast?_cons_cons, ← meet] at last
      exact absurd (List.mem_of_getLast? last) (List.nodup_cons.mp fits.strung.distinct).1

/-- The receiver goes on to another stage without having received anything. -/
theorem receive_goOn (fits : Row traffic row) {stage : Stage Content}
    (result : traffic.chain.receiveStep traffic.stage = (traffic.chain, stage))
    (nothing : stage.taken = none) (before : traffic.stage.isHanging = false)
    (after : stage.isHanging = false)
    (known : StageFits traffic.chain.tail row stage) : Row traffic.receive row := by
  rw [Traffic.receive_eq result, nothing, Option.toList_none, List.append_nil]
  exact fits.goOn before after known

/-- The receiver takes the first link away. -/
theorem receive_take (fits : Row traffic row) {next : Nat}
    (result : traffic.chain.receiveStep traffic.stage = traffic.chain.take next)
    (behind : traffic.chain.next? traffic.chain.tail = some next)
    (notStub : traffic.chain.tail ≠ Chain.stub)
    (before : traffic.stage.isHanging = false) : ∃ rest, Row traffic.receive rest := by
  obtain ⟨rest, taken⟩ := fits.take behind notStub before
  refine ⟨rest, ?_⟩
  rw [Traffic.receive_eq result]
  exact taken

/-- The receiver passes over the stub. -/
theorem receive_pass (fits : Row traffic row) {next : Nat} (place : traffic.stage = .start)
    (behind : traffic.chain.next? traffic.chain.tail = some next)
    (atStub : traffic.chain.tail = Chain.stub) : ∃ rest, Row traffic.receive rest := by
  obtain ⟨rest, rfl, _, absent⟩ := fits.strung.eq_cons_of_next? behind
  have result : traffic.chain.receiveStep traffic.stage =
      ({ traffic.chain with tail := next }, .passed) := by
    rw [place, Chain.receiveStep, behind]
    exact if_pos atStub
  have carried : traffic.chain.content? traffic.chain.tail = none := by
    rw [atStub, fits.content?_stub]
  refine ⟨rest, ?_⟩
  rw [Traffic.receive_eq result]
  refine fits.consume behind ?_ ?_ (fun _ _ => ?_) ?_ ?_ ?_ ?_
  · rfl
  · rfl
  · rfl
  · rw [place]
    rfl
  · rfl
  · rw [atStub] at absent
    exact absent
  · rw [carried]
    rfl

/-- Whatever stage the receiver goes through, there is a row afterwards. -/
theorem receive (fits : Row traffic row) (busy : ∀ taken, traffic.stage ≠ .done taken) :
    ∃ next, Row traffic.receive next := by
  have stage := fits.stage
  cases place : traffic.stage with
  | start =>
    have before : traffic.stage.isHanging = false := by rw [place]; rfl
    cases behind : traffic.chain.next? traffic.chain.tail with
    | none =>
      by_cases atStub : traffic.chain.tail = Chain.stub
      · have result : traffic.chain.receiveStep traffic.stage = (traffic.chain, .done none) := by
          rw [place, Chain.receiveStep, behind]
          exact if_pos atStub
        exact ⟨row, fits.receive_goOn result rfl before rfl trivial⟩
      · have result : traffic.chain.receiveStep traffic.stage = (traffic.chain, .last) := by
          rw [place, Chain.receiveStep, behind]
          exact if_neg atStub
        exact ⟨row, fits.receive_goOn result rfl before rfl atStub⟩
    | some next =>
      by_cases atStub : traffic.chain.tail = Chain.stub
      · exact fits.receive_pass place behind atStub
      · have result : traffic.chain.receiveStep traffic.stage = traffic.chain.take next := by
          rw [place, Chain.receiveStep, behind]
          exact if_neg atStub
        exact fits.receive_take result behind atStub before
  | passed =>
    have before : traffic.stage.isHanging = false := by rw [place]; rfl
    rw [place] at stage
    have notStub : traffic.chain.tail ≠ Chain.stub :=
      ne_of_mem_of_not_mem fits.strung.tail_mem stage
    cases behind : traffic.chain.next? traffic.chain.tail with
    | none =>
      have result : traffic.chain.receiveStep traffic.stage = (traffic.chain, .last) := by
        rw [place, Chain.receiveStep, behind]
      exact ⟨row, fits.receive_goOn result rfl before rfl notStub⟩
    | some next =>
      have result : traffic.chain.receiveStep traffic.stage = traffic.chain.take next := by
        rw [place, Chain.receiveStep, behind]
      exact fits.receive_take result behind notStub before
  | last =>
    have before : traffic.stage.isHanging = false := by rw [place]; rfl
    rw [place] at stage
    by_cases meet : traffic.chain.tail = traffic.chain.head
    · have result : traffic.chain.receiveStep traffic.stage = (traffic.chain, .closing) := by
        rw [place, Chain.receiveStep]
        exact if_pos meet
      refine ⟨row, fits.receive_goOn result rfl before rfl ?_⟩
      rw [fits.eq_singleton meet]
      exact fun member => stage (List.mem_singleton.mp member).symm
    · have result : traffic.chain.receiveStep traffic.stage = (traffic.chain, .done none) := by
        rw [place, Chain.receiveStep]
        exact if_neg meet
      exact ⟨row, fits.receive_goOn result rfl before rfl trivial⟩
  | closing =>
    refine ⟨row ++ [Chain.stub], ?_⟩
    rw [Traffic.receive_eq (by rw [place, Chain.receiveStep])]
    simpa [Stage.taken, Chain.swapHead] using fits.swapStub place
  | hanging previous =>
    refine ⟨row, ?_⟩
    rw [Traffic.receive_eq (by rw [place, Chain.receiveStep])]
    simpa [Stage.taken] using fits.hangStub place
  | again =>
    have before : traffic.stage.isHanging = false := by rw [place]; rfl
    rw [place] at stage
    cases behind : traffic.chain.next? traffic.chain.tail with
    | none =>
      have result : traffic.chain.receiveStep traffic.stage = (traffic.chain, .done none) := by
        rw [place, Chain.receiveStep, behind]
      exact ⟨row, fits.receive_goOn result rfl before rfl trivial⟩
    | some next =>
      have result : traffic.chain.receiveStep traffic.stage = traffic.chain.take next := by
        rw [place, Chain.receiveStep, behind]
      exact fits.receive_take result behind stage before
  | done taken => exact absurd place (busy taken)

end Row

/-- Every step leaves the links of the chain in a row. -/
theorem Row.step {traffic next : Traffic Content} {row : List Nat} {move : Move Content}
    (fits : Row traffic row) (step : Step traffic move next) : ∃ after, Row next after := by
  cases step with
  | load content resting => exact ⟨row, fits.load content resting⟩
  | @swap sender link content loaded => exact ⟨row ++ [link], fits.swap loaded⟩
  | hang halfway => exact ⟨row, fits.hang halfway⟩
  | begin rests => exact ⟨row, fits.goOn (by rw [rests]; rfl) rfl trivial⟩
  | receive busy => exact fits.receive busy

/-- In every state that can be reached the links of the chain stand in a row. -/
theorem Reachable.row {traffic : Traffic Content} (reachable : Reachable traffic) :
    ∃ row, Row traffic row := by
  induction reachable with
  | start => exact ⟨_, row_start⟩
  | step _ step inductionHypothesis =>
    obtain ⟨row, fits⟩ := inductionHypothesis
    exact fits.step step

/-- All links that a step touches are there. -/
theorem Row.touched_present {traffic : Traffic Content} {row : List Nat} (fits : Row traffic row)
    {move : Move Content} {link : Nat} (touches : link ∈ traffic.touched move) :
    (traffic.chain.link? link).isSome := by
  have inRow {link : Nat} (member : link ∈ row) : (traffic.chain.link? link).isSome := by
    obtain ⟨entry, known⟩ := fits.strung.present link member
    rw [known, Option.isSome_some]
  cases move with
  | load sender content => simp [touched] at touches
  | swap sender =>
    cases place : traffic.senders sender with
    | resting => simp [touched, place] at touches
    | loaded own content =>
      obtain rfl : link = own := by simpa [touched, place] using touches
      rw [(fits.loaded place).2, Option.isSome_some]
    | halfway previous own => simp [touched, place] at touches
  | hang sender =>
    cases place : traffic.senders sender with
    | resting => simp [touched, place] at touches
    | loaded own content => simp [touched, place] at touches
    | halfway previous own =>
      obtain rfl : link = previous := by simpa [touched, place] using touches
      exact inRow (fits.strung.gap (Or.inl ⟨sender, place⟩)).1.mem_left
  | begin => simp [touched] at touches
  | receive =>
    cases place : traffic.stage with
    | start | passed | again =>
      obtain rfl : link = traffic.chain.tail := by
        simpa [touched, Chain.stageTouches, place] using touches
      exact inRow fits.strung.tail_mem
    | last | done taken => simp [touched, Chain.stageTouches, place] at touches
    | closing =>
      obtain rfl : link = Chain.stub := by
        simpa [touched, Chain.stageTouches, place] using touches
      obtain ⟨next, known⟩ := fits.stubbed
      rw [known, Option.isSome_some]
    | hanging previous =>
      obtain rfl : link = previous := by
        simpa [touched, Chain.stageTouches, place] using touches
      exact inRow (fits.strung.gap (Or.inr ⟨place, rfl⟩)).1.mem_left

end Traffic

end TaskMachine

import FlavoEngine.Engine.Future

/-!
# The protocol of a result state

A `result_state` (`concurrencpp/results/impl/result_state.h`) is shared by a producer and a
consumer, and the last of them to leave frees it. `Future` takes each call of it for one step; here
an atomic access is one step, and so is each access of the producer to the state after it has
published.

* The consumer calls `wait`, `get`, `wait_for`, `co_await`, `resolve`, or destroys the result. It
  makes one call at a time. `status` changes nothing. `when_any` and `share` are not called.
* `atomic::wait` compares and blocks in one step, and a blocked consumer may wake up spuriously. A
  `wait_for` may time out at any time, and each has a semaphore of its own.
* A coroutine that `resume_consumer` resumes is suspended from the step at which it sets
  `consumer_set`.

Results:
1. `ResultSteps.moves`: a step is one of the moves of `ResultMoves`, each with its guards and its
   effect. Every invariant of the protocol is proved over them.
-/

namespace FlavoEngine.Engine

/-! ## The two sides -/

/-- `consumer_context::consumer_status`. -/
inductive ConsumerContext where
  | idle
  | await
  | waitFor
deriving DecidableEq

/-- Where the producer is: before it sets the result, before `complete_producer`, past its
`exchange` with the state it found, before it releases the semaphore of a `wait_for`, and
through. -/
inductive ProducerPhase where
  | working
  | built
  | wake (found : PcState)
  | release
  | ended
deriving DecidableEq

/-- What follows a call that waited: the consumer keeps its result, or takes the value. -/
inductive After where
  | keep
  | take
deriving DecidableEq

/-- Where the consumer is in its call. A `load`, a `cas` or an `exchange` is of `m_pc_state`. -/
inductive ConsumerPhase where
  /-- In no call. -/
  | holding
  | loadWait (k : After)
  | casWait (k : After)
  | spin (k : After)
  /-- In `atomic::wait`, before it compares, and blocked. -/
  | compare (k : After)
  | blocked (k : After)
  | loadAwait (k : After)
  | setAwait (k : After)
  | casAwait (k : After)
  | suspended (k : After)
  | loadWaitFor
  | setWaitFor
  | casWaitFor
  | acquire
  | rewind
  | clear
  | loadDrop
  | exchangeDrop
  | take
  /-- Before `delete_self`. -/
  | delete
  /-- It left the state to the producer. -/
  | left
  /-- It freed the state. -/
  | ended
deriving DecidableEq

def After.phase : After → ConsumerPhase
  | keep => .holding
  | take => .take

/-- The calls of the consumer. -/
inductive ConsumerOp where
  | wait
  | get
  | await
  | resolve
  | waitFor
  | drop
deriving DecidableEq

def ConsumerOp.enter : ConsumerOp → ConsumerPhase
  | wait => .loadWait .keep
  | get => .loadWait .take
  | await => .loadAwait .take
  | resolve => .loadAwait .keep
  | waitFor => .loadWaitFor
  | drop => .loadDrop

/-! ## Steps -/

structure ResultCell (α : Type) where
  /-- `m_pc_state` and `m_producer`. -/
  state : ResultState α := {}
  context : ConsumerContext := .idle
  semaphore : Bool := false
  producer : ProducerPhase := .working
  consumer : ConsumerPhase := .holding
  /-- What the consumer took. -/
  taken : Producer α := .idle
  /-- How often the state was freed. -/
  freed : Nat := 0
deriving DecidableEq

inductive ResultLabel (α : Type) where
  /-- `set_result` or `set_exception`. -/
  | set (a : Option α)
  | publish
  | wake
  | release
  | call (op : ConsumerOp)
  | next
  | wakeSpuriously
  | timeOut
deriving DecidableEq

namespace ResultCell

variable {α : Type}

def init : ResultCell α := {}

def setPcState (s : ResultCell α) (p : PcState) : ResultCell α :=
  { s with state := { s.state with pcState := p } }

/-! ### The producer -/

def set (s : ResultCell α) (a : Option α) : Option (ResultCell α) :=
  match s.producer, a with
  | .working, some a => some { s with state := s.state.setResult a, producer := .built }
  | .working, none => some { s with state := s.state.setException, producer := .built }
  | _, _ => none

/-- The `exchange` of `complete_producer`. -/
def publish (s : ResultCell α) : Option (ResultCell α) :=
  match s.producer with
  | .built => some { s with
      state := s.state.completeProducer.2
      producer := if s.state.completeProducer.1 = .idle then .ended
        else .wake s.state.completeProducer.1 }
  | _ => none

/-- The rest of `complete_producer`, and `resume_consumer`. -/
def wake (s : ResultCell α) : Option (ResultCell α) :=
  match s.producer with
  | .wake .consumerSet =>
    match s.context with
    | .idle => some { s with producer := .ended }
    | .waitFor => some { s with producer := .release }
    | .await =>
      match s.consumer with
      | .suspended k => some { s with producer := .ended, consumer := k.phase }
      | _ => none
  | .wake .consumerWaiting => some { s with
      producer := .ended
      consumer := match s.consumer with
        | .blocked k => .compare k
        | c => c }
  | .wake .consumerDone => some { s with producer := .ended, freed := s.freed + 1 }
  | _ => none

def release (s : ResultCell α) : Option (ResultCell α) :=
  match s.producer with
  | .release => some { s with semaphore := true, producer := .ended }
  | _ => none

/-! ### The consumer -/

def call (s : ResultCell α) (op : ConsumerOp) : Option (ResultCell α) :=
  match s.consumer with
  | .holding => some { s with consumer := op.enter }
  | _ => none

def goTo (s : ResultCell α) (c : ConsumerPhase) : ResultCell α :=
  { s with consumer := c }

/-- The consumer has loaded `m_pc_state`. -/
def load (s : ResultCell α) (done other : ConsumerPhase) : ResultCell α :=
  if s.state.pcState = .producerDone then s.goTo done else s.goTo other

/-- A `compare_exchange`. -/
def cas (s : ResultCell α) (expected desired : PcState) (won lost : ConsumerPhase) : ResultCell α :=
  if s.state.pcState = expected then (s.setPcState desired).goTo won else s.goTo lost

def next (s : ResultCell α) : Option (ResultCell α) :=
  match s.consumer with
  | .holding | .blocked _ | .suspended _ | .left | .ended => none
  | .loadWait k => some (s.load k.phase (.casWait k))
  | .casWait k => some (s.cas .idle .consumerWaiting (.spin k) k.phase)
  | .spin k => some (s.load k.phase (.compare k))
  | .compare k =>
    if s.state.pcState = .consumerWaiting then some (s.goTo (.blocked k)) else some (s.goTo (.spin k))
  | .loadAwait k => some (s.load k.phase (.setAwait k))
  | .setAwait k => some ({ s with context := .await }.goTo (.casAwait k))
  | .casAwait k => some (s.cas .idle .consumerSet (.suspended k) k.phase)
  | .loadWaitFor => some (s.load .holding .setWaitFor)
  | .setWaitFor => some ({ s with context := .waitFor, semaphore := false }.goTo .casWaitFor)
  | .casWaitFor => some (s.cas .idle .consumerSet .acquire .holding)
  | .acquire => if s.semaphore then some ({ s with semaphore := false }.goTo .holding) else none
  | .rewind => some (s.cas .consumerSet .idle .clear .holding)
  | .clear => some ({ s with context := .idle }.goTo .holding)
  | .loadDrop => some (s.load .delete .exchangeDrop)
  | .exchangeDrop =>
    some ((s.setPcState .consumerDone).goTo
      (if s.state.pcState = .producerDone then .delete else .left))
  | .take => some ({ s with taken := s.state.producer }.goTo .delete)
  | .delete => some ({ s with freed := s.freed + 1 }.goTo .ended)

def wakeSpuriously (s : ResultCell α) : Option (ResultCell α) :=
  match s.consumer with
  | .blocked k => some (s.goTo (.compare k))
  | _ => none

def timeOut (s : ResultCell α) : Option (ResultCell α) :=
  match s.consumer with
  | .acquire => some (s.goTo .rewind)
  | _ => none

def step (s : ResultCell α) : ResultLabel α → Option (ResultCell α)
  | .set a => s.set a
  | .publish => s.publish
  | .wake => s.wake
  | .release => s.release
  | .call op => s.call op
  | .next => s.next
  | .wakeSpuriously => s.wakeSpuriously
  | .timeOut => s.timeOut

end ResultCell

/-- The two sides take steps in any order. -/
def ResultSteps {α : Type} (s : ResultCell α) (l : ResultLabel α) (s' : ResultCell α) : Prop :=
  s.step l = some s'

/-! ## What a step can do -/

/-- The phases in which the consumer loads `m_pc_state`: where it goes if the producer is done, and
where else. -/
inductive Loads : ConsumerPhase → ConsumerPhase → ConsumerPhase → Prop
  | wait {k : After} : Loads (.loadWait k) k.phase (.casWait k)
  | spin {k : After} : Loads (.spin k) k.phase (.compare k)
  | await {k : After} : Loads (.loadAwait k) k.phase (.setAwait k)
  | waitFor : Loads .loadWaitFor .holding .setWaitFor
  | drop : Loads .loadDrop .delete .exchangeDrop

/-- The phases in which it tries to change `m_pc_state`: from what, to what, and where it goes. -/
inductive Swaps : ConsumerPhase → PcState → PcState → ConsumerPhase → ConsumerPhase → Prop
  | wait {k : After} : Swaps (.casWait k) .idle .consumerWaiting (.spin k) k.phase
  | await {k : After} : Swaps (.casAwait k) .idle .consumerSet (.suspended k) k.phase
  | waitFor : Swaps .casWaitFor .idle .consumerSet .acquire .holding
  | rewind : Swaps .rewind .consumerSet .idle .clear .holding

section Moves

variable {α : Type}

/-- The steps with their guards and effects. -/
inductive ResultMoves (s : ResultCell α) : ResultLabel α → ResultCell α → Prop
  | setResult {a : α} : s.producer = .working →
      ResultMoves s (.set (some a)) { s with state := s.state.setResult a, producer := .built }
  | setException : s.producer = .working →
      ResultMoves s (.set none) { s with state := s.state.setException, producer := .built }
  | publish : s.producer = .built → s.state.pcState = .idle →
      ResultMoves s .publish { s.setPcState .producerDone with producer := .ended }
  | publishFound : s.producer = .built → s.state.pcState ≠ .idle →
      ResultMoves s .publish
        { s.setPcState .producerDone with producer := .wake s.state.pcState }
  | wakeNone : s.producer = .wake .consumerSet → s.context = .idle →
      ResultMoves s .wake { s with producer := .ended }
  | resume {k : After} : s.producer = .wake .consumerSet → s.context = .await →
      s.consumer = .suspended k →
      ResultMoves s .wake { s with producer := .ended, consumer := k.phase }
  | copySemaphore : s.producer = .wake .consumerSet → s.context = .waitFor →
      ResultMoves s .wake { s with producer := .release }
  | notify {k : After} : s.producer = .wake .consumerWaiting → s.consumer = .blocked k →
      ResultMoves s .wake { s with producer := .ended, consumer := .compare k }
  | notifyNone : s.producer = .wake .consumerWaiting → (∀ k, s.consumer ≠ .blocked k) →
      ResultMoves s .wake { s with producer := .ended }
  | free : s.producer = .wake .consumerDone →
      ResultMoves s .wake { s with producer := .ended, freed := s.freed + 1 }
  | release : s.producer = .release →
      ResultMoves s .release { s with semaphore := true, producer := .ended }
  | call {op : ConsumerOp} : s.consumer = .holding → ResultMoves s (.call op) (s.goTo op.enter)
  | loadDone {done other : ConsumerPhase} : Loads s.consumer done other →
      s.state.pcState = .producerDone → ResultMoves s .next (s.goTo done)
  | loadOther {done other : ConsumerPhase} : Loads s.consumer done other →
      s.state.pcState ≠ .producerDone → ResultMoves s .next (s.goTo other)
  | swap {p q : PcState} {won lost : ConsumerPhase} : Swaps s.consumer p q won lost →
      s.state.pcState = p → ResultMoves s .next ((s.setPcState q).goTo won)
  | noSwap {p q : PcState} {won lost : ConsumerPhase} : Swaps s.consumer p q won lost →
      s.state.pcState ≠ p → ResultMoves s .next (s.goTo lost)
  | block {k : After} : s.consumer = .compare k → s.state.pcState = .consumerWaiting →
      ResultMoves s .next (s.goTo (.blocked k))
  | unblocked {k : After} : s.consumer = .compare k → s.state.pcState ≠ .consumerWaiting →
      ResultMoves s .next (s.goTo (.spin k))
  | setAwait {k : After} : s.consumer = .setAwait k →
      ResultMoves s .next ({ s with context := .await }.goTo (.casAwait k))
  | setWaitFor : s.consumer = .setWaitFor → ResultMoves s .next
      ({ s with context := .waitFor, semaphore := false }.goTo .casWaitFor)
  | acquire : s.consumer = .acquire → s.semaphore = true →
      ResultMoves s .next ({ s with semaphore := false }.goTo .holding)
  | clear : s.consumer = .clear → ResultMoves s .next ({ s with context := .idle }.goTo .holding)
  | dropLast : s.consumer = .exchangeDrop → s.state.pcState = .producerDone →
      ResultMoves s .next ((s.setPcState .consumerDone).goTo .delete)
  | dropFirst : s.consumer = .exchangeDrop → s.state.pcState ≠ .producerDone →
      ResultMoves s .next ((s.setPcState .consumerDone).goTo .left)
  | take : s.consumer = .take →
      ResultMoves s .next ({ s with taken := s.state.producer }.goTo .delete)
  | delete : s.consumer = .delete →
      ResultMoves s .next ({ s with freed := s.freed + 1 }.goTo .ended)
  | wakeSpuriously {k : After} : s.consumer = .blocked k →
      ResultMoves s .wakeSpuriously (s.goTo (.compare k))
  | timeOut : s.consumer = .acquire → ResultMoves s .timeOut (s.goTo .rewind)

namespace ResultMovesLemmas

variable {s s' : ResultCell α}

theorem moves_set {a : Option α} (h : s.set a = some s') : ResultMoves s (.set a) s' := by
  unfold ResultCell.set at h
  split at h
  · next hproducer =>
    cases h
    exact .setResult hproducer
  · next hproducer =>
    cases h
    exact .setException hproducer
  · cases h

theorem moves_publish (h : s.publish = some s') : ResultMoves s .publish s' := by
  unfold ResultCell.publish at h
  split at h
  · next hproducer =>
    cases h
    unfold ResultState.completeProducer
    dsimp only
    split
    · next hidle => exact .publish hproducer hidle
    · next hfound => exact .publishFound hproducer hfound
  · cases h

theorem moves_wake (h : s.wake = some s') : ResultMoves s .wake s' := by
  unfold ResultCell.wake at h
  split at h
  · next hproducer =>
    split at h
    · next hcontext =>
      cases h
      exact .wakeNone hproducer hcontext
    · next hcontext =>
      cases h
      exact .copySemaphore hproducer hcontext
    · next hcontext =>
      split at h
      · next hconsumer =>
        cases h
        exact .resume hproducer hcontext hconsumer
      · cases h
  · next hproducer =>
    cases h
    split
    · next hconsumer => exact .notify hproducer hconsumer
    · next hother => exact .notifyNone hproducer hother
  · next hproducer =>
    cases h
    exact .free hproducer
  · cases h

theorem moves_release (h : s.release = some s') : ResultMoves s .release s' := by
  unfold ResultCell.release at h
  split at h
  · next hproducer =>
    cases h
    exact .release hproducer
  · cases h

theorem moves_call {op : ConsumerOp} (h : s.call op = some s') : ResultMoves s (.call op) s' := by
  unfold ResultCell.call at h
  split at h
  · next hconsumer =>
    cases h
    exact .call hconsumer
  · cases h

theorem moves_load {c done other : ConsumerPhase} (hconsumer : s.consumer = c)
    (hloads : Loads c done other) (h : some (s.load done other) = some s') :
    ResultMoves s .next s' := by
  subst hconsumer
  cases h
  unfold ResultCell.load
  split
  · next hdone => exact .loadDone hloads hdone
  · next hdone => exact .loadOther hloads hdone

theorem moves_cas {c won lost : ConsumerPhase} {p q : PcState} (hconsumer : s.consumer = c)
    (hswaps : Swaps c p q won lost) (h : some (s.cas p q won lost) = some s') :
    ResultMoves s .next s' := by
  subst hconsumer
  cases h
  unfold ResultCell.cas
  split
  · next hp => exact .swap hswaps hp
  · next hp => exact .noSwap hswaps hp

theorem moves_next (h : s.next = some s') : ResultMoves s .next s' := by
  unfold ResultCell.next at h
  split at h
  · cases h
  · cases h
  · cases h
  · cases h
  · cases h
  · next hconsumer => exact moves_load hconsumer .wait h
  · next hconsumer => exact moves_cas hconsumer .wait h
  · next hconsumer => exact moves_load hconsumer .spin h
  · next hconsumer =>
    split at h
    · next hwaiting =>
      cases h
      exact .block hconsumer hwaiting
    · next hwaiting =>
      cases h
      exact .unblocked hconsumer hwaiting
  · next hconsumer => exact moves_load hconsumer .await h
  · next hconsumer =>
    cases h
    exact .setAwait hconsumer
  · next hconsumer => exact moves_cas hconsumer .await h
  · next hconsumer => exact moves_load hconsumer .waitFor h
  · next hconsumer =>
    cases h
    exact .setWaitFor hconsumer
  · next hconsumer => exact moves_cas hconsumer .waitFor h
  · next hconsumer =>
    split at h
    · next hsemaphore =>
      cases h
      exact .acquire hconsumer hsemaphore
    · cases h
  · next hconsumer => exact moves_cas hconsumer .rewind h
  · next hconsumer =>
    cases h
    exact .clear hconsumer
  · next hconsumer => exact moves_load hconsumer .drop h
  · next hconsumer =>
    cases h
    split
    · next hdone => exact .dropLast hconsumer hdone
    · next hdone => exact .dropFirst hconsumer hdone
  · next hconsumer =>
    cases h
    exact .take hconsumer
  · next hconsumer =>
    cases h
    exact .delete hconsumer

theorem moves_wakeSpuriously (h : s.wakeSpuriously = some s') :
    ResultMoves s .wakeSpuriously s' := by
  unfold ResultCell.wakeSpuriously at h
  split at h
  · next hconsumer =>
    cases h
    exact .wakeSpuriously hconsumer
  · cases h

theorem moves_timeOut (h : s.timeOut = some s') : ResultMoves s .timeOut s' := by
  unfold ResultCell.timeOut at h
  split at h
  · next hconsumer =>
    cases h
    exact .timeOut hconsumer
  · cases h

end ResultMovesLemmas

open ResultMovesLemmas

/-- A step is one of the moves. -/
theorem ResultSteps.moves {s s' : ResultCell α} {l : ResultLabel α} (h : ResultSteps s l s') :
    ResultMoves s l s' := by
  unfold ResultSteps ResultCell.step at h
  cases l with
  | set => exact moves_set h
  | publish => exact moves_publish h
  | wake => exact moves_wake h
  | release => exact moves_release h
  | call => exact moves_call h
  | next => exact moves_next h
  | wakeSpuriously => exact moves_wakeSpuriously h
  | timeOut => exact moves_timeOut h

end Moves

end FlavoEngine.Engine

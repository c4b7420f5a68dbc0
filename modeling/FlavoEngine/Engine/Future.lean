/-!
# Futures of submitted tasks

`parallel::Future` is `concurrencpp::result`. A result and its producer meet in a `result_state`
(`concurrencpp/results/impl/result_state.h`), which each side enters once.

`executor::submit` returns the result of the coroutine `submit_bridge`, which a worker of the pool
runs: `co_return callable()`. The callable of a frame task is itself a coroutine that starts at once
on the worker and has no suspension point, so the outer result holds an inner one that is complete.

* An atomic access of the source is one operation. The assertions of `result_state` are off.
* A result state that both sides have left is freed in the source; here it stays as it was.

Results:
1. `Task.Sound`: how the phase of a task and its two results belong together; one lemma for each
   operation that keeps it.
2. `Task.Sound.complete_iff`: a task is complete exactly when its bridge has published.
-/

namespace FlavoEngine.Engine

/-! ## Result states -/

/-- `result_state_base::pc_state`. -/
inductive PcState where
  | idle
  | consumerSet
  | consumerWaiting
  | consumerDone
  | producerDone
deriving DecidableEq

/-- `producer_context`: nothing yet, a value or an exception. -/
inductive Producer (α : Type) where
  | idle
  | value (a : α)
  | exception
deriving DecidableEq

structure ResultState (α : Type) where
  pcState : PcState := .idle
  producer : Producer α := .idle
deriving DecidableEq

namespace ResultState

variable {α : Type}

def setResult (r : ResultState α) (a : α) : ResultState α :=
  { r with producer := .value a }

def setException (r : ResultState α) : ResultState α :=
  { r with producer := .exception }

/-- `await`: whether the caller suspends, and the state after. -/
def await (r : ResultState α) : Bool × ResultState α :=
  if r.pcState = .idle then (true, { r with pcState := .consumerSet }) else (false, r)

/-- `wait`, up to the point where the caller blocks or goes on. -/
def wait (r : ResultState α) : ResultState α :=
  if r.pcState = .idle then { r with pcState := .consumerWaiting } else r

/-- `complete_producer`: the state that it finds, on which it decides whom to wake, and the state
after. -/
def completeProducer (r : ResultState α) : PcState × ResultState α :=
  (r.pcState, { r with pcState := .producerDone })

/-- `complete_consumer`: the result is destroyed without being awaited. It does not wait. -/
def completeConsumer (r : ResultState α) : ResultState α :=
  if r.pcState = .producerDone then r else { r with pcState := .consumerDone }

end ResultState

/-! ## Tasks -/

/-- The two tasks of a frame, `UpdateGame` and `RenderManager::UpdateRender`. -/
inductive TaskKind where
  | game
  | render
deriving DecidableEq

/-- What the coroutine of a task returns: `void`, or the `ftl::result<>` of the renderer. -/
inductive Reply where
  | void
  | updated (isOk : Bool)
deriving DecidableEq

/-- The return type of the coroutine. -/
def Reply.fits : TaskKind → Reply → Bool
  | .game, .void => true
  | .render, .updated _ => true
  | _, _ => false

/-- The result of `submit`, or the result that the callable returned. -/
inductive Level where
  | outer
  | inner
deriving DecidableEq

/-- Where the bridge of a task is: in the pool, started by a worker, past `callable()`, or over. -/
inductive Phase where
  | queued
  | started (worker : Nat)
  | called (worker : Nat)
  | finished
deriving DecidableEq

/-- The bridge is past `callable()`. -/
def Phase.ran : Phase → Bool
  | .called _ | .finished => true
  | _ => false

/-- How `callable()` ends: with a result that holds a value or an exception, or with an exception of
its own, as when the pool drops the task. -/
inductive Outcome where
  | returned (reply : Reply)
  | innerException
  | outerException
deriving DecidableEq

/-- A submitted task with the result of `submit` and the result that it is to hold. -/
structure Task where
  kind : TaskKind
  phase : Phase := .queued
  outer : ResultState Unit := {}
  inner : ResultState Reply := {}
deriving DecidableEq

namespace Task

/-- A task whose enqueueing threw: the bridge was resumed in place and stored the exception. -/
def broken (k : TaskKind) : Task :=
  { kind := k, phase := .finished, outer := (ResultState.setException {}).completeProducer.2 }

/-- The worker that runs the task. -/
def worker? (t : Task) : Option Nat :=
  match t.phase with
  | .started w | .called w => some w
  | _ => none

def pcState (t : Task) : Level → PcState
  | .outer => t.outer.pcState
  | .inner => t.inner.pcState

/-- Both results are there, or the outer one holds an exception and there is no other. -/
def complete (t : Task) : Bool :=
  t.outer.pcState == .producerDone &&
    (t.outer.producer == .exception || t.inner.pcState == .producerDone)

/-- `await` on one of the results. -/
def await (t : Task) : Level → Bool × Task
  | .outer => (t.outer.await.1, { t with outer := t.outer.await.2 })
  | .inner => (t.inner.await.1, { t with inner := t.inner.await.2 })

/-- The future is destroyed without being awaited. -/
def drop (t : Task) : Task :=
  { t with outer := t.outer.completeConsumer }

/-- A worker resumes the bridge. -/
def start (t : Task) (w : Nat) : Option Task :=
  if t.phase = .queued then some { t with phase := .started w } else none

/-- `callable()`: the coroutine runs to its end on the worker and completes its result. -/
def call (t : Task) (w : Nat) (o : Outcome) : Option Task :=
  if t.phase = .started w then
    match o with
    | .returned reply =>
      if reply.fits t.kind then
        some { t with
          phase := .called w
          inner := (t.inner.setResult reply).completeProducer.2
          outer := t.outer.setResult () }
      else none
    | .innerException =>
      some { t with
        phase := .called w
        inner := t.inner.setException.completeProducer.2
        outer := t.outer.setResult () }
    | .outerException => some { t with phase := .called w, outer := t.outer.setException }
  else none

/-- The bridge is over: `complete_producer` on the outer result, with the state that it found. -/
def publish (t : Task) (w : Nat) : Option (PcState × Task) :=
  if t.phase = .called w then
    some (t.outer.completeProducer.1,
      { t with phase := .finished, outer := t.outer.completeProducer.2 })
  else none

/-! ## Results and phases -/

/-- The results of a task in each of its phases. -/
structure Sound (t : Task) : Prop where
  published : t.outer.pcState = .producerDone ↔ t.phase = .finished
  computed : t.outer.producer = .idle ↔ t.phase.ran = false
  returned : t.outer.producer = .value () →
    t.inner.pcState = .producerDone ∧ t.inner.producer ≠ .idle
  unreturned : t.outer.producer ≠ .value () → t.inner = {}
  fits : ∀ reply, t.inner.producer = .value reply → reply.fits t.kind

theorem sound_queued (k : TaskKind) : ({ kind := k } : Task).Sound where
  published := by simp
  computed := by simp [Phase.ran]
  returned := by simp
  unreturned := by simp
  fits := by simp

theorem sound_broken (k : TaskKind) : (broken k).Sound where
  published := by simp [broken, ResultState.completeProducer]
  computed := by simp [broken, ResultState.completeProducer, ResultState.setException, Phase.ran]
  returned := by simp [broken, ResultState.completeProducer, ResultState.setException]
  unreturned := by simp [broken]
  fits := by simp [broken]

namespace Sound

variable {t t' : Task}

/-- The outer result is the last to be published. -/
theorem complete_iff (h : t.Sound) : t.complete = true ↔ t.phase = .finished := by
  unfold complete
  rw [Bool.and_eq_true, beq_iff_eq, h.published]
  constructor
  · exact And.left
  · intro hfinished
    refine ⟨hfinished, ?_⟩
    cases hproducer : t.outer.producer with
    | idle =>
      have hran := h.computed.mp hproducer
      rw [hfinished] at hran
      cases hran
    | value =>
      have hdone := (h.returned hproducer).1
      simp [hdone]
    | exception => rfl

/-- A change of the outer `pc_state` that does not publish keeps the rest. -/
theorem of_pcState (h : t.Sound) {p : PcState} (ht : t.outer.pcState ≠ .producerDone)
    (hp : p ≠ .producerDone) :
    ({ t with outer := { t.outer with pcState := p } } : Task).Sound where
  published := by
    show p = .producerDone ↔ t.phase = .finished
    rw [← h.published]
    exact iff_of_false hp ht
  computed := h.computed
  returned := h.returned
  unreturned := h.unreturned
  fits := h.fits

theorem await_outer (h : t.Sound) : (t.await .outer).2.Sound := by
  unfold await ResultState.await
  dsimp only
  split
  · next hidle => exact h.of_pcState (by rw [hidle]; decide) (by decide)
  · exact h

theorem drop (h : t.Sound) : t.drop.Sound := by
  unfold Task.drop ResultState.completeConsumer
  split
  · exact h
  · next hdone => exact h.of_pcState hdone (by decide)

theorem start {w : Nat} (h : t.Sound) (hs : t.start w = some t') : t'.Sound := by
  unfold Task.start at hs
  split at hs
  · next hqueued =>
    cases hs
    refine ⟨?_, ?_, h.returned, h.unreturned, h.fits⟩
    · show t.outer.pcState = .producerDone ↔ Phase.started w = .finished
      rw [h.published, hqueued]
      simp
    · show t.outer.producer = .idle ↔ (Phase.started w).ran = false
      rw [h.computed, hqueued]
      exact Iff.rfl
  · cases hs

theorem call {w : Nat} {o : Outcome} (h : t.Sound) (hc : t.call w o = some t') : t'.Sound := by
  unfold Task.call at hc
  split at hc
  · next hstarted =>
    have hopen : t.outer.pcState ≠ .producerDone := by
      rw [Ne, h.published, hstarted]
      simp
    have hidle : t.outer.producer = .idle := by
      rw [h.computed, hstarted]
      rfl
    have hinner : t.inner = {} := h.unreturned (by rw [hidle]; simp)
    cases o with
    | returned reply =>
      dsimp only at hc
      split at hc
      · next hfits =>
        cases hc
        refine ⟨iff_of_false hopen (by simp), by simp [ResultState.setResult, Phase.ran],
          fun _ => ⟨rfl, by simp [ResultState.completeProducer, ResultState.setResult]⟩,
          fun hno => absurd rfl hno, ?_⟩
        intro r hr
        simp only [ResultState.completeProducer, ResultState.setResult, Producer.value.injEq] at hr
        subst hr
        exact hfits
      · cases hc
    | innerException =>
      cases hc
      exact ⟨iff_of_false hopen (by simp), by simp [ResultState.setResult, Phase.ran],
        fun _ => ⟨rfl, by simp [ResultState.completeProducer, ResultState.setException]⟩,
        fun hno => absurd rfl hno,
        by simp [ResultState.completeProducer, ResultState.setException]⟩
    | outerException =>
      cases hc
      exact ⟨iff_of_false hopen (by simp), by simp [ResultState.setException, Phase.ran],
        by simp [ResultState.setException], fun _ => hinner, by simp [hinner]⟩
  · cases hc

theorem publish {w : Nat} {p : PcState} (h : t.Sound) (hp : t.publish w = some (p, t')) :
    t'.Sound := by
  unfold Task.publish at hp
  split at hp
  · next hcalled =>
    cases hp
    refine ⟨iff_of_true rfl rfl, ?_, h.returned, h.unreturned, h.fits⟩
    show t.outer.producer = .idle ↔ Phase.finished.ran = false
    rw [h.computed, hcalled]
    exact Iff.rfl
  · cases hp

end Sound

/-! ## What the operations leave -/

variable {t t' : Task} {w : Nat}

theorem await_kind (l : Level) : (t.await l).2.kind = t.kind := by
  cases l <;> rfl

theorem start_eq (h : t.start w = some t') :
    t.phase = .queued ∧ t' = { t with phase := .started w } := by
  unfold start at h
  split at h
  · next hqueued => exact ⟨hqueued, (Option.some.inj h).symm⟩
  · cases h

/-- A call neither publishes nor consumes the outer result. -/
theorem call_eq {o : Outcome} (h : t.call w o = some t') :
    t.phase = .started w ∧ t'.phase = .called w ∧ t'.kind = t.kind ∧
      t'.outer.pcState = t.outer.pcState := by
  unfold call at h
  split at h
  · next hstarted =>
    refine ⟨hstarted, ?_⟩
    cases o with
    | returned reply =>
      dsimp only at h
      split at h
      · cases h
        exact ⟨rfl, rfl, rfl⟩
      · cases h
    | innerException | outerException =>
      cases h
      exact ⟨rfl, rfl, rfl⟩
  · cases h

/-- A task whose callable returned without an exception holds none. -/
theorem call_returned {reply : Reply} (h : t.call w (.returned reply) = some t') :
    t'.outer.producer = .value () ∧ t'.inner.producer = .value reply := by
  unfold call at h
  split at h
  · dsimp only at h
    split at h
    · cases h
      exact ⟨rfl, rfl⟩
    · cases h
  · cases h

theorem publish_eq {p : PcState} (h : t.publish w = some (p, t')) :
    t.phase = .called w ∧ p = t.outer.pcState ∧
      t' = { t with phase := .finished, outer := { t.outer with pcState := .producerDone } } := by
  unfold publish at h
  split at h
  · next hcalled =>
    cases h
    exact ⟨hcalled, rfl, rfl⟩
  · cases h

end Task

end FlavoEngine.Engine

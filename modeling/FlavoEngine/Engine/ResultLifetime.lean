import FlavoEngine.Lib.Tally
import FlavoEngine.Engine.ResultProtocol

/-!
# The life of a result state

Results:
1. `freed_once`: the state is freed at most once and never under the consumer; when both sides are
   through with it, it was freed; and what the consumer takes is what the producer has set.
2. `calls_end`: no wake-up is lost, so each call of the consumer ends once the producer has set the
   result.
3. `dangling_iff`: with which calls of the consumer the producer can access a freed state. It takes
   a call that frees the state, and one after which the producer still has to wake a consumer that
   goes on without it: a `wait`, a `get`, or a `wait_for` that has timed out. `await_not_dangling`:
   a consumer that only awaits, resolves or drops its result does not do so.
-/

namespace FlavoEngine.Engine

open FlavoEngine.Lib

/-! ## Invariants -/

/-- The producer is past its `exchange`. -/
def ProducerPhase.published : ProducerPhase → Bool
  | working | built => false
  | wake _ | release | ended => true

/-- Where the consumer can be before the producer has published, by `m_pc_state` and the context. -/
def Unpublished (p : PcState) (x : ConsumerContext) : ConsumerPhase → Prop
  | .holding | .loadWait _ | .casWait _ | .loadAwait _ | .setAwait _ | .loadWaitFor | .setWaitFor
  | .loadDrop | .exchangeDrop => p = .idle ∧ x = .idle
  | .casAwait _ => p = .idle ∧ x = .await
  | .casWaitFor | .clear => p = .idle ∧ x = .waitFor
  | .spin _ | .compare _ | .blocked _ => p = .consumerWaiting
  | .suspended _ => p = .consumerSet ∧ x = .await
  | .acquire | .rewind => p = .consumerSet ∧ x = .waitFor
  | .left => p = .consumerDone
  | .take | .delete | .ended => False

/-- The consumer has seen that the producer is done, or sees it when it looks next. -/
def Informed : ConsumerPhase → Prop
  | .holding | .loadWait _ | .loadAwait _ | .loadWaitFor | .loadDrop | .take | .delete | .ended => True
  | _ => False

/-- Where the consumer can be after the producer has published, by what the producer has to do. -/
def Published (x : ConsumerContext) (semaphore : Bool) : ProducerPhase → ConsumerPhase → Prop
  | .wake .consumerSet, c => (x = .await ∧ ∃ k, c = .suspended k) ∨
    (x = .waitFor ∧ (c = .acquire ∨ c = .rewind ∨ Informed c))
  | .wake .consumerWaiting, c => (∃ k, c = .spin k ∨ c = .compare k ∨ c = .blocked k) ∨ Informed c
  | .wake .consumerDone, c => c = .left
  | .release, c => c = .acquire ∨ c = .rewind ∨ Informed c
  | .ended, c => (∀ k, c ≠ .blocked k) ∧ (∀ k, c ≠ .suspended k) ∧ (c = .acquire → semaphore = true)
  | _, _ => False

/-- The consumer is about to free the state, or has done so. -/
def Freeing (c : ConsumerPhase) : Prop :=
  c = .delete ∨ c = .ended

/-- How often the state has been freed. -/
def freedBy (p : ProducerPhase) : ConsumerPhase → Nat
  | .ended => 1
  | .left => if p = .ended then 1 else 0
  | _ => 0

def ProducerPhase.rank : ProducerPhase → Nat
  | working => 4
  | built => 3
  | wake _ => 2
  | release => 1
  | ended => 0

def PcState.isDone : PcState → Bool
  | producerDone => true
  | idle | consumerSet | consumerWaiting | consumerDone => false

/-- How many steps the consumer takes at most, when the producer is done or before. -/
def ConsumerPhase.rank (isDone : Bool) : ConsumerPhase → Nat
  | holding | blocked _ | left | ended => 0
  | clear | delete => 1
  | acquire | rewind | take => 2
  | casWaitFor | exchangeDrop | suspended _ => 3
  | setWaitFor | loadDrop | compare _ | casAwait _ => 4
  | spin _ => if isDone then 3 else 5
  | loadWaitFor | setAwait _ => 5
  | casWait _ | loadAwait _ => 6
  | loadWait _ => 7

/-- A step that one of the sides takes by itself in a call. -/
def ResultLabel.inner {α : Type} : ResultLabel α → Nat
  | publish | wake | release | next => 1
  | set _ | call _ | wakeSpuriously | timeOut => 0

variable {α : Type}

def ResultCell.rank (s : ResultCell α) : Nat :=
  8 * s.producer.rank + s.consumer.rank s.state.pcState.isDone

/-- The state was freed and the producer still has to access it. -/
def ResultCell.Dangling (s : ResultCell α) : Prop :=
  s.freed ≠ 0 ∧ s.producer ≠ .release ∧ s.producer ≠ .ended

instance (s : ResultCell α) : Decidable s.Dangling :=
  inferInstanceAs (Decidable (_ ∧ _ ∧ _))

/-- The calls that the consumer makes in a run. -/
def callsOf (tr : List (ResultCell α × ResultLabel α × ResultCell α)) : Set ConsumerOp :=
  {op | ∃ t ∈ tr, t.2.1 = .call op}

structure CellOk (s : ResultCell α) : Prop where
  value : s.state.producer = .idle ↔ s.producer = .working
  before : s.producer.published = false → Unpublished s.state.pcState s.context s.consumer
  after : s.producer.published = true → Published s.context s.semaphore s.producer s.consumer
  done : s.producer.published = true → s.state.pcState = .producerDone ∨ Freeing s.consumer
  freed : s.freed = freedBy s.producer s.consumer
  taken : s.taken ≠ .idle → s.taken = s.state.producer
  unreleased : s.producer ≠ .ended → s.semaphore = false

namespace ResultLifetimeLemmas

variable {s s' : ResultCell α} {l : ResultLabel α}

theorem cellOk_init : CellOk (.init : ResultCell α) where
  value := iff_of_true rfl rfl
  before _ := ⟨rfl, rfl⟩
  after h := by cases h
  done h := by cases h
  freed := rfl
  taken h := absurd rfl h
  unreleased _ := rfl

/-! ### Whom the producer wakes -/

/-- Whom the producer is to wake, by where the consumer is. -/
theorem published_found {p : PcState} {x : ConsumerContext} {b : Bool} {c : ConsumerPhase}
    (h : Unpublished p x c) (hp : p ≠ .idle) : Published x b (.wake p) c := by
  cases c with
  | holding | loadWait | casWait | loadAwait | setAwait | loadWaitFor | setWaitFor | loadDrop
  | exchangeDrop | casAwait | casWaitFor | clear => exact absurd h.1 hp
  | spin k =>
    obtain rfl : p = .consumerWaiting := h
    exact .inl ⟨k, .inl rfl⟩
  | compare k =>
    obtain rfl : p = .consumerWaiting := h
    exact .inl ⟨k, .inr (.inl rfl)⟩
  | blocked k =>
    obtain rfl : p = .consumerWaiting := h
    exact .inl ⟨k, .inr (.inr rfl)⟩
  | suspended k =>
    obtain ⟨rfl, rfl⟩ := h
    exact .inl ⟨rfl, k, rfl⟩
  | acquire =>
    obtain ⟨rfl, rfl⟩ := h
    exact .inr ⟨rfl, .inl rfl⟩
  | rewind =>
    obtain ⟨rfl, rfl⟩ := h
    exact .inr ⟨rfl, .inr (.inl rfl)⟩
  | left =>
    obtain rfl : p = .consumerDone := h
    exact rfl
  | take | delete | ended => exact h.elim

/-- A consumer that the producer finds in no call that waits. -/
theorem published_idle {x : ConsumerContext} {b : Bool} {c : ConsumerPhase}
    (h : Unpublished .idle x c) : Published x b .ended c := by
  refine ⟨?_, ?_, ?_⟩
  · rintro k rfl
    cases h
  · rintro k rfl
    cases h.1
  · rintro rfl
    cases h.1

theorem informed_phase (k : After) : Informed k.phase := by
  cases k <;> trivial

theorem informed_enter (op : ConsumerOp) : Informed op.enter := by
  cases op <;> trivial

/-- An informed consumer is neither blocked nor suspended, and waits for no semaphore. -/
theorem published_informed {x : ConsumerContext} {b : Bool} {c : ConsumerPhase} (h : Informed c) :
    Published x b .ended c := by
  refine ⟨?_, ?_, ?_⟩
  · rintro k rfl
    exact h
  · rintro k rfl
    exact h
  · rintro rfl
    exact h.elim

/-! ### Steps -/

theorem before_step (h : CellOk s) (hm : ResultMoves s l s')
    (hopen : s'.producer.published = false) :
    Unpublished s'.state.pcState s'.context s'.consumer := by
  cases hm with
  | setResult hproducer | setException hproducer => exact h.before (by rw [hproducer]; rfl)
  | publish | publishFound | wakeNone | resume | copySemaphore | notify | notifyNone | free
  | release => cases hopen
  | @call op hconsumer =>
    have hbefore := h.before hopen
    rw [hconsumer] at hbefore
    cases op <;> exact hbefore
  | loadDone hloads hdone =>
    have hbefore := h.before hopen
    rw [hdone] at hbefore
    generalize s.consumer = c at hloads hbefore
    cases hloads <;> simp [Unpublished] at hbefore
  | loadOther hloads =>
    have hbefore := h.before hopen
    simp only [ResultCell.goTo]
    generalize s.consumer = c at hloads hbefore
    cases hloads <;> exact hbefore
  | swap hswaps hp =>
    have hbefore := h.before hopen
    simp only [ResultCell.goTo, ResultCell.setPcState]
    generalize s.consumer = c at hswaps hbefore
    cases hswaps with
    | wait => exact rfl
    | await | waitFor | rewind => exact ⟨rfl, hbefore.2⟩
  | noSwap hswaps hp =>
    have hbefore := h.before hopen
    generalize s.consumer = c at hswaps hbefore
    cases hswaps <;> exact absurd hbefore.1 hp
  | acquire _ hsemaphore =>
    have hover : s.producer ≠ .ended := fun heq => by
      rw [show s.producer = .ended from heq] at hopen
      cases hopen
    rw [h.unreleased hover] at hsemaphore
    cases hsemaphore
  | block hconsumer | unblocked hconsumer | setAwait hconsumer | clear hconsumer
  | wakeSpuriously hconsumer | timeOut hconsumer | setWaitFor hconsumer | dropLast hconsumer
  | dropFirst hconsumer | take hconsumer | delete hconsumer =>
    have hbefore := h.before hopen
    rw [hconsumer] at hbefore
    simp_all [Unpublished, ResultCell.goTo, ResultCell.setPcState]

/-- The consumer goes on when the producer has published. -/
theorem published_on {x : ConsumerContext} {b : Bool} {p : ProducerPhase} {c : ConsumerPhase}
    (h : Published x b p c) (hc : Informed c ∨ (∃ k, c = .spin k) ∨ c = .rewind)
    {c' : ConsumerPhase} (hc' : Informed c') : Published x b p c' := by
  cases p with
  | working | built => exact h.elim
  | release => exact .inr (.inr hc')
  | ended => exact published_informed hc'
  | wake found =>
    cases found with
    | idle | producerDone => exact h.elim
    | consumerWaiting => exact .inr hc'
    | consumerSet =>
      rcases h with ⟨-, k, rfl⟩ | ⟨hx, -⟩
      · rcases hc with hc | ⟨k, hc⟩ | hc
        · exact hc.elim
        · cases hc
        · cases hc
      · exact .inr ⟨hx, .inr (.inr hc')⟩
    | consumerDone =>
      obtain rfl : c = .left := h
      rcases hc with hc | ⟨k, hc⟩ | hc
      · exact hc.elim
      · cases hc
      · cases hc

/-- A consumer waits in `wait` after the publication only until the producer has notified it. -/
theorem published_waiting {x : ConsumerContext} {b : Bool} {p : ProducerPhase} {c : ConsumerPhase}
    {k : After} (hc : c = .compare k ∨ c = .blocked k) (h : Published x b p c) :
    p = .ended ∨ p = .wake .consumerWaiting := by
  cases p with
  | working | built => exact h.elim
  | ended => exact .inl rfl
  | release => rcases hc with rfl | rfl <;> simp [Published, Informed] at h
  | wake found =>
    cases found with
    | consumerWaiting => exact .inr rfl
    | idle | producerDone => exact h.elim
    | consumerSet => rcases hc with rfl | rfl <;> simp [Published, Informed] at h
    | consumerDone => rcases hc with rfl | rfl <;> cases h

/-- A consumer that did not see the producer done goes on uninformed only if the producer is
over. -/
theorem published_over {x : ConsumerContext} {b : Bool} {p : ProducerPhase} {c : ConsumerPhase}
    (h : Published x b p c) (hinformed : ¬ Informed c) (hspin : ∀ k, c ≠ .spin k ∧ c ≠ .compare k ∧
      c ≠ .blocked k ∧ c ≠ .suspended k) (hfor : c ≠ .acquire ∧ c ≠ .rewind) (hleft : c ≠ .left) :
    p = .ended := by
  cases p with
  | ended => rfl
  | working | built => exact h.elim
  | release => exact absurd h (by simp [Published, hinformed, hfor])
  | wake found =>
    exfalso
    cases found with
    | idle | producerDone => exact h
    | consumerWaiting =>
      rcases h with ⟨k, hc | hc | hc⟩ | hc
      · exact (hspin k).1 hc
      · exact (hspin k).2.1 hc
      · exact (hspin k).2.2.1 hc
      · exact hinformed hc
    | consumerSet =>
      rcases h with ⟨-, k, hc⟩ | ⟨-, hc | hc | hc⟩
      · exact (hspin k).2.2.2 hc
      · exact hfor.1 hc
      · exact hfor.2 hc
      · exact hinformed hc
    | consumerDone => exact hleft h

theorem informed_of_loads {c d o : ConsumerPhase} (h : Loads c d o) :
    (Informed c ∨ ∃ k, c = .spin k) ∧ Informed d := by
  cases h with
  | wait => exact ⟨.inl trivial, informed_phase _⟩
  | spin => exact ⟨.inr ⟨_, rfl⟩, informed_phase _⟩
  | await => exact ⟨.inl trivial, informed_phase _⟩
  | waitFor | drop => exact ⟨.inl trivial, trivial⟩

/-- Where the consumer looks for the producer, it has not freed the state. -/
theorem not_freeing_of_loads {c d o : ConsumerPhase} (h : Loads c d o) : ¬ Freeing c := by
  cases h <;> simp [Freeing]

theorem not_freeing_of_swaps {c w o : ConsumerPhase} {p q : PcState} (h : Swaps c p q w o) :
    ¬ Freeing c ∧ p ≠ .producerDone := by
  cases h <;> simp [Freeing]

theorem after_step (h : CellOk s) (hm : ResultMoves s l s')
    (hpublished : s'.producer.published = true) :
    Published s'.context s'.semaphore s'.producer s'.consumer := by
  -- where the consumer moves, the producer had published before
  have hdone : s.producer.published = true → ¬ Freeing s.consumer →
      s.state.pcState = .producerDone := fun hp hc => (h.done hp).resolve_right hc
  cases hm with
  | setResult | setException => cases hpublished
  | publish hproducer hidle =>
    have hbefore := h.before (by rw [hproducer]; rfl)
    rw [hidle] at hbefore
    exact published_idle hbefore
  | publishFound hproducer hfound => exact published_found (h.before (by rw [hproducer]; rfl)) hfound
  | wakeNone hproducer hcontext =>
    have hafter := h.after (by rw [hproducer]; rfl)
    rw [hproducer, hcontext] at hafter
    rcases hafter with ⟨hx, -⟩ | ⟨hx, -⟩ <;> cases hx
  | @resume k => exact published_informed (informed_phase k)
  | copySemaphore hproducer hcontext =>
    have hafter := h.after (by rw [hproducer]; rfl)
    rw [hproducer, hcontext] at hafter
    rcases hafter with ⟨hx, -⟩ | ⟨-, hc⟩
    · cases hx
    · exact hc
  | notify => exact ⟨by simp, by simp, by simp⟩
  | notifyNone hproducer hno =>
    have hafter := h.after (by rw [hproducer]; rfl)
    rw [hproducer] at hafter
    rcases hafter with ⟨k, hc | hc | hc⟩ | hc
    · exact ⟨hno, by simp [hc], by simp [hc]⟩
    · exact ⟨hno, by simp [hc], by simp [hc]⟩
    · exact absurd hc (hno k)
    · exact published_informed hc
  | free hproducer =>
    have hafter := h.after (by rw [hproducer]; rfl)
    rw [hproducer] at hafter
    have hleft : s.consumer = .left := hafter
    exact ⟨by simp [hleft], by simp [hleft], by simp [hleft]⟩
  | release hproducer =>
    have hafter := h.after (by rw [hproducer]; rfl)
    rw [hproducer] at hafter
    refine ⟨?_, ?_, fun _ => rfl⟩
    · rintro k hc
      rw [show s.consumer = _ from hc] at hafter
      rcases hafter with hc | hc | hc <;> cases hc
    · rintro k hc
      rw [show s.consumer = _ from hc] at hafter
      rcases hafter with hc | hc | hc <;> cases hc
  | @call op hconsumer =>
    have hafter := h.after hpublished
    rw [hconsumer] at hafter
    exact published_on hafter (.inl trivial) (informed_enter op)
  | loadDone hloads =>
    obtain ⟨hc, hd⟩ := informed_of_loads hloads
    exact published_on (h.after hpublished) (hc.imp_right .inl) hd
  | loadOther hloads hno => exact absurd (hdone hpublished (not_freeing_of_loads hloads)) hno
  | swap hswaps hp =>
    obtain ⟨hc, hne⟩ := not_freeing_of_swaps hswaps
    exact absurd (hp.symm.trans (hdone hpublished hc)) hne
  | noSwap hswaps =>
    have hafter := h.after hpublished
    have hon : ∀ {c : ConsumerPhase}, Informed c → s.producer = .ended →
        Published s.context s.semaphore s.producer c := fun hc hover => by
      rw [hover]
      exact published_informed hc
    simp only [ResultCell.goTo]
    generalize s.consumer = c at hswaps hafter
    cases hswaps with
    | @wait k =>
      exact hon (informed_phase k) (published_over hafter id (by simp) (by simp) (by simp))
    | @await k =>
      exact hon (informed_phase k) (published_over hafter id (by simp) (by simp) (by simp))
    | waitFor => exact hon trivial (published_over hafter id (by simp) (by simp) (by simp))
    | rewind => exact published_on hafter (.inr (.inr rfl)) trivial
  | block hconsumer hwaiting =>
    rw [hdone hpublished (by simp [Freeing, hconsumer])] at hwaiting
    cases hwaiting
  | @unblocked k hconsumer =>
    show Published _ _ s.producer (.spin k)
    rcases published_waiting (.inl hconsumer) (h.after hpublished) with hover | hwake
    · rw [hover]
      exact ⟨by simp, by simp, by simp⟩
    · rw [hwake]
      exact .inl ⟨k, .inl rfl⟩
  | @wakeSpuriously k hconsumer =>
    show Published _ _ s.producer (.compare k)
    have hafter := h.after hpublished
    rcases published_waiting (.inr hconsumer) hafter with hover | hwake
    · rw [hover] at hafter
      exact absurd hconsumer (hafter.1 k)
    · rw [hwake]
      exact .inl ⟨k, .inr (.inl rfl)⟩
  | @setAwait k hconsumer | setWaitFor hconsumer | clear hconsumer | dropLast hconsumer =>
    have hover : s.producer = .ended := published_over (h.after hpublished)
      (by simp [hconsumer, Informed]) (by simp [hconsumer]) (by simp [hconsumer])
      (by simp [hconsumer])
    simp only [ResultCell.goTo, ResultCell.setPcState, hover]
    exact ⟨by simp, by simp, by simp⟩
  | dropFirst hconsumer hno => exact absurd (hdone hpublished (by simp [Freeing, hconsumer])) hno
  | acquire hconsumer hsemaphore =>
    have hover : s.producer = .ended := Classical.byContradiction fun hne => by
      rw [h.unreleased hne] at hsemaphore
      cases hsemaphore
    simp only [ResultCell.goTo, hover]
    exact published_informed trivial
  | take hconsumer | delete hconsumer =>
    have hafter := h.after hpublished
    rw [hconsumer] at hafter
    exact published_on hafter (.inl trivial) trivial
  | timeOut hconsumer =>
    have hafter := h.after hpublished
    rw [hconsumer] at hafter
    simp only [ResultCell.goTo] at hpublished ⊢
    generalize s.producer = p at hafter
    cases p with
    | working | built => exact hafter.elim
    | ended => exact ⟨by simp, by simp, by simp⟩
    | release => exact .inr (.inl rfl)
    | wake found =>
      cases found with
      | consumerSet =>
        rcases hafter with ⟨-, k, hc⟩ | ⟨hx, -⟩
        · cases hc
        · exact .inr ⟨hx, .inr (.inl rfl)⟩
      | idle | producerDone => exact hafter.elim
      | consumerWaiting => simp [Published, Informed] at hafter
      | consumerDone => cases hafter

theorem done_step (h : CellOk s) (hm : ResultMoves s l s')
    (hpublished : s'.producer.published = true) :
    s'.state.pcState = .producerDone ∨ Freeing s'.consumer := by
  cases hm with
  | setResult | setException => cases hpublished
  | publish | publishFound => exact .inl rfl
  | wakeNone hproducer | copySemaphore hproducer | notifyNone hproducer | free hproducer
  | release hproducer => exact h.done (by rw [hproducer]; rfl)
  | resume hproducer _ hconsumer =>
    exact .inl ((h.done (by rw [hproducer]; rfl)).resolve_right (by simp [Freeing, hconsumer]))
  | notify hproducer hconsumer =>
    exact .inl ((h.done (by rw [hproducer]; rfl)).resolve_right (by simp [Freeing, hconsumer]))
  | loadDone _ hdone => exact .inl hdone
  | loadOther hloads => exact .inl ((h.done hpublished).resolve_right (not_freeing_of_loads hloads))
  | swap hswaps hp =>
    obtain ⟨hc, hne⟩ := not_freeing_of_swaps hswaps
    exact absurd (hp.symm.trans ((h.done hpublished).resolve_right hc)) hne
  | noSwap hswaps =>
    exact .inl ((h.done hpublished).resolve_right (not_freeing_of_swaps hswaps).1)
  | call hconsumer | block hconsumer | unblocked hconsumer | setAwait hconsumer
  | setWaitFor hconsumer | acquire hconsumer | clear hconsumer | wakeSpuriously hconsumer
  | timeOut hconsumer =>
    exact .inl ((h.done hpublished).resolve_right (by simp [Freeing, hconsumer]))
  | dropLast | take => exact .inr (.inl rfl)
  | dropFirst hconsumer hno =>
    exact absurd ((h.done hpublished).resolve_right (by simp [Freeing, hconsumer])) hno
  | delete => exact .inr (.inr rfl)

theorem freedBy_producer {c : ConsumerPhase} (hleft : c ≠ .left) (p q : ProducerPhase) :
    freedBy p c = freedBy q c := by
  cases c with
  | left => exact absurd rfl hleft
  | _ => rfl

theorem freedBy_phase (p : ProducerPhase) (k : After) : freedBy p k.phase = 0 := by
  cases k <;> rfl

theorem freedBy_enter (p : ProducerPhase) (op : ConsumerOp) : freedBy p op.enter = 0 := by
  cases op <;> rfl

theorem freedBy_of_loads {c d o : ConsumerPhase} (h : Loads c d o) (p : ProducerPhase) :
    freedBy p c = 0 ∧ freedBy p d = 0 ∧ freedBy p o = 0 := by
  cases h with
  | wait | spin | await => exact ⟨rfl, freedBy_phase p _, rfl⟩
  | waitFor | drop => exact ⟨rfl, rfl, rfl⟩

theorem freedBy_of_swaps {c w o : ConsumerPhase} {x y : PcState} (h : Swaps c x y w o)
    (p : ProducerPhase) : freedBy p c = 0 ∧ freedBy p w = 0 ∧ freedBy p o = 0 := by
  cases h with
  | wait | await => exact ⟨rfl, rfl, freedBy_phase p _⟩
  | waitFor | rewind => exact ⟨rfl, rfl, rfl⟩

theorem freed_step (h : CellOk s) (hm : ResultMoves s l s') :
    s'.freed = freedBy s'.producer s'.consumer := by
  have hfreed := h.freed
  cases hm with
  | setResult hproducer | setException hproducer =>
    rw [hproducer] at hfreed
    exact hfreed
  | publish hproducer hidle =>
    have hbefore := h.before (by rw [hproducer]; rfl)
    have hleft : s.consumer ≠ .left := fun heq => by
      rw [heq, hidle] at hbefore
      cases hbefore
    exact hfreed.trans (freedBy_producer hleft _ _)
  | publishFound hproducer | copySemaphore hproducer =>
    rw [hproducer] at hfreed
    refine hfreed.trans ?_
    simp only [ResultCell.setPcState]
    cases s.consumer <;> simp [freedBy]
  | wakeNone hproducer | notifyNone hproducer | release hproducer =>
    have hafter := h.after (by rw [hproducer]; rfl)
    rw [hproducer] at hafter
    have hleft : s.consumer ≠ .left := fun heq => by
      rw [heq] at hafter
      simp [Published, Informed] at hafter
    exact hfreed.trans (freedBy_producer hleft _ _)
  | resume _ _ hconsumer =>
    rw [hconsumer] at hfreed
    exact hfreed.trans (freedBy_phase _ _).symm
  | notify _ hconsumer =>
    rw [hconsumer] at hfreed
    exact hfreed
  | free hproducer =>
    have hafter := h.after (by rw [hproducer]; rfl)
    rw [hproducer] at hafter
    have hleft : s.consumer = .left := hafter
    rw [hproducer, hleft] at hfreed
    simp [hfreed, hleft, freedBy]
  | call hconsumer =>
    rw [hconsumer] at hfreed
    exact hfreed.trans (freedBy_enter _ _).symm
  | loadDone hloads =>
    obtain ⟨hc, hd, -⟩ := freedBy_of_loads hloads s.producer
    exact (hfreed.trans hc).trans hd.symm
  | loadOther hloads =>
    obtain ⟨hc, -, ho⟩ := freedBy_of_loads hloads s.producer
    exact (hfreed.trans hc).trans ho.symm
  | swap hswaps =>
    obtain ⟨hc, hw, -⟩ := freedBy_of_swaps hswaps s.producer
    exact (hfreed.trans hc).trans hw.symm
  | noSwap hswaps =>
    obtain ⟨hc, -, ho⟩ := freedBy_of_swaps hswaps s.producer
    exact (hfreed.trans hc).trans ho.symm
  | block hconsumer | unblocked hconsumer | setAwait hconsumer | setWaitFor hconsumer
  | acquire hconsumer | clear hconsumer | dropLast hconsumer | take hconsumer
  | wakeSpuriously hconsumer | timeOut hconsumer =>
    rw [hconsumer] at hfreed
    exact hfreed
  | dropFirst hconsumer hno =>
    have hopen : s.producer ≠ .ended := fun hover =>
      hno ((h.done (by rw [hover]; rfl)).resolve_right (by simp [Freeing, hconsumer]))
    rw [hconsumer] at hfreed
    refine hfreed.trans ?_
    simp [ResultCell.goTo, ResultCell.setPcState, freedBy, hopen]
  | delete hconsumer =>
    rw [hconsumer] at hfreed
    simp [hfreed, ResultCell.goTo, freedBy]

theorem value_step (h : CellOk s) (hm : ResultMoves s l s') :
    s'.state.producer = .idle ↔ s'.producer = .working := by
  have hvalue := h.value
  cases hm with
  | setResult | setException =>
    exact iff_of_false (by simp [ResultState.setResult, ResultState.setException]) (by simp)
  | publish hproducer | publishFound hproducer | wakeNone hproducer | resume hproducer
  | copySemaphore hproducer | notify hproducer | notifyNone hproducer | free hproducer
  | release hproducer =>
    rw [hproducer] at hvalue
    exact iff_of_false (fun hidle => by cases hvalue.mp hidle) (by simp)
  | _ => exact hvalue

/-- The consumer takes the value when the producer has published. -/
theorem take_published (h : CellOk s) (hc : s.consumer = .take ∨ Freeing s.consumer) :
    s.producer.published = true := by
  cases hp : s.producer.published with
  | true => rfl
  | false =>
    have hbefore := h.before hp
    rcases hc with hc | hc | hc <;> simp [hc, Unpublished] at hbefore

theorem taken_step (h : CellOk s) (hm : ResultMoves s l s') (htaken : s'.taken ≠ .idle) :
    s'.taken = s'.state.producer := by
  cases hm with
  | setResult hproducer | setException hproducer =>
    have hidle : s.taken = .idle := Classical.byContradiction fun hne =>
      hne ((h.taken hne).trans (h.value.mpr hproducer))
    exact absurd hidle htaken
  | take => rfl
  | _ => exact h.taken htaken

theorem unreleased_step (h : CellOk s) (hm : ResultMoves s l s') (hopen : s'.producer ≠ .ended) :
    s'.semaphore = false := by
  cases hm with
  | setResult hproducer | setException hproducer | publishFound hproducer | copySemaphore hproducer =>
    exact h.unreleased (by simp [hproducer])
  | publish | wakeNone | resume | notify | notifyNone | free | release => exact absurd rfl hopen
  | setWaitFor | acquire => rfl
  | _ => exact h.unreleased hopen

theorem cellOk_step (h : CellOk s) (hstep : ResultSteps s l s') : CellOk s' where
  value := value_step h hstep.moves
  before := before_step h hstep.moves
  after := after_step h hstep.moves
  done := done_step h hstep.moves
  freed := freed_step h hstep.moves
  taken := taken_step h hstep.moves
  unreleased := unreleased_step h hstep.moves

theorem cellOk_run {tr : List (ResultCell α × ResultLabel α × ResultCell α)}
    (h : Run ResultSteps (.init : ResultCell α) tr s) : CellOk s :=
  h.inv_all cellOk_init cellOk_step

/-! ### How long a call takes -/

theorem isDone_producerDone : PcState.producerDone.isDone = true := rfl

theorem isDone_of_ne {p : PcState} (h : p ≠ .producerDone) : p.isDone = false := by
  cases p with
  | producerDone => exact absurd rfl h
  | _ => rfl

theorem rank_phase (b : Bool) (k : After) : k.phase.rank b ≤ 2 := by
  cases k <;> simp [After.phase, ConsumerPhase.rank]

theorem rank_enter (b : Bool) (op : ConsumerOp) : op.enter.rank b ≤ 7 := by
  cases op <;> simp [ConsumerOp.enter, ConsumerPhase.rank]

theorem rank_of_loads {c d o : ConsumerPhase} (h : Loads c d o) :
    d.rank true + 1 ≤ c.rank true ∧ o.rank false + 1 ≤ c.rank false := by
  cases h with
  | @wait k | @spin k | @await k => cases k <;> decide
  | waitFor | drop => decide

theorem rank_of_swaps {c w o : ConsumerPhase} {p q : PcState} (h : Swaps c p q w o) (b : Bool) :
    w.rank q.isDone + 1 ≤ c.rank p.isDone ∧
      o.rank b + 1 ≤ c.rank b := by
  cases h with
  | @wait k | @await k => cases k <;> cases b <;> decide
  | waitFor | rewind => cases b <;> decide

/-- Publishing does not set the consumer back. -/
theorem rank_done (c : ConsumerPhase) (b : Bool) : c.rank true ≤ c.rank b := by
  cases c <;> cases b <;> simp [ConsumerPhase.rank]

/-- A step that a side takes by itself lowers the rank, and any other raises it by eight at most. -/
theorem rank_step (h : CellOk s) (hm : ResultMoves s l s') :
    l.inner + s'.rank ≤ s.rank + 8 * (1 - l.inner) := by
  cases hm with
  | setResult hproducer | setException hproducer =>
    simp only [ResultCell.rank, hproducer, ProducerPhase.rank, ResultLabel.inner,
      ResultState.setResult, ResultState.setException]
    omega
  | publish hproducer | publishFound hproducer =>
    have hdone := rank_done s.consumer s.state.pcState.isDone
    simp only [ResultCell.rank, ResultCell.setPcState, hproducer, ProducerPhase.rank,
      ResultLabel.inner, isDone_producerDone]
    omega
  | wakeNone hproducer | copySemaphore hproducer | notifyNone hproducer | free hproducer
  | release hproducer =>
    simp only [ResultCell.rank, hproducer, ProducerPhase.rank, ResultLabel.inner]
    omega
  | @resume k hproducer =>
    have hphase := rank_phase s.state.pcState.isDone k
    simp only [ResultCell.rank, hproducer, ProducerPhase.rank, ResultLabel.inner]
    omega
  | notify hproducer =>
    simp only [ResultCell.rank, hproducer, ProducerPhase.rank, ConsumerPhase.rank,
      ResultLabel.inner]
    omega
  | @call op hconsumer =>
    have henter := rank_enter s.state.pcState.isDone op
    simp only [ResultCell.rank, ResultCell.goTo, ResultLabel.inner]
    omega
  | loadDone hloads hdone =>
    have hrank := (rank_of_loads hloads).1
    simp only [ResultCell.rank, ResultCell.goTo, hdone, isDone_producerDone, ResultLabel.inner]
    omega
  | loadOther hloads hdone =>
    have hrank := (rank_of_loads hloads).2
    simp only [ResultCell.rank, ResultCell.goTo, isDone_of_ne hdone, ResultLabel.inner]
    omega
  | swap hswaps hp =>
    have hrank := (rank_of_swaps hswaps true).1
    simp only [ResultCell.rank, ResultCell.goTo, ResultCell.setPcState, hp, ResultLabel.inner]
    omega
  | noSwap hswaps =>
    have hrank := (rank_of_swaps hswaps s.state.pcState.isDone).2
    simp only [ResultCell.rank, ResultCell.goTo, ResultLabel.inner]
    omega
  | dropLast hconsumer hdone =>
    simp only [ResultCell.rank, ResultCell.goTo, ResultCell.setPcState, hconsumer,
      ConsumerPhase.rank, ResultLabel.inner]
    omega
  | dropFirst hconsumer hdone =>
    simp only [ResultCell.rank, ResultCell.goTo, ResultCell.setPcState, hconsumer,
      ConsumerPhase.rank, ResultLabel.inner]
    omega
  | block hconsumer hwaiting =>
    simp only [ResultCell.rank, ResultCell.goTo, hconsumer, ConsumerPhase.rank, ResultLabel.inner]
    omega
  | unblocked hconsumer hwaiting =>
    -- it was woken, so the producer is done
    have hpublished : s.producer.published = true := Classical.byContradiction fun hopen => by
      have hbefore := h.before (Bool.eq_false_iff.mpr hopen)
      rw [hconsumer] at hbefore
      exact hwaiting hbefore
    have hdone := (h.done hpublished).resolve_right (by simp [Freeing, hconsumer])
    simp only [ResultCell.rank, ResultCell.goTo, hconsumer, hdone, ConsumerPhase.rank, isDone_producerDone,
      ResultLabel.inner, if_true]
    omega
  | setAwait hconsumer | setWaitFor hconsumer | acquire hconsumer | clear hconsumer
  | take hconsumer | delete hconsumer | wakeSpuriously hconsumer | timeOut hconsumer =>
    simp only [ResultCell.rank, ResultCell.goTo, hconsumer, ConsumerPhase.rank, ResultLabel.inner]
    omega

/-- A side that is in a call, or that has set the result, can take a step. -/
theorem goesOn (h : CellOk s) (hset : s.producer ≠ .working) :
    (s.producer = .ended ∧ (s.consumer = .holding ∨ s.consumer = .left ∨ s.consumer = .ended)) ∨
      ∃ l s', l.inner = 1 ∧ ResultSteps s l s' := by
  cases hproducer : s.producer with
  | working => exact absurd hproducer hset
  | built =>
    exact .inr ⟨.publish, _, rfl, by rw [ResultSteps, ResultCell.step, ResultCell.publish, hproducer]⟩
  | release =>
    exact .inr ⟨.release, _, rfl, by rw [ResultSteps, ResultCell.step, ResultCell.release, hproducer]⟩
  | wake found =>
    have hafter := h.after (by rw [hproducer]; rfl)
    rw [hproducer] at hafter
    refine .inr ⟨.wake, ?_⟩
    simp only [ResultSteps, ResultCell.step, ResultCell.wake, hproducer]
    cases found with
    | idle | producerDone => exact hafter.elim
    | consumerWaiting | consumerDone => exact ⟨_, rfl, rfl⟩
    | consumerSet =>
      rcases hafter with ⟨hcontext, k, hconsumer⟩ | ⟨hcontext, -⟩
      · rw [hcontext, hconsumer]
        exact ⟨_, rfl, rfl⟩
      · rw [hcontext]
        exact ⟨_, rfl, rfl⟩
  | ended =>
    have hafter := h.after (by rw [hproducer]; rfl)
    rw [hproducer] at hafter
    obtain ⟨hblocked, hsuspended, hacquire⟩ := hafter
    by_cases hrest : s.consumer = .holding ∨ s.consumer = .left ∨ s.consumer = .ended
    · exact .inl ⟨rfl, hrest⟩
    refine .inr ⟨.next, ?_⟩
    simp only [ResultSteps, ResultCell.step, ResultCell.next]
    cases hconsumer : s.consumer with
    | holding => exact absurd (.inl hconsumer) hrest
    | left => exact absurd (.inr (.inl hconsumer)) hrest
    | ended => exact absurd (.inr (.inr hconsumer)) hrest
    | blocked k => exact absurd hconsumer (hblocked k)
    | suspended k => exact absurd hconsumer (hsuspended k)
    | acquire =>
      rw [hacquire hconsumer]
      exact ⟨_, rfl, rfl⟩
    | compare k =>
      dsimp only
      split
      · exact ⟨_, rfl, rfl⟩
      · exact ⟨_, rfl, rfl⟩
    | _ => exact ⟨_, rfl, rfl⟩

/-! ### Who frees the state -/

/-- The call that waits, and the one that suspends, by what follows it. -/
def waitOp : After → ConsumerOp
  | .keep => .wait
  | .take => .get

def awaitOp : After → ConsumerOp
  | .keep => .resolve
  | .take => .await

/-- The calls of which the consumer is in one, or has ended with one. -/
def Made (calls : Set ConsumerOp) : ConsumerPhase → Prop
  | .holding => True
  | .loadWait k | .casWait k | .spin k | .compare k | .blocked k => waitOp k ∈ calls
  | .loadAwait k | .setAwait k | .casAwait k | .suspended k => awaitOp k ∈ calls
  | .loadWaitFor | .setWaitFor | .casWaitFor | .acquire | .rewind | .clear => .waitFor ∈ calls
  | .loadDrop | .exchangeDrop | .left => .drop ∈ calls
  | .take | .delete | .ended => .get ∈ calls ∨ .await ∈ calls ∨ .drop ∈ calls

/-- A consumer that makes no calls but those of `calls`. -/
structure MadeOk (calls : Set ConsumerOp) (s : ResultCell α) : Prop where
  cell : CellOk s
  consumer : Made calls s.consumer
  context : s.context = .waitFor → .waitFor ∈ calls
  pcState : s.state.pcState = .consumerWaiting → .wait ∈ calls ∨ .get ∈ calls
  producer : s.producer = .wake .consumerWaiting → .wait ∈ calls ∨ .get ∈ calls

variable {calls : Set ConsumerOp}

theorem made_phase_wait {k : After} (h : waitOp k ∈ calls) : Made calls k.phase := by
  cases k with
  | keep => trivial
  | take => exact .inl h

theorem made_phase_await {k : After} (h : awaitOp k ∈ calls) : Made calls k.phase := by
  cases k with
  | keep => trivial
  | take => exact .inr (.inl h)

theorem made_enter {op : ConsumerOp} (h : op ∈ calls) : Made calls op.enter := by
  cases op <;> exact h

theorem made_of_loads {c d o : ConsumerPhase} (h : Loads c d o) (hc : Made calls c) :
    Made calls d ∧ Made calls o := by
  cases h with
  | wait | spin => exact ⟨made_phase_wait hc, hc⟩
  | await => exact ⟨made_phase_await hc, hc⟩
  | waitFor => exact ⟨trivial, hc⟩
  | drop => exact ⟨.inr (.inr hc), hc⟩

theorem made_of_swaps {c w o : ConsumerPhase} {p q : PcState} (h : Swaps c p q w o)
    (hc : Made calls c) :
    Made calls w ∧ Made calls o ∧ (q = .consumerWaiting → .wait ∈ calls ∨ .get ∈ calls) := by
  cases h with
  | @wait k =>
    refine ⟨hc, made_phase_wait hc, fun _ => ?_⟩
    cases k with
    | keep => exact .inl hc
    | take => exact .inr hc
  | await => exact ⟨hc, made_phase_await hc, nofun⟩
  | waitFor | rewind => exact ⟨hc, trivial, nofun⟩

theorem madeOk_init : MadeOk calls (.init : ResultCell α) where
  cell := cellOk_init
  consumer := trivial
  context := nofun
  pcState := nofun
  producer := nofun

theorem madeOk_step (h : MadeOk calls s) (hcall : ∀ op, l = .call op → op ∈ calls)
    (hstep : ResultSteps s l s') : MadeOk calls s' := by
  have hcell := cellOk_step h.cell hstep
  have hmade := h.consumer
  have hm := hstep.moves
  cases hm with
  | setResult | setException => exact ⟨hcell, hmade, h.context, h.pcState, nofun⟩
  | publish => exact ⟨hcell, hmade, h.context, nofun, nofun⟩
  | publishFound =>
    exact ⟨hcell, hmade, h.context, nofun, fun heq => h.pcState (ProducerPhase.wake.inj heq)⟩
  | wakeNone | free | release | notifyNone | copySemaphore =>
    exact ⟨hcell, hmade, h.context, h.pcState, nofun⟩
  | resume _ _ hconsumer =>
    rw [hconsumer] at hmade
    exact ⟨hcell, made_phase_await hmade, h.context, h.pcState, nofun⟩
  | notify _ hconsumer =>
    rw [hconsumer] at hmade
    exact ⟨hcell, hmade, h.context, h.pcState, nofun⟩
  | @call op => exact ⟨hcell, made_enter (hcall op rfl), h.context, h.pcState, h.producer⟩
  | loadDone hloads =>
    exact ⟨hcell, (made_of_loads hloads hmade).1, h.context, h.pcState, h.producer⟩
  | loadOther hloads =>
    exact ⟨hcell, (made_of_loads hloads hmade).2, h.context, h.pcState, h.producer⟩
  | swap hswaps =>
    obtain ⟨hwon, -, hq⟩ := made_of_swaps hswaps hmade
    exact ⟨hcell, hwon, h.context, hq, h.producer⟩
  | noSwap hswaps =>
    exact ⟨hcell, (made_of_swaps hswaps hmade).2.1, h.context, h.pcState, h.producer⟩
  | block hconsumer | unblocked hconsumer | wakeSpuriously hconsumer | timeOut hconsumer
  | take hconsumer | delete hconsumer =>
    rw [hconsumer] at hmade
    exact ⟨hcell, hmade, h.context, h.pcState, h.producer⟩
  | setAwait hconsumer =>
    rw [hconsumer] at hmade
    exact ⟨hcell, hmade, nofun, h.pcState, h.producer⟩
  | setWaitFor hconsumer =>
    rw [hconsumer] at hmade
    exact ⟨hcell, hmade, fun _ => hmade, h.pcState, h.producer⟩
  | acquire => exact ⟨hcell, trivial, h.context, h.pcState, h.producer⟩
  | clear => exact ⟨hcell, trivial, nofun, h.pcState, h.producer⟩
  | dropLast hconsumer =>
    rw [hconsumer] at hmade
    exact ⟨hcell, .inr (.inr hmade), h.context, nofun, h.producer⟩
  | dropFirst hconsumer =>
    rw [hconsumer] at hmade
    exact ⟨hcell, hmade, h.context, nofun, h.producer⟩

theorem madeOk_run {tr : List (ResultCell α × ResultLabel α × ResultCell α)}
    (h : Run ResultSteps (.init : ResultCell α) tr s) (hcalls : callsOf tr ⊆ calls) :
    MadeOk calls s :=
  h.inv (C := fun _ l => ∀ op, l = .call op → op ∈ calls) madeOk_init
    (fun hI hC hstep => madeOk_step hI hC hstep)
    (fun t ht _ hop => hcalls ⟨t, ht, hop⟩)

theorem freed_of_freedBy {p : ProducerPhase} {c : ConsumerPhase} (h : freedBy p c ≠ 0) :
    c = .ended ∨ c = .left ∧ p = .ended := by
  cases c with
  | ended => exact .inl rfl
  | left =>
    refine .inr ⟨rfl, Classical.byContradiction fun hp => h ?_⟩
    simp [freedBy, hp]
  | _ => exact absurd rfl h

/-- The state was freed by the consumer, after the producer has published. -/
theorem freed_cases (h : CellOk s) (hfreed : s.freed ≠ 0) (hover : s.producer ≠ .ended) :
    s.consumer = .ended ∧ s.producer.published = true := by
  rw [h.freed] at hfreed
  have hconsumer := (freed_of_freedBy hfreed).resolve_right fun hleft => hover hleft.2
  exact ⟨hconsumer, take_published h (.inr (.inr hconsumer))⟩

/-- A freed state that the producer still has to access: it found a consumer that waited, or one
that had set the context of a `wait_for`. -/
theorem dangling_cases (h : MadeOk calls s) (hdangling : s.Dangling) :
    s.consumer = .ended ∧ (.get ∈ calls ∨ .await ∈ calls ∨ .drop ∈ calls) ∧
      (s.producer = .wake .consumerWaiting ∧ (.wait ∈ calls ∨ .get ∈ calls) ∨
        s.producer = .wake .consumerSet ∧ s.context = .waitFor ∧ .waitFor ∈ calls) := by
  obtain ⟨hfreed, hrelease, hover⟩ := hdangling
  obtain ⟨hconsumer, hpublished⟩ := freed_cases h.cell hfreed hover
  have hmade := h.consumer
  have hafter := h.cell.after hpublished
  rw [hconsumer] at hmade hafter
  refine ⟨hconsumer, hmade, ?_⟩
  cases hproducer : s.producer with
  | working | built =>
    rw [hproducer] at hpublished
    cases hpublished
  | release => exact absurd hproducer hrelease
  | ended => exact absurd hproducer hover
  | wake found =>
    rw [hproducer] at hafter
    cases found with
    | idle | producerDone => exact hafter.elim
    | consumerWaiting => exact .inl ⟨rfl, h.producer hproducer⟩
    | consumerDone => cases hafter
    | consumerSet =>
      rcases hafter with ⟨-, k, hc⟩ | ⟨hcontext, -⟩
      · cases hc
      · exact .inr ⟨rfl, hcontext, h.context hcontext⟩

/-- A schedule that ends with the state freed by the consumer, before the wake-up. -/
theorem exists_dangling {calls : Set ConsumerOp} (ls : List (ResultLabel α)) {p : PcState}
    (hview : (exec ResultCell.step .init ls).map (fun r => (r.2.freed, r.2.producer)) =
      some (1, .wake p))
    (hcalls : ∀ op, .call op ∈ ls → op ∈ calls) :
    ∃ tr s, Run ResultSteps (.init : ResultCell α) tr s ∧ callsOf tr ⊆ calls ∧ s.Dangling := by
  obtain ⟨tr, s, hrun, hlabels, hends⟩ := exists_run ResultCell.step (R := ResultSteps) id _ ls
    (fun r => (r.2.freed, r.2.producer)) hview
  obtain ⟨hfreed, hproducer⟩ := Prod.mk.inj hends
  refine ⟨tr, s, hrun, ?_, ?_⟩
  · rintro op ⟨t, ht, hop⟩
    refine hcalls op ?_
    rw [← hlabels, ← hop]
    exact List.mem_map_of_mem ht
  · have hproducer : s.producer = .wake p := hproducer
    exact ⟨ne_of_eq_of_ne hfreed Nat.one_ne_zero, by rw [hproducer]; nofun, by rw [hproducer]; nofun⟩

/-- The producer publishes under a consumer that waits, which goes on before it is notified. -/
def underWait (op : ConsumerOp) : List (ResultLabel α) :=
  [.call op, .next, .next, .set none, .publish, .next]

/-- The producer publishes under a consumer whose `wait_for` has timed out, which goes on too. -/
def underWaitFor : List (ResultLabel α) :=
  [.call .waitFor, .next, .next, .next, .set none, .timeOut, .publish, .next]

end ResultLifetimeLemmas

/-! ## Results -/

section Results

variable {tr tr' : List (ResultCell α × ResultLabel α × ResultCell α)} {s s' : ResultCell α}

open ResultLifetimeLemmas

/-- In every run the state is freed at most once, and then its consumer has left it; when both sides
are through it was freed. Where the consumer takes the value the producer has set it, and what it
took is that value. -/
theorem freed_once (h : Run ResultSteps .init tr s) :
    s.freed ≤ 1 ∧ (s.freed = 1 → s.consumer = .left ∨ s.consumer = .ended) ∧
      (s.producer = .ended → s.consumer = .left ∨ s.consumer = .ended → s.freed = 1) ∧
      (s.consumer = .take → s.state.producer ≠ .idle) ∧
      (s.taken ≠ .idle → s.taken = s.state.producer) := by
  have hok := cellOk_run h
  have hfreed := hok.freed
  refine ⟨?_, fun hone => ?_, ?_, fun htake => ?_, hok.taken⟩
  · rw [hfreed]
    cases s.consumer with
    | ended => exact Nat.le_refl 1
    | left =>
      simp only [freedBy]
      split
      · exact Nat.le_refl 1
      · exact Nat.zero_le 1
    | _ => exact Nat.zero_le 1
  · rw [hfreed] at hone
    have hne : freedBy s.producer s.consumer ≠ 0 := by simp [hone]
    exact (freed_of_freedBy hne).symm.imp_left And.left
  · rintro hover (hleft | hleft)
    · rw [hfreed, hleft, hover]
      rfl
    · rw [hfreed, hleft]
      rfl
  · intro hidle
    have hpublished := take_published hok (.inl htake)
    rw [hok.value.mp hidle] at hpublished
    cases hpublished

/-- The consumer drops its result, and the producer frees the state. -/
theorem freed_once_producer : ∃ tr s, Run ResultSteps (.init : ResultCell Nat) tr s ∧
    s.consumer = .left ∧ s.state.producer = .exception ∧ s.freed = 1 := by
  obtain ⟨tr, s, hrun, -, hview⟩ := exists_run ResultCell.step (R := ResultSteps) id
    (.init : ResultCell Nat) [.call .drop, .next, .next, .set none, .publish, .wake]
    (fun r => (r.2.producer, r.2.consumer, r.2.state.producer)) (v := (.ended, .left, .exception))
    (by decide)
  obtain ⟨hproducer, hrest⟩ := Prod.mk.inj hview
  obtain ⟨hconsumer, hvalue⟩ := Prod.mk.inj hrest
  exact ⟨tr, s, hrun, hconsumer, hvalue, (freed_once hrun).2.2.1 hproducer (.inl hconsumer)⟩

/-- In every continuation of a run the two sides take a bounded number of steps for each call, each
time-out and each spurious wake-up. Once the result is set, one of them can always take another,
until the producer is through and the consumer in no call: no wake-up is lost. -/
theorem calls_end (h : Run ResultSteps .init tr s) (hafter : Run ResultSteps s tr' s') :
    eventCount (fun _ l => l.inner) tr' + s'.rank ≤
        s.rank + 8 * eventCount (fun _ l => 1 - l.inner) tr' ∧
      (s'.producer ≠ .working → s'.producer = .ended ∧
          (s'.consumer = .holding ∨ s'.consumer = .left ∨ s'.consumer = .ended) ∨
        ∃ l s'', l.inner = 1 ∧ ResultSteps s' l s'') := by
  constructor
  · induction hafter with
    | nil => exact (Nat.zero_add _).le
    | snoc hpre hstep ih =>
      have hrank := rank_step (hpre.inv_all (cellOk_run h) cellOk_step) hstep.moves
      rw [eventCount_snoc, eventCount_snoc]
      omega
  · exact goesOn (hafter.inv_all (cellOk_run h) cellOk_step)

/-- The consumer is blocked in `get` when the producer publishes. -/
theorem calls_end_blocked : ∃ tr s, Run ResultSteps (.init : ResultCell Nat) tr s ∧
    s.consumer = .blocked .take ∧ ∃ l s', l.inner = 1 ∧ ResultSteps s l s' := by
  obtain ⟨tr, s, hrun, -, hview⟩ := exists_run ResultCell.step (R := ResultSteps) id
    (.init : ResultCell Nat)
    [.call .get, .next, .next, .next, .next, .set (some 7), .publish]
    (fun r => (r.2.producer, r.2.consumer)) (v := (.wake .consumerWaiting, .blocked .take))
    (by decide)
  obtain ⟨hproducer, hconsumer⟩ := Prod.mk.inj hview
  have hproducer : s.producer = .wake .consumerWaiting := hproducer
  exact ⟨tr, s, hrun, hconsumer, ((calls_end hrun .nil).2 (by rw [hproducer]; simp)).resolve_left
    fun hover => by simp [hproducer] at hover⟩

/-- A consumer that makes no calls but those of `calls` never makes the producer access a freed
state, exactly when they are no `get`, and there is either none that leaves the producer a wake-up
or none that frees the state. Where the producer does so, it found `consumer_waiting`, or
`consumer_set` of a `wait_for`. -/
theorem dangling_iff (calls : Set ConsumerOp) :
    ((∀ tr (s : ResultCell α), Run ResultSteps .init tr s → callsOf tr ⊆ calls → ¬ s.Dangling) ↔
        .get ∉ calls ∧ (.wait ∉ calls ∧ .waitFor ∉ calls ∨ .await ∉ calls ∧ .drop ∉ calls)) ∧
      ∀ tr (s : ResultCell α), Run ResultSteps .init tr s → s.Dangling → s.consumer = .ended ∧
        (s.producer = .wake .consumerWaiting ∧ (.wait ∈ callsOf tr ∨ .get ∈ callsOf tr) ∨
          s.producer = .wake .consumerSet ∧ s.context = .waitFor ∧ .waitFor ∈ callsOf tr) := by
  refine ⟨⟨fun hall => ?_, ?_⟩, ?_⟩
  · have hno : ∀ (ls : List (ResultLabel α)) (p : PcState),
        (exec ResultCell.step .init ls).map (fun r => (r.2.freed, r.2.producer)) =
          some (1, .wake p) →
        ¬ ∀ op, .call op ∈ ls → op ∈ calls := by
      intro ls p hview hcalls
      obtain ⟨tr, s, hrun, hmade, hdangling⟩ := exists_dangling ls hview hcalls
      exact hall tr s hrun hmade hdangling
    refine ⟨fun hget => ?_, Classical.byContradiction fun hsafe => ?_⟩
    · exact hno (underWait .get ++ [.next, .next]) _ rfl (by simp [underWait, hget])
    · rw [not_or, not_and_or, not_and_or, not_not, not_not, not_not, not_not] at hsafe
      obtain ⟨hwait | hwait, hfree | hfree⟩ := hsafe
      · exact hno (underWait .wait ++ [.call .await, .next, .next, .next]) _ rfl
          (by simp [underWait, hwait, hfree])
      · exact hno (underWait .wait ++ [.call .drop, .next, .next]) _ rfl
          (by simp [underWait, hwait, hfree])
      · exact hno (underWaitFor ++ [.call .await, .next, .next, .next]) _ rfl
          (by simp [underWaitFor, hwait, hfree])
      · exact hno (underWaitFor ++ [.call .drop, .next, .next]) _ rfl
          (by simp [underWaitFor, hwait, hfree])
  · rintro ⟨hget, hsafe⟩ tr s hrun hcalls hdangling
    obtain ⟨-, hfrees, hwakes⟩ := dangling_cases (madeOk_run hrun hcalls) hdangling
    rcases hsafe with ⟨hwait, hwaitFor⟩ | ⟨hawait, hdrop⟩
    · -- there is no wake-up to come
      rcases hwakes with ⟨-, hwaits | hgets⟩ | ⟨-, -, hwaitsFor⟩
      · exact hwait hwaits
      · exact hget hgets
      · exact hwaitFor hwaitsFor
    · -- the consumer does not free the state
      rcases hfrees with hgets | hawaits | hdrops
      · exact hget hgets
      · exact hawait hawaits
      · exact hdrop hdrops
  · intro tr s hrun hdangling
    obtain ⟨hconsumer, -, hfound⟩ := dangling_cases (madeOk_run hrun Set.Subset.rfl) hdangling
    exact ⟨hconsumer, hfound⟩

/-- A consumer that only awaits, resolves or drops its result never frees it under the producer. -/
theorem await_not_dangling (h : Run ResultSteps .init tr s)
    (hcalls : ∀ t ∈ tr, ∀ op, t.2.1 = .call op → op = .await ∨ op = .resolve ∨ op = .drop) :
    ¬ s.Dangling := by
  have hok : MadeOk {op | op = .await ∨ op = .resolve ∨ op = .drop} s :=
    madeOk_run h fun op ⟨t, ht, hop⟩ => hcalls t ht op hop
  intro hdangling
  obtain ⟨-, -, ⟨-, hwait | hget⟩ | ⟨-, -, hwaitFor⟩⟩ := dangling_cases hok hdangling
  · simp at hwait
  · simp at hget
  · simp at hwaitFor

/-- The consumer is suspended when the producer publishes, and frees the state. -/
theorem await_not_dangling_suspended : ∃ tr s, Run ResultSteps (.init : ResultCell Nat) tr s ∧
    s.taken = .value 7 ∧ s.freed = 1 ∧ ¬ s.Dangling := by
  obtain ⟨tr, s, hrun, hlabels, hview⟩ := exists_run ResultCell.step (R := ResultSteps) id
    (.init : ResultCell Nat)
    [.call .await, .next, .next, .next, .set (some 7), .publish, .wake, .next, .next]
    (fun r => (r.2.taken, r.2.freed)) (v := (.value 7, 1)) (by decide)
  obtain ⟨htaken, hfreed⟩ := Prod.mk.inj hview
  refine ⟨tr, s, hrun, htaken, hfreed, await_not_dangling hrun fun t ht op hop => .inl ?_⟩
  have hmem : t.2.1 ∈ tr.map (·.2.1) := List.mem_map_of_mem ht
  rw [hlabels, hop] at hmem
  simpa using hmem

end Results

end FlavoEngine.Engine

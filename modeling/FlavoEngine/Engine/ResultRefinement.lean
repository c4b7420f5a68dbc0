import FlavoEngine.Engine.ResultLifetime

/-!
# Calls of a result state as single steps

`Future` takes a call of a result state for one step, `ResultState`. In `ResultCell` the call is
several, and those of the other side fall between them. Without `wait_for`, each call of
`ResultCell` has one step at which the operation of `ResultState` takes place; the others do nothing
to it.

Results:
1. `atomic_calls`: in a run without `wait_for`, the state is what the operations make of it in the
   order in which they take place. The operations of the consumer are its calls, in the order of the
   calls, each of them once. The producer finds what its operation returns, and the consumer is
   suspended if and only if its operation says so.
-/

namespace FlavoEngine.Engine

open FlavoEngine.Lib

variable {α : Type}

/-! ## Operations -/

/-- The operations of `ResultState`. -/
inductive ResultOp (α : Type) where
  | setResult (a : α)
  | setException
  | completeProducer
  | wait
  | await
  | completeConsumer
deriving DecidableEq

def ResultOp.apply (r : ResultState α) : ResultOp α → ResultState α
  | setResult a => r.setResult a
  | setException => r.setException
  | completeProducer => r.completeProducer.2
  | wait => r.wait
  | await => r.await.2
  | completeConsumer => r.completeConsumer

/-- The operation that a call stands for. -/
def ConsumerOp.op : ConsumerOp → List (ResultOp α)
  | wait | get => [.wait]
  | await | resolve => [.await]
  | waitFor => []
  | drop => [.completeConsumer]

namespace ResultCell

/-- The operation of the consumer that its next step completes. A load completes the call if the
producer is done. -/
def commit (s : ResultCell α) : List (ResultOp α) :=
  match s.consumer with
  | .loadWait _ => if s.state.pcState = .producerDone then [.wait] else []
  | .casWait _ => [.wait]
  | .loadAwait _ => if s.state.pcState = .producerDone then [.await] else []
  | .casAwait _ => [.await]
  | .loadDrop => if s.state.pcState = .producerDone then [.completeConsumer] else []
  | .exchangeDrop => [.completeConsumer]
  | _ => []

/-- The operation that takes place at a step. -/
def ops (s : ResultCell α) : ResultLabel α → List (ResultOp α)
  | .set (some a) => [.setResult a]
  | .set none => [.setException]
  | .publish => [.completeProducer]
  | .next => s.commit
  | .wake | .release | .call _ | .wakeSpuriously | .timeOut => []

/-- The state as `ResultState` has it: `complete_consumer` leaves it done. -/
def atomic (s : ResultCell α) : ResultState α :=
  if s.consumer = .delete ∨ s.consumer = .ended then { s.state with pcState := .producerDone }
  else s.state

end ResultCell

/-- The operation of the call that the consumer is in, until it has taken place. -/
def ConsumerPhase.pending : ConsumerPhase → List (ResultOp α)
  | loadWait _ | casWait _ => [.wait]
  | loadAwait _ | setAwait _ | casAwait _ => [.await]
  | loadDrop | exchangeDrop => [.completeConsumer]
  | _ => []

/-- The operation that the consumer has called for. -/
def ResultLabel.called : ResultLabel α → List (ResultOp α)
  | call op => op.op
  | _ => []

/-- The operation of the consumer that takes place. -/
def ResultCell.consumerOps (s : ResultCell α) : ResultLabel α → List (ResultOp α)
  | .next => s.commit
  | _ => []

/-- The consumer is not in `wait_for`. -/
def Untimed : ConsumerPhase → Prop
  | .loadWaitFor | .setWaitFor | .casWaitFor | .acquire | .rewind | .clear => False
  | _ => True

namespace ResultRefinementLemmas

open ResultLifetimeLemmas

variable {s s' : ResultCell α} {l : ResultLabel α}

/-! ### Phases -/

theorem untimed_phase (k : After) : Untimed k.phase := by
  cases k <;> trivial

theorem pending_phase (k : After) : k.phase.pending = ([] : List (ResultOp α)) := by
  cases k <;> rfl

theorem pending_enter (op : ConsumerOp) : op.enter.pending = (op.op : List (ResultOp α)) := by
  cases op <;> rfl

theorem not_freeing_phase (k : After) : ¬ Freeing k.phase := by
  cases k <;> simp [Freeing, After.phase]

theorem not_freeing_enter (op : ConsumerOp) : ¬ Freeing op.enter := by
  cases op <;> simp [Freeing, ConsumerOp.enter]

theorem untimed_of_loads {c d o : ConsumerPhase} (h : Loads c d o) (hc : Untimed c) :
    Untimed d ∧ Untimed o := by
  cases h with
  | wait | spin | await => exact ⟨untimed_phase _, trivial⟩
  | drop => exact ⟨trivial, trivial⟩
  | waitFor => exact hc.elim

theorem untimed_of_swaps {c w o : ConsumerPhase} {p q : PcState} (h : Swaps c p q w o)
    (hc : Untimed c) : Untimed w ∧ Untimed o := by
  cases h with
  | wait | await => exact ⟨trivial, untimed_phase _⟩
  | waitFor | rewind => exact hc.elim

theorem untimed_step (h : Untimed s.consumer) (hcall : l ≠ .call .waitFor)
    (hm : ResultMoves s l s') : Untimed s'.consumer := by
  cases hm with
  | resume => exact untimed_phase _
  | @call op =>
    cases op with
    | waitFor => exact absurd rfl hcall
    | _ => trivial
  | loadDone hloads => exact (untimed_of_loads hloads h).1
  | loadOther hloads => exact (untimed_of_loads hloads h).2
  | swap hswaps => exact (untimed_of_swaps hswaps h).1
  | noSwap hswaps => exact (untimed_of_swaps hswaps h).2
  | acquire hconsumer | clear hconsumer | timeOut hconsumer | setWaitFor hconsumer =>
    rw [hconsumer] at h
    exact h.elim
  | setResult | setException | publish | publishFound | wakeNone | copySemaphore | notifyNone
  | free | release => exact h
  | _ => trivial

/-! ### States -/

theorem atomic_eq (h : ¬ Freeing s.consumer) : s.atomic = s.state :=
  if_neg h

theorem atomic_freeing (h : Freeing s.consumer) :
    s.atomic = { s.state with pcState := .producerDone } :=
  if_pos h

/-- Before the producer has published, the consumer has not freed the state. -/
theorem not_freeing_of_open (h : CellOk s) (hopen : s.producer.published = false) :
    ¬ Freeing s.consumer := fun hfreeing => by
  rw [take_published h (.inr hfreeing)] at hopen
  cases hopen

/-! ### Steps -/

/-- A load that finds the producer done completes the call, and changes nothing. -/
theorem commit_loadDone {c d o : ConsumerPhase} (hconsumer : s.consumer = c) (h : Loads c d o)
    (hdone : s.state.pcState = .producerDone) :
    c.pending = s.commit ++ d.pending ∧ s.commit.foldl ResultOp.apply s.state = s.state := by
  unfold ResultCell.commit
  rw [hconsumer, hdone]
  cases h with
  | @wait k => exact ⟨by rw [pending_phase]; rfl, by simp [ResultOp.apply, ResultState.wait, hdone]⟩
  | @spin k => exact ⟨by rw [pending_phase]; rfl, rfl⟩
  | @await k =>
    exact ⟨by rw [pending_phase]; rfl, by simp [ResultOp.apply, ResultState.await, hdone]⟩
  | waitFor => exact ⟨rfl, rfl⟩
  | drop => exact ⟨rfl, by simp [ResultOp.apply, ResultState.completeConsumer, hdone]⟩

theorem commit_loadOther {c d o : ConsumerPhase} (hconsumer : s.consumer = c) (h : Loads c d o)
    (hdone : s.state.pcState ≠ .producerDone) :
    s.commit = [] ∧ (c.pending : List (ResultOp α)) = o.pending ∧ ¬ Freeing o := by
  unfold ResultCell.commit
  rw [hconsumer]
  cases h with
  | wait | await | drop => exact ⟨by simp [hdone], rfl, by simp [Freeing]⟩
  | spin | waitFor => exact ⟨rfl, rfl, by simp [Freeing]⟩

/-- A `compare_exchange` that succeeds is the operation. -/
theorem commit_swap {c w o : ConsumerPhase} {p q : PcState} (hconsumer : s.consumer = c)
    (h : Swaps c p q w o) (hc : Untimed c) (hp : s.state.pcState = p) :
    c.pending = s.commit ++ w.pending ∧ ¬ Freeing w ∧
      s.commit.foldl ResultOp.apply s.state = { s.state with pcState := q } := by
  unfold ResultCell.commit
  rw [hconsumer]
  cases h with
  | wait => exact ⟨rfl, by simp [Freeing], by simp [ResultOp.apply, ResultState.wait, hp]⟩
  | await => exact ⟨rfl, by simp [Freeing], by simp [ResultOp.apply, ResultState.await, hp]⟩
  | waitFor | rewind => exact hc.elim

/-- One that fails is the operation, too: the producer was faster. -/
theorem commit_noSwap {c w o : ConsumerPhase} {p q : PcState} (hconsumer : s.consumer = c)
    (h : Swaps c p q w o) (hc : Untimed c) (hp : s.state.pcState ≠ p) :
    c.pending = s.commit ++ o.pending ∧ ¬ Freeing o ∧
      s.commit.foldl ResultOp.apply s.state = s.state := by
  unfold ResultCell.commit
  rw [hconsumer]
  cases h with
  | @wait k =>
    exact ⟨by rw [pending_phase]; rfl, not_freeing_phase k,
      by simp [ResultOp.apply, ResultState.wait, hp]⟩
  | @await k =>
    exact ⟨by rw [pending_phase]; rfl, not_freeing_phase k,
      by simp [ResultOp.apply, ResultState.await, hp]⟩
  | waitFor | rewind => exact hc.elim

/-- The operation of a step, applied to the state before it, is the state after it. -/
theorem ops_step (h : CellOk s) (huntimed : Untimed s.consumer) (hm : ResultMoves s l s') :
    s'.atomic = (s.ops l).foldl ResultOp.apply s.atomic := by
  cases hm with
  | setResult hproducer | setException hproducer =>
    have hfreeing := not_freeing_of_open h (by rw [hproducer]; rfl)
    rw [atomic_eq hfreeing]
    exact atomic_eq hfreeing
  | publish hproducer | publishFound hproducer =>
    have hfreeing := not_freeing_of_open h (by rw [hproducer]; rfl)
    rw [atomic_eq hfreeing]
    exact atomic_eq hfreeing
  | wakeNone | copySemaphore | notifyNone | free | release => rfl
  | @resume k _ _ hconsumer =>
    rw [atomic_eq (s := s) (by simp [hconsumer, Freeing])]
    exact atomic_eq (not_freeing_phase k)
  | notify _ hconsumer =>
    rw [atomic_eq (s := s) (by simp [hconsumer, Freeing])]
    exact atomic_eq (by simp [Freeing])
  | @call op hconsumer =>
    rw [atomic_eq (s := s) (by simp [hconsumer, Freeing])]
    exact atomic_eq (not_freeing_enter op)
  | @loadDone done other hloads hdone =>
    rw [atomic_eq (not_freeing_of_loads hloads)]
    refine Eq.trans ?_ (commit_loadDone rfl hloads hdone).2.symm
    by_cases hfreeing : Freeing done
    · rw [atomic_freeing (s := s.goTo done) hfreeing]
      exact congrArg (ResultState.mk · _) hdone.symm
    · exact atomic_eq hfreeing
  | loadOther hloads hdone =>
    obtain ⟨hcommit, -, hfreeing⟩ := commit_loadOther rfl hloads hdone
    rw [atomic_eq (not_freeing_of_loads hloads), ResultCell.ops, hcommit]
    exact atomic_eq hfreeing
  | swap hswaps hp =>
    obtain ⟨-, hfreeing, hstate⟩ := commit_swap rfl hswaps huntimed hp
    rw [atomic_eq (not_freeing_of_swaps hswaps).1, ResultCell.ops, hstate]
    exact atomic_eq hfreeing
  | noSwap hswaps hp =>
    obtain ⟨-, hfreeing, hstate⟩ := commit_noSwap rfl hswaps huntimed hp
    rw [atomic_eq (not_freeing_of_swaps hswaps).1, ResultCell.ops, hstate]
    exact atomic_eq hfreeing
  | block hconsumer | unblocked hconsumer | setAwait hconsumer | setWaitFor hconsumer
  | acquire hconsumer | clear hconsumer =>
    rw [atomic_eq (s := s) (by simp [hconsumer, Freeing]), ResultCell.ops, ResultCell.commit,
      hconsumer]
    exact atomic_eq (by simp [Freeing, ResultCell.goTo])
  | wakeSpuriously hconsumer | timeOut hconsumer =>
    rw [atomic_eq (s := s) (by simp [hconsumer, Freeing])]
    exact atomic_eq (by simp [Freeing, ResultCell.goTo])
  | dropLast hconsumer hdone =>
    rw [atomic_eq (s := s) (by simp [hconsumer, Freeing]), ResultCell.ops, ResultCell.commit,
      hconsumer]
    refine (atomic_freeing (.inl rfl)).trans ?_
    simp only [List.foldl, ResultOp.apply, ResultState.completeConsumer, hdone, if_true]
    exact congrArg (ResultState.mk · _) hdone.symm
  | dropFirst hconsumer hdone =>
    rw [atomic_eq (s := s) (by simp [hconsumer, Freeing]), ResultCell.ops, ResultCell.commit,
      hconsumer]
    refine (atomic_eq (by simp [Freeing, ResultCell.goTo])).trans ?_
    simp [ResultCell.goTo, ResultCell.setPcState, ResultOp.apply, ResultState.completeConsumer,
      hdone]
  | take hconsumer =>
    have hdone := (h.done (take_published h (.inl hconsumer))).resolve_right
      (by simp [Freeing, hconsumer])
    rw [atomic_eq (s := s) (by simp [hconsumer, Freeing]), ResultCell.ops, ResultCell.commit,
      hconsumer]
    refine (atomic_freeing (.inl rfl)).trans ?_
    exact congrArg (ResultState.mk · _) hdone.symm
  | delete hconsumer =>
    rw [atomic_freeing (s := s) (.inl hconsumer), ResultCell.ops, ResultCell.commit, hconsumer]
    exact atomic_freeing (.inr rfl)

/-- What the consumer has called for takes place or is pending. -/
theorem pending_step (huntimed : Untimed s.consumer) (hm : ResultMoves s l s') :
    s.consumer.pending ++ l.called = s.consumerOps l ++ s'.consumer.pending := by
  cases hm with
  | setResult | setException | publish | publishFound | wakeNone | copySemaphore | notifyNone
  | free | release => exact List.append_nil _
  | @resume k _ _ hconsumer =>
    rw [hconsumer]
    exact (pending_phase k).symm
  | notify _ hconsumer =>
    rw [hconsumer]
    rfl
  | @call op hconsumer =>
    rw [hconsumer]
    exact (pending_enter op).symm
  | loadDone hloads hdone =>
    exact (List.append_nil _).trans (commit_loadDone rfl hloads hdone).1
  | loadOther hloads hdone =>
    obtain ⟨hcommit, hpending, -⟩ := commit_loadOther rfl hloads hdone
    rw [ResultCell.consumerOps, hcommit]
    exact (List.append_nil _).trans hpending
  | swap hswaps hp => exact (List.append_nil _).trans (commit_swap rfl hswaps huntimed hp).1
  | noSwap hswaps hp => exact (List.append_nil _).trans (commit_noSwap rfl hswaps huntimed hp).1
  | block hconsumer | unblocked hconsumer | setAwait hconsumer | setWaitFor hconsumer
  | acquire hconsumer | clear hconsumer | dropLast hconsumer | dropFirst hconsumer
  | take hconsumer | delete hconsumer =>
    rw [ResultCell.consumerOps, ResultCell.commit, hconsumer]
    rfl
  | wakeSpuriously hconsumer | timeOut hconsumer =>
    rw [hconsumer]
    rfl

/-- The producer finds what `complete_producer` returns. -/
theorem found_step (h : CellOk s) (hm : ResultMoves s .publish s') :
    s'.producer = if s.atomic.completeProducer.1 = .idle then .ended
      else .wake s.atomic.completeProducer.1 := by
  cases hm with
  | publish hproducer hidle =>
    rw [atomic_eq (not_freeing_of_open h (by rw [hproducer]; rfl))]
    exact (if_pos hidle).symm
  | publishFound hproducer hfound =>
    rw [atomic_eq (not_freeing_of_open h (by rw [hproducer]; rfl))]
    exact (if_neg hfound).symm

theorem commit_await (h : s.commit = [.await]) :
    (∃ k, s.consumer = .loadAwait k ∧ s.state.pcState = .producerDone) ∨
      ∃ k, s.consumer = .casAwait k := by
  unfold ResultCell.commit at h
  split at h
  · split at h <;> simp at h
  · simp at h
  · next k hconsumer =>
    split at h
    · next hdone => exact .inl ⟨k, hconsumer, hdone⟩
    · cases h
  · next k hconsumer => exact .inr ⟨k, hconsumer⟩
  · split at h <;> simp at h
  · simp at h
  · cases h

theorem commit_wait (h : s.commit = [.wait]) :
    (∃ k, s.consumer = .loadWait k ∧ s.state.pcState = .producerDone) ∨
      ∃ k, s.consumer = .casWait k := by
  unfold ResultCell.commit at h
  split at h
  · next k hconsumer =>
    split at h
    · next hdone => exact .inl ⟨k, hconsumer, hdone⟩
    · cases h
  · next k hconsumer => exact .inr ⟨k, hconsumer⟩
  · split at h <;> simp at h
  · simp at h
  · split at h <;> simp at h
  · simp at h
  · cases h

/-- The awaiting consumer is suspended if `await` says so. -/
theorem suspended_step (hcommit : s.commit = [.await]) (hstep : ResultSteps s .next s') :
    (∃ k, s'.consumer = .suspended k) ↔ s.atomic.await.1 = true := by
  simp only [ResultSteps, ResultCell.step, ResultCell.next] at hstep
  rcases commit_await hcommit with ⟨k, hconsumer, hdone⟩ | ⟨k, hconsumer⟩
  · rw [atomic_eq (by simp [hconsumer, Freeing])]
    simp only [hconsumer, ResultCell.load, hdone, if_true, Option.some.injEq] at hstep
    subst hstep
    cases k <;> simp [ResultCell.goTo, After.phase, ResultState.await, hdone]
  · rw [atomic_eq (by simp [hconsumer, Freeing])]
    simp only [hconsumer, ResultCell.cas, Option.some.injEq] at hstep
    subst hstep
    by_cases hidle : s.state.pcState = .idle
    · simp [ResultCell.goTo, ResultState.await, hidle]
    · cases k <;> simp [ResultCell.goTo, After.phase, ResultState.await, hidle]

/-- The waiting consumer has to block if the result is idle. -/
theorem blocks_step (hcommit : s.commit = [.wait]) (hstep : ResultSteps s .next s') :
    (∃ k, s'.consumer = .spin k) ↔ s.atomic.pcState = .idle := by
  simp only [ResultSteps, ResultCell.step, ResultCell.next] at hstep
  rcases commit_wait hcommit with ⟨k, hconsumer, hdone⟩ | ⟨k, hconsumer⟩
  · rw [atomic_eq (by simp [hconsumer, Freeing])]
    simp only [hconsumer, ResultCell.load, hdone, if_true, Option.some.injEq] at hstep
    subst hstep
    cases k <;> simp [ResultCell.goTo, After.phase, hdone]
  · rw [atomic_eq (by simp [hconsumer, Freeing])]
    simp only [hconsumer, ResultCell.cas, Option.some.injEq] at hstep
    subst hstep
    by_cases hidle : s.state.pcState = .idle
    · simp [ResultCell.goTo, hidle]
    · cases k <;> simp [ResultCell.goTo, After.phase, hidle]

end ResultRefinementLemmas

/-! ## Results -/

/-- What a call tells its caller is what the operation of `ResultState` returns. -/
structure Answers (s : ResultCell α) (l : ResultLabel α) (s' : ResultCell α) : Prop where
  found : l = .publish → s'.producer =
    if s.atomic.completeProducer.1 = .idle then .ended else .wake s.atomic.completeProducer.1
  suspends : s.consumerOps l = [.await] →
    ((∃ k, s'.consumer = .suspended k) ↔ s.atomic.await.1 = true)
  blocks : s.consumerOps l = [.wait] → ((∃ k, s'.consumer = .spin k) ↔ s.atomic.pcState = .idle)

section Results

variable {tr : List (ResultCell α × ResultLabel α × ResultCell α)} {s s' : ResultCell α}
  {l : ResultLabel α}

open ResultLifetimeLemmas ResultRefinementLemmas

theorem untimed_run (h : Run ResultSteps .init tr s)
    (hcalls : ∀ t ∈ tr, t.2.1 ≠ .call .waitFor) : Untimed s.consumer :=
  h.inv (I := fun r => Untimed r.consumer)
    (C := fun (_ : ResultCell α) (l : ResultLabel α) => l ≠ .call .waitFor)
    (show Untimed .holding from trivial) (fun hI hC hstep => untimed_step hI hC hstep.moves) hcalls

theorem answers_step (h : CellOk s) (hstep : ResultSteps s l s') : Answers s l s' where
  found := by
    rintro rfl
    exact found_step h hstep.moves
  suspends hcommit := by
    cases l with
    | next => exact suspended_step hcommit hstep
    | _ => cases hcommit
  blocks hcommit := by
    cases l with
    | next => exact blocks_step hcommit hstep
    | _ => cases hcommit

/-- In a run without `wait_for`, each call takes place at one of its steps, as the operation of
`ResultState`. -/
theorem atomic_calls (h : Run ResultSteps .init tr s) (hcalls : ∀ t ∈ tr, t.2.1 ≠ .call .waitFor) :
    s.atomic = (tr.flatMap fun t => t.1.ops t.2.1).foldl ResultOp.apply {} ∧
      (tr.flatMap fun t => t.2.1.called) =
        (tr.flatMap fun t => t.1.consumerOps t.2.1) ++ s.consumer.pending ∧
      ∀ t ∈ tr, Answers t.1 t.2.1 t.2.2 := by
  induction h with
  | nil => exact ⟨rfl, rfl, fun _ ht => absurd ht List.not_mem_nil⟩
  | @snoc tr s s' l hpre hstep ih =>
    have hpreCalls : ∀ t ∈ tr, t.2.1 ≠ .call .waitFor := fun t ht =>
      hcalls t (List.mem_append_left _ ht)
    obtain ⟨hatomic, hcalled, hanswers⟩ := ih hpreCalls
    have hok := cellOk_run hpre
    have hat := untimed_run hpre hpreCalls
    refine ⟨?_, ?_, fun t ht => ?_⟩
    · rw [ops_step hok hat hstep.moves, hatomic]
      simp [List.flatMap_append]
    · have hpending := pending_step hat hstep.moves
      simp only [List.flatMap_append, List.flatMap_cons, List.flatMap_nil, List.append_nil,
        hcalled]
      rw [List.append_assoc, hpending, List.append_assoc]
    · rcases List.mem_append.mp ht with ht | ht
      · exact hanswers t ht
      · rw [List.mem_singleton] at ht
        subst ht
        exact answers_step hok hstep

/-- The producer publishes between the two accesses of `complete_consumer`. -/
theorem atomic_calls_drop : ∃ tr s, Run ResultSteps (.init : ResultCell Nat) tr s ∧
    s.freed = 1 ∧ s.state.pcState = .consumerDone ∧
      s.atomic = [ResultOp.setResult 7, .completeProducer, .completeConsumer].foldl
        ResultOp.apply {} := by
  obtain ⟨tr, s, hrun, hlabels, hview⟩ := exists_run ResultCell.step (R := ResultSteps) id
    (.init : ResultCell Nat) [.set (some 7), .call .drop, .next, .publish, .next, .next]
    (fun r => (r.2.freed, r.2.state.pcState, r.1.flatMap fun t => t.1.ops t.2.1))
    (v := (1, .consumerDone, [.setResult 7, .completeProducer, .completeConsumer])) (by decide)
  obtain ⟨hfreed, hrest⟩ := Prod.mk.inj hview
  obtain ⟨hpcState, hops⟩ := Prod.mk.inj hrest
  have hcalls : ∀ t ∈ tr, t.2.1 ≠ .call .waitFor := fun t ht heq => by
    have hmem : t.2.1 ∈ tr.map (·.2.1) := List.mem_map_of_mem ht
    rw [hlabels, heq] at hmem
    simp at hmem
  refine ⟨tr, s, hrun, hfreed, hpcState, (atomic_calls hrun hcalls).1.trans ?_⟩
  exact congrArg (List.foldl ResultOp.apply {}) hops

end Results

end FlavoEngine.Engine

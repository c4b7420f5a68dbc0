import FlavoEngine.Engine.GameLoop

/-!
# Frames

What holds of the tasks and futures at each point of the game loop, in every run. `Loop` owes a task
from its submission to the await that finds its outer result complete. Once `Loop` is left by an
exception, it owes nothing and nothing is said about the tasks.

Results:
1. `framed`: a task in flight is one that the point of `Loop` owes, and a consumer is set only on
   the result on which `Loop` is suspended.
2. `awaited_complete`: `Loop` goes on after an await only with a complete result.
3. `no_assert_done`: an await finds its result untouched or complete, as `result_state` asserts.
-/

namespace FlavoEngine.Engine

open FlavoEngine.Lib
open MovesLemmas

namespace Point

/-- The future of kind `k` is in scope. -/
def live : Point → TaskKind → Bool
  | .submit .render, .game => true
  | .await _ _, _ | .suspended _ _, _ | .resume _ _, _ => true
  | .check _, _ | .sync, _ | .inSync, _ => true
  | _, _ => false

/-- The task of kind `k` of this frame may be in flight. -/
def owes : Point → TaskKind → Bool
  | .submit .render, .game => true
  | .await .game .outer, _ | .suspended .game _, _ => true
  | .await .game .inner, .render | .resume .game _, .render => true
  | .await .render .outer, .render | .suspended .render _, .render => true
  | _, _ => false

/-- `Loop` has taken the inner result of kind `k` out of the outer one. -/
def unwraps : Point → TaskKind → Bool
  | .await j .inner, k | .suspended j .inner, k | .resume j .inner, k => j == k
  | _, _ => false

/-- `Loop` is left. -/
def exited : Point → Bool
  | .leaving | .done => true
  | _ => false

theorem live_of_owes {p : Point} {k : TaskKind} (h : p.owes k = true) : p.live k = true := by
  unfold owes at h
  split at h <;> first | rfl | cases h

theorem live_of_unwraps {p : Point} {k : TaskKind} (h : p.unwraps k = true) : p.live k = true := by
  cases p with
  | await | suspended | resume => cases k <;> rfl
  | _ => cases h

end Point

/-- `Loop` was left by an exception. -/
def State.failed (s : State) : Prop :=
  s.result.producer = .exception

/-- The result of `Loop` is ready. -/
def State.ready (s : State) : Prop :=
  s.result.pcState = .producerDone

/-- Who is at the outer result of a submitted task. -/
def State.ConsumerOk (s : State) (t : Task) : Prop :=
  t.outer.pcState = .idle ∨ t.outer.pcState = .producerDone ∨
    (t.outer.pcState = .consumerSet ∧ s.point = .suspended t.kind .outer) ∨
    (t.outer.pcState = .consumerDone ∧ s.failed)

/-- The tasks and futures at the point of `Loop`. -/
structure Framed (s : State) : Prop where
  sound : ∀ (i : Nat) (t : Task), s.tasks[i]? = some t → t.Sound
  held : ∀ k, s.point.live k = true → ∃ i t, s.awaited k = some (i, t) ∧ t.kind = k
  unwrapped : ∀ (k : TaskKind) (i : Nat) (t : Task), s.point.unwraps k = true →
    s.awaited k = some (i, t) → t.outer.producer = .value ()
  consumer : ∀ (i : Nat) (t : Task), s.tasks[i]? = some t → s.ConsumerOk t
  settled : ∀ (i : Nat) (t : Task), s.tasks[i]? = some t → t.complete = false →
    (s.point.owes t.kind = true ∧ s.future t.kind = some i) ∨ s.failed
  running : s.point.exited = false → ¬ s.failed

namespace FramedLemmas

variable {s s' : State}

theorem getElem?_set_cases {l : List Task} {i j : Nat} {t u : Task}
    (h : (l.set i t)[j]? = some u) : (j = i ∧ u = t) ∨ (j ≠ i ∧ l[j]? = some u) := by
  rw [List.getElem?_set] at h
  split at h
  · next heq =>
    split at h
    · cases h
      exact .inl ⟨heq.symm, rfl⟩
    · cases h
  · next hne => exact .inr ⟨Ne.symm hne, h⟩

/-- The consumer of a result is `Loop`, suspended on it. -/
theorem suspended_of_consumer (h : Framed s) {i : Nat} {t : Task} (ht : s.tasks[i]? = some t)
    (hset : t.outer.pcState = .consumerSet) : s.point = .suspended t.kind .outer := by
  have hconsumer := h.consumer i t ht
  unfold State.ConsumerOk at hconsumer
  rw [hset] at hconsumer
  simpa using hconsumer

/-- Nobody waits for a task unless `Loop` is suspended. -/
theorem no_consumer (h : Framed s) (hpoint : ∀ k l, s.point ≠ .suspended k l) {i : Nat} {t : Task}
    (ht : s.tasks[i]? = some t) : t.outer.pcState ≠ .consumerSet :=
  fun hset => hpoint _ _ (suspended_of_consumer h ht hset)

/-- The parts of the state that the frame is about are unchanged. -/
theorem framed_congr (h : Framed s) (htasks : s'.tasks = s.tasks) (hpoint : s'.point = s.point)
    (hfuture : ∀ k, s'.future k = s.future k) (hfailed : s'.failed ↔ s.failed) : Framed s' := by
  have hawaited : ∀ k, s'.awaited k = s.awaited k := by
    intro k
    unfold State.awaited
    rw [hfuture, htasks]
  constructor
  · intro i t ht
    exact h.sound i t (htasks ▸ ht)
  · intro k hk
    rw [hawaited]
    exact h.held k (hpoint ▸ hk)
  · intro k i t hk ht
    exact h.unwrapped k i t (hpoint ▸ hk) (hawaited k ▸ ht)
  · intro i t ht
    unfold State.ConsumerOk
    rw [hpoint, hfailed]
    exact h.consumer i t (htasks ▸ ht)
  · intro i t ht hc
    rw [hpoint, hfuture, hfailed]
    exact h.settled i t (htasks ▸ ht) hc
  · rw [hpoint, hfailed]
    exact h.running

/-- `Loop` moves on, and the tasks stay as they are. -/
theorem framed_advance (h : Framed s) (htasks : s'.tasks = s.tasks)
    (hfailed : s.failed → s'.failed)
    (hconsumer : ∀ (i : Nat) (t : Task), s.tasks[i]? = some t → t.outer.pcState ≠ .consumerSet)
    (hlive : ∀ k, s'.point.live k = true → s.point.live k = true)
    (hfuture : ∀ k, s'.point.live k = true → s'.future k = s.future k)
    (hunwraps : ∀ (k : TaskKind) (i : Nat) (t : Task), s'.point.unwraps k = true →
      s.awaited k = some (i, t) → t.outer.producer = .value ())
    (howes : ∀ (i : Nat) (t : Task), s.awaited t.kind = some (i, t) → t.complete = false →
      s.point.owes t.kind = true → s'.point.owes t.kind = true)
    (hrunning : s'.point.exited = false → ¬ s'.failed) : Framed s' := by
  have hawaited : ∀ k, s'.point.live k = true → s'.awaited k = s.awaited k := by
    intro k hk
    unfold State.awaited
    rw [hfuture k hk, htasks]
  constructor
  · intro i t ht
    exact h.sound i t (htasks ▸ ht)
  · intro k hk
    rw [hawaited k hk]
    exact h.held k (hlive k hk)
  · intro k i t hk ht
    rw [hawaited k (Point.live_of_unwraps hk)] at ht
    exact hunwraps k i t hk ht
  · intro i t ht
    rw [htasks] at ht
    rcases h.consumer i t ht with hpc | hpc | ⟨hpc, _⟩ | ⟨hpc, hf⟩
    · exact .inl hpc
    · exact .inr (.inl hpc)
    · exact absurd hpc (hconsumer i t ht)
    · exact .inr (.inr (.inr ⟨hpc, hfailed hf⟩))
  · intro i t ht hc
    rw [htasks] at ht
    rcases h.settled i t ht hc with ⟨ho, hf⟩ | hf
    · have ho' := howes i t (awaited_eq_some.mpr ⟨hf, ht⟩) hc ho
      exact .inl ⟨ho', (hfuture _ (Point.live_of_owes ho')).trans hf⟩
    · exact .inr (hfailed hf)
  · exact hrunning

/-- One task goes on, and `Loop` stays where it is. -/
theorem framed_update (h : Framed s) {i : Nat} {t t' : Task} (ht : s.tasks[i]? = some t)
    (hsound : t'.Sound) (hkind : t'.kind = t.kind) (hconsumer : s.ConsumerOk t')
    (hcomplete : t'.complete = false → t.complete = false)
    (hvalue : t.outer.producer = .value () → t'.outer.producer = .value ()) :
    Framed (s.setTask i t') := by
  have hi : i < s.tasks.length := (List.getElem?_eq_some_iff.mp ht).1
  constructor
  · intro j u hu
    rcases getElem?_set_cases hu with ⟨_, rfl⟩ | ⟨_, hu⟩
    · exact hsound
    · exact h.sound j u hu
  · intro k hk
    obtain ⟨j, u, hu, hkindu⟩ := h.held k hk
    obtain ⟨hf, hu⟩ := awaited_eq_some.mp hu
    by_cases hj : i = j
    · subst hj
      rw [hu, Option.some.injEq] at ht
      subst ht
      exact ⟨i, t', awaited_eq_some.mpr ⟨hf, by simp [State.setTask, hi]⟩, hkind.trans hkindu⟩
    · refine ⟨j, u, awaited_eq_some.mpr ⟨hf, ?_⟩, hkindu⟩
      show (s.tasks.set i t')[j]? = some u
      rw [List.getElem?_set_ne hj]
      exact hu
  · intro k j u hk hu
    obtain ⟨hf, hu⟩ := awaited_eq_some.mp hu
    rcases getElem?_set_cases hu with ⟨rfl, rfl⟩ | ⟨_, hu⟩
    · exact hvalue (h.unwrapped k j t hk (awaited_eq_some.mpr ⟨hf, ht⟩))
    · exact h.unwrapped k j u hk (awaited_eq_some.mpr ⟨hf, hu⟩)
  · intro j u hu
    rcases getElem?_set_cases hu with ⟨_, rfl⟩ | ⟨_, hu⟩
    · exact hconsumer
    · exact h.consumer j u hu
  · intro j u hu hc
    rcases getElem?_set_cases hu with ⟨rfl, rfl⟩ | ⟨_, hu⟩
    · have hold := h.settled j t ht (hcomplete hc)
      rw [← hkind] at hold
      exact hold
    · exact h.settled j u hu hc
  · exact h.running

theorem getElem?_push_cases {l : List Task} {j : Nat} {t u : Task}
    (h : (l ++ [t])[j]? = some u) : (j = l.length ∧ u = t) ∨ l[j]? = some u := by
  rcases Nat.lt_trichotomy j l.length with hj | rfl | hj
  · rw [List.getElem?_append_left hj] at h
    exact .inr h
  · simp only [List.getElem?_concat_length, Option.some.injEq] at h
    exact .inl ⟨rfl, h.symm⟩
  · rw [List.getElem?_eq_none (by simp only [List.length_append, List.length_singleton]; omega)]
      at h
    cases h

theorem awaited_kind (h : Framed s) {k : TaskKind} (hlive : s.point.live k = true) {i : Nat}
    {t : Task} (ht : s.awaited k = some (i, t)) : t.kind = k := by
  obtain ⟨j, u, hu, hkind⟩ := h.held k hlive
  rw [ht] at hu
  cases hu
  exact hkind

/-- Unless an exception left `Loop`, a task that it does not owe is complete. -/
theorem complete_of_owes (h : Framed s) (hrun : ¬ s.failed) {i : Nat} {t : Task}
    (ht : s.tasks[i]? = some t) (howes : s.point.owes t.kind = false) : t.complete = true := by
  cases hc : t.complete with
  | true => rfl
  | false =>
    rcases h.settled i t ht hc with ⟨ho, _⟩ | hf
    · rw [howes] at ho
      cases ho
    · exact absurd hf hrun

/-- `Loop` goes on after an await with a complete task. -/
theorem complete_of_resume (h : Framed s) {k : TaskKind} {l : Level}
    (hpoint : s.point = .resume k l) :
    ∃ i t, s.awaited k = some (i, t) ∧ t.kind = k ∧ t.complete = true := by
  obtain ⟨i, t, ht, hkind⟩ := h.held k (by rw [hpoint]; rfl)
  refine ⟨i, t, ht, hkind, ?_⟩
  refine complete_of_owes h (h.running (by rw [hpoint]; rfl)) (awaited_eq_some.mp ht).2 ?_
  rw [hpoint, hkind]
  cases k <;> rfl

/-- The future that `submit` returned is the one of the new task. -/
theorem awaited_push_self (k : TaskKind) (t : Task) :
    (s.push k t).awaited k = some (s.tasks.length, t) := by
  refine awaited_eq_some.mpr ⟨by cases k <;> rfl, ?_⟩
  show (s.tasks ++ [t])[s.tasks.length]? = some t
  exact List.getElem?_concat_length

theorem awaited_push_of_ne {j k : TaskKind} (hne : j ≠ k) {t u : Task} {i : Nat}
    (hu : s.awaited j = some (i, u)) : (s.push k t).awaited j = some (i, u) := by
  obtain ⟨hf, hu⟩ := awaited_eq_some.mp hu
  refine awaited_eq_some.mpr ⟨?_, ?_⟩
  · rw [← hf]
    cases j <;> cases k <;> first | rfl | exact absurd rfl hne
  · show (s.tasks ++ [t])[i]? = some u
    rw [List.getElem?_append_left (List.getElem?_eq_some_iff.mp hu).1]
    exact hu

/-- `submit` returned a future. -/
theorem framed_push (h : Framed s) {k : TaskKind} (hpoint : s.point = .submit k) {t : Task}
    (hsound : t.Sound) (hkind : t.kind = k)
    (hpc : t.outer.pcState = .idle ∨ t.outer.pcState = .producerDone) : Framed (s.push k t) := by
  have hrun : ¬ s.failed := h.running (by rw [hpoint]; rfl)
  constructor
  · intro i u hu
    rcases getElem?_push_cases hu with ⟨_, rfl⟩ | hu
    · exact hsound
    · exact h.sound i u hu
  · intro j hj
    cases k with
    | game =>
      cases j with
      | game => exact ⟨_, t, awaited_push_self .game t, hkind⟩
      | render => cases hj
    | render =>
      cases j with
      | game =>
        obtain ⟨i, u, hu, hku⟩ := h.held .game (by rw [hpoint]; rfl)
        exact ⟨i, u, awaited_push_of_ne (j := .game) (k := .render) nofun hu, hku⟩
      | render => exact ⟨_, t, awaited_push_self .render t, hkind⟩
  · intro j i u hj
    cases k <;> cases hj
  · intro i u hu
    rcases getElem?_push_cases hu with ⟨_, rfl⟩ | hu
    · rcases hpc with hpc | hpc
      · exact .inl hpc
      · exact .inr (.inl hpc)
    · rcases h.consumer i u hu with hpc | hpc | ⟨_, hs⟩ | ⟨_, hf⟩
      · exact .inl hpc
      · exact .inr (.inl hpc)
      · rw [hpoint] at hs
        cases hs
      · exact absurd hf hrun
  · intro i u hu hc
    rcases getElem?_push_cases hu with ⟨rfl, rfl⟩ | hu
    · refine .inl ?_
      rw [hkind]
      cases k <;> exact ⟨rfl, rfl⟩
    · rcases h.settled i u hu hc with ⟨ho, hf⟩ | hf
      · rw [hpoint] at ho
        cases k with
        | game => cases ho
        | render =>
          cases hku : u.kind with
          | game =>
            rw [hku] at hf
            exact .inl ⟨rfl, hf⟩
          | render =>
            rw [hku] at ho
            cases ho
      · exact absurd hf hrun
  · intro _
    cases k <;> exact hrun

/-- What the destruction of the locals does to the tasks. -/
theorem unwind_tasks {j : Nat} {u : Task} (h : s.unwind.tasks[j]? = some u) :
    ∃ t, s.tasks[j]? = some t ∧ (u = t ∨ u = t.drop) := by
  unfold State.unwind at h
  dsimp only at h
  split at h
  · exact ⟨u, h, .inl rfl⟩
  · unfold State.dropFuture at h
    split at h
    · exact ⟨u, h, .inl rfl⟩
    · next i t hawaited =>
      have ht := (awaited_eq_some.mp hawaited).2
      rcases getElem?_set_cases h with ⟨rfl, rfl⟩ | ⟨_, h⟩
      · exact ⟨t, ht, .inr rfl⟩
      · exact ⟨u, h, .inl rfl⟩

/-- What a submission or an exception does not touch. -/
def SameThreads (s s' : State) : Prop :=
  s'.winMain = s.winMain ∧ s'.window = s.window ∧ s'.carrier = s.carrier ∧ s'.queues = s.queues

theorem sameThreads_push (k : TaskKind) (t : Task) : SameThreads s (s.push k t) := by
  cases k <;> exact ⟨rfl, rfl, rfl, rfl⟩

theorem sameThreads_unwind : SameThreads s s.unwind := by
  unfold State.unwind State.dropFuture
  dsimp only
  split
  · exact ⟨rfl, rfl, rfl, rfl⟩
  · split <;> exact ⟨rfl, rfl, rfl, rfl⟩

theorem ready_unwind : s.unwind.ready ↔ s.ready := by
  unfold State.unwind State.dropFuture
  dsimp only
  split
  · exact Iff.rfl
  · split <;> exact Iff.rfl

/-- An exception leaves `Loop`. -/
theorem framed_unwind (h : Framed s) (hpoint : ∀ k l, s.point ≠ .suspended k l) :
    Framed s.unwind := by
  have hfailed : s.unwind.failed := rfl
  have hkeep : ∀ (i : Nat) (t : Task), s.tasks[i]? = some t → s.unwind.ConsumerOk t := by
    intro i t ht
    rcases h.consumer i t ht with hpc | hpc | ⟨_, hs⟩ | ⟨hpc, _⟩
    · exact .inl hpc
    · exact .inr (.inl hpc)
    · exact absurd hs (hpoint _ _)
    · exact .inr (.inr (.inr ⟨hpc, hfailed⟩))
  constructor
  · intro i u hu
    obtain ⟨t, ht, rfl | rfl⟩ := unwind_tasks hu
    · exact h.sound i u ht
    · exact (h.sound i t ht).drop
  · exact fun k hk => (nomatch hk)
  · exact fun k i t hk => (nomatch hk)
  · intro i u hu
    obtain ⟨t, ht, rfl | rfl⟩ := unwind_tasks hu
    · exact hkeep i u ht
    · unfold State.ConsumerOk Task.drop ResultState.completeConsumer
      split
      · next hdone => exact .inr (.inl hdone)
      · exact .inr (.inr (.inr ⟨rfl, hfailed⟩))
  · exact fun _ _ _ _ => .inr hfailed
  · exact fun hexited => (nomatch hexited)

/-- An await that suspends is on an outer result: an inner one is complete. -/
theorem outer_of_idle (h : Framed s) {k : TaskKind} {l : Level} {i : Nat} {t : Task}
    (hpoint : s.point = .await k l) (ht : s.awaited k = some (i, t)) (hidle : t.pcState l = .idle) :
    l = .outer := by
  cases l with
  | outer => rfl
  | inner =>
    have hvalue := h.unwrapped k i t (by rw [hpoint]; simp [Point.unwraps]) ht
    have hdone := ((h.sound i t (awaited_eq_some.mp ht).2).returned hvalue).1
    rw [show t.pcState .inner = t.inner.pcState from rfl, hdone] at hidle
    cases hidle

/-- `Loop` suspends at an await. -/
theorem framed_suspend (h : Framed s) {k : TaskKind} {l : Level} {i : Nat} {t : Task}
    (hpoint : s.point = .await k l) (ht : s.awaited k = some (i, t)) (hidle : t.pcState l = .idle) :
    Framed { s.setTask i (t.await l).2 with point := .suspended k l, carrier := none } := by
  have hi := (awaited_eq_some.mp ht).2
  have hrun : ¬ s.failed := h.running (by rw [hpoint]; rfl)
  have hkind : t.kind = k := awaited_kind h (by rw [hpoint]; rfl) ht
  obtain rfl := outer_of_idle h hpoint ht hidle
  have hpc : (t.await .outer).2.outer.pcState = .consumerSet := by
    have : t.outer.pcState = .idle := hidle
    simp [Task.await, ResultState.await, this]
  have hmoved : Framed { s with point := .suspended k .outer, carrier := none } := by
    refine framed_advance h rfl id (fun j u hu => no_consumer h (by simp [hpoint]) hu)
      (fun j _ => by rw [hpoint]; rfl) (fun _ _ => rfl) (fun j _ _ hj => Bool.noConfusion hj) ?_
      (fun _ => hrun)
    intro j u _ _ howes
    rw [hpoint] at howes
    revert howes
    cases k <;> cases u.kind <;> exact id
  refine framed_update hmoved hi (h.sound i t hi).await_outer rfl
    (.inr (.inr (.inl ⟨hpc, ?_⟩))) ?_ ?_
  · show Point.suspended k .outer = .suspended t.kind .outer
    rw [hkind]
  · intro _
    have hne : t.outer.pcState ≠ .producerDone := by
      rw [show t.outer.pcState = .idle from hidle]
      decide
    simp [Task.complete, hne]
  · intro hvalue
    simp only [Task.await, ResultState.await]
    split <;> exact hvalue

/-- The worker that completes the awaited result resumes `Loop`. -/
theorem framed_wake (h : Framed s) {w i : Nat} {t t' : Task} {k : TaskKind} {l : Level}
    (ht : s.tasks[i]? = some t) (hp : t.publish w = some (.consumerSet, t'))
    (hpoint : s.point = .suspended k l) :
    Framed { s.setTask i t' with point := .resume k l, carrier := some (.worker w) } := by
  have hsound' := (h.sound i t ht).publish hp
  obtain ⟨hcalled, hset, rfl⟩ := Task.publish_eq hp
  have hrun : ¬ s.failed := h.running (by rw [hpoint]; rfl)
  have hcomplete := hsound'.complete_iff.mpr rfl
  have hopen : ∀ (j : Nat) (u : Task), s.tasks[j]? = some u → u.complete = false →
      s.future u.kind = some j := by
    intro j u hu hc
    rcases h.settled j u hu hc with ⟨_, hf⟩ | hf
    · exact hf
    · exact absurd hf hrun
  have hfuture : s.future t.kind = some i := by
    refine hopen i t ht (Bool.eq_false_iff.mpr fun hc => ?_)
    rw [(h.sound i t ht).complete_iff, hcalled] at hc
    cases hc
  have hawaited := suspended_of_consumer h ht hset.symm
  rw [hpoint, Point.suspended.injEq] at hawaited
  obtain ⟨rfl, rfl⟩ := hawaited
  have hpublished := framed_update h ht hsound' rfl (.inr (.inl rfl))
    (fun hc => by rw [hcomplete] at hc; cases hc) id
  refine framed_advance hpublished rfl id ?_ (fun j _ => ?_) (fun _ _ => rfl)
    (fun j _ _ hj => (nomatch hj)) ?_ (fun _ => hrun)
  · intro j u hu hpc
    -- Another task with a consumer would be the awaited one, which is `i`.
    rcases getElem?_set_cases hu with ⟨_, rfl⟩ | ⟨hj, hu⟩
    · cases hpc
    · have hs := suspended_of_consumer h hu hpc
      rw [hpoint, Point.suspended.injEq] at hs
      have hju := hopen j u hu (by simp [Task.complete, hpc])
      rw [← hs.1, hfuture, Option.some.injEq] at hju
      exact hj hju.symm
  · show s.point.live j = true
    rw [hpoint]
    rfl
  · intro j u hu hc howes
    obtain ⟨hf, hu⟩ := awaited_eq_some.mp hu
    rcases getElem?_set_cases hu with ⟨_, rfl⟩ | ⟨hj, _⟩
    · rw [hcomplete] at hc
      cases hc
    · have hother : u.kind ≠ t.kind := by
        intro heq
        have hf' : s.future u.kind = some j := hf
        rw [heq, hfuture, Option.some.injEq] at hf'
        exact hj hf'.symm
      have howes' : s.point.owes u.kind = true := howes
      rw [hpoint] at howes'
      show (Point.resume t.kind .outer).owes u.kind = true
      revert howes' hother
      cases t.kind <;> cases u.kind <;> simp [Point.owes]

/-- `Loop` finds an awaited result complete. -/
theorem framed_ready (h : Framed s) {k : TaskKind} {l : Level} {i : Nat} {t : Task}
    (hpoint : s.point = .await k l) (ht : s.awaited k = some (i, t))
    (hready : t.pcState l ≠ .idle) : Framed { s with point := .resume k l } := by
  have hi := (awaited_eq_some.mp ht).2
  have hrun : ¬ s.failed := h.running (by rw [hpoint]; rfl)
  have hnone := fun j u hu => no_consumer h (i := j) (t := u) (by simp [hpoint]) hu
  have hkind : t.kind = k := awaited_kind h (by rw [hpoint]; rfl) ht
  have hcomplete : l = .outer → t.complete = true := by
    rintro rfl
    rcases h.consumer i t hi with hpc | hpc | ⟨hpc, _⟩ | ⟨_, hf⟩
    · exact absurd hpc hready
    · exact (h.sound i t hi).complete_iff.mpr ((h.sound i t hi).published.mp hpc)
    · exact absurd hpc (hnone i t hi)
    · exact absurd hf hrun
  refine framed_advance h rfl id hnone (fun j _ => by rw [hpoint]; rfl) (fun _ _ => rfl) ?_ ?_
    (fun _ => hrun)
  · intro j i u hj hu
    refine h.unwrapped j i u ?_ hu
    rw [hpoint]
    cases l with
    | outer => cases hj
    | inner => exact hj
  · intro j u hu hc howes
    rw [hpoint] at howes
    have hother : l = .outer → u.kind ≠ k := by
      rintro hl heq
      rw [heq, ht] at hu
      cases hu
      rw [hcomplete hl] at hc
      cases hc
    revert howes hother
    cases l <;> cases k <;> cases u.kind <;> simp [Point.owes]

/-- `Loop` goes to a point where it owes less and has no inner result in hand. -/
theorem framed_move (h : Framed s) (htasks : s'.tasks = s.tasks)
    (hexited : s.point.exited = false) (hrun : s'.point.exited = false → ¬ s'.failed)
    (hpoint : ∀ k l, s.point ≠ .suspended k l)
    (hlive : ∀ k, s'.point.live k = true → s.point.live k = true)
    (hfuture : ∀ k, s'.point.live k = true → s'.future k = s.future k)
    (hunwraps : ∀ k, s'.point.unwraps k = false)
    (howes : ∀ k, s.point.owes k = true → s'.point.owes k = true) : Framed s' :=
  framed_advance h htasks (fun hf => absurd hf (h.running hexited))
    (fun _ _ ht => no_consumer h hpoint ht) hlive hfuture
    (fun k _ _ hk => by rw [hunwraps k] at hk; cases hk) (fun _ _ _ _ => howes _) hrun

/-- `Loop` goes to a point where it owes nothing and has no future, as it owed nothing before. -/
theorem framed_rest (h : Framed s) (htasks : s'.tasks = s.tasks) (hexited : s.point.exited = false)
    (hrun : s'.point.exited = false → ¬ s'.failed) (hpoint : ∀ k l, s.point ≠ .suspended k l)
    (howes : ∀ k, s.point.owes k = false) (hlive : ∀ k, s'.point.live k = false) : Framed s' := by
  refine framed_move h htasks hexited hrun hpoint ?_ ?_ ?_ ?_
  · intro k hk
    rw [hlive k] at hk
    cases hk
  · intro k hk
    rw [hlive k] at hk
    cases hk
  · intro k
    cases hk : s'.point.unwraps k with
    | false => rfl
    | true =>
      have hk' := Point.live_of_unwraps hk
      rw [hlive k] at hk'
      cases hk'
  · intro k hk
    rw [howes k] at hk
    cases hk

theorem afterReply_live {k : TaskKind} {r : Reply} {p : Point}
    (h : State.afterReply k r = some p) :
    (∀ j, p.live j = true) ∧ (∀ j, p.unwraps j = false) ∧
      (∀ j, (Point.resume k .inner).owes j = true → p.owes j = true) := by
  rcases afterReply_eq h with ⟨rfl, rfl⟩ | ⟨rfl, isOk, rfl⟩
  · exact ⟨fun _ => rfl, fun _ => rfl, fun j => by cases j <;> exact id⟩
  · exact ⟨fun _ => rfl, fun _ => rfl, fun j => by cases j <;> exact id⟩

theorem framed_init : Framed State.init where
  sound := fun i t ht => by simp [State.init] at ht
  held := fun k hk => nomatch hk
  unwrapped := fun k i t hk => nomatch hk
  consumer := fun i t ht => by simp [State.init] at ht
  settled := fun i t ht => by simp [State.init] at ht
  running := fun _ hf => nomatch hf

/-- Every move keeps the frame. -/
theorem framed_moves (h : Framed s) {l : Label} (hm : Moves s l s') : Framed s' := by
  cases hm with
  | construct | post | leaveGet =>
    exact framed_congr h rfl rfl (fun k => by cases k <;> rfl) Iff.rfl
  | enterGet =>
    refine framed_congr h rfl rfl (fun k => by cases k <;> rfl) ?_
    unfold State.failed ResultState.wait
    dsimp only
    split <;> exact Iff.rfl
  | peekNone _ hpoint | peekSome _ hpoint | dispatch _ hpoint | abort _ hpoint
  | endSync _ hpoint =>
    have hrun : ¬ s.failed := h.running (by rw [hpoint]; rfl)
    exact framed_rest h rfl (by rw [hpoint]; rfl) (fun _ => hrun) (by simp [hpoint])
      (fun _ => by rw [hpoint]; rfl) (fun _ => rfl)
  | peekQuit _ hpoint =>
    exact framed_rest h rfl (by rw [hpoint]; rfl) (fun hexited => (nomatch hexited))
      (by simp [hpoint]) (fun _ => by rw [hpoint]; rfl) (fun _ => rfl)
  | enqueued _ hpoint => exact framed_push h hpoint (Task.sound_queued _) rfl (.inl rfl)
  | broken _ hpoint => exact framed_push h hpoint (Task.sound_broken _) rfl (.inr rfl)
  | throws _ hpoint => exact framed_unwind h (by simp [hpoint])
  | rethrow _ hpoint => exact framed_unwind h (by simp [hpoint])
  | suspend _ hpoint ht hidle => exact framed_suspend h hpoint ht hidle
  | ready _ hpoint ht hready => exact framed_ready h hpoint ht hready
  | @unwrap _ k i u _ hpoint ht hvalue =>
    have hrun : ¬ s.failed := h.running (by rw [hpoint]; rfl)
    refine framed_advance h rfl id (fun _ _ hu => no_consumer h (by simp [hpoint]) hu)
      (fun j _ => by rw [hpoint]; rfl) (fun _ _ => rfl) ?_ ?_ (fun _ => hrun)
    · intro j i' u' hj hu
      have hjk : k = j := by simpa [Point.unwraps] using hj
      subst hjk
      rw [ht] at hu
      cases hu
      exact hvalue
    · intro j u' _ _ howes
      rw [hpoint] at howes
      revert howes
      cases k <;> cases u'.kind <;> exact id
  | reply _ hpoint ht _ hp =>
    have hrun : ¬ s.failed := h.running (by rw [hpoint]; rfl)
    obtain ⟨_, hunwraps, howes⟩ := afterReply_live hp
    exact framed_move h rfl (by rw [hpoint]; rfl) (fun _ => hrun) (by simp [hpoint])
      (fun _ _ => by rw [hpoint]; rfl) (fun _ _ => rfl) hunwraps
      (fun k hk => howes k (hpoint ▸ hk))
  | checked _ hpoint =>
    have hrun : ¬ s.failed := h.running (by rw [hpoint]; rfl)
    exact framed_move h rfl (by rw [hpoint]; rfl) (fun _ => hrun) (by simp [hpoint])
      (fun _ _ => by rw [hpoint]; rfl) (fun _ _ => rfl) (fun _ => rfl)
      (fun k hk => by rw [hpoint] at hk; cases hk)
  | startSync _ hpoint =>
    have hrun : ¬ s.failed := h.running (by rw [hpoint]; rfl)
    exact framed_move h rfl (by rw [hpoint]; rfl) (fun _ => hrun) (by simp [hpoint])
      (fun _ _ => by rw [hpoint]; rfl) (fun k _ => by cases k <;> rfl) (fun _ => rfl)
      (fun k hk => by rw [hpoint] at hk; cases hk)
  | publish _ hpoint =>
    refine framed_advance h rfl id (fun _ _ hu => no_consumer h (by simp [hpoint]) hu)
      (fun k hk => (nomatch hk)) (fun _ hk => (nomatch hk)) (fun k _ _ hk => (nomatch hk)) ?_
      (fun hexited => (nomatch hexited))
    intro i t _ _ howes
    rw [hpoint] at howes
    cases howes
  | start _ ht hs =>
    have hsound := h.sound _ _ ht
    have hsound' := hsound.start hs
    have hconsumer := h.consumer _ _ ht
    obtain ⟨_, rfl⟩ := Task.start_eq hs
    exact framed_update h ht hsound' rfl hconsumer id id
  | call ht hc =>
    have hsound := h.sound _ _ ht
    obtain ⟨hstarted, _, hkind, hpc⟩ := Task.call_eq hc
    refine framed_congr (framed_update h ht (hsound.call hc) hkind ?_ ?_ ?_) rfl rfl
      (fun k => by cases k <;> rfl) Iff.rfl
    · unfold State.ConsumerOk
      rw [hpc, hkind]
      exact h.consumer _ _ ht
    · intro _
      rw [Bool.eq_false_iff, Ne, hsound.complete_iff, hstarted]
      simp
    · intro hvalue
      have hidle := hsound.computed.mpr (by rw [hstarted]; rfl)
      rw [hvalue] at hidle
      cases hidle
  | wake ht hp hpoint => exact framed_wake h ht hp hpoint
  | complete ht hp _ =>
    have hsound' := (h.sound _ _ ht).publish hp
    obtain ⟨_, _, rfl⟩ := Task.publish_eq hp
    refine framed_update h ht hsound' rfl (.inr (.inl rfl)) (fun hc => ?_) id
    rw [hsound'.complete_iff.mpr rfl] at hc
    cases hc

theorem ready_moves (h : s.ready → s.point = .done) {l : Label} (hm : Moves s l s')
    (hready : s'.ready) : s'.point = .done := by
  cases hm with
  | construct | post | leaveGet | start | call => exact h hready
  | complete => exact h hready
  | publish => rfl
  | enterGet =>
    refine h ?_
    unfold State.ready ResultState.wait at hready
    dsimp only at hready
    split at hready
    · cases hready
    · exact hready
  | @enqueued _ k _ hpoint | @broken _ k _ hpoint =>
    have hdone := h (by cases k <;> exact hready)
    rw [hpoint] at hdone
    cases hdone
  | throws _ hpoint | rethrow _ hpoint =>
    rw [ready_unwind] at hready
    have hdone := h hready
    rw [hpoint] at hdone
    cases hdone
  | peekNone _ hpoint | peekQuit _ hpoint | peekSome _ hpoint | dispatch _ hpoint
  | suspend _ hpoint | ready _ hpoint | unwrap _ hpoint | reply _ hpoint | checked _ hpoint
  | abort _ hpoint | startSync _ hpoint | endSync _ hpoint | wake _ _ hpoint =>
    have hdone := h hready
    rw [hpoint] at hdone
    cases hdone

end FramedLemmas

open FramedLemmas

/-- The result of `Loop` is ready only at its end. -/
theorem point_of_ready {tr : List (State × Label × State)} {s : State}
    (h : Run Step State.init tr s) : s.ready → s.point = .done :=
  h.inv_all (I := fun s => s.ready → s.point = .done) (fun hready => nomatch hready)
    fun hi hs => ready_moves hi hs.moves

/-- In every run, each point of `Loop` owes the tasks that are in flight there. -/
theorem framed {tr : List (State × Label × State)} {s : State} (h : Run Step State.init tr s) :
    Framed s :=
  h.inv_all framed_init fun hf hs => framed_moves hf hs.moves

/-- An await finds its result untouched or complete. -/
theorem no_assert_done {tr : List (State × Label × State)} {s : State} {k : TaskKind} {l : Level}
    {i : Nat} {t : Task} (h : Run Step State.init tr s) (hpoint : s.point = .await k l)
    (ht : s.awaited k = some (i, t)) : t.pcState l = .idle ∨ t.pcState l = .producerDone := by
  have hf := framed h
  have hi := (awaited_eq_some.mp ht).2
  cases l with
  | outer =>
    rcases hf.consumer i t hi with hpc | hpc | ⟨_, hs⟩ | ⟨_, hfailed⟩
    · exact .inl hpc
    · exact .inr hpc
    · rw [hpoint] at hs
      cases hs
    · exact absurd hfailed (hf.running (by rw [hpoint]; rfl))
  | inner =>
    have hvalue := hf.unwrapped k i t (by rw [hpoint]; simp [Point.unwraps]) ht
    exact .inr ((hf.sound i t hi).returned hvalue).1

/-- Past an await the result is complete. -/
theorem awaited_complete {tr : List (State × Label × State)} {s : State} {k : TaskKind} {l : Level}
    (h : Run Step State.init tr s) (hpoint : s.point = .resume k l) :
    ∃ i t, s.awaited k = some (i, t) ∧ t.kind = k ∧ t.complete = true ∧
      t.pcState l = .producerDone := by
  have hf := framed h
  obtain ⟨i, t, ht, hkind, hcomplete⟩ := complete_of_resume hf hpoint
  refine ⟨i, t, ht, hkind, hcomplete, ?_⟩
  have hsound := hf.sound i t (awaited_eq_some.mp ht).2
  cases l with
  | outer => exact hsound.published.mpr (hsound.complete_iff.mp hcomplete)
  | inner =>
    have hvalue := hf.unwrapped k i t (by rw [hpoint]; simp [Point.unwraps]) ht
    exact (hsound.returned hvalue).1

end FlavoEngine.Engine

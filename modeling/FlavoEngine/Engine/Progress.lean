import FlavoEngine.Engine.Frames

/-!
# Progress of the game loop

An await that finds its result incomplete leaves its consumer there in the same atomic step, and the
worker that completes the result finds it. So no wake-up is lost: until `Loop` is over, `Loop`
itself or a worker can go on.

Results:
1. `awaited_consumer`: while `Loop` is suspended, the consumer is set on the outer result of the
   task that it awaits, and this task is in flight.
2. `loop_progress`: from the call of `Loop` to its end, a step of `Loop` or of a worker is possible
   in every state of a run that is not aborted.
-/

namespace FlavoEngine.Engine

open FlavoEngine.Lib
open MovesLemmas FramedLemmas

/-- The steps of `Loop` and of the workers. -/
def Label.inside : Label → Bool
  | .construct | .post _ _ | .enterGet | .leaveGet => false
  | _ => true

/-- The steps of `Loop`. -/
def Label.byLoop : Label → Bool
  | .peek _ | .dispatch | .submit _ | .await | .resume | .check _ | .startSync | .endSync
  | .publish => true
  | _ => false

/-- Who carries `Loop` at each of its points. -/
structure Carried (s : State) : Prop where
  before : s.winMain = .constructing → s.carrier = none ∧ s.point = .peek
  resting : s.winMain ≠ .constructing → s.carrier = none →
    (∃ k l, s.point = .suspended k l) ∨ s.point = .done
  running : ∀ t, s.carrier = some t → (∀ k l, s.point ≠ .suspended k l) ∧ s.point ≠ .done
  waiting : ∀ k l, s.point = .suspended k l →
    ∃ i t, s.awaited k = some (i, t) ∧ t.outer.pcState = .consumerSet

namespace ProgressLemmas

variable {s s' : State} {l : Label}

theorem carried_init : Carried State.init where
  before := fun _ => ⟨rfl, rfl⟩
  resting := fun hno => absurd rfl hno
  running := nofun
  waiting := nofun

/-- Past its first point, `Loop` was called. -/
theorem called_of_point (h : Carried s) (hpoint : s.point ≠ .peek) : s.winMain ≠ .constructing :=
  fun hbefore => hpoint (h.before hbefore).2

/-- A step of `Loop` after which the same thread carries it on. -/
theorem carried_on (h : Carried s) {t : Thread} (hcarrier : s.carrier = some t)
    (hwin : s'.winMain = s.winMain) (hsame : s'.carrier = s.carrier)
    (hpoint : ∀ k l, s'.point ≠ .suspended k l) (hdone : s'.point ≠ .done) : Carried s' := by
  rw [hcarrier] at hsame
  constructor
  · intro hbefore
    rw [hwin] at hbefore
    have hnone := (h.before hbefore).1
    rw [hcarrier] at hnone
    cases hnone
  · intro _ hnone
    rw [hsame] at hnone
    cases hnone
  · exact fun _ _ => ⟨hpoint, hdone⟩
  · exact fun k l hk => absurd hk (hpoint k l)

/-- A step that leaves `Loop` where it is, with its awaited task and the consumer. -/
theorem carried_beside (h : Carried s) (hpoint : s'.point = s.point)
    (hcarrier : s'.carrier = s.carrier)
    (hwin : s'.winMain = .constructing ↔ s.winMain = .constructing)
    (hwaiting : ∀ k i t, s.awaited k = some (i, t) → t.outer.pcState = .consumerSet →
      ∃ j u, s'.awaited k = some (j, u) ∧ u.outer.pcState = .consumerSet) : Carried s' := by
  constructor
  · intro hbefore
    rw [hpoint, hcarrier]
    exact h.before (hwin.mp hbefore)
  · intro hno hnone
    rw [hpoint]
    exact h.resting (fun hb => hno (hwin.mpr hb)) (hcarrier ▸ hnone)
  · intro t ht
    rw [hpoint]
    exact h.running t (hcarrier ▸ ht)
  · intro k l hk
    obtain ⟨i, t, ht, hset⟩ := h.waiting k l (hpoint ▸ hk)
    exact hwaiting k i t ht hset

/-- A worker's task goes on and keeps its consumer. -/
theorem waiting_setTask {i : Nat} {t t' : Task} (ht : s.tasks[i]? = some t)
    (hkeep : t.outer.pcState = .consumerSet → t'.outer.pcState = .consumerSet) (k : TaskKind)
    (j : Nat) (u : Task) (hu : s.awaited k = some (j, u)) (hset : u.outer.pcState = .consumerSet) :
    ∃ j u, (s.setTask i t').awaited k = some (j, u) ∧ u.outer.pcState = .consumerSet := by
  obtain ⟨hf, hu⟩ := awaited_eq_some.mp hu
  have hj := (List.getElem?_eq_some_iff.mp hu).1
  by_cases hij : i = j
  · subst hij
    rw [ht, Option.some.injEq] at hu
    subst hu
    refine ⟨i, t', awaited_eq_some.mpr ⟨hf, ?_⟩, hkeep hset⟩
    show (s.tasks.set i t')[i]? = some t'
    rw [List.getElem?_set_self hj]
  · refine ⟨j, u, awaited_eq_some.mpr ⟨hf, ?_⟩, hset⟩
    show (s.tasks.set i t')[j]? = some u
    rw [List.getElem?_set_ne hij]
    exact hu

/-- `submit` goes on to the next task. -/
theorem push_running (k : TaskKind) (t : Task) :
    (∀ j l, (s.push k t).point ≠ .suspended j l) ∧ (s.push k t).point ≠ .done := by
  cases k <;> simp [State.push]

/-- An exception leads to the end of `Loop`, which is not over yet. -/
theorem unwind_running : (∀ k l, s.unwind.point ≠ .suspended k l) ∧ s.unwind.point ≠ .done := by
  simp [State.unwind]

theorem carried_moves (h : Carried s) (hf : Framed s) (hm : Moves s l s') : Carried s' := by
  cases hm with
  | construct hwin =>
    have hpeek := (h.before hwin).2
    refine ⟨by simp, by simp, fun _ _ => ?_, fun k l hk => ?_⟩
    · rw [hpeek]
      exact ⟨by simp, by simp⟩
    · rw [hpeek] at hk
      cases hk
  | post => exact carried_beside h rfl rfl Iff.rfl fun k i t ht hset => ⟨i, t, ht, hset⟩
  | enterGet hwin | leaveGet hwin =>
    exact carried_beside h rfl rfl (by simp [hwin]) fun k i t ht hset => ⟨i, t, ht, hset⟩
  | start _ ht hs =>
    refine carried_beside h rfl rfl Iff.rfl (waiting_setTask ht fun hset => ?_)
    rw [(Task.start_eq hs).2]
    exact hset
  | call ht hc =>
    refine carried_beside h rfl rfl Iff.rfl (waiting_setTask ht fun hset => ?_)
    exact (Task.call_eq hc).2.2.2.trans hset
  | complete ht hp hne =>
    refine carried_beside h rfl rfl Iff.rfl (waiting_setTask ht fun hset => ?_)
    exact absurd ((Task.publish_eq hp).2.1.trans hset) hne
  | wake _ _ hpoint =>
    have hcalled := called_of_point h (by simp [hpoint])
    exact ⟨fun hbefore => absurd hbefore hcalled, by simp, fun _ _ => ⟨by simp, by simp⟩, by simp⟩
  | @suspend _ k l i u hcarrier hpoint ht hidle =>
    obtain rfl := outer_of_idle hf hpoint ht hidle
    have hcalled := called_of_point h (by simp [hpoint])
    refine ⟨fun hbefore => absurd hbefore hcalled, fun _ _ => .inl ⟨k, .outer, rfl⟩, by simp,
      fun j l hk => ?_⟩
    -- The await that suspends sets the consumer in the same step.
    obtain ⟨rfl, rfl⟩ := Point.suspended.inj hk
    obtain ⟨hfuture, hi⟩ := awaited_eq_some.mp ht
    refine ⟨i, (u.await .outer).2, awaited_eq_some.mpr ⟨hfuture, ?_⟩, ?_⟩
    · show (s.tasks.set i (u.await .outer).2)[i]? = _
      rw [List.getElem?_set_self (List.getElem?_eq_some_iff.mp hi).1]
    · have hidle' : u.outer.pcState = .idle := hidle
      simp [Task.await, ResultState.await, hidle']
  | publish hcarrier hpoint =>
    have hcalled := called_of_point h (by simp [hpoint])
    exact ⟨fun hbefore => absurd hbefore hcalled, fun _ _ => .inr rfl, by simp, by simp⟩
  | @enqueued _ k hcarrier | @broken _ k hcarrier =>
    exact carried_on h hcarrier (sameThreads_push k _).1 (sameThreads_push k _).2.2.1
      (push_running k _).1 (push_running k _).2
  | throws hcarrier | rethrow hcarrier =>
    exact carried_on h hcarrier sameThreads_unwind.1 sameThreads_unwind.2.2.1 unwind_running.1
      unwind_running.2
  | reply hcarrier _ _ _ hp =>
    rcases afterReply_eq hp with ⟨_, rfl⟩ | ⟨_, isOk, rfl⟩
    · exact carried_on h hcarrier rfl rfl (by simp) (by simp)
    · exact carried_on h hcarrier rfl rfl (by simp) (by simp)
  | peekNone hcarrier | peekQuit hcarrier | peekSome hcarrier | dispatch hcarrier
  | ready hcarrier | unwrap hcarrier | checked hcarrier
  | abort hcarrier | startSync hcarrier | endSync hcarrier =>
    exact carried_on h hcarrier rfl rfl (by simp) (by simp)

/-! ### Steps that are possible -/

theorem exists_above (tasks : List Task) :
    ∃ w, ∀ t ∈ tasks, ∀ v, t.worker? = some v → v < w := by
  induction tasks with
  | nil => exact ⟨0, fun t ht => absurd ht List.not_mem_nil⟩
  | cons u us ih =>
    obtain ⟨w, hw⟩ := ih
    refine ⟨max w (u.worker?.getD 0 + 1), fun t ht v hv => ?_⟩
    rcases List.mem_cons.mp ht with rfl | ht
    · rw [hv]
      exact Nat.lt_of_lt_of_le (Nat.lt_succ_self v) (Nat.le_max_right _ _)
    · exact Nat.lt_of_lt_of_le (hw t ht v hv) (Nat.le_max_left _ _)

/-- While nobody carries `Loop`, some worker has nothing to do. -/
theorem exists_free (hcarrier : s.carrier = none) : ∃ w, s.free w = true := by
  obtain ⟨w, hw⟩ := exists_above s.tasks
  refine ⟨w, ?_⟩
  unfold State.free
  rw [hcarrier, Bool.and_eq_true]
  refine ⟨by simp, List.all_eq_true.mpr fun t ht => decide_eq_true fun hv => ?_⟩
  exact Nat.lt_irrefl w (hw t ht w hv)

/-- The worker of the awaited task, or a free one, can take it further. -/
theorem worker_progress (hf : Framed s) (hcarrier : s.carrier = none) {k : TaskKind} {lv : Level}
    (hpoint : s.point = .suspended k lv) {i : Nat} {t : Task} (ht : s.tasks[i]? = some t)
    (hset : t.outer.pcState = .consumerSet) : ∃ l, l.inside = true ∧ (act s l).isSome = true := by
  cases hphase : t.phase with
  | queued =>
    obtain ⟨w, hw⟩ := exists_free hcarrier
    refine ⟨.start w i, rfl, ?_⟩
    unfold act State.startTask Task.start
    simp [hw, ht, hphase]
  | started w =>
    refine ⟨.call w i .outerException, rfl, ?_⟩
    unfold act State.callTask Task.call
    simp [ht, hphase]
  | called w =>
    refine ⟨.complete w i, rfl, ?_⟩
    unfold act State.completeTask Task.publish ResultState.completeProducer State.resumeLoop
    simp [ht, hphase, hset, State.setTask, hpoint]
  | finished =>
    have hdone := (hf.sound i t ht).published.mpr hphase
    rw [hset] at hdone
    cases hdone

/-- The value of an inner result tells where `Loop` goes. -/
theorem afterReply_of_fits {k : TaskKind} {r : Reply} (h : r.fits k = true) :
    ∃ p, State.afterReply k r = some p := by
  cases k <;> cases r <;> first | exact ⟨_, rfl⟩ | cases h

/-- Past an await there is a value or an exception to read. -/
theorem resume_progress (hf : Framed s) {t : Thread} (hcarrier : s.carrier = some t) {k : TaskKind}
    {lv : Level} (hpoint : s.point = .resume k lv) : (act s .resume).isSome = true := by
  obtain ⟨i, u, hu, hkind, hcomplete⟩ := complete_of_resume hf hpoint
  have hsound := hf.sound i u (awaited_eq_some.mp hu).2
  unfold act State.readResult
  cases lv with
  | outer =>
    simp only [hcarrier, hpoint, hu]
    split
    · next hidle =>
      have hran := hsound.computed.mp hidle
      rw [hsound.complete_iff.mp hcomplete] at hran
      cases hran
    · rfl
    · rfl
  | inner =>
    have hvalue := hf.unwrapped k i u (by rw [hpoint]; simp [Point.unwraps]) hu
    simp only [hcarrier, hpoint, hu]
    split
    · next hidle => exact absurd hidle (hsound.returned hvalue).2
    · next reply hreply =>
      have hfits := hsound.fits reply hreply
      rw [hkind] at hfits
      obtain ⟨p, hp⟩ := afterReply_of_fits hfits
      rw [hp]
      rfl
    · rfl

/-- The thread that carries `Loop` can take its next step. -/
theorem carrier_step (hf : Framed s) {t : Thread} (hcarrier : s.carrier = some t)
    (hsuspended : ∀ k l, s.point ≠ .suspended k l) (hdone : s.point ≠ .done)
    (habort : s.point ≠ .aborted) : ∃ l, l.byLoop = true ∧ (act s l).isSome = true := by
  cases hpoint : s.point with
  | peek =>
    cases hqueue : s.queues t with
    | nil =>
      refine ⟨.peek none, rfl, ?_⟩
      unfold act State.peekMessage
      simp [hcarrier, hpoint, hqueue]
    | cons m ms =>
      refine ⟨.peek (some 0), rfl, ?_⟩
      unfold act State.peekMessage
      simp only [hcarrier, hpoint, hqueue, List.getElem?_cons_zero]
      cases m <;> rfl
  | dispatch m =>
    refine ⟨.dispatch, rfl, ?_⟩
    unfold act State.dispatchMessage
    simp [hcarrier, hpoint]
  | submit k =>
    refine ⟨.submit .enqueued, rfl, ?_⟩
    unfold act State.submitTask
    simp [hcarrier, hpoint]
  | await k lv =>
    obtain ⟨i, u, hu, _⟩ := hf.held k (by rw [hpoint]; rfl)
    refine ⟨.await, rfl, ?_⟩
    unfold act State.awaitResult
    simp only [hcarrier, hpoint, hu]
    split <;> rfl
  | suspended k lv => exact absurd hpoint (hsuspended k lv)
  | resume k lv => exact ⟨.resume, rfl, resume_progress hf hcarrier hpoint⟩
  | check isOk =>
    refine ⟨.check .ignore, rfl, ?_⟩
    unfold act State.checkRender
    simp [hcarrier, hpoint]
  | sync =>
    refine ⟨.startSync, rfl, ?_⟩
    unfold act State.startSync
    simp [hcarrier, hpoint]
  | inSync =>
    refine ⟨.endSync, rfl, ?_⟩
    unfold act State.endSync
    simp [hcarrier, hpoint]
  | leaving =>
    refine ⟨.publish, rfl, ?_⟩
    unfold act State.publishResult
    simp [hcarrier, hpoint]
  | done => exact absurd hpoint hdone
  | aborted => exact absurd hpoint habort

theorem inside_of_byLoop {l : Label} (h : l.byLoop = true) : l.inside = true := by
  cases l <;> first | rfl | cases h

end ProgressLemmas

open ProgressLemmas

theorem carried {tr : List (State × Label × State)} {s : State} (h : Run Step State.init tr s) :
    Carried s := by
  have hinv := h.inv_all (I := fun s => Framed s ∧ Carried s) ⟨framed_init, carried_init⟩
    fun hi hs => ⟨framed_moves hi.1 hs.moves, carried_moves hi.2 hi.1 hs.moves⟩
  exact hinv.2

/-- While `Loop` is suspended, the consumer is set on the outer result of the awaited task, and the
task is in flight. -/
theorem awaited_consumer {tr : List (State × Label × State)} {s : State} {k : TaskKind} {l : Level}
    (h : Run Step State.init tr s) (hpoint : s.point = .suspended k l) :
    l = .outer ∧ ∃ i t, s.awaited k = some (i, t) ∧ t.outer.pcState = .consumerSet ∧
      t.complete = false := by
  obtain ⟨i, t, ht, hset⟩ := (carried h).waiting k l hpoint
  have hs := suspended_of_consumer (framed h) (awaited_eq_some.mp ht).2 hset
  rw [hpoint, Point.suspended.injEq] at hs
  exact ⟨hs.2, i, t, ht, hset, by simp [Task.complete, hset]⟩

/-- `Loop` or a worker can go on until `Loop` is over. -/
theorem loop_progress {tr : List (State × Label × State)} {s : State} (h : Run Step State.init tr s)
    (hwin : s.winMain ≠ .constructing) (hdone : s.point ≠ .done) (habort : s.point ≠ .aborted) :
    ∃ l s', l.inside = true ∧ Step s l s' := by
  have hf := framed h
  have hc := carried h
  have hact : ∃ l, l.inside = true ∧ (act s l).isSome = true := by
    cases hcarrier : s.carrier with
    | some t =>
      obtain ⟨hsuspended, _⟩ := hc.running t hcarrier
      exact (carrier_step hf hcarrier hsuspended hdone habort).imp fun _ h =>
        h.imp_left inside_of_byLoop
    | none =>
      rcases hc.resting hwin hcarrier with ⟨k, l, hpoint⟩ | hpoint
      · obtain ⟨i, t, ht, hset⟩ := hc.waiting k l hpoint
        exact worker_progress hf hcarrier hpoint (awaited_eq_some.mp ht).2 hset
      · exact absurd hpoint hdone
  obtain ⟨l, hinside, hl⟩ := hact
  obtain ⟨s', hs'⟩ := Option.isSome_iff_exists.mp hl
  refine ⟨l, s', hinside, ?_⟩
  unfold Step step
  rw [if_neg habort]
  exact hs'

end FlavoEngine.Engine

import FlavoEngine.Engine.Frames

/-!
# Tasks and the end of the loop

When the result of `Loop` is ready, `WinMain` destroys the `FlavoGame` that the lambda of the game
task captured. `Loop` awaits its two tasks one after the other, so an exception thrown between them,
or by the second `submit`, leaves a future that was never awaited, and its destruction does not wait
for the task.

Results:
1. `no_task_outlives`: while no exception leaves `Loop` over a task in flight, a ready result of
   `Loop` means that every task is complete; and after an exception that does, the next step of
   `Loop` may make its result ready with that task in flight.
2. `game_outlives_tasks`: under the same condition, the game is destroyed after all tasks.
3. `task_outlives_loop`, `game_destroyed_under_task`: runs in which a task outlives the loop, and
   the game.
-/

namespace FlavoEngine.Engine

open FlavoEngine.Lib
open MovesLemmas FramedLemmas

instance (t : Task) (l : Level) : Decidable (t.throws l) := by
  unfold Task.throws
  cases l <;> infer_instance

/-- The step throws in `Loop`: `submit` does, or the awaited result holds an exception. -/
def State.throwsAt (s : State) : Label → Bool
  | .submit .throws => true
  | .resume =>
    match s.point with
    | .resume k l => (s.awaited k).any fun p => decide (p.2.throws l)
    | _ => false
  | _ => false

/-- The future that an exception would leave unawaited has a task in flight. -/
def State.leavesTask (s : State) : Bool :=
  (s.point.unawaited.bind s.awaited).any fun p => !p.2.complete

/-- An exception leaves `Loop` over a task in flight. -/
def Abandons (s : State) (l : Label) : Prop :=
  s.throwsAt l = true ∧ s.leavesTask = true

instance (s : State) (l : Label) : Decidable (Abandons s l) := by
  unfold Abandons
  infer_instance

/-- No task is in flight. -/
def State.Quiet (s : State) : Prop :=
  ∀ t ∈ s.tasks, t.complete = true

namespace TaskLifetimeLemmas

variable {s s' : State} {l : Label}

theorem unawaited_of_owes {p : Point} {k : TaskKind} (howes : p.owes k = true)
    (hp : (∃ j, p = .submit j) ∨ ∃ j lv, p = .resume j lv) : p.unawaited = some k := by
  rcases hp with ⟨j, rfl⟩ | ⟨j, lv, rfl⟩
  · cases j <;> cases k <;> first | rfl | cases howes
  · cases j <;> cases k <;> first | rfl | cases howes

/-- Where an exception leaves nothing in flight, all tasks are complete. -/
theorem quiet_of_not_leaves (h : Framed s)
    (hp : (∃ j, s.point = .submit j) ∨ ∃ j lv, s.point = .resume j lv)
    (hleaves : s.leavesTask ≠ true) : s.Quiet := by
  intro t ht
  obtain ⟨i, hi⟩ := List.getElem?_of_mem ht
  have hrun : ¬ s.failed := by
    refine h.running ?_
    rcases hp with ⟨_, hp⟩ | ⟨_, _, hp⟩ <;> rw [hp] <;> rfl
  cases hc : t.complete with
  | true => rfl
  | false =>
    rcases h.settled i t hi hc with ⟨howes, hfuture⟩ | hfailed
    · refine absurd ?_ hleaves
      unfold State.leavesTask
      rw [unawaited_of_owes howes hp, Option.bind_some, awaited_eq_some.mpr ⟨hfuture, hi⟩]
      simp [hc]
    · exact absurd hfailed hrun

theorem drop_of_complete {t : Task} (h : t.complete = true) : t.drop = t := by
  unfold Task.complete at h
  rw [Bool.and_eq_true, beq_iff_eq] at h
  unfold Task.drop ResultState.completeConsumer
  rw [if_pos h.1]

/-- A task in flight stays in flight when its future is destroyed. -/
theorem drop_complete {t : Task} (h : t.complete = false) : t.drop.complete = false := by
  unfold Task.drop ResultState.completeConsumer
  split
  · exact h
  · simp [Task.complete]

theorem quiet_unwind (h : s.Quiet) : s.unwind.Quiet := by
  intro u hu
  obtain ⟨i, hi⟩ := List.getElem?_of_mem hu
  obtain ⟨t, ht, hut⟩ := unwind_tasks hi
  have hc := h t (List.mem_of_getElem? ht)
  rw [drop_of_complete hc, or_self] at hut
  rw [hut]
  exact hc

/-- The task over which an exception leaves `Loop` is still in flight afterwards. -/
theorem exists_of_leaves (h : s.leavesTask = true) : ∃ t ∈ s.unwind.tasks, t.complete = false := by
  unfold State.leavesTask at h
  obtain ⟨⟨i, t⟩, hbind, hc⟩ := (Option.any_eq_true _ _).mp h
  obtain ⟨k, hk, ht⟩ := Option.bind_eq_some_iff.mp hbind
  have hc : t.complete = false := by simpa using hc
  have hi := (List.getElem?_eq_some_iff.mp (awaited_eq_some.mp ht).2).1
  refine ⟨t.drop, ?_, drop_complete hc⟩
  unfold State.unwind State.dropFuture
  rw [hk]
  dsimp only
  rw [ht]
  exact List.mem_set hi t.drop

/-- A step that throws in `Loop` unwinds it. -/
theorem throws_moves (hl : s.throwsAt l = true) (hm : Moves s l s') :
    s' = s.unwind ∧ s.carrier ≠ none := by
  have hcarrier : ∀ {t : Thread}, s.carrier = some t → s.carrier ≠ none := fun h => h ▸ nofun
  cases hm with
  | throws hc => exact ⟨rfl, hcarrier hc⟩
  | rethrow hc => exact ⟨rfl, hcarrier hc⟩
  | unwrap _ hpoint ht hvalue =>
    unfold State.throwsAt at hl
    dsimp only at hl
    rw [hpoint] at hl
    simp [ht, Task.throws, hvalue] at hl
  | reply _ hpoint ht hvalue =>
    unfold State.throwsAt at hl
    dsimp only at hl
    rw [hpoint] at hl
    simp [ht, Task.throws, hvalue] at hl
  | _ => cases hl

/-- After an exception over a task in flight, `Loop` may make its result ready at once. -/
theorem publish_abandoned (ha : Abandons s l) (hm : Moves s l s') :
    ∃ s'', Step s' .publish s'' ∧ s''.ready ∧ ¬ s''.Quiet := by
  obtain ⟨hthrows, hleaves⟩ := ha
  obtain ⟨rfl, hcarrier⟩ := throws_moves hthrows hm
  obtain ⟨u, hu, hc⟩ := exists_of_leaves hleaves
  obtain ⟨t, ht⟩ := Option.ne_none_iff_exists'.mp hcarrier
  refine ⟨{ s.unwind with
    point := .done
    carrier := none
    result := s.unwind.result.completeProducer.2 }, ?_, rfl, fun hquiet => ?_⟩
  · unfold Step step act State.publishResult
    rw [sameThreads_unwind.2.2.1.trans ht, show s.unwind.point = .leaving from rfl]
    rfl
  · rw [hquiet u hu] at hc
    cases hc

/-- Once all tasks are complete, the workers have nothing to do. -/
theorem complete_of_quiet (h : s.Quiet) (hf : Framed s) {i : Nat} {t : Task}
    (ht : s.tasks[i]? = some t) : t.phase = .finished :=
  (hf.sound i t ht).complete_iff.mp (h t (List.mem_of_getElem? ht))

/-- An exception that leaves no task in flight leaves none later. -/
theorem failed_moves (hf : Framed s) (hq : s.failed → s.Quiet) (hn : ¬ Abandons s l)
    (hm : Moves s l s') (hfailed : s'.failed) : s'.Quiet := by
  have hleft : s.failed → s.point.exited = true := by
    intro h
    cases hexited : s.point.exited with
    | true => rfl
    | false => exact absurd h (hf.running hexited)
  cases hm with
  | construct | post | leaveGet | publish => exact hq hfailed
  | enterGet =>
    refine hq ?_
    unfold State.failed ResultState.wait at *
    dsimp only at hfailed
    split at hfailed <;> exact hfailed
  | throws _ hpoint =>
    exact quiet_unwind (quiet_of_not_leaves hf (.inl ⟨_, hpoint⟩) fun h => hn ⟨rfl, h⟩)
  | rethrow _ hpoint ht hthrows =>
    refine quiet_unwind (quiet_of_not_leaves hf (.inr ⟨_, _, hpoint⟩) fun h => hn ⟨?_, h⟩)
    unfold State.throwsAt
    dsimp only
    rw [hpoint]
    simp [ht, hthrows]
  | peekQuit => cases hfailed
  | @enqueued _ k _ hpoint | @broken _ k _ hpoint =>
    have hexited := hleft (by cases k <;> exact hfailed)
    rw [hpoint] at hexited
    cases hexited
  | peekNone _ hpoint | peekSome _ hpoint | dispatch _ hpoint | suspend _ hpoint | ready _ hpoint
  | unwrap _ hpoint | reply _ hpoint | checked _ hpoint | abort _ hpoint | startSync _ hpoint
  | endSync _ hpoint | wake _ _ hpoint =>
    have hexited := hleft hfailed
    rw [hpoint] at hexited
    cases hexited
  | start _ ht hs =>
    have hphase := complete_of_quiet (hq hfailed) hf ht
    rw [(Task.start_eq hs).1] at hphase
    cases hphase
  | call ht hc =>
    have hphase := complete_of_quiet (hq hfailed) hf ht
    rw [(Task.call_eq hc).1] at hphase
    cases hphase
  | complete ht hp =>
    have hphase := complete_of_quiet (hq hfailed) hf ht
    rw [(Task.publish_eq hp).1] at hphase
    cases hphase

/-- The game is destroyed only after `get()`. -/
theorem left_moves (h : s.winMain = .left → s.ready) (hm : Moves s l s')
    (hleft : s'.winMain = .left) : s'.ready := by
  cases hm with
  | construct | enterGet => cases hleft
  | leaveGet _ hready => exact hready
  | publish => rfl
  | @enqueued _ k | @broken _ k =>
    rw [(sameThreads_push k _).1] at hleft
    cases k <;> exact h hleft
  | throws | rethrow =>
    rw [sameThreads_unwind.1] at hleft
    exact ready_unwind.mpr (h hleft)
  | _ => exact h hleft

end TaskLifetimeLemmas

open TaskLifetimeLemmas

theorem quiet_of_failed {tr : List (State × Label × State)} {s : State}
    (h : Run Step State.init tr s) (hn : Meets (fun s l => ¬ Abandons s l) tr) :
    s.failed → s.Quiet :=
  (h.inv (I := fun s => Framed s ∧ (s.failed → s.Quiet)) ⟨framed_init, fun hf => nomatch hf⟩
    (fun hi hl hs => ⟨framed_moves hi.1 hs.moves, failed_moves hi.1 hi.2 hl hs.moves⟩) hn).2

/-- No task outlives the game loop in a run in which no exception leaves `Loop` over a task in
flight. In any other run, the step after such an exception may make the result of `Loop` ready with
that task in flight. -/
theorem no_task_outlives {tr : List (State × Label × State)} {s : State}
    (h : Run Step State.init tr s) :
    (Meets (fun s l => ¬ Abandons s l) tr → s.ready → s.Quiet) ∧
      ∀ t ∈ tr, Abandons t.1 t.2.1 → ∃ s', Step t.2.2 .publish s' ∧ s'.ready ∧ ¬ s'.Quiet := by
  constructor
  · intro hn hready t ht
    by_cases hfailed : s.failed
    · exact quiet_of_failed h hn hfailed t ht
    · obtain ⟨i, hi⟩ := List.getElem?_of_mem ht
      exact complete_of_owes (framed h) hfailed hi (by rw [point_of_ready h hready]; rfl)
  · intro t ht ha
    exact publish_abandoned ha (h.step_of_mem ht).moves

/-- The game task fails after the render task is complete. -/
def failsLast : List Label :=
  [.construct, .peek none, .submit .enqueued, .submit .enqueued, .start 0 0, .start 1 1,
   .call 1 1 (.returned (.updated true)), .complete 1 1, .call 0 0 .innerException, .complete 0 0,
   .await, .resume, .await, .resume, .publish]

/-- `Loop` is left by the exception of its game task, and nothing is in flight. -/
theorem no_task_outlives_failed :
    ∃ tr s, Run Step State.init tr s ∧ s.result.producer = .exception ∧ s.ready ∧ s.Quiet := by
  obtain ⟨tr, s, hrun, -, hview⟩ := exists_run step (R := Step) id State.init failsLast
    (fun r => (r.1.all fun t => decide (¬ Abandons t.1 t.2.1), r.2.result))
    (v := (true, ⟨.producerDone, .exception⟩)) (by decide +kernel)
  rw [Prod.mk.injEq] at hview
  obtain ⟨hkept, hresult⟩ := hview
  have hready : s.ready := congrArg ResultState.pcState hresult
  have hmeets : Meets (fun s l => ¬ Abandons s l) tr := meets_of_all hkept
  exact ⟨tr, s, hrun, congrArg ResultState.producer hresult, hready,
    (no_task_outlives hrun).1 hmeets hready⟩

/-- The game task fails while the render task runs. -/
def failsFirst : List Label :=
  [.construct, .peek none, .submit .enqueued, .submit .enqueued, .start 0 0, .start 1 1, .await,
   .call 0 0 .innerException, .complete 0 0, .resume, .await, .resume, .publish]

/-- The result of `Loop` is ready and its render task is in flight. -/
theorem task_outlives_loop :
    ∃ tr s, Run Step State.init tr s ∧ s.ready ∧ ¬ s.Quiet := by
  obtain ⟨tr, s, hrun, -, hview⟩ := exists_run step (R := Step) id State.init failsFirst
    (fun r => (r.2.result, r.2.tasks.all (·.complete)))
    (v := (⟨.producerDone, .exception⟩, false)) (by decide +kernel)
  rw [Prod.mk.injEq] at hview
  obtain ⟨hresult, hall⟩ := hview
  refine ⟨tr, s, hrun, congrArg ResultState.pcState hresult, fun hquiet => ?_⟩
  rw [List.all_eq_true.mpr hquiet] at hall
  cases hall

/-- Under the same condition, `WinMain` destroys the game after all tasks. -/
theorem game_outlives_tasks {tr : List (State × Label × State)} {s : State}
    (h : Run Step State.init tr s) (hn : Meets (fun s l => ¬ Abandons s l) tr)
    (hleft : s.winMain = .left) : s.Quiet :=
  (no_task_outlives h).1 hn <|
    h.inv_all (I := fun s => s.winMain = .left → s.ready) (fun hl => nomatch hl)
      (fun hi hs => left_moves hi hs.moves) hleft

/-- The second `submit` throws while the game task waits in the pool. -/
def submitFails : List Label :=
  [.construct, .peek none, .submit .enqueued, .submit .throws, .publish, .enterGet, .leaveGet]

/-- The game is destroyed and its task is in flight. -/
theorem game_destroyed_under_task :
    ∃ tr s, Run Step State.init tr s ∧ s.winMain = .left ∧
      ∃ t ∈ s.tasks, t.kind = .game ∧ t.complete = false := by
  obtain ⟨tr, s, hrun, -, hview⟩ := exists_run step (R := Step) id State.init submitFails
    (fun r => (r.2.winMain, r.2.tasks.any fun t => t.kind == .game && !t.complete))
    (v := (.left, true)) (by decide +kernel)
  rw [Prod.mk.injEq] at hview
  obtain ⟨hleft, hany⟩ := hview
  obtain ⟨t, ht, hflight⟩ := List.any_eq_true.mp hany
  exact ⟨tr, s, hrun, hleft, t, ht, by simpa using hflight⟩

end FlavoEngine.Engine

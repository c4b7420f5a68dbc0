import FlavoEngine.Engine.LoopOverPool
import FlavoEngine.Engine.PoolWakeups

/-!
# Progress of the game loop over the pool

`Progress` takes it for granted that some worker takes a queued task. Over the real pool this needs
a thread that comes to look at the queue. The tasks end, as `LoopSystem` says: a task that the pool
has started can always go on to its end.

Results:
1. `system_progress`: from the call of `Loop` to its end, `Loop` or a thread of the pool can go on
   in every run in which the pool leaves no task behind.
2. `system_stuck`: in the other runs `Loop` may wait for ever.
-/

namespace FlavoEngine.Engine

open FlavoEngine.Lib

/-- The steps of `Loop` and of the pool, without the time-outs. -/
def SystemLabel.serves {n : Nat} : SystemLabel n → Bool
  | .own l => l.inside
  | .pool l => l.serves
  | .enqueue | .push | .start _ | .call _ _ | .complete _ | .finish _ => true

namespace SystemProgressLemmas

open MovesLemmas FramedLemmas ProgressLemmas PoolWorkerLemmas PoolTaskLemmas PoolWakeupLemmas
open SystemMovesLemmas JoinedLemmas

variable {n : Nat} {s : LoopSystem n}

/-- A step that brings `Loop` further is possible. -/
def SystemServed (s : LoopSystem n) : Prop :=
  ∃ l s', SystemSteps s l s' ∧ l.serves = true

theorem served_of_isSome {l : SystemLabel n} (h : (s.step l).isSome = true)
    (hl : l.serves = true) : SystemServed s := by
  obtain ⟨s', hs'⟩ := Option.isSome_iff_exists.mp h
  exact ⟨l, s', hs', hl⟩

/-! ### The pool goes on -/

theorem served_within {l : PoolLabel Unit Nat n} {pool : ThreadPool Unit Nat n}
    (hpoint : s.loop.point ≠ .aborted) (hl : l.within = true) (hserves : l.serves = true)
    (hstep : PoolSteps s.pool l pool) : SystemServed s := by
  refine served_of_isSome (l := .pool l) ?_ hserves
  simp only [LoopSystem.step, if_neg hpoint, LoopSystem.within, if_pos hl,
    show s.pool.step l = some pool from hstep, Option.map_some, Option.isSome_some]

theorem served_push {k : TaskKind} {c : PoolThread Unit n} (pool : ThreadPool Unit Nat n)
    (hpoint : s.loop.point = .submit k) (hcarrier : s.carrier = some c)
    (hpush : LoopSystem.pushCall s.pool c = some pool) : SystemServed s := by
  refine served_of_isSome (l := .push) ?_ rfl
  simp [LoopSystem.step, LoopSystem.push, hpoint, hcarrier, hpush]

theorem served_start {w : Fin (n + 1)} {pool : ThreadPool Unit Nat n} (h : Joined s)
    (hpoint : s.loop.point ≠ .aborted) (hstep : PoolSteps s.pool (.start w) pool) :
    SystemServed s := by
  obtain ⟨i, hrun⟩ := not_startAborted h hstep
  have hqueued := queued_of_taken h (taken_start hstep.moves hrun)
  rw [State.phases, List.getElem?_map, Option.map_eq_some_iff] at hqueued
  obtain ⟨t, ht, -⟩ := hqueued
  refine served_of_isSome (l := .start w) ?_ rfl
  have hrunning : ({ s with pool } : LoopSystem n).runningTask w = some i := runningTask_eq.mpr hrun
  simp only [LoopSystem.step, if_neg hpoint, LoopSystem.start,
    show s.pool.start w = some pool from hstep, hrunning, ht, Option.map_some, Option.isSome_some]

/-- The task that a worker runs can go on, or is over. -/
theorem served_running {w : Fin (n + 1)} {i : Nat} (h : Joined s)
    (hpoint : s.loop.point ≠ .aborted) (hrun : (s.pool.workers w).phase = .running i) :
    SystemServed s ∨ s.loop.phases[i]? = some .finished := by
  have hrunning : s.runningTask w = some i := runningTask_eq.mpr hrun
  rcases h.running w i (mem_running.mpr hrun) with hphase | hphase | hphase
  · rw [State.phases, List.getElem?_map, Option.map_eq_some_iff] at hphase
    obtain ⟨t, ht, hstarted⟩ := hphase
    refine .inl (served_of_isSome (l := .call w .outerException) ?_ rfl)
    simp [LoopSystem.step, hpoint, LoopSystem.call, hrunning, State.callTask, ht, Task.call,
      hstarted]
  · rw [State.phases, List.getElem?_map, Option.map_eq_some_iff] at hphase
    obtain ⟨t, ht, hcalled⟩ := hphase
    refine .inl (served_of_isSome (l := .complete w) ?_ rfl)
    simp only [LoopSystem.step, if_neg hpoint, LoopSystem.complete, hrunning, State.completeTask, ht,
      Task.publish, if_pos hcalled, ResultState.completeProducer, Option.isSome_map]
    split
    · next hpublish => cases hpublish
    · next hpublish =>
      -- the consumer is `Loop`, suspended
      have hset : t.outer.pcState = .consumerSet := (Prod.mk.inj (Option.some.inj hpublish)).1
      have hsuspended := suspended_of_consumer h.framed ht hset
      simp [State.resumeLoop, State.setTask, hsuspended]
    · rfl
  · exact .inr hphase

/-- Where the pool can go on, the system can. -/
theorem served_of_pool {l : PoolLabel Unit Nat n} {pool : ThreadPool Unit Nat n} (h : Joined s)
    (hpoint : s.loop.point ≠ .aborted) (hstep : PoolSteps s.pool l pool) (hserves : l.serves = true)
    (hfinish : ∀ w, l = .finish w → s.loop.carrier ≠ some (.worker w)) : SystemServed s := by
  have hm := hstep.moves
  cases l with
  | enqueue | enqueueSpan | timeOut | giveUp | block | resume | raise | leave | shutdown | stop =>
    cases hserves
  | enter | find | release | drain | acquire | readFlag | relock | endLoop | balance | donate =>
    exact served_within hpoint rfl rfl hstep
  | start w => exact served_start h hpoint hstep
  | enqueueLocal c =>
    have hcall : ∃ p ts rest, s.pool.call c = .enqueueLocal p ts rest := by
      cases hm with
      | enqueueLocal hcall | rejectLocal hcall => exact ⟨_, _, _, hcall⟩
      | work _ hmove => cases hmove
    obtain ⟨p, ts, rest, hcall⟩ := hcall
    obtain ⟨hcarrier, k, hsubmit⟩ := (h.calls c).2 (by rw [hcall]; simp)
    refine served_push pool hsubmit hcarrier ?_
    rw [LoopSystem.pushCall, hcall]
    exact hstep
  | enqueueForeign c =>
    have hcall : ∃ p parts rest, s.pool.call c = .enqueueForeign p parts rest := by
      cases hm with
      | enqueueForeign hcall | rejectForeign hcall => exact ⟨_, _, _, hcall⟩
      | work _ hmove => cases hmove
    obtain ⟨p, parts, rest, hcall⟩ := hcall
    obtain ⟨hcarrier, k, hsubmit⟩ := (h.calls c).2 (by rw [hcall]; simp)
    refine served_push pool hsubmit hcarrier ?_
    rw [LoopSystem.pushCall, hcall]
    exact hstep
  | finish w =>
    cases hm with
    | work _ hmove => cases hmove
    | @finish _ i hrun =>
      rcases served_running h hpoint hrun with hserved | hfinished
      · exact hserved
      · refine served_of_isSome (l := .finish w) ?_ rfl
        rw [State.phases, List.getElem?_map] at hfinished
        have hpool : s.pool.finish w = some _ := hstep
        simp only [LoopSystem.step, if_neg hpoint, LoopSystem.finish, runningTask_eq.mpr hrun,
          hfinished, hfinish w rfl, ne_eq, not_false_eq_true, and_self, if_true, hpool,
          Option.map_some, Option.isSome_some]

/-! ### `Loop` goes on -/

/-- The thread that carries `Loop` is one of the pool. -/
theorem exists_inPool {t : Thread} (h : Joined s) (ht : s.loop.carrier = some t) :
    ∃ c, t.inPool n = some c ∧ s.carrier = some c := by
  have hcarrier : ∀ {c}, t.inPool n = some c → s.carrier = some c := fun hc =>
    Option.bind_eq_some_iff.mpr ⟨t, ht, hc⟩
  cases t with
  | main => exact ⟨.external (), rfl, hcarrier rfl⟩
  | worker v =>
    obtain ⟨w, rfl, -⟩ := h.carrying v ht
    have hw : (Thread.worker w.val).inPool n = some (.worker w) := dif_pos w.isLt
    exact ⟨.worker w, hw, hcarrier hw⟩

/-- The carrier of `Loop` may enqueue. -/
theorem mayEnqueue_carrier {t : Thread} {c : PoolThread Unit n} (h : Joined s)
    (ht : s.loop.carrier = some t) (hc : t.inPool n = some c) : s.pool.mayEnqueue c = true := by
  cases t with
  | main =>
    cases hc
    rfl
  | worker v =>
    obtain ⟨w, rfl, i, hi⟩ := h.carrying v ht
    rw [show (Thread.worker w.val).inPool n = some (.worker w) from dif_pos w.isLt] at hc
    cases hc
    simp only [ThreadPool.mayEnqueue, mem_running.mp hi, h.free w, Bool.not_false]

theorem submit_of_isSome {r : State} {o : Submission} (h : (r.submitTask o).isSome = true) :
    ∃ k, r.point = .submit k := by
  unfold State.submitTask at h
  split at h
  · next hpoint => exact ⟨_, hpoint⟩
  · cases h

theorem served_carrier {t : Thread} (h : Joined s) (hcalls : ∀ c, CallOk c (s.pool.call c))
    (hcarrier : s.loop.carrier = some t) (hdone : s.loop.point ≠ .done)
    (habort : s.loop.point ≠ .aborted) : SystemServed s := by
  obtain ⟨c, hc, hsome⟩ := exists_inPool h hcarrier
  by_cases hquiet : s.pool.quiet c = true
  swap
  · obtain ⟨l, pool, hstep, hthread, -, hserves⟩ :=
      (quiet_or_goesOn (s := s.pool) True hcalls c).resolve_left hquiet
    refine served_of_pool h habort hstep (hserves trivial) ?_
    rintro w rfl
    -- a worker in a call of `enqueue` is not at the end of its task
    cases hthread
    cases hstep.moves with
    | work _ hmove => cases hmove
    | finish _ hq => exact absurd hq hquiet
  have hcarrierQuiet : s.carrierQuiet = true := by
    rw [LoopSystem.carrierQuiet, hsome]
    exact hquiet
  obtain ⟨hsuspended, -⟩ := h.carried.running t hcarrier
  by_cases hsubmit : ∃ k, s.loop.point = .submit k
  · obtain ⟨k, hsubmit⟩ := hsubmit
    refine served_of_isSome (l := .enqueue) ?_ rfl
    have hnew : s.loop.tasks.length ∉ s.pool.submitted := fun hmem => by
      have hlength : s.loop.phases.length = s.loop.tasks.length := List.length_map ..
      rcases h.next _ hmem with hlt | ⟨-, d, hd⟩
      · omega
      · exact hd (call_none h hcarrierQuiet d)
    simp [LoopSystem.step, LoopSystem.enqueue, hsubmit, hsome, ThreadPool.enqueue, hquiet,
      mayEnqueue_carrier h hcarrier hc, hnew]
  · obtain ⟨l, hl, hact⟩ := carrier_step h.framed hcarrier hsuspended hdone habort
    refine served_of_isSome (l := .own l) ?_ (inside_of_byLoop hl)
    have hpart : l.poolPart = false := by
      cases l with
      | submit o => exact absurd (submit_of_isSome hact) hsubmit
      | start | call | complete => cases hl
      | _ => rfl
    obtain ⟨loop, hloop⟩ := Option.isSome_iff_exists.mp hact
    simp [LoopSystem.step, habort, LoopSystem.own, hpart, hcarrierQuiet, Engine.step, hloop]

/-- While `Loop` is suspended, the worker of the awaited task or the pool goes on. -/
theorem served_suspended {k : TaskKind} {lv : Level} (h : Joined s) (hheard : HeardOk s.pool)
    (hcarrier : s.loop.carrier = none) (hsuspended : s.loop.point = .suspended k lv) :
    SystemServed s := by
  have hpoint : s.loop.point ≠ .aborted := by simp [hsuspended]
  obtain ⟨i, t, ht, hset⟩ := h.carried.waiting k lv hsuspended
  have htask := (awaited_eq_some.mp ht).2
  have hphases := phases_of_task htask
  have hrun : ∀ v, t.phase = .started v ∨ t.phase = .called v → SystemServed s := by
    intro v hv
    obtain ⟨w, -, hw⟩ := h.started v i
      (hv.imp (fun heq => hphases.trans (congrArg some heq)) fun heq =>
        hphases.trans (congrArg some heq))
    refine (served_running h hpoint (mem_running.mp hw)).resolve_right fun hfinished => ?_
    rw [hphases, Option.some.injEq] at hfinished
    rcases hv with hv | hv <;> simp [hv] at hfinished
  cases hphase : t.phase with
  | started v => exact hrun v (.inl hphase)
  | called v => exact hrun v (.inr hphase)
  | finished =>
    have hdone := (h.framed.sound i t htask).published.mpr hphase
    rw [hset] at hdone
    cases hdone
  | queued =>
    rw [hphase] at hphases
    have hleft : i ∉ s.pool.executed := fun hi => by
      rw [h.executed i hi] at hphases
      cases hphases
    obtain ⟨l, pool, hstep, hserves⟩ :=
      served_left hheard h.placed h.abort (h.submitted i hphases) hleft fun w _ => h.free w
    exact served_of_pool h hpoint hstep hserves fun w _ => by simp [hcarrier]

end SystemProgressLemmas

open JoinedLemmas PoolWakeupLemmas SystemProgressLemmas

variable {n : Nat} {s : LoopSystem n} {tr : List (LoopSystem n × SystemLabel n × LoopSystem n)}

/-- Until `Loop` is over, `Loop` or a thread of the pool can go on, in the runs in which no wait of
the pool times out over a queue that is not empty and no push comes between a time-out and its lock.
No task of `Loop` leaves by an exception, so nothing else is asked of the run. -/
theorem system_progress (h : Run SystemSteps .init tr s)
    (hintime : Meets InTime (image LoopSystem.pool LoopSystem.poolLabel tr))
    (hwin : s.loop.winMain ≠ .constructing) (hdone : s.loop.point ≠ .done)
    (habort : s.loop.point ≠ .aborted) :
    ∃ l s', SystemSteps s l s' ∧ l.serves = true := by
  have hjoined := joined_run h
  have hheard : HeardOk s.pool := (pool_run h).inv heardOk_init heardOk_step hintime
  cases hcarrier : s.loop.carrier with
  | some t => exact served_carrier hjoined hheard.calls hcarrier hdone habort
  | none =>
    rcases hjoined.carried.resting hwin hcarrier with ⟨k, lv, hpoint⟩ | hpoint
    · exact served_suspended hjoined hheard hcarrier hpoint
    · exact absurd hpoint hdone

/-- `Loop` is suspended, and both tasks are in the queues of workers whose threads have just
begun. -/
theorem system_progress_suspended : ∃ tr s, Run SystemSteps (.init : LoopSystem 1) tr s ∧
    s.loop.point = .suspended .game .outer ∧ (s.pool.workers 0).publicQueue = [0] ∧
      ∃ l s', SystemSteps s l s' ∧ l.serves = true := by
  obtain ⟨tr, s, hrun, -, hview⟩ := exists_run LoopSystem.step (R := SystemSteps) id
    (.init : LoopSystem 1)
    [.own .construct, .own (.peek none),
      .enqueue, .pool (.enter (.external ())), .pool (.find (.external ()) (some 0)), .push,
      .enqueue, .pool (.enter (.external ())), .pool (.find (.external ()) (some 1)), .push,
      .own .await]
    (fun r => (r.2.loop.winMain, r.2.loop.point, (r.2.pool.workers 0).publicQueue,
      (image LoopSystem.pool LoopSystem.poolLabel r.1).all fun t => decide (InTime t.1 t.2.1)))
    (v := (.inLoop, .suspended .game .outer, [0], true)) (by decide)
  obtain ⟨hwin, hrest⟩ := Prod.mk.inj hview
  obtain ⟨hpoint, hrest⟩ := Prod.mk.inj hrest
  obtain ⟨hqueue, hall⟩ := Prod.mk.inj hrest
  have hwin : s.loop.winMain = .inLoop := hwin
  have hpoint : s.loop.point = .suspended .game .outer := hpoint
  exact ⟨tr, s, hrun, hpoint, hqueue, system_progress hrun (meets_of_all hall)
    (by simp [hwin]) (by simp [hpoint]) (by simp [hpoint])⟩

/-- `Loop` is suspended, no worker has a thread and no thread is in a call of `enqueue`. -/
theorem not_served {l : SystemLabel n} {s' : LoopSystem n} (hcarrier : s.loop.carrier = none)
    (hgone : ∀ w, (s.pool.workers w).phase = .gone)
    (hquiet : ∀ c, s.pool.call c = .none ∧ s.pool.release c = none) (hstep : SystemSteps s l s') :
    l.serves = false := by
  have hnone : s.carrier = none := by simp [LoopSystem.carrier, hcarrier]
  have hwork : ∀ {w : Fin (n + 1)} {l : PoolLabel Unit Nat n} {a : Worker Nat n},
      ¬ WorkerMoves w (s.pool.workers w) l a := by
    intro w l a hmove
    have hphase := hgone w
    cases hmove <;> simp_all
  cases hstep.moves with
  | @own l loop hl _ hown =>
    show l.inside = false
    cases hown.moves with
    | construct | post | enterGet | leaveGet => rfl
    | enqueued | start | call | wake | complete => cases hl
    | _ => simp_all
  | enqueue _ hsome | pushLocal _ hsome | pushForeign _ hsome =>
    rw [hnone] at hsome
    cases hsome
  | start hpool | startAborted hpool =>
    cases PoolSteps.moves hpool with
    | work _ hmove => exact absurd hmove hwork
  | call hrun | complete hrun | finish hrun =>
    rw [hgone] at hrun
    cases hrun
  | pool hl hpool =>
    cases PoolSteps.moves hpool with
    | work _ hmove => exact absurd hmove hwork
    | donate hphase | donateRejected hphase =>
      rw [hgone] at hphase
      cases hphase
    | release hrelease =>
      rw [(hquiet _).2] at hrelease
      cases hrelease
    | enterLocal hcall | enter hcall | found hcall | foundNone hcall | roundRobin hcall =>
      rw [(hquiet _).1] at hcall
      cases hcall
    | _ => cases hl

/-- The only worker has run the first task and its wait has timed out; before it has the lock the
second task is pushed to it. -/
def lateFrameOverPool : List (SystemLabel 0) :=
  [.own .construct, .own (.peek none),
   .enqueue, .pool (.enter (.external ())), .pool (.find (.external ()) (some 0)), .push,
   .pool (.drain 0), .pool (.balance 0 []), .start 0, .call 0 (.returned .void), .complete 0,
   .finish 0, .pool (.endLoop 0), .pool (.drain 0), .pool (.timeOut 0),
   .enqueue, .pool (.enter (.external ())), .pool (.find (.external ()) none), .push,
   .pool (.release (.external ())), .pool (.giveUp 0),
   .own .await, .own .resume, .own .await, .own .resume, .own .await]

/-- `Loop` waits for a task that no thread comes to look at. -/
theorem system_stuck : ∃ tr s, Run SystemSteps (.init : LoopSystem 0) tr s ∧
    s.loop.point = .suspended .render .outer ∧ ∀ l s', SystemSteps s l s' → l.serves = false := by
  obtain ⟨tr, s, hrun, -, hview⟩ := exists_run LoopSystem.step (R := SystemSteps) id
    (.init : LoopSystem 0) lateFrameOverPool
    (fun r => (r.2.loop.point, r.2.loop.carrier, r.2.pool.call (.external ()),
      r.2.pool.release (.external ()), decide (∀ w, (r.2.pool.workers w).phase = .gone ∧
        r.2.pool.call (.worker w) = .none ∧ r.2.pool.release (.worker w) = none)))
    (v := (.suspended .render .outer, none, .none, none, true)) (by decide)
  obtain ⟨hpoint, hrest⟩ := Prod.mk.inj hview
  obtain ⟨hcarrier, hrest⟩ := Prod.mk.inj hrest
  obtain ⟨hcall, hrest⟩ := Prod.mk.inj hrest
  obtain ⟨hrelease, hworkers⟩ := Prod.mk.inj hrest
  have hworkers := of_decide_eq_true hworkers
  refine ⟨tr, s, hrun, hpoint, fun l s' =>
    not_served hcarrier (fun w => (hworkers w).1) fun c => ?_⟩
  cases c with
  | external x => exact ⟨hcall, hrelease⟩
  | worker w => exact (hworkers w).2

end FlavoEngine.Engine

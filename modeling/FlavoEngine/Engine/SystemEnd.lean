import FlavoEngine.Engine.LoopOverPool
import FlavoEngine.Engine.PoolShutdown
import FlavoEngine.Engine.TaskLifetime

/-!
# The end of the program

When `WinMain` has left `Loop` the game is destroyed, and then the runtime, which shuts the pool
down. `shutdown` destroys the tasks that it finds in the queues.

Results:
1. `end_loses_no_task`: while no exception leaves `Loop` over a task in flight, `shutdown` finds no
   task, and when it is over each task of `Loop` was executed.
2. `end_destroys_task`: after such an exception `shutdown` may destroy a task that nobody executed.
-/

namespace FlavoEngine.Engine

open FlavoEngine.Lib

/-- The step passes a task to the pool. -/
def PoolLabel.submits {X T : Type} {n : Nat} : PoolLabel X T n → Bool
  | .enqueue _ _ | .enqueueSpan _ _ => true
  | _ => false

/-- No task is left but those that the workers run. -/
structure Spent {X T : Type} {n : Nat} (s : ThreadPool X T n) : Prop where
  calls : ∀ c, s.call c = .none
  publicQueue : ∀ w, (s.workers w).publicQueue = []
  privateQueue : ∀ w, (s.workers w).privateQueue = []
  dropped : s.dropped = []
  returned : s.returned = []

namespace SystemEndLemmas

open FramedLemmas PoolTaskLemmas TaskLifetimeLemmas

section Pool

variable {X T : Type} {n : Nat} [DecidableEq X] [DecidableEq T]
variable {s s' : ThreadPool X T n} {l : PoolLabel X T n} {w : Fin (n + 1)} {a : Worker T n}

omit [DecidableEq X] [DecidableEq T] in
/-- A worker gets other queues, which are empty too. -/
theorem spent_setWorker (h : Spent s) (hpublic : a.publicQueue = []) (hprivate : a.privateQueue = []) :
    Spent (s.setWorker w a) := by
  refine ⟨h.calls, fun v => ?_, fun v => ?_, h.dropped, h.returned⟩
  · rcases eq_or_ne v w with rfl | hne
    · rwa [ThreadPool.setWorker_workers_self]
    · rw [ThreadPool.setWorker_workers_of_ne s w a hne]
      exact h.publicQueue v
  · rcases eq_or_ne v w with rfl | hne
    · rwa [ThreadPool.setWorker_workers_self]
    · rw [ThreadPool.setWorker_workers_of_ne s w a hne]
      exact h.privateQueue v

omit [DecidableEq X] [DecidableEq T] in
/-- To push no task to a worker changes no queue. -/
theorem enqueueForeign_nil :
    (a.enqueueForeign []).2.publicQueue = a.publicQueue ∧
      (a.enqueueForeign []).2.privateQueue = a.privateQueue := by
  unfold Worker.enqueueForeign
  split <;> exact ⟨List.append_nil _, rfl⟩

theorem spent_step (h : Spent s) (hl : l.submits = false) (hstep : PoolSteps s l s') : Spent s' := by
  have hno : ∀ {c : PoolThread X n} {k : PoolCall T n}, s.call c = k → k ≠ .none → Spent s' :=
    fun hcall hk => absurd ((h.calls _).symm.trans hcall) (Ne.symm hk)
  cases hstep.moves with
  | enqueue | enqueueSpan => cases hl
  | enterLocal hcall | enter hcall | found hcall | foundNone hcall | roundRobin hcall
  | enqueueLocal hcall | rejectLocal hcall | enqueueForeign hcall | rejectForeign hcall =>
    exact hno hcall (by simp)
  | @release c w =>
    have hset := spent_setWorker (w := w) (a := { s.workers w with semaphore := true }) h
      (h.publicQueue w) (h.privateQueue w)
    exact ⟨hset.calls, hset.publicQueue, hset.privateQueue, hset.dropped, hset.returned⟩
  | @work w _ a _ hmove =>
    rcases work_tasks hmove with ⟨hpublic, hprivate, -⟩ | ⟨hpublic, hprivate, -⟩ |
      ⟨t, -, hprivate, -⟩
    · exact spent_setWorker h (hpublic.trans (h.publicQueue w)) (hprivate.trans (h.privateQueue w))
    · exact spent_setWorker h (hpublic.trans (h.privateQueue w)) (hprivate.trans (h.publicQueue w))
    · -- the worker takes a task out of its queue
      simp [h.privateQueue w] at hprivate
  | @donate w v k more =>
    have hempty : (s.workers w).privateQueue = [] := h.privateQueue w
    have hgiven : Spent (s.setWorker w ((s.workers w).give k more)) :=
      spent_setWorker h (h.publicQueue w) (by simp [Worker.give, hempty])
    have hset := spent_setWorker (w := v) hgiven (enqueueForeign_nil.1.trans (hgiven.publicQueue v))
      (enqueueForeign_nil.2.trans (hgiven.privateQueue v))
    unfold ThreadPool.donateTo
    rw [hempty, List.take_nil]
    exact ⟨hset.calls, hset.publicQueue, hset.privateQueue, hset.dropped, hset.returned⟩
  | donateRejected => exact spent_setWorker h (h.publicQueue _) (h.privateQueue _)
  | @finish w =>
    have hset := spent_setWorker (w := w) (a := { s.workers w with phase := .loop }) h
      (h.publicQueue w) (h.privateQueue w)
    exact ⟨hset.calls, hset.publicQueue, hset.privateQueue, hset.dropped, hset.returned⟩
  | @raise w =>
    have hset := spent_setWorker (w := w) (a := { s.workers w with phase := .aborting }) h
      (h.publicQueue w) (h.privateQueue w)
    exact ⟨hset.calls, hset.publicQueue, hset.privateQueue, hset.dropped, hset.returned⟩
  | shutdownAgain => exact h
  | shutdown => exact ⟨h.calls, h.publicQueue, h.privateQueue, h.dropped, h.returned⟩
  | @stop w stage a ts shutdown _ hmove =>
    have hstop : a.publicQueue = [] ∧ a.privateQueue = [] ∧ ts = [] := by
      cases hmove with
      | clear => exact ⟨rfl, rfl, by rw [h.publicQueue w, h.privateQueue w]; rfl⟩
      | _ => exact ⟨h.publicQueue w, h.privateQueue w, rfl⟩
    obtain ⟨hpublic, hprivate, rfl⟩ := hstop
    have hset := spent_setWorker (w := w) h hpublic hprivate
    exact ⟨hset.calls, hset.publicQueue, hset.privateQueue,
      (List.append_nil _).trans h.dropped, h.returned⟩

omit [DecidableEq X] [DecidableEq T] in
/-- Each task is run by a worker or was executed. -/
theorem spent_tasks {t : T} (h : Spent s) (hplaced : Placed s.tasksAt {t | t ∈ s.submitted})
    (ht : t ∈ s.submitted) : t ∈ s.executed ∨ ∃ w, t ∈ s.tasksAt (.running w) := by
  obtain ⟨p, hp⟩ := (hplaced.cover t).mp ht
  cases p with
  | running w => exact .inr ⟨w, hp⟩
  | executed => exact .inl hp
  | hand c => simp [ThreadPool.tasksAt, h.calls] at hp
  | publicQueue w => simp [ThreadPool.tasksAt, h.publicQueue] at hp
  | privateQueue w => simp [ThreadPool.tasksAt, h.privateQueue] at hp
  | dropped => simp [ThreadPool.tasksAt, h.dropped] at hp
  | returned => simp [ThreadPool.tasksAt, h.returned] at hp

end Pool

/-! ### Where `Loop` ends -/

/-- A ready result of `Loop` means that no task is in flight. -/
theorem quiet_of_ready {r : State} {tr : List (State × Label × State)} (h : Run Step State.init tr r)
    (hkept : Meets (fun r l => ¬ Abandons r l) tr) (hready : r.ready) : r.Quiet := by
  by_cases hfailed : r.failed
  · exact quiet_of_failed h hkept hfailed
  · intro t ht
    obtain ⟨i, hi⟩ := List.getElem?_of_mem ht
    exact complete_of_owes (framed h) hfailed hi (by rw [point_of_ready h hready]; rfl)

variable {n : Nat} {s : LoopSystem n}

/-- No task of `Loop` is in a queue of the pool or in a call of `enqueue`. -/
theorem spent_of_quiet (h : Joined s) (hquiet : s.loop.Quiet) (hdone : s.loop.point = .done) :
    Spent s.pool := by
  have hempty : ∀ p : TaskPlace Unit n, p.isQueue = true → s.pool.tasksAt p = [] := by
    intro p hp
    refine List.eq_nil_iff_forall_not_mem.mpr fun i hi => ?_
    have hqueued := h.queued p i hp hi
    rw [State.phases, List.getElem?_map, Option.map_eq_some_iff] at hqueued
    obtain ⟨t, ht, hphase⟩ := hqueued
    rw [complete_of_quiet hquiet h.framed ht] at hphase
    cases hphase
  refine ⟨fun c => Classical.byContradiction fun hc => ?_, fun w => hempty (.publicQueue w) rfl,
    fun w => hempty (.privateQueue w) rfl, h.poolOk.dropped h.abort, h.poolOk.returned h.abort⟩
  obtain ⟨-, k, hsubmit⟩ := (h.calls c).2 hc
  rw [hdone] at hsubmit
  cases hsubmit

end SystemEndLemmas

open JoinedLemmas PoolTaskLemmas PoolShutdownLemmas SystemEndLemmas

variable {n : Nat} {s : LoopSystem n} {tr : List (LoopSystem n × SystemLabel n × LoopSystem n)}
variable {pool : ThreadPool Unit Nat n}
variable {tr' : List (ThreadPool Unit Nat n × PoolLabel Unit Nat n × ThreadPool Unit Nat n)}

/-- Once the result of `Loop` is ready, and no exception left `Loop` over a task in flight, the pool
destroys no task, whatever it does and also when it is shut down. When `shutdown` is over each task
was executed and no worker has a thread. -/
theorem end_loses_no_task (h : Run SystemSteps .init tr s)
    (hkept : Meets (fun r l => ¬ Abandons r l) (image LoopSystem.loop LoopSystem.loopLabel tr))
    (hready : s.loop.ready) (hafter : Run PoolSteps s.pool tr' pool)
    (hcalls : Meets (fun _ l => l.submits = false) tr') :
    pool.dropped = [] ∧ (∀ i ∈ pool.submitted, i ∈ pool.executed ∨
        ∃ w, (pool.workers w).phase = .running i) ∧
      (pool.shutdown = .finished →
        (∀ w, Stopped (pool.workers w)) ∧ ∀ i ∈ pool.submitted, i ∈ pool.executed) := by
  have hloop := loop_run h
  have hquiet := quiet_of_ready hloop hkept hready
  have hbegin : Spent s.pool := spent_of_quiet (joined_run h) hquiet (point_of_ready hloop hready)
  have hspent : Spent pool := hafter.inv hbegin spent_step hcalls
  obtain ⟨hshutdown, hplaced⟩ : ShutdownOk pool ∧ Placed pool.tasksAt {i | i ∈ pool.submitted} :=
    hafter.inv_all (I := fun r => ShutdownOk r ∧ Placed r.tasksAt {i | i ∈ r.submitted})
      ⟨(pool_run h).inv_all shutdownOk_init shutdownOk_step, (joined_run h).placed⟩ fun hok hstep =>
        ⟨shutdownOk_step hok.1 hstep, placed_step hok.1.pool.settled hok.2 hstep.moves⟩
  have htasks : ∀ i ∈ pool.submitted, i ∈ pool.executed ∨ ∃ w, (pool.workers w).phase = .running i :=
    fun i hi => (spent_tasks hspent hplaced hi).imp_right fun ⟨w, hw⟩ => ⟨w, mem_running.mp hw⟩
  refine ⟨hspent.dropped, htasks, fun hover => ?_⟩
  have hstopped : ∀ w, Stopped (pool.workers w) := fun w => by
    have hshut := hshutdown.shut w
    rwa [hover] at hshut
  refine ⟨hstopped, fun i hi => (htasks i hi).resolve_right fun ⟨w, hw⟩ => ?_⟩
  rw [(hstopped w).gone] at hw
  cases hw

/-- A replay of the system, and one of its pool from where the first ends. -/
theorem exists_end {V : Type} (ls : List (SystemLabel n)) (ls' : List (PoolLabel Unit Nat n))
    (view : List (LoopSystem n × SystemLabel n × LoopSystem n) × LoopSystem n →
      List (ThreadPool Unit Nat n × PoolLabel Unit Nat n × ThreadPool Unit Nat n) ×
        ThreadPool Unit Nat n → V) {v : V}
    (h : ((exec LoopSystem.step .init ls).bind fun r =>
      (exec ThreadPool.step r.2.pool ls').map (view r)) = some v) :
    ∃ tr s tr' pool, Run SystemSteps .init tr s ∧ Run PoolSteps s.pool tr' pool ∧
      view (tr, s) (tr', pool) = v := by
  obtain ⟨⟨tr, s⟩, hexec, hmap⟩ := Option.bind_eq_some_iff.mp h
  obtain ⟨⟨tr', pool⟩, hexec', hview⟩ := Option.map_eq_some_iff.mp hmap
  exact ⟨tr, s, tr', pool, (run_of_exec (R := SystemSteps) id hexec).1,
    (run_of_exec (R := PoolSteps) id hexec').1, hview⟩

/-- The only worker executes both tasks of the frame, and `Loop` is left by its message. -/
def quietFrame (w : Fin 1) : List (SystemLabel 0) :=
  [.own .construct, .own (.peek none),
   .enqueue, .pool (.enter (.external ())), .pool (.find (.external ()) (some w)), .push,
   .enqueue, .pool (.enter (.external ())), .pool (.find (.external ()) (some w)), .push,
   .pool (.drain w), .pool (.balance w []), .start w, .call w (.returned (.updated true)),
   .complete w, .finish w, .pool (.balance w []), .start w, .call w (.returned .void),
   .complete w, .finish w, .own .await, .own .resume, .own .await, .own .resume, .own .await,
   .own .resume, .own .await, .own .resume, .own (.check .abort), .own .startSync, .own .endSync,
   .own (.post .main .quit), .own (.peek (some 0)), .own .publish]

/-- `submit` of the render task throws while the game task is in the queue. -/
def brokenFrame (w : Fin 1) : List (SystemLabel 0) :=
  [.own .construct, .own (.peek none),
   .enqueue, .pool (.enter (.external ())), .pool (.find (.external ()) (some w)), .push,
   .own (.submit .throws), .own .publish, .own .enterGet, .own .leaveGet]

/-- `shutdown`, to which the worker comes with its next task. -/
def shutdownAfter (w : Fin 1) : List (PoolLabel Unit Nat 0) :=
  [.shutdown, .stop, .stop, .stop, .stop, .drain w, .stop, .stop]

theorem end_loses_no_task_frame : ∃ tr s tr' pool, Run SystemSteps (.init : LoopSystem 0) tr s ∧
    Run PoolSteps s.pool tr' pool ∧ s.loop.syncsDone = 1 ∧ pool.submitted = [0, 1] ∧
      pool.dropped = [] ∧ (∀ w, Stopped (pool.workers w)) ∧
        ∀ i ∈ pool.submitted, i ∈ pool.executed := by
  obtain ⟨tr, s, tr', pool, hrun, hafter, hview⟩ := exists_end (quietFrame 0)
    (.endLoop 0 :: shutdownAfter 0)
    (fun r q => (r.2.loop.syncsDone, r.2.loop.result.pcState, q.2.submitted, q.2.shutdown,
      (image LoopSystem.loop LoopSystem.loopLabel r.1).all fun t => decide (¬ Abandons t.1 t.2.1),
      q.1.all fun t => decide (t.2.1.submits = false)))
    (v := (1, .producerDone, [0, 1], .finished, true, true)) (by decide +kernel)
  obtain ⟨hsyncs, hrest⟩ := Prod.mk.inj hview
  obtain ⟨hready, hrest⟩ := Prod.mk.inj hrest
  obtain ⟨hsubmitted, hrest⟩ := Prod.mk.inj hrest
  obtain ⟨hover, hrest⟩ := Prod.mk.inj hrest
  obtain ⟨hkept, hcalls⟩ := Prod.mk.inj hrest
  obtain ⟨hdropped, -, hend⟩ :=
    end_loses_no_task hrun (meets_of_all hkept) hready hafter (meets_of_all hcalls)
  obtain ⟨hstopped, hexecuted⟩ := hend hover
  exact ⟨tr, s, tr', pool, hrun, hafter, hsyncs, hsubmitted, hdropped, hstopped, hexecuted⟩

/-- The game task is destroyed after its game. -/
theorem end_destroys_task : ∃ tr s tr' pool, Run SystemSteps (.init : LoopSystem 0) tr s ∧
    Run PoolSteps s.pool tr' pool ∧ s.loop.winMain = .left ∧ pool.shutdown = .finished ∧
      pool.dropped = [0] ∧ pool.executed = [] := by
  obtain ⟨tr, s, tr', pool, hrun, hafter, hview⟩ := exists_end (brokenFrame 0)
    (shutdownAfter 0)
    (fun r q => (r.2.loop.winMain, q.2.shutdown, q.2.dropped, q.2.executed))
    (v := (.left, .finished, [0], [])) (by decide +kernel)
  obtain ⟨hleft, hrest⟩ := Prod.mk.inj hview
  obtain ⟨hover, hrest⟩ := Prod.mk.inj hrest
  obtain ⟨hdropped, hexecuted⟩ := Prod.mk.inj hrest
  exact ⟨tr, s, tr', pool, hrun, hafter, hleft, hover, hdropped, hexecuted⟩

end FlavoEngine.Engine

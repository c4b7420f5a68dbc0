import FlavoEngine.Lib.Tally
import FlavoEngine.Engine.PoolWakeups

/-!
# Shutdown of the pool

`thread_pool_executor::shutdown` stops the workers one after another. Each is told to abort, woken
and joined, and its queues are cleared. Meanwhile the other workers run on.

A later call of `shutdown` returns at once, so only the return of the first call says that it is
over.

Results:
1. `shutdown_over`: once the first call of `shutdown` is over no worker has a thread or a task, each
   task was executed or destroyed, is its caller's again or is in the hand of a thread, and from
   then on no task is executed any more.
2. `join_ends`: from the moment `shutdown` waits for a worker, the worker takes a bounded number of
   steps outside of its task, and until its thread is gone it can take one unless its task is
   blocked. So `shutdown` waits for the task that the worker runs, and for nothing else.
-/

namespace FlavoEngine.Engine

open FlavoEngine.Lib

/-! ## What shutdown has done -/

section Stages

variable {T : Type} {n : Nat}

/-- A worker that was told to abort. -/
structure Told (a : Worker T n) : Prop where
  atomicAbort : a.atomicAbort = true
  abort : a.abort = true
  flag : a.phase ≠ .gone → a.taskFoundOrAbort = true

/-- Its semaphore was released, too: it does not fall asleep again. -/
structure Joining (a : Worker T n) : Prop extends Told a where
  woken : a.phase = .waiting → a.semaphore = true

/-- A worker that is stopped. -/
structure Stopped (a : Worker T n) : Prop where
  abort : a.abort = true
  gone : a.phase = .gone
  publicQueue : a.publicQueue = []
  privateQueue : a.privateQueue = []

/-- The worker at which `shutdown` is. -/
def StopOk (a : Worker T n) : ShutdownStage → Prop
  | .setAtomicAbort => True
  | .setAbort => a.atomicAbort = true
  | .notify => a.atomicAbort = true ∧ a.abort = true
  | .releaseSemaphore => Told a
  | .join => Joining a
  | .clear => a.abort = true ∧ a.phase = .gone

def ShutOk (w : Fin (n + 1)) (a : Worker T n) : Shutdown n → Prop
  | .notCalled => True
  | .stopping v stage => (w < v → Stopped a) ∧ (w = v → StopOk a stage)
  | .finished => Stopped a

/-- How many steps a worker takes at most, outside of its task, until its thread is gone. -/
def rank (a : Worker T n) : Nat :=
  match a.phase with
  | .gone => 0
  | .drain | .relock | .timedOut | .aborting => 1
  | .woken | .balanced => 2
  | .waiting => 3
  | .donating donations => donations.length + 2
  | .loop => a.idleWorkerList.length + n + 3
  | .running _ => a.idleWorkerList.length + n + 4

end Stages

/-- The steps of the worker `w` outside of its task. -/
def PoolLabel.inLoop {X T : Type} {n : Nat} (w : Fin (n + 1)) : PoolLabel X T n → Nat
  | .drain v | .acquire v | .timeOut v | .readFlag v | .relock v | .giveUp v | .endLoop v
  | .balance v _ | .donate v | .start v | .finish v | .raise v | .leave v => if v = w then 1 else 0
  | _ => 0

namespace PoolShutdownLemmas

open PoolWorkerLemmas PoolWakeupLemmas

variable {X T : Type} {n : Nat} [DecidableEq X] [DecidableEq T]
variable {s s' : ThreadPool X T n} {l : PoolLabel X T n} {w : Fin (n + 1)} {a a' : Worker T n}

/-! ### One worker -/

omit [DecidableEq X] [DecidableEq T] in
theorem told_work (h : Told a) (hm : WorkerMoves w a l a') : Told a' := by
  cases hm with
  | sleep _ _ hno | drain _ _ hno | sleepAgain _ _ hno | wake _ _ hno =>
    rw [h.abort] at hno
    cases hno
  | drainAborted | wakeAborted | giveUp | leave => exact { h with flag := fun hno => absurd rfl hno }
  | acquire hphase | timeOut hphase | readFlag hphase | readNothing hphase | endLoop hphase
  | keep hphase | balance hphase | abort hphase | start hphase | block hphase | resume hphase =>
    exact { h with flag := fun _ => h.flag (by rw [hphase]; simp) }

omit [DecidableEq X] in
theorem told_update (h : Told a) (hu : WorkerUpdates s l w a a') : Told a' := by
  cases hu with
  | work _ hmove => exact told_work h hmove
  | push | release => exact { h with }
  | foreign hno =>
    rw [h.abort] at hno
    cases hno
  | give _ hphase | giveRejected _ hphase | finish _ hphase | raise _ _ _ hphase =>
    exact { h with flag := fun _ => h.flag (by rw [hphase]; simp) }
  | stop _ hmove =>
    cases hmove with
    | setAtomicAbort => exact { h with atomicAbort := rfl }
    | setAbort => exact { h with abort := rfl }
    | notify => exact { h with flag := fun _ => rfl }
    | releaseSemaphore | join | clear => exact { h with }

omit [DecidableEq X] in
theorem joining_update (h : Joining a) (hu : WorkerUpdates s l w a a') : Joining a' := by
  refine ⟨told_update h.toTold hu, fun hwaiting => ?_⟩
  cases hu with
  | push => exact h.woken hwaiting
  | release => rfl
  | foreign hno =>
    rw [h.abort] at hno
    cases hno
  | giveRejected | finish | raise => cases hwaiting
  | give =>
    unfold Worker.give at hwaiting
    dsimp only at hwaiting
    split at hwaiting <;> cases hwaiting
  | stop _ hmove =>
    cases hmove with
    | releaseSemaphore => rfl
    | _ => exact h.woken hwaiting
  | work _ hmove =>
    cases hmove with
    | sleep _ _ hno | sleepAgain _ _ hno =>
      rw [h.abort] at hno
      cases hno
    | readNothing hphase hno =>
      rw [h.flag (by rw [hphase]; simp)] at hno
      cases hno
    | block | resume => exact h.woken hwaiting
    | _ => cases hwaiting

omit [DecidableEq X] in
theorem atomicAbort_update (h : a.atomicAbort = true) (hu : WorkerUpdates s l w a a') :
    a'.atomicAbort = true := by
  cases hu with
  | work _ hmove => cases hmove <;> exact h
  | foreign =>
    unfold Worker.enqueueForeign
    split <;> exact h
  | stop _ hmove =>
    cases hmove with
    | setAtomicAbort => rfl
    | _ => exact h
  | _ => exact h

omit [DecidableEq X] in
theorem abort_update (h : a.abort = true) (hu : WorkerUpdates s l w a a') : a'.abort = true := by
  cases hu with
  | work _ hmove => cases hmove <;> exact h
  | foreign hno =>
    rw [h] at hno
    cases hno
  | stop _ hmove =>
    cases hmove with
    | setAbort => rfl
    | _ => exact h
  | _ => exact h

omit [DecidableEq X] in
/-- A worker that is not to get tasks gets no thread. -/
theorem gone_update (habort : a.abort = true) (h : a.phase = .gone)
    (hu : WorkerUpdates s l w a a') : a'.phase = .gone := by
  cases hu with
  | work _ hmove =>
    cases hmove with
    | drainAborted | wakeAborted | giveUp | leave => rfl
    | sleep hphase | drain hphase | acquire hphase | timeOut hphase | readFlag hphase
    | readNothing hphase | sleepAgain hphase | wake hphase | endLoop hphase | keep hphase
    | balance hphase | abort hphase | start hphase | block hphase | resume hphase =>
      rw [h] at hphase
      cases hphase
  | push | release => exact h
  | foreign hno =>
    rw [habort] at hno
    cases hno
  | give _ hphase | giveRejected _ hphase | finish _ hphase | raise _ _ _ hphase =>
    rw [h] at hphase
    cases hphase
  | stop _ hmove =>
    cases hmove with
    | _ => exact h

omit [DecidableEq X] in
theorem stopped_update (hcalls : CallsInTasks s) (h : Stopped a) (hu : WorkerUpdates s l w a a') :
    Stopped a' := by
  have hgone := gone_update h.abort h.gone hu
  have habort := abort_update h.abort hu
  suffices hqueues : a'.publicQueue = [] ∧ a'.privateQueue = [] from
    ⟨habort, hgone, hqueues.1, hqueues.2⟩
  cases hu with
  | work _ hmove =>
    cases hmove with
    | drain _ _ hno | wake _ _ hno =>
      rw [h.abort] at hno
      cases hno
    | start hphase =>
      rw [h.gone] at hphase
      cases hphase
    | _ => exact ⟨h.publicQueue, h.privateQueue⟩
  | push hself hcall =>
    obtain ⟨t, hrun⟩ := hcalls w (by rw [hcall]; simp)
    rw [← hself, h.gone] at hrun
    cases hrun
  | foreign hno =>
    rw [h.abort] at hno
    cases hno
  | give _ hphase =>
    rw [h.gone] at hphase
    cases hphase
  | stop _ hmove =>
    cases hmove with
    | clear => exact ⟨rfl, rfl⟩
    | _ => exact ⟨h.publicQueue, h.privateQueue⟩
  | release | giveRejected | finish | raise => exact ⟨h.publicQueue, h.privateQueue⟩

omit [DecidableEq X] in
theorem stopOk_update {stage : ShutdownStage} (h : StopOk a stage) (hu : WorkerUpdates s l w a a') :
    StopOk a' stage := by
  cases stage with
  | setAtomicAbort => trivial
  | setAbort => exact atomicAbort_update h hu
  | notify => exact ⟨atomicAbort_update h.1 hu, abort_update h.2 hu⟩
  | releaseSemaphore => exact told_update h hu
  | join => exact joining_update h hu
  | clear => exact ⟨abort_update h.1 hu, gone_update h.1 h.2 hu⟩

omit [DecidableEq X] in
theorem shutOk_update {d : Shutdown n} (hcalls : CallsInTasks s) (h : ShutOk w a d)
    (hu : WorkerUpdates s l w a a') : ShutOk w a' d := by
  cases d with
  | notCalled => trivial
  | finished => exact stopped_update hcalls h hu
  | stopping v stage =>
    exact ⟨fun hlt => stopped_update hcalls (h.1 hlt) hu, fun heq => stopOk_update (h.2 heq) hu⟩

/-! ### The stages -/

omit [DecidableEq X] [DecidableEq T] in
/-- A stage ends with what the next one needs. -/
theorem shutOk_stop {v : Fin (n + 1)} {stage : ShutdownStage} {ts : List T} {d : Shutdown n}
    (h : ∀ u, ShutOk u (s.workers u) (.stopping v stage))
    (hm : StopMoves v (s.workers v) stage a ts d) (u : Fin (n + 1)) :
    ShutOk u ((s.setWorker v a).workers u) d := by
  have hv : StopOk (s.workers v) stage := (h v).2 rfl
  have hbelow : ∀ {u}, u < v → Stopped ((s.setWorker v a).workers u) := fun {u} hlt => by
    rw [ThreadPool.setWorker_workers_of_ne s v a hlt.ne]
    exact (h u).1 hlt
  have hstay : ∀ {stage' : ShutdownStage}, StopOk a stage' →
      ShutOk u ((s.setWorker v a).workers u) (.stopping v stage') := fun ha =>
    ⟨hbelow, fun heq => by rw [heq, ThreadPool.setWorker_workers_self]; exact ha⟩
  cases hm with
  | setAtomicAbort => exact hstay rfl
  | setAbort => exact hstay ⟨hv, rfl⟩
  | notify => exact hstay ⟨hv.1, hv.2, fun _ => rfl⟩
  | releaseSemaphore => exact hstay ⟨{ hv with }, fun _ => rfl⟩
  | join hgone => exact hstay ⟨hv.abort, hgone⟩
  | clear =>
    have hclear : Stopped { s.workers v with publicQueue := [], privateQueue := [] } :=
      ⟨hv.1, hv.2, rfl, rfl⟩
    have hupto : u ≤ v → Stopped ((s.setWorker v
        { s.workers v with publicQueue := [], privateQueue := [] }).workers u) := fun hle => by
      rcases hle.eq_or_lt with rfl | hlt
      · rwa [ThreadPool.setWorker_workers_self]
      · exact hbelow hlt
    unfold ThreadPool.nextWorker
    split
    · exact ⟨fun hlt => hupto (Nat.lt_succ_iff.mp hlt), fun _ => trivial⟩
    · next hlast => exact hupto (Nat.le_of_lt_succ (u.isLt.trans_le (Nat.not_lt.mp hlast)))

theorem shutOk_step (hcalls : CallsInTasks s) (h : ∀ w, ShutOk w (s.workers w) s.shutdown)
    (hstep : PoolSteps s l s') : ∀ w, ShutOk w (s'.workers w) s'.shutdown := by
  have hkept := hstep.workers (I := fun w a => ShutOk w a s.shutdown)
    (fun hI hu => shutOk_update hcalls hI hu) h
  cases hstep.moves with
  | shutdown => exact fun w => ⟨fun hlt => absurd hlt (Nat.not_lt_zero _), fun _ => trivial⟩
  | stop hstop hmove =>
    rw [hstop] at h
    exact shutOk_stop h hmove
  | _ => exact hkept

/-! ### The steps of a worker that is joined -/

omit [DecidableEq X] [DecidableEq T] in
theorem inLoop_work {v : Fin (n + 1)} (hm : WorkerMoves v a l a') :
    l.inLoop w ≤ if v = w then 1 else 0 := by
  cases hm with
  | block | resume => exact Nat.zero_le _
  | _ => exact le_rfl

omit [DecidableEq X] [DecidableEq T] in
theorem rank_work (h : Joining a) (hm : WorkerMoves w a l a') :
    l.inLoop w + rank a' ≤ rank a := by
  cases hm with
  | sleep _ _ hno | drain _ _ hno | sleepAgain _ _ hno | wake _ _ hno =>
    rw [h.abort] at hno
    cases hno
  | readNothing hphase hno =>
    rw [h.flag (by rw [hphase]; simp)] at hno
    cases hno
  | start _ hno =>
    rw [h.atomicAbort] at hno
    cases hno
  | @balance idle v vs hphase _ hanswer hlist =>
    have hlength := congrArg List.length hlist
    have hidle := hanswer.length_le
    have hmax : maxIdleWorkerCount n a.privateQueue.length ≤ n := by
      unfold maxIdleWorkerCount
      split <;> omega
    simp only [List.length_append, List.length_cons] at hlength
    simp only [PoolLabel.inLoop, rank, hphase, List.length_zip, List.length_cons, if_pos]
    omega
  | block hphase | resume hphase => simp [PoolLabel.inLoop, rank, hphase]
  | drainAborted hphase | acquire hphase | timeOut hphase | readFlag hphase | wakeAborted hphase
  | giveUp hphase | endLoop hphase | keep hphase | abort hphase | leave hphase =>
    simp [PoolLabel.inLoop, rank, hphase, Worker.leave, Nat.add_comm]

omit [DecidableEq X] [DecidableEq T] in
theorem rank_give {k : Nat} {more : List (Fin (n + 1) × Nat)} :
    rank (a.give k more) = more.length + 2 := by
  cases more with
  | nil => rfl
  | cons => rfl

/-- Each step of a worker that is joined, outside of its task, lowers the rank, and no other step
raises it. -/
theorem rank_step (h : Joining (s.workers w)) (hstep : PoolSteps s l s') :
    l.inLoop w + rank (s'.workers w) ≤ rank (s.workers w) := by
  have hother : ∀ {v : Fin (n + 1)} {b : Worker T n}, (v = w → rank b ≤ rank (s.workers w)) →
      rank ((s.setWorker v b).workers w) ≤ rank (s.workers w) := by
    intro v b hb
    rcases eq_or_ne w v with rfl | hne
    · rw [ThreadPool.setWorker_workers_self]
      exact hb rfl
    · rw [ThreadPool.setWorker_workers_of_ne s v b hne]
  -- no other thread pushes to the worker
  have hpushed : ∀ {v : Fin (n + 1)}, (s.workers v).abort = false → v ≠ w := fun hno heq => by
    rw [heq, h.abort] at hno
    cases hno
  cases hstep.moves with
  | enqueue | enqueueSpan | enterLocal | enter | found | foundNone | roundRobin | rejectLocal
  | rejectForeign | shutdownAgain | shutdown => exact (Nat.zero_add _).le
  | enqueueLocal | release =>
    exact (Nat.zero_add _).trans_le (hother fun heq => by subst heq; exact le_refl _)
  | enqueueForeign _ _ habort =>
    exact (Nat.zero_add _).trans_le (hother fun heq => absurd heq (hpushed habort))
  | stop _ hmove =>
    refine (Nat.zero_add _).trans_le (hother fun heq => ?_)
    subst heq
    cases hmove <;> exact le_refl _
  | @work v _ a _ hmove =>
    rcases eq_or_ne v w with rfl | hne
    · rw [ThreadPool.setWorker_workers_self]
      exact rank_work h hmove
    · have hzero := inLoop_work (w := w) hmove
      rw [if_neg hne, Nat.le_zero] at hzero
      rw [hzero, Nat.zero_add]
      exact hother fun heq => absurd heq hne
  | @donate v u k more hphase _ habort =>
    have hu := hpushed habort
    have hworker : (s.donateTo v u k more).workers w =
        (s.setWorker v ((s.workers v).give k more)).workers w :=
      ThreadPool.setWorker_workers_of_ne _ u _ hu.symm
    rw [hworker]
    rcases eq_or_ne v w with rfl | hne
    · rw [ThreadPool.setWorker_workers_self, rank_give]
      simp only [PoolLabel.inLoop, rank, hphase, if_pos, List.length_cons]
      omega
    · simp only [PoolLabel.inLoop, if_neg hne, Nat.zero_add]
      exact hother fun heq => absurd heq hne
  | @donateRejected v _ _ _ hphase | @finish v _ hphase | @raise v _ hphase =>
    rcases eq_or_ne v w with rfl | hne
    · simp only [PoolLabel.inLoop, rank, hphase, ThreadPool.setWorker_workers_self, if_pos]
      omega
    · simp only [PoolLabel.inLoop, if_neg hne, Nat.zero_add]
      exact hother fun heq => absurd heq hne

omit [DecidableEq X] in
/-- A worker that donates has a donation to make. -/
theorem donating_update (h : a.phase ≠ .donating []) (hu : WorkerUpdates s l w a a') :
    a'.phase ≠ .donating [] := by
  cases hu with
  | work _ hmove =>
    cases hmove with
    | balance => simp [donationSizes, shares]
    | block | resume => exact h
    | _ => simp [Worker.leave, Worker.takeQueue]
  | foreign =>
    unfold Worker.enqueueForeign
    split
    · simp
    · exact h
  | give =>
    unfold Worker.give
    dsimp only
    split
    · simp
    · next hne => simpa using hne
  | giveRejected | finish | raise => simp
  | push | release => exact h
  | stop _ hmove =>
    cases hmove with
    | _ => exact h

/-! ### Runs -/

/-- What holds of the pool in every run, with the stages of `shutdown`. -/
structure ShutdownOk (s : ThreadPool X T n) : Prop where
  pool : PoolOk s
  calls : ∀ c, CallOk c (s.call c)
  shut : ∀ w, ShutOk w (s.workers w) s.shutdown
  donating : ∀ w, (s.workers w).phase ≠ .donating []

omit [DecidableEq X] [DecidableEq T] in
theorem shutdownOk_init : ShutdownOk (.init : ThreadPool X T n) where
  pool := poolOk_init
  calls _ := trivial
  shut _ := trivial
  donating _ := by simp [ThreadPool.init]

theorem shutdownOk_step (h : ShutdownOk s) (hstep : PoolSteps s l s') : ShutdownOk s' where
  pool := poolOk_step h.pool hstep
  calls := callOk_step h.calls hstep.moves
  shut := shutOk_step h.pool.calls h.shut hstep
  donating := hstep.workers donating_update h.donating

/-- After `shutdown` a step executes nothing. -/
theorem finished_step (h : ShutdownOk s) (hover : s.shutdown = .finished) (hstep : PoolSteps s l s') :
    s'.shutdown = .finished ∧ s'.executed = s.executed := by
  have habort : s.abort ≠ false := fun habort => by
    rw [h.pool.notCalled habort] at hover
    cases hover
  cases hstep.moves with
  | shutdown hno => exact absurd hno habort
  | stop hstop =>
    rw [hover] at hstop
    cases hstop
  | @finish w _ hphase | @raise w _ hphase =>
    have hstopped := h.shut w
    rw [hover] at hstopped
    rw [hstopped.gone] at hphase
    cases hphase
  | _ => exact ⟨hover, rfl⟩

end PoolShutdownLemmas

open PoolWorkerLemmas PoolTaskLemmas PoolWakeupLemmas PoolShutdownLemmas

variable {X T : Type} {n : Nat} [DecidableEq X] [DecidableEq T] {s s' : ThreadPool X T n}
variable {tr tr' : List (ThreadPool X T n × PoolLabel X T n × ThreadPool X T n)}

/-- Once the first call of `shutdown` is over, in every state of every continuation no worker has a
thread or a task, nothing more is executed, and each task was executed before, is destroyed or its
caller's again, or is in the hand of a thread that is no worker. -/
theorem shutdown_over (hrun : Run PoolSteps .init tr s) (hover : s.shutdown = .finished)
    (hafter : Run PoolSteps s tr' s') :
    (∀ w, Stopped (s'.workers w)) ∧ s'.executed = s.executed ∧
      ∀ t ∈ s'.submitted, t ∈ s.executed ∨ t ∈ s'.dropped ∨ t ∈ s'.returned ∨
        ∃ x, t ∈ (s'.call (.external x)).tasks := by
  have hbegin : ShutdownOk s := hrun.inv_all shutdownOk_init shutdownOk_step
  have hend : (ShutdownOk s' ∧ Placed s'.tasksAt {t | t ∈ s'.submitted}) ∧
      s'.shutdown = .finished ∧ s'.executed = s.executed :=
    hafter.inv_all (I := fun r => (ShutdownOk r ∧ Placed r.tasksAt {t | t ∈ r.submitted}) ∧
        r.shutdown = .finished ∧ r.executed = s.executed)
      ⟨⟨hbegin, placed_run hrun⟩, hover, rfl⟩ fun h hstep =>
        have hkept := finished_step h.1.1 h.2.1 hstep
        ⟨⟨shutdownOk_step h.1.1 hstep, placed_step h.1.1.pool.settled h.1.2 hstep.moves⟩,
          hkept.1, hkept.2.trans h.2.2⟩
  obtain ⟨⟨hok, hplaced⟩, hfinished, hexecuted⟩ := hend
  have hstopped : ∀ w, Stopped (s'.workers w) := fun w => by
    have hshut := hok.shut w
    rwa [hfinished] at hshut
  refine ⟨hstopped, hexecuted, fun t ht => ?_⟩
  obtain ⟨p, hp⟩ := (hplaced.cover t).mp ht
  cases p with
  | hand c =>
    cases c with
    | external x => exact .inr (.inr (.inr ⟨x, hp⟩))
    | worker w =>
      -- a worker without a thread is in no call
      by_cases hcall : s'.call (.worker w) = .none
      · rw [ThreadPool.tasksAt, hcall] at hp
        exact absurd hp List.not_mem_nil
      · obtain ⟨u, hphase⟩ := hok.pool.calls w hcall
        rw [(hstopped w).gone] at hphase
        cases hphase
  | publicQueue w =>
    rw [ThreadPool.tasksAt, (hstopped w).publicQueue] at hp
    exact absurd hp List.not_mem_nil
  | privateQueue w =>
    rw [ThreadPool.tasksAt, (hstopped w).privateQueue] at hp
    exact absurd hp List.not_mem_nil
  | running w =>
    rw [ThreadPool.tasksAt, (hstopped w).gone] at hp
    exact absurd hp List.not_mem_nil
  | executed => exact .inl (hexecuted ▸ hp)
  | dropped => exact .inr (.inl hp)
  | returned => exact .inr (.inr (.inl hp))

/-- The worker `w` has executed one of its two tasks when `shutdown` is called, the other none of
its one. -/
def shutdownSchedule (w : Fin 2) : List (PoolLabel Unit Nat 1) :=
  [.enqueueSpan (.external ()) [1, 2, 3], .enqueueForeign (.external ()),
   .enqueueForeign (.external ()), .drain w, .balance w [], .start w, .finish w, .shutdown, .stop,
   .stop, .stop, .stop]

/-- The rest of `shutdown`; then `enqueue` of a task and of a span, which comes back. -/
def shutdownRest (v w : Fin 2) : List (PoolLabel Unit Nat 1) :=
  [.balance v [], .start v, .leave v, .stop, .stop, .stop, .stop, .stop, .stop, .drain w, .stop,
   .stop, .enqueue (.external ()) 4, .enter (.external ()), .find (.external ()) (some w),
   .enqueueForeign (.external ()), .enqueueSpan (.external ()) [5, 6],
   .enqueueForeign (.external ())]

theorem shutdown_over_rejects :
    ∃ tr s, Run PoolSteps (.init : ThreadPool Unit Nat 1) tr s ∧ s.dropped = [1, 3, 4] ∧
      s.returned = [5, 6] ∧ (∀ w, Stopped (s.workers w)) ∧ s.executed = [2] ∧
      ∀ t ∈ s.submitted, t ∈ s.executed ∨ t ∈ s.dropped ∨ t ∈ s.returned ∨
        ∃ x, t ∈ (s.call (.external x)).tasks := by
  obtain ⟨tr, s, hrun, -, hview⟩ := exists_run ThreadPool.step (R := PoolSteps) id
    (.init : ThreadPool Unit Nat 1) (shutdownSchedule 0 ++ shutdownRest 0 1)
    (fun r => (r.2.shutdown, r.2.dropped, r.2.returned, r.2.executed))
    (v := (.finished, [1, 3, 4], [5, 6], [2])) (by decide)
  obtain ⟨hover, hrest⟩ := Prod.mk.inj hview
  obtain ⟨hdropped, hrest⟩ := Prod.mk.inj hrest
  obtain ⟨hreturned, hexecuted⟩ := Prod.mk.inj hrest
  obtain ⟨hstopped, -, htasks⟩ := shutdown_over hrun hover .nil
  exact ⟨tr, s, hrun, hdropped, hreturned, hstopped, hexecuted, htasks⟩

/-- From the moment `shutdown` waits for `w`, in every continuation `w` takes at most `rank` steps
outside of its task, and until its thread is gone it runs a task that is blocked, or the thread can
take a step that is not up to a task. -/
theorem join_ends {w : Fin (n + 1)} (hrun : Run PoolSteps .init tr s)
    (hjoin : s.shutdown = .stopping w .join) (hafter : Run PoolSteps s tr' s') :
    eventCount (fun _ l => PoolLabel.inLoop w l) tr' + rank (s'.workers w) ≤ rank (s.workers w) ∧
      ((s'.workers w).phase ≠ .gone →
        (∃ t, (s'.workers w).phase = .running t ∧ (s'.workers w).blocked = true) ∨
        ∃ l s'', PoolSteps s' l s'' ∧ l.thread = some (.worker w) ∧ l.ofTask = false) := by
  have hbegin : ShutdownOk s := hrun.inv_all shutdownOk_init shutdownOk_step
  have hjoining : Joining (s.workers w) := by
    have hshut := hbegin.shut w
    rw [hjoin] at hshut
    exact hshut.2 rfl
  have hkept : ∀ {r r' : ThreadPool X T n} {l : PoolLabel X T n},
      ShutdownOk r ∧ Joining (r.workers w) → PoolSteps r l r' →
      ShutdownOk r' ∧ Joining (r'.workers w) := fun h hstep =>
    ⟨shutdownOk_step h.1 hstep, hstep.workers (I := fun v a => v = w → Joining a)
      (fun hI hu heq => joining_update (hI heq) hu) (fun _ heq => heq ▸ h.2) w rfl⟩
  constructor
  · induction hafter with
    | nil => exact (Nat.zero_add _).le
    | snoc hpre hstep ih =>
      have hbefore := hpre.inv_all (I := fun r => ShutdownOk r ∧ Joining (r.workers w))
        ⟨hbegin, hjoining⟩ hkept
      have hrank := rank_step hbefore.2 hstep
      rw [eventCount_snoc]
      omega
  · intro hgone
    obtain ⟨hok, hend⟩ := hafter.inv_all (I := fun r => ShutdownOk r ∧ Joining (r.workers w))
      ⟨hbegin, hjoining⟩ hkept
    by_cases hblocked : ∃ t, (s'.workers w).phase = .running t ∧ (s'.workers w).blocked = true
    · exact .inl hblocked
    have hfree : ∀ t, (s'.workers w).phase = .running t → (s'.workers w).blocked = false :=
      fun t hphase => Bool.eq_false_iff.mpr fun hheld => hblocked ⟨t, hphase, hheld⟩
    obtain ⟨l, s'', hstep, hthread, hfree, -⟩ := goesOn_worker hok.calls hgone hend.woken
      (hok.donating w) hfree fun _ => .inl hend.atomicAbort
    exact .inr ⟨l, s'', hstep, hthread, hfree⟩

/-- `shutdown` waits for the first worker, which still has a task. -/
theorem join_ends_loop :
    ∃ tr s, Run PoolSteps (.init : ThreadPool Unit Nat 1) tr s ∧
      (s.workers 0).phase = .loop ∧ (s.workers 0).privateQueue = [1] ∧
      ∃ l s', PoolSteps s l s' ∧ l.thread = some (.worker 0) ∧ l.ofTask = false := by
  obtain ⟨tr, s, hrun, -, hview⟩ := exists_run ThreadPool.step (R := PoolSteps) id
    (.init : ThreadPool Unit Nat 1) (shutdownSchedule 0)
    (fun r => (r.2.shutdown, (r.2.workers 0).phase, (r.2.workers 0).privateQueue))
    (v := (.stopping 0 .join, .loop, [1])) (by decide)
  obtain ⟨hjoin, hrest⟩ := Prod.mk.inj hview
  obtain ⟨hphase, hqueue⟩ := Prod.mk.inj hrest
  have hgoes := (join_ends hrun hjoin .nil).2 (by rw [hphase]; simp)
  refine ⟨tr, s, hrun, hphase, hqueue, hgoes.resolve_left fun ⟨t, hrun, _⟩ => ?_⟩
  rw [hphase] at hrun
  cases hrun

end FlavoEngine.Engine

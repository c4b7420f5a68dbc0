import FlavoEngine.Engine.PoolTasks

/-!
# Wake-ups of the pool

A push to a worker that sleeps releases its semaphore, but only if its public queue was empty. A
worker whose wait has timed out, or whose task has left by `runtime_shutdown`, leaves without
another look at its queues.

* A worker is attended when it will come to look at its queues: it has a thread, which is not on its
  way out and, if asleep, has its semaphore free or about to be released.

Results:
1. `heard_iff`: exactly when a task waits in a queue of a worker that is not attended. Until
   `shutdown` is called this never happens, in a run in which no wait times out over a queue that is
   not empty, no task leaves by an exception while others wait for the worker, and no push meets a
   worker on its way out; the first such step leaves a task behind until another push to the same
   worker starts a thread.
2. `pool_not_stuck`: in those runs some thread of the pool can go on as long as a task is not
   executed and does not wait for one that is blocked.
-/

namespace FlavoEngine.Engine

open FlavoEngine.Lib

/-! ## Attended workers -/

section Attended

variable {X T : Type} {n : Nat}

/-- The thread is on its way out, and looks at no queue. -/
def WorkerPhase.leaving : WorkerPhase T n → Bool
  | .timedOut | .aborting => true
  | _ => false

/-- The worker comes to look at its queues. -/
def Attended (s : ThreadPool X T n) (w : Fin (n + 1)) : Prop :=
  match (s.workers w).phase with
  | .gone | .timedOut | .aborting => False
  | .waiting => (s.workers w).semaphore = true ∨ ∃ c, s.release c = some w
  | _ => True

/-- Tasks wait for the worker. -/
def Worker.Pending (a : Worker T n) : Prop :=
  a.publicQueue ≠ [] ∨ a.privateQueue ≠ []

/-- Each worker for which tasks wait comes to look at them. -/
def Heard (s : ThreadPool X T n) : Prop :=
  ∀ w, (s.workers w).Pending → Attended s w

/-- The worker to which the step pushes. -/
def pushTarget (s : ThreadPool X T n) : PoolLabel X T n → Option (Fin (n + 1))
  | .enqueueForeign c =>
    match s.call c with
    | .enqueueForeign _ ((w, _) :: _) _ => some w
    | _ => none
  | .donate w =>
    match (s.workers w).phase with
    | .donating ((v, _) :: _) => some v
    | _ => none
  | _ => none

/-- What a task does before its end, and an end by an exception: it is up to the task. -/
def PoolLabel.ofTask : PoolLabel X T n → Bool
  | .enqueue _ _ | .enqueueSpan _ _ | .block _ | .resume _ | .raise _ => true
  | _ => false

/-- Before `shutdown`, no wait times out over a queue that is not empty, no task leaves by an
exception over one, and no push comes to a worker on its way out. -/
def InTime (s : ThreadPool X T n) (l : PoolLabel X T n) : Prop :=
  s.abort = true ∨
    (∀ w, l = .timeOut w → (s.workers w).publicQueue = []) ∧
    (∀ w, l = .raise w → (s.workers w).publicQueue = [] ∧ (s.workers w).privateQueue = []) ∧
      ∀ w, pushTarget s l = some w → (s.workers w).phase.leaving = false

/-- The steps that serve the tasks: all but new calls, what is up to a task, the time-outs and the
aborts. -/
def PoolLabel.serves : PoolLabel X T n → Bool
  | .timeOut _ | .giveUp _ | .leave _ | .shutdown | .stop => false
  | l => !l.ofTask

/-- The thread of the step. -/
def PoolLabel.thread : PoolLabel X T n → Option (PoolThread X n)
  | .enqueue c _ | .enqueueSpan c _ | .enter c | .find c _ | .enqueueLocal c | .enqueueForeign c
  | .release c => some c
  | .drain w | .acquire w | .timeOut w | .readFlag w | .relock w | .giveUp w | .endLoop w
  | .balance w _ | .donate w | .start w | .block w | .resume w | .finish w | .raise w
  | .leave w => some (.worker w)
  | .shutdown | .stop => none

instance [DecidableEq T] (s : ThreadPool X T n) [DecidableEq X] :
    DecidablePred (InTime s) := fun _ =>
  inferInstanceAs (Decidable (_ ∨ _ ∧ _ ∧ _))

/-- A call of `enqueue` has somewhere to go on. -/
def CallOk (c : PoolThread X n) : PoolCall T n → Prop
  | .enqueueLocal _ _ _ => ∃ w, c = .worker w
  | .enqueueForeign _ parts _ => parts ≠ [] ∧ ∀ p ∈ parts, p.2 ≠ []
  | _ => True

/-- The worker that has the task runs none that is blocked. -/
def NotHeldUp (s : ThreadPool X T n) (t : T) : Prop :=
  ∀ w, t ∈ (s.workers w).publicQueue ∨ t ∈ (s.workers w).privateQueue ∨
    (s.workers w).phase = .running t → (s.workers w).blocked = false

end Attended

namespace PoolWakeupLemmas

open PoolWorkerLemmas PoolTaskLemmas

variable {X T : Type} {n : Nat} [DecidableEq X] [DecidableEq T]
variable {s s' : ThreadPool X T n} {l : PoolLabel X T n} {c : PoolThread X n} {w : Fin (n + 1)}
variable {a a' : Worker T n}

/-! ### Calls -/

omit [DecidableEq X] [DecidableEq T] in
theorem callOk_ofSpan (ts : List T) : CallOk c (.ofSpan ts : PoolCall T n) := by
  cases ts with
  | nil => trivial
  | cons => trivial

omit [DecidableEq X] [DecidableEq T] in
theorem callOk_spanCall (c : PoolThread X n) (ts : List T) :
    CallOk c (ThreadPool.spanCall c ts) := by
  cases c with
  | worker w => exact ⟨w, rfl⟩
  | external x =>
    unfold ThreadPool.spanCall
    dsimp only
    split
    · exact callOk_ofSpan ts
    · next hlarge =>
      have hsizes : (donationSizes ts.length (n + 1) (n + 1)).sum = ts.length :=
        sum_shares_all (Nat.succ_pos n)
      have hlength : (cut (donationSizes ts.length (n + 1) (n + 1)) ts).length = n + 1 :=
        (length_cut _ _).trans (length_shares ..)
      constructor
      · intro hnil
        have hzip := congrArg List.length hnil
        rw [List.length_zip, hlength, List.length_finRange, Nat.min_self] at hzip
        cases hzip
      · intro p hp hempty
        have hpart := length_of_mem_cut hsizes.le (List.of_mem_zip hp).2
        rw [hempty] at hpart
        have hpos : 0 < ts.length / (n + 1) := Nat.div_pos (by omega) (Nat.succ_pos n)
        have hshare := (mem_shares hpart).1
        exact Nat.not_succ_le_zero _ (hpos.trans_le hshare)

omit [DecidableEq X] [DecidableEq T] in
theorem callOk_afterPart {p : Passing} {part : Fin (n + 1) × List T}
    {parts : List (Fin (n + 1) × List T)} {rest : List T} (h : ∀ q ∈ part :: parts, q.2 ≠ []) :
    CallOk c (.afterPart p parts rest) := by
  unfold PoolCall.afterPart
  split
  · exact callOk_ofSpan rest
  · next hne => exact ⟨hne, fun q hq => h q (List.mem_cons_of_mem _ hq)⟩

theorem callOk_step (h : ∀ c, CallOk c (s.call c)) (hm : PoolMoves s l s') :
    ∀ c, CallOk c (s'.call c) := by
  have hset : ∀ {r : ThreadPool X T n} {d : PoolThread X n} {k : PoolCall T n},
      r.call = s.call → CallOk d k → ∀ c, CallOk c ((r.setCall d k).call c) := by
    intro r d k hr hk c
    rcases eq_or_ne c d with rfl | hne
    · rwa [ThreadPool.setCall_call_self]
    · rw [ThreadPool.setCall_call_of_ne r d k hne, hr]
      exact h c
  cases hm with
  | enqueue | enter | rejectLocal | rejectForeign => exact hset rfl trivial
  | enqueueLocal => exact hset rfl (callOk_ofSpan _)
  | enqueueSpan => exact hset rfl (callOk_spanCall _ _)
  | @enterLocal w | @foundNone w => exact hset rfl ⟨w, rfl⟩
  | found | roundRobin => exact hset rfl ⟨by simp, by simp⟩
  | @enqueueForeign c _ _ _ _ _ hcall =>
    have hparts := h c
    rw [hcall] at hparts
    exact hset rfl (callOk_afterPart hparts.2)
  | release | work | donate | donateRejected | finish | raise | shutdownAgain | shutdown
  | stop => exact h

/-! ### Pushes and wake-ups -/

omit [DecidableEq X] [DecidableEq T] in
theorem pushTarget_foreign {p : Passing} {ts : List T} {parts : List (Fin (n + 1) × List T)}
    {rest : List T} (hcall : s.call c = .enqueueForeign p ((w, ts) :: parts) rest) :
    pushTarget s (.enqueueForeign c) = some w := by
  simp only [pushTarget, hcall]

omit [DecidableEq X] [DecidableEq T] in
theorem pushTarget_donate {v : Fin (n + 1)} {k : Nat} {more : List (Fin (n + 1) × Nat)}
    (hphase : (s.workers w).phase = .donating ((v, k) :: more)) :
    pushTarget s (.donate w) = some v := by
  simp only [pushTarget, hphase]

omit [DecidableEq X] [DecidableEq T] in
theorem attended_of_phase (hgone : (s.workers w).phase ≠ .gone)
    (hstays : (s.workers w).phase.leaving = false) (hwaiting : (s.workers w).phase = .waiting →
      (s.workers w).semaphore = true ∨ ∃ c, s.release c = some w) : Attended s w := by
  unfold Attended
  split
  · next hphase => exact hgone hphase
  · next hphase =>
    rw [hphase] at hstays
    cases hstays
  · next hphase =>
    rw [hphase] at hstays
    cases hstays
  · next hphase => exact hwaiting hphase
  · trivial

omit [DecidableEq X] [DecidableEq T] in
theorem phase_of_attended (h : Attended s w) :
    (s.workers w).phase ≠ .gone ∧ (s.workers w).phase.leaving = false := by
  unfold Attended at h
  cases hphase : (s.workers w).phase with
  | gone | timedOut | aborting =>
    rw [hphase] at h
    exact h.elim
  | _ => exact ⟨by simp, rfl⟩

omit [DecidableEq X] [DecidableEq T] in
/-- Only the worker `w` is changed, and the releases of others stay. -/
theorem heard_of_others (h : Heard s) (hworkers : ∀ v, v ≠ w → s'.workers v = s.workers v)
    (hrelease : ∀ c v, v ≠ w → s.release c = some v → s'.release c = some v)
    (hw : (s'.workers w).Pending → Attended s' w) : Heard s' := by
  intro v hv
  rcases eq_or_ne v w with rfl | hne
  · exact hw hv
  have hsame := hworkers v hne
  rw [hsame] at hv
  have hbefore := h v hv
  obtain ⟨hgone, hstays⟩ := phase_of_attended hbefore
  refine attended_of_phase (by rwa [hsame]) (by rwa [hsame]) fun hwaiting => ?_
  rw [hsame] at hwaiting ⊢
  unfold Attended at hbefore
  rw [hwaiting] at hbefore
  exact hbefore.imp id fun ⟨c, hc⟩ => ⟨c, hrelease c v hne hc⟩

omit [DecidableEq X] [DecidableEq T] in
/-- A worker changes by itself. -/
theorem heard_setWorker (h : Heard s) (hw : a.Pending → Attended (s.setWorker w a) w) :
    Heard (s.setWorker w a) := by
  refine heard_of_others (w := w) h (fun v hv => ThreadPool.setWorker_workers_of_ne s w _ hv)
    (fun _ _ _ hd => hd) fun hpending => hw ?_
  rwa [ThreadPool.setWorker_workers_self] at hpending

omit [DecidableEq X] [DecidableEq T] in
/-- A worker that is awake is attended. -/
theorem attended_awake (hworker : s.workers w = a) (hgone : a.phase ≠ .gone)
    (hstays : a.phase.leaving = false) (hwaiting : a.phase ≠ .waiting) : Attended s w := by
  subst hworker
  exact attended_of_phase hgone hstays fun hphase => absurd hphase hwaiting

omit [DecidableEq T] in
/-- A push from a thread that is to release no semaphore. -/
theorem heard_foreign {ts : List T} (h : Heard s) (hsettled : Settled (s.workers w))
    (hintime : (s.workers w).phase.leaving = false) (hrelease : s.release c = none) :
    Heard ((s.setWorker w ((s.workers w).enqueueForeign ts).2).setRelease c
      (if ((s.workers w).enqueueForeign ts).1 then some w else none)) := by
  refine heard_of_others (w := w) h (fun v hv => ThreadPool.setWorker_workers_of_ne s w _ hv)
    (fun d v _ hd => ?_) fun _ => ?_
  · have hdc : d ≠ c := fun heq => by rw [heq, hrelease] at hd; cases hd
    rwa [ThreadPool.setRelease_release_of_ne _ _ _ hdc]
  by_cases hidle : (s.workers w).idle = true
  · -- a new thread
    refine attended_awake (ThreadPool.setWorker_workers_self ..) ?_ ?_ ?_ <;>
      simp [Worker.enqueueForeign, hidle, WorkerPhase.leaving]
  have hgone : (s.workers w).phase ≠ .gone := fun hphase => hidle (hsettled.mpr hphase)
  by_cases hempty : (s.workers w).publicQueue = []
  · -- the first to push is to release the semaphore
    refine attended_of_phase ?_ ?_ fun _ => .inr ⟨c, ?_⟩ <;>
      simp [Worker.enqueueForeign, hidle, hempty, hgone, hintime]
  · have hbefore := h w (.inl hempty)
    refine attended_of_phase ?_ ?_ fun hphase => ?_
    · simpa [Worker.enqueueForeign, hidle] using hgone
    · simpa [Worker.enqueueForeign, hidle] using hintime
    have hwaiting : (s.workers w).phase = .waiting := by
      simpa [Worker.enqueueForeign, hidle] using hphase
    unfold Attended at hbefore
    rw [hwaiting] at hbefore
    refine hbefore.imp (fun hsem => ?_) fun ⟨d, hd⟩ => ⟨d, ?_⟩
    · simpa [Worker.enqueueForeign, hidle] using hsem
    · have hdc : d ≠ c := fun heq => by rw [heq, hrelease] at hd; cases hd
      rwa [ThreadPool.setRelease_release_of_ne _ _ _ hdc]

omit [DecidableEq T] in
/-- A worker that waits, or is on its way out, has no tasks of its own. -/
theorem publicQueue_of_pending (hknown : KnownAt w a a.phase)
    (hphase : a.phase = .drain ∨ a.phase = .waiting ∨ a.phase = .woken ∨ a.phase = .relock ∨
      a.phase.leaving = true) (h : a.Pending) : a.publicQueue ≠ [] := by
  refine h.resolve_right fun hne => hne ?_
  cases hp : a.phase with
  | drain | waiting | woken | relock | timedOut | aborting =>
    rw [hp] at hknown
    exact hknown.1
  | _ => simp [hp, WorkerPhase.leaving] at hphase

omit [DecidableEq X] [DecidableEq T] in
theorem attended_work (hok : WorkerOk w (s.workers w))
    (h : (s.workers w).Pending → Attended s w)
    (htime : l = .timeOut w → (s.workers w).publicQueue = [])
    (hm : WorkerMoves w (s.workers w) l a) (hpending : a.Pending) :
    Attended (s.setWorker w a) w := by
  have hqueue := publicQueue_of_pending hok.known
  cases hm with
  | sleep hphase hempty => exact absurd hempty (hqueue (.inl hphase) hpending)
  | sleepAgain hphase hempty =>
    exact absurd hempty (hqueue (.inr (.inr (.inr (.inl hphase)))) hpending)
  | timeOut hphase => exact absurd (htime rfl) (hqueue (.inr (.inl hphase)) hpending)
  | drainAborted _ habort | wakeAborted _ habort =>
    rw [hok.abort] at habort
    cases habort
  | readNothing hphase hflag =>
    rw [hok.flag (hqueue (.inr (.inr (.inl hphase))) hpending)] at hflag
    cases hflag
  | giveUp hphase | leave hphase =>
    have hstays := (phase_of_attended (h hpending)).2
    rw [hphase] at hstays
    cases hstays
  | abort _ habort =>
    rw [hok.atomicAbort] at habort
    cases habort
  | block hphase | resume hphase =>
    refine attended_awake (ThreadPool.setWorker_workers_self ..) ?_ ?_ ?_ <;>
      simp [hphase, WorkerPhase.leaving]
  | _ =>
    refine attended_awake (ThreadPool.setWorker_workers_self ..) ?_ ?_ ?_ <;>
      simp [Worker.takeQueue, WorkerPhase.leaving]

omit [DecidableEq T] in
theorem heard_donate {v : Fin (n + 1)} {k : Nat} {more : List (Fin (n + 1) × Nat)} (h : Heard s)
    (hsettled : Settled (s.workers v)) (hne : v ≠ w)
    (hintime : (s.workers v).phase.leaving = false)
    (hrelease : s.release (.worker w) = none) : Heard (s.donateTo w v k more) := by
  have hgive : Heard (s.setWorker w ((s.workers w).give k more)) := by
    refine heard_setWorker h fun _ => ?_
    refine attended_awake (ThreadPool.setWorker_workers_self ..) ?_ ?_ ?_ <;>
      · unfold Worker.give
        dsimp only
        split <;> simp [WorkerPhase.leaving]
  have hsame := ThreadPool.setWorker_workers_of_ne s w ((s.workers w).give k more) hne
  exact heard_foreign hgive (hsame ▸ hsettled) (hsame ▸ hintime) hrelease

/-- Until `shutdown` is called, a step in time keeps every worker attended that has tasks. -/
theorem heard_step (hpool : PoolOk s) (hworkers : s.abort = false → ∀ w, WorkerOk w (s.workers w))
    (h : Heard s) (habort : s'.abort = false) (hintime : InTime s l) (hstep : PoolSteps s l s') :
    Heard s' := by
  have hm := hstep.moves
  have hbefore := abort_mono hm habort
  have hok := hworkers hbefore
  obtain ⟨htime, hraise, hpush⟩ := hintime.resolve_left (by rw [hbefore]; simp)
  cases hm with
  | enqueue | enqueueSpan | enterLocal | enter | found | foundNone | roundRobin | rejectLocal
  | rejectForeign | shutdownAgain => exact h
  | shutdown => cases habort
  | stop hstop =>
    rw [hpool.notCalled hbefore] at hstop
    cases hstop
  | @donateRejected w v k more _ _ hab =>
    rw [(hpool.opened hbefore v).1] at hab
    cases hab
  | @enqueueLocal w _ _ _ hcall =>
    obtain ⟨t, hrun⟩ := hpool.calls w (by rw [hcall]; simp)
    refine heard_setWorker h fun _ => ?_
    refine attended_awake (ThreadPool.setWorker_workers_self s w _) ?_ ?_ ?_ <;>
      simp [hrun, WorkerPhase.leaving]
  | @enqueueForeign c w p ts parts rest hcall hrelease =>
    exact heard_foreign (s := s.setCall c (.afterPart p parts rest)) h (hpool.settled w)
      (hpush w (pushTarget_foreign hcall)) hrelease
  | @release c w hrelease =>
    refine heard_of_others (w := w) h (fun v hv => ThreadPool.setWorker_workers_of_ne s w _ hv)
      (fun d v hv hd => ?_) fun hpending => ?_
    · have hdc : d ≠ c := fun heq => hv (by rw [heq, hrelease] at hd; exact (Option.some.inj hd).symm)
      rwa [ThreadPool.setRelease_release_of_ne _ _ _ hdc]
    · rw [ThreadPool.setRelease_workers, ThreadPool.setWorker_workers_self] at hpending
      have hattended := phase_of_attended (h w hpending)
      refine attended_of_phase ?_ ?_ fun _ => .inl ?_ <;> simp [hattended]
  | @work w _ a hquiet hmove =>
    exact heard_setWorker h fun hpending => attended_work (hok w) (h w) (htime w) hmove hpending
  | @donate w v k more hphase hquiet =>
    have hknown := (hok w).known
    rw [hphase] at hknown
    obtain ⟨-, d, heven⟩ := hknown
    exact heard_donate h (hpool.settled v) (heven.others _ List.mem_cons_self)
      (hpush v (pushTarget_donate hphase)) (quiet_iff.mp hquiet).2
  | @finish w t hphase =>
    refine heard_setWorker h fun _ => ?_
    refine attended_awake (ThreadPool.setWorker_workers_self ..) ?_ ?_ ?_ <;>
      simp [WorkerPhase.leaving]
  | @raise w t hphase =>
    refine heard_setWorker h fun hpending => ?_
    obtain ⟨hpublic, hprivate⟩ := hraise w rfl
    exact absurd hprivate (hpending.resolve_left fun hne => hne hpublic)

/-- The invariant of the runs whose steps are in time. -/
structure HeardOk (s : ThreadPool X T n) : Prop where
  pool : PoolOk s
  calls : ∀ c, CallOk c (s.call c)
  workers : s.abort = false → ∀ w, WorkerOk w (s.workers w)
  heard : s.abort = false → Heard s

omit [DecidableEq X] [DecidableEq T] in
theorem heardOk_init : HeardOk (.init : ThreadPool X T n) where
  pool := poolOk_init
  calls _ := trivial
  workers _ := workerOk_init
  heard _ _ hpending := hpending.elim (absurd rfl) (absurd rfl)

omit [DecidableEq X] [DecidableEq T] in
theorem endsClean_of_inTime (h : InTime s l) (w : Fin (n + 1)) : EndsClean w s l := by
  intro hl habort
  obtain ⟨-, hraise, -⟩ := h.resolve_left (by rw [habort]; simp)
  exact (hraise w hl).2

theorem heardOk_step (h : HeardOk s) (hintime : InTime s l) (hstep : PoolSteps s l s') :
    HeardOk s' where
  pool := poolOk_step h.pool hstep
  calls := callOk_step h.calls hstep.moves
  workers habort w := workerOk_step h.pool (fun hbefore => h.workers hbefore w)
    (endsClean_of_inTime hintime w) hstep habort
  heard habort := heard_step h.pool h.workers (h.heard (abort_mono hstep.moves habort)) habort
    hintime hstep

/-! ### Tasks left behind -/

/-- The thread can go on, and serves the tasks if `p`. -/
def GoesOn (s : ThreadPool X T n) (c : PoolThread X n) (p : Prop) : Prop :=
  ∃ l s', PoolSteps s l s' ∧ l.thread = some c ∧ l.ofTask = false ∧ (p → l.serves = true)

theorem goesOn_of_isSome {p : Prop} (h : (s.step l).isSome = true) (hthread : l.thread = some c)
    (hfree : l.ofTask = false) (hl : p → l.serves = true) : GoesOn s c p := by
  obtain ⟨s', hs'⟩ := Option.isSome_iff_exists.mp h
  exact ⟨l, s', hs', hthread, hfree, hl⟩

/-- A worker that is in no call takes a step of its own. -/
theorem isSome_workerStep {p : WorkerPhase T n} {f : Worker T n → Option (Worker T n)}
    (hstep : s.step l = s.workerStep w (ThreadPool.atPhase p f))
    (hquiet : s.quiet (.worker w) = true) (hphase : (s.workers w).phase = p)
    (hf : (f (s.workers w)).isSome = true) : (s.step l).isSome = true := by
  rw [hstep]
  simp [ThreadPool.workerStep, ThreadPool.atPhase, hquiet, hphase, hf]

theorem goesOn_release {p : Prop} (h : s.release c = some w) : GoesOn s c p := by
  refine goesOn_of_isSome (l := .release c) ?_ rfl rfl fun _ => rfl
  simp [ThreadPool.step, ThreadPool.releaseSemaphore, h]

/-- A thread in a call can go on. -/
theorem goesOn_call {p : Prop} (hok : CallOk c (s.call c)) (hcall : s.call c ≠ .none) :
    GoesOn s c p := by
  cases hrelease : s.release c with
  | some w => exact goesOn_release hrelease
  | none =>
    cases hc : s.call c with
    | none => exact absurd hc hcall
    | enter t rest =>
      refine goesOn_of_isSome (l := .enter c) ?_ rfl rfl fun _ => rfl
      cases c with
      | external x => simp [ThreadPool.step, ThreadPool.enter, hc, hrelease]
      | worker w =>
        simp only [ThreadPool.step, ThreadPool.enter, hc, hrelease]
        split <;> rfl
    | find t rest =>
      refine goesOn_of_isSome (l := .find c none) ?_ rfl rfl fun _ => rfl
      have hanswer : IdleAnswer c.index 1 (none : Option (Fin (n + 1))).toList :=
        ⟨List.nodup_nil, fun _ h => absurd h List.not_mem_nil, Nat.zero_le _⟩
      cases c with
      | external x =>
        simp only [ThreadPool.step, ThreadPool.find, hc, hrelease, if_pos hanswer]
        rfl
      | worker w =>
        simp only [ThreadPool.step, ThreadPool.find, hc, hrelease, if_pos hanswer]
        rfl
    | enqueueLocal p ts rest =>
      rw [hc] at hok
      obtain ⟨w, rfl⟩ := hok
      refine goesOn_of_isSome (l := .enqueueLocal (.worker w)) ?_ rfl rfl fun _ => rfl
      simp only [ThreadPool.step, ThreadPool.enqueueLocal, hc, hrelease]
      split <;> rfl
    | enqueueForeign p parts rest =>
      rw [hc] at hok
      refine goesOn_of_isSome (l := .enqueueForeign c) ?_ rfl rfl fun _ => rfl
      rcases parts with _ | ⟨⟨w, ts⟩, parts⟩
      · exact absurd rfl hok.1
      · simp only [ThreadPool.step, ThreadPool.enqueueForeign, hc, hrelease]
        split <;> rfl

/-- A thread that is in no call, or can go on in it. -/
theorem quiet_or_goesOn (p : Prop) (hcalls : ∀ c, CallOk c (s.call c)) (c : PoolThread X n) :
    s.quiet c = true ∨ GoesOn s c p := by
  by_cases hcall : s.call c = .none
  swap
  · exact .inr (goesOn_call (hcalls c) hcall)
  cases hrelease : s.release c with
  | some w => exact .inr (goesOn_release hrelease)
  | none => exact .inl (quiet_iff.mpr ⟨hcall, hrelease⟩)

/-- A worker that does not sleep, and whose task is not blocked, can go on. -/
theorem goesOn_worker (hcalls : ∀ c, CallOk c (s.call c)) (hgone : (s.workers w).phase ≠ .gone)
    (hasleep : (s.workers w).phase = .waiting → (s.workers w).semaphore = true)
    (hdonating : (s.workers w).phase ≠ .donating [])
    (hfree : ∀ t, (s.workers w).phase = .running t → (s.workers w).blocked = false)
    (hbalanced : (s.workers w).phase = .balanced →
      (s.workers w).atomicAbort = true ∨ (s.workers w).privateQueue ≠ []) :
    GoesOn s (.worker w) ((s.workers w).phase.leaving = false) := by
  rcases quiet_or_goesOn _ hcalls (.worker w) with hquiet | hgo
  swap
  · exact hgo
  cases hphase : (s.workers w).phase with
  | gone => exact absurd hphase hgone
  | drain =>
    exact goesOn_of_isSome (l := .drain w) (isSome_workerStep rfl hquiet hphase rfl) rfl rfl
      fun _ => rfl
  | waiting =>
    refine goesOn_of_isSome (l := .acquire w) (isSome_workerStep rfl hquiet hphase ?_) rfl rfl
      fun _ => rfl
    rw [if_pos (hasleep hphase)]
    rfl
  | woken =>
    exact goesOn_of_isSome (l := .readFlag w) (isSome_workerStep rfl hquiet hphase rfl) rfl rfl
      fun _ => rfl
  | relock =>
    exact goesOn_of_isSome (l := .relock w) (isSome_workerStep rfl hquiet hphase rfl) rfl rfl
      fun _ => rfl
  | timedOut =>
    exact goesOn_of_isSome (l := .giveUp w) (isSome_workerStep rfl hquiet hphase rfl) rfl rfl
      fun h => by cases h
  | loop =>
    by_cases hempty : (s.workers w).privateQueue = []
    · refine goesOn_of_isSome (l := .endLoop w) (isSome_workerStep rfl hquiet hphase ?_) rfl rfl
        fun _ => rfl
      rw [if_pos hempty]
      rfl
    · have hanswer : IdleAnswer (some w) (maxIdleWorkerCount n (s.workers w).privateQueue.length)
          [] := ⟨List.nodup_nil, fun _ h => absurd h List.not_mem_nil, Nat.zero_le _⟩
      refine goesOn_of_isSome (l := .balance w []) (isSome_workerStep rfl hquiet hphase ?_) rfl rfl
        fun _ => rfl
      rw [if_pos ⟨hempty, hanswer⟩]
      rfl
  | donating donations =>
    refine goesOn_of_isSome (l := .donate w) ?_ rfl rfl fun _ => rfl
    rcases donations with _ | ⟨⟨v, k⟩, more⟩
    · exact absurd hphase hdonating
    · simp only [ThreadPool.step, ThreadPool.donate, hphase, hquiet]
      split <;> rfl
  | balanced =>
    refine goesOn_of_isSome (l := .start w) (isSome_workerStep rfl hquiet hphase ?_) rfl rfl
      fun _ => rfl
    cases habort : (s.workers w).atomicAbort with
    | true => rfl
    | false =>
      have hne := (hbalanced hphase).resolve_left (by rw [habort]; simp)
      have hlast : (s.workers w).privateQueue.getLast?.isSome = true :=
        List.getLast?_isSome.mpr hne
      simp [hlast]
  | running t =>
    refine goesOn_of_isSome (l := .finish w) ?_ rfl rfl fun _ => rfl
    simp [ThreadPool.step, ThreadPool.finish, ThreadPool.endTask, hphase, hquiet, hfree t hphase]
  | aborting =>
    exact goesOn_of_isSome (l := .leave w) (isSome_workerStep rfl hquiet hphase rfl) rfl rfl
      fun h => by cases h

/-- A step that serves the tasks is possible. -/
def Served (s : ThreadPool X T n) : Prop :=
  ∃ l s', PoolSteps s l s' ∧ l.serves = true

theorem GoesOn.served {p : Prop} (h : GoesOn s c p) (hp : p) : Served s := by
  obtain ⟨l, s', hstep, -, -, hserves⟩ := h
  exact ⟨l, s', hstep, hserves hp⟩

/-- A worker with a thread that is not on its way out goes on, unless it sleeps or its task is
blocked. -/
theorem served_worker (hok : WorkerOk w (s.workers w)) (hcalls : ∀ c, CallOk c (s.call c))
    (hfree : (s.workers w).blocked = false) (hgone : (s.workers w).phase ≠ .gone)
    (hstays : (s.workers w).phase.leaving = false)
    (hasleep : (s.workers w).phase = .waiting → (s.workers w).semaphore = true) : Served s := by
  have hknown := hok.known
  refine GoesOn.served (goesOn_worker hcalls hgone hasleep ?_ (fun _ _ => hfree) ?_) hstays
  · intro hphase
    rw [hphase] at hknown
    exact hknown.1 rfl
  · intro hphase
    rw [hphase] at hknown
    exact .inr hknown.1

theorem served_attended (hok : WorkerOk w (s.workers w)) (hcalls : ∀ c, CallOk c (s.call c))
    (hfree : (s.workers w).blocked = false) (h : Attended s w) : Served s := by
  obtain ⟨hgone, hstays⟩ := phase_of_attended h
  by_cases hreleased : ∃ c, s.release c = some w
  · obtain ⟨c, hc⟩ := hreleased
    exact GoesOn.served (p := True) (goesOn_release hc) trivial
  refine served_worker hok hcalls hfree hgone hstays fun hwaiting => ?_
  unfold Attended at h
  rw [hwaiting] at h
  exact h.resolve_right hreleased

/-- As long as a task is not executed and not held up, some thread goes on. -/
theorem served_left (h : HeardOk s) (hplaced : Placed s.tasksAt {t | t ∈ s.submitted})
    (habort : s.abort = false) {t : T} (ht : t ∈ s.submitted) (hleft : t ∉ s.executed)
    (hfree : NotHeldUp s t) : Served s := by
  have hok := h.workers habort
  have hheard := h.heard habort
  obtain ⟨p, hp⟩ := (hplaced.cover t).mp ht
  cases p with
  | hand c =>
    refine GoesOn.served (p := True) (goesOn_call (h.calls c) fun hnone => ?_) trivial
    rw [ThreadPool.tasksAt, hnone] at hp
    exact absurd hp List.not_mem_nil
  | publicQueue w =>
    exact served_attended (hok w) h.calls (hfree w (.inl hp))
      (hheard w (.inl (List.ne_nil_of_mem hp)))
  | privateQueue w =>
    exact served_attended (hok w) h.calls (hfree w (.inr (.inl hp)))
      (hheard w (.inr (List.ne_nil_of_mem hp)))
  | running w =>
    obtain ⟨u, hrun⟩ : ∃ u, (s.workers w).phase = .running u := by
      cases hphase : (s.workers w).phase with
      | running u => exact ⟨u, rfl⟩
      | _ =>
        rw [ThreadPool.tasksAt, hphase] at hp
        exact absurd hp List.not_mem_nil
    have htask : t = u := by
      rw [ThreadPool.tasksAt, hrun] at hp
      exact List.mem_singleton.mp hp
    subst htask
    refine served_worker (hok w) h.calls (hfree w (.inr (.inr hrun))) ?_ ?_ ?_ <;>
      simp [hrun, WorkerPhase.leaving]
  | executed => exact absurd hp hleft
  | dropped =>
    rw [ThreadPool.tasksAt, h.pool.dropped habort] at hp
    exact absurd hp List.not_mem_nil
  | returned =>
    rw [ThreadPool.tasksAt, h.pool.returned habort] at hp
    exact absurd hp List.not_mem_nil

end PoolWakeupLemmas

open PoolWorkerLemmas PoolTaskLemmas PoolWakeupLemmas

variable {X T : Type} {n : Nat} [DecidableEq X] [DecidableEq T] {s : ThreadPool X T n}
variable {tr : List (ThreadPool X T n × PoolLabel X T n × ThreadPool X T n)}

/-- As long as a task is not executed, and the worker that has it runs none that is blocked, some
thread of the pool can go on, in the same runs. -/
theorem pool_not_stuck (hrun : Run PoolSteps .init tr s) (hintime : Meets InTime tr)
    (habort : s.abort = false) {t : T} (ht : t ∈ s.submitted) (hleft : t ∉ s.executed)
    (hfree : NotHeldUp s t) : ∃ l s', PoolSteps s l s' ∧ l.serves = true :=
  served_left (hrun.inv heardOk_init heardOk_step hintime) (placed_run hrun) habort ht hleft hfree

/-- A push has just found the worker asleep. -/
theorem pool_not_stuck_asleep :
    ∃ tr s, Run PoolSteps (.init : ThreadPool Unit Nat 1) tr s ∧
      (s.workers 0).phase = .waiting ∧ (s.workers 0).publicQueue = [2] ∧
      ∃ l s', PoolSteps s l s' ∧ l.serves = true := by
  obtain ⟨tr, s, hrun, -, hview⟩ := exists_run ThreadPool.step (R := PoolSteps) id
    (.init : ThreadPool Unit Nat 1)
    [.enqueue (.external ()) 1, .enter (.external ()), .find (.external ()) (some 0),
      .enqueueForeign (.external ()), .drain 0, .balance 0 [], .start 0, .finish 0, .endLoop 0,
      .drain 0, .enqueue (.external ()) 2, .enter (.external ()),
      .find (.external ()) (some 0), .enqueueForeign (.external ())]
    (fun r => ((r.2.workers 0).phase, (r.2.workers 0).publicQueue, r.2.abort,
      r.1.all fun t => decide (InTime t.1 t.2.1), decide (2 ∈ r.2.submitted ∧ 2 ∉ r.2.executed),
      decide (∀ w, (r.2.workers w).blocked = false)))
    (v := (.waiting, [2], false, true, true, true)) (by decide)
  obtain ⟨hphase, hrest⟩ := Prod.mk.inj hview
  obtain ⟨hpublic, hrest⟩ := Prod.mk.inj hrest
  obtain ⟨habort, hrest⟩ := Prod.mk.inj hrest
  obtain ⟨hall, hrest⟩ := Prod.mk.inj hrest
  obtain ⟨htask, hfree⟩ := Prod.mk.inj hrest
  have htask' := of_decide_eq_true htask
  exact ⟨tr, s, hrun, hphase, hpublic, pool_not_stuck hrun (meets_of_all hall) habort htask'.1
    htask'.2 fun w _ => of_decide_eq_true hfree w⟩

end FlavoEngine.Engine

import FlavoEngine.Engine.PoolShutdown

/-!
# The pool with its set of idle workers

`ThreadPool` leaves it free which idle workers a search names. Here the searches are made in an
`IdleWorkerSet`, in which the workers announce themselves.

* A thread takes a step of the pool only when it is in no call of the set, or to use the answer of
  its search.
* A worker announces itself when it falls asleep, and takes that back when it wakes up to tasks. It
  does the latter after its critical section, not at the end of it.
* The constructor of the pool has announced every worker.

Results:
1. `answers_met`: every run is a run of `ThreadPool` and one of `IdleWorkerSet`, and the answer of
   each search is one that `ThreadPool` expects.
2. `announced_not_stuck`: while a task is not executed and does not wait for one that is blocked,
   some thread can go on, if need be with its search.
3. `announced_iff`: a worker that is awake is announced idle only on account of a push that gave it
   a thread without a search before.
-/

namespace FlavoEngine.Engine

open FlavoEngine.Lib

/-! ## Steps -/

structure AnnouncedPool (X T : Type) (n : Nat) where
  pool : ThreadPool X T n
  idleWorkers : IdleWorkerSet (PoolThread X n) n

inductive AnnouncedLabel (X T : Type) (n : Nat) where
  /-- A thread begins a search. -/
  | search (c : PoolThread X n) (hashedId : Nat)
  /-- It goes on in its call of the set. -/
  | next (c : PoolThread X n)
  | pool (l : PoolLabel X T n)

namespace ThreadPool

variable {X T : Type} {n : Nat} [DecidableEq T]

/-- The search that the thread is to make, in `enqueue` or in `balance_work`. -/
def searchOp (s : ThreadPool X T n) (c : PoolThread X n) (hashedId : Nat) : Option (IdleOp n) :=
  match s.call c, s.release c with
  | .find _ _, none => some (.findIdleWorker c.index hashedId)
  | .none, none =>
    match c with
    | .worker w =>
      let maxCount := maxIdleWorkerCount n (s.workers w).privateQueue.length
      if (s.workers w).phase = .loop ∧ maxCount ≠ 0 then some (.findIdleWorkers w maxCount) else none
    | .external _ => none
  | _, _ => none

/-- The thread can take the step where it is in its call of the set, and uses the answer of a
search. -/
def agrees (s : ThreadPool X T n) : PoolLabel X T n → IdleCall n → Bool
  | .find _ found, .returned f => f.found.head? = found
  | .balance _ idle, .returned f => f.found = idle
  | .balance w idle, .none =>
    idle = [] && maxIdleWorkerCount n (s.workers w).privateQueue.length = 0
  | .find _ _, _ | .balance _ _, _ => false
  | _, k => k = .none

/-- The call of `mark_worker_idle` or `mark_worker_active` that the step leads to. -/
def marks (s : ThreadPool X T n) : PoolLabel X T n → IdleCall n
  | .drain w => if (s.workers w).drainQueue.phase = .waiting then .setIdle w else .none
  | .relock w => if (s.workers w).wakeUp.phase = .loop then .setActive w else .none
  | _ => .none

end ThreadPool

namespace AnnouncedPool

variable {X T : Type} {n : Nat} [DecidableEq X] [DecidableEq T]

def init : AnnouncedPool X T n where
  pool := .init
  idleWorkers := { flags := fun _ => .idle, approxSize := n + 1, call := fun _ => .none }

def search (s : AnnouncedPool X T n) (c : PoolThread X n) (hashedId : Nat) :
    Option (AnnouncedPool X T n) :=
  (s.pool.searchOp c hashedId).bind fun op =>
    (s.idleWorkers.step (.enter c op)).map fun idleWorkers => { s with idleWorkers }

def next (s : AnnouncedPool X T n) (c : PoolThread X n) : Option (AnnouncedPool X T n) :=
  match s.idleWorkers.call c with
  | .returned _ => none
  | _ => (s.idleWorkers.next c).map fun idleWorkers => { s with idleWorkers }

def poolStep (s : AnnouncedPool X T n) (l : PoolLabel X T n) : Option (AnnouncedPool X T n) :=
  match l.thread with
  | none => (s.pool.step l).map fun pool => { s with pool }
  | some c =>
    if s.pool.agrees l (s.idleWorkers.call c) then
      (s.pool.step l).map fun pool =>
        { pool, idleWorkers := s.idleWorkers.setCall c (s.pool.marks l) }
    else none

def step (s : AnnouncedPool X T n) : AnnouncedLabel X T n → Option (AnnouncedPool X T n)
  | .search c hashedId => s.search c hashedId
  | .next c => s.next c
  | .pool l => s.poolStep l

/-- The step as the pool sees it. -/
def poolLabel (_ : AnnouncedPool X T n) : AnnouncedLabel X T n → Option (PoolLabel X T n)
  | .search _ _ | .next _ => none
  | .pool l => some l

/-- The step as the set sees it. -/
def setLabel (s : AnnouncedPool X T n) :
    AnnouncedLabel X T n → Option (IdleLabel (PoolThread X n) n)
  | .search c hashedId => (s.pool.searchOp c hashedId).map (.enter c)
  | .next c => some (.next c)
  | .pool l => l.thread.bind fun c =>
    match s.idleWorkers.call c, s.pool.marks l with
    | .returned _, _ => some (.next c)
    | _, .setIdle w => some (.enter c (.setIdle w))
    | _, .setActive w => some (.enter c (.setActive w))
    | _, _ => none

end AnnouncedPool

def AnnouncedSteps {X T : Type} {n : Nat} [DecidableEq X] [DecidableEq T] (s : AnnouncedPool X T n)
    (l : AnnouncedLabel X T n) (s' : AnnouncedPool X T n) : Prop :=
  s.step l = some s'

/-- The steps with their guards and effects. -/
inductive AnnouncedMoves {X T : Type} {n : Nat} [DecidableEq X] [DecidableEq T]
    (s : AnnouncedPool X T n) : AnnouncedLabel X T n → AnnouncedPool X T n → Prop
  | search {c : PoolThread X n} {hashedId : Nat} {op : IdleOp n} :
      s.pool.searchOp c hashedId = some op → s.idleWorkers.call c = .none →
      AnnouncedMoves s (.search c hashedId)
        { s with idleWorkers := s.idleWorkers.setCall c op.enter }
  | next {c : PoolThread X n} {idleWorkers : IdleWorkerSet (PoolThread X n) n} :
      (∀ f, s.idleWorkers.call c ≠ .returned f) → s.idleWorkers.Steps (.next c) idleWorkers →
      AnnouncedMoves s (.next c) { s with idleWorkers }
  | own {l : PoolLabel X T n} {c : PoolThread X n} {pool : ThreadPool X T n} : l.thread = some c →
      s.pool.agrees l (s.idleWorkers.call c) = true → PoolSteps s.pool l pool →
      AnnouncedMoves s (.pool l) { pool, idleWorkers := s.idleWorkers.setCall c (s.pool.marks l) }
  | shutdown {l : PoolLabel X T n} {pool : ThreadPool X T n} : l.thread = none →
      PoolSteps s.pool l pool → AnnouncedMoves s (.pool l) { s with pool }

/-! ## Where the threads are -/

section Places

variable {X T : Type} {n : Nat}

/-- The thread `c` makes the search `f` where `find_idle_worker` or `find_idle_workers` is
called. -/
def SearchAt (r : ThreadPool X T n) (c : PoolThread X n) (f : Scan n) : Prop :=
  (∃ t rest, r.call c = .find t rest ∧ r.release c = none ∧ f.caller = c.index ∧ f.maxCount = 1) ∨
    ∃ w, c = .worker w ∧ r.call c = .none ∧ r.release c = none ∧ (r.workers w).phase = .loop ∧
      f.caller = some w ∧ f.maxCount = maxIdleWorkerCount n (r.workers w).privateQueue.length ∧
        f.maxCount ≠ 0

/-- Where the thread `c` is in the pool while it is in a call of the set. -/
def CallAt (r : ThreadPool X T n) (c : PoolThread X n) : IdleCall n → Prop
  | .none => True
  | .setIdle w => c = .worker w ∧ (r.workers w).phase = .waiting
  | .increment => ∃ w, c = .worker w ∧ (r.workers w).phase = .waiting
  | .setActive w => c = .worker w ∧ (r.workers w).phase = .loop
  | .decrement => ∃ w, c = .worker w ∧ (r.workers w).phase = .loop
  | .load f | .scan f | .acquire f | .subtract f | .returned f => SearchAt r c f

/-- The steps that serve the tasks, with the calls of the set. -/
def AnnouncedLabel.serves : AnnouncedLabel X T n → Bool
  | .search _ _ | .next _ => true
  | .pool m => m.serves

/-- The worker has a thread that is not in `wait_for_task`. -/
def WorkerPhase.awake : WorkerPhase T n → Bool
  | .gone | .waiting | .woken | .relock | .timedOut => false
  | _ => true

/-- The worker is awake and is not about to take its announcement back. -/
def Busy (s : AnnouncedPool X T n) (w : Fin (n + 1)) : Prop :=
  (s.pool.workers w).phase.awake = true ∧ s.idleWorkers.call (.worker w) ≠ .setActive w

/-- No step gives a thread to a worker that is still announced idle. -/
def StartsActive (s : AnnouncedPool X T n) : AnnouncedLabel X T n → Prop
  | .pool m => ∀ w, pushTarget s.pool m = some w → (s.pool.workers w).phase = .gone →
      (s.pool.workers w).abort = false → s.idleWorkers.flags w = .active
  | _ => True

instance [DecidableEq T] (s : AnnouncedPool X T n) : DecidablePred (StartsActive s) := fun l =>
  match l with
  | .pool _ => inferInstanceAs (Decidable (∀ _, _))
  | .search _ _ | .next _ => isTrue trivial

end Places

namespace AnnouncedLemmas

open PoolWorkerLemmas PoolWakeupLemmas PoolShutdownLemmas IdleWorkerLemmas

variable {X T : Type} {n : Nat} [DecidableEq X] [DecidableEq T]
variable {s s' : AnnouncedPool X T n} {l : AnnouncedLabel X T n}

theorem moves_of_steps (h : AnnouncedSteps s l s') : AnnouncedMoves s l s' := by
  unfold AnnouncedSteps at h
  cases l with
  | search c hashedId =>
    obtain ⟨op, hop, h⟩ := Option.bind_eq_some_iff.mp h
    obtain ⟨idleWorkers, henter, rfl⟩ := Option.map_eq_some_iff.mp h
    simp only [IdleWorkerSet.step] at henter
    split at henter
    · next hnone =>
      cases henter
      exact .search hop hnone
    · cases henter
  | next c =>
    simp only [AnnouncedPool.step, AnnouncedPool.next] at h
    split at h
    · cases h
    · next hreturned =>
      obtain ⟨idleWorkers, hnext, rfl⟩ := Option.map_eq_some_iff.mp h
      exact .next hreturned hnext
  | pool l =>
    simp only [AnnouncedPool.step, AnnouncedPool.poolStep] at h
    split at h
    · next hthread =>
      obtain ⟨pool, hstep, rfl⟩ := Option.map_eq_some_iff.mp h
      exact .shutdown hthread hstep
    · next c hthread =>
      split at h
      · next hagrees =>
        obtain ⟨pool, hstep, rfl⟩ := Option.map_eq_some_iff.mp h
        exact .own hthread hagrees hstep
      · cases h

/-! ### What other threads do -/

/-- What the other threads leave of a thread as it is. -/
structure Untouched (r r' : ThreadPool X T n) (c : PoolThread X n) : Prop where
  call : r'.call c = r.call c
  release : r'.release c = r.release c
  worker : ∀ w, c = .worker w → (r.workers w).phase ≠ .gone →
    (r'.workers w).phase = (r.workers w).phase ∧
      (r'.workers w).privateQueue = (r.workers w).privateQueue

variable {r r' : ThreadPool X T n} {c d : PoolThread X n} {m : PoolLabel X T n}

omit [DecidableEq X] [DecidableEq T] in
theorem untouched_of_same (hcall : r'.call = r.call) (hrelease : r'.release = r.release)
    (hworkers : r'.workers = r.workers) : Untouched r r' d :=
  ⟨by rw [hcall], by rw [hrelease], fun _ _ _ => by rw [hworkers]; exact ⟨rfl, rfl⟩⟩

omit [DecidableEq T] in
theorem untouched_setCall {k : PoolCall T n} (h : Untouched r r' d) (hne : d ≠ c) :
    Untouched r (r'.setCall c k) d :=
  ⟨(ThreadPool.setCall_call_of_ne r' c k hne).trans h.call, h.release, h.worker⟩

omit [DecidableEq T] in
theorem untouched_setRelease {o : Option (Fin (n + 1))} (h : Untouched r r' d) (hne : d ≠ c) :
    Untouched r (r'.setRelease c o) d :=
  ⟨h.call, (ThreadPool.setRelease_release_of_ne r' c o hne).trans h.release, h.worker⟩

omit [DecidableEq X] [DecidableEq T] in
theorem untouched_setWorker {v : Fin (n + 1)} {a : Worker T n} (h : Untouched r r' d)
    (ha : d = .worker v → (r'.workers v).phase ≠ .gone →
      a.phase = (r'.workers v).phase ∧ a.privateQueue = (r'.workers v).privateQueue) :
    Untouched r (r'.setWorker v a) d := by
  refine ⟨h.call, h.release, fun w hd hgone => ?_⟩
  obtain ⟨hphase, hqueue⟩ := h.worker w hd hgone
  rcases eq_or_ne w v with rfl | hne
  · obtain ⟨haphase, haqueue⟩ := ha hd (hphase ▸ hgone)
    rw [ThreadPool.setWorker_workers_self]
    exact ⟨haphase.trans hphase, haqueue.trans hqueue⟩
  · rw [ThreadPool.setWorker_workers_of_ne r' v a hne]
    exact ⟨hphase, hqueue⟩

omit [DecidableEq T] in
/-- A push changes neither where a worker with a thread is nor its private queue. -/
theorem foreign_same {a : Worker T n} {ts : List T} (hsettled : Settled a) (hgone : a.phase ≠ .gone) :
    (a.enqueueForeign ts).2.phase = a.phase ∧
      (a.enqueueForeign ts).2.privateQueue = a.privateQueue := by
  have hidle : a.idle ≠ true := fun hidle => hgone (hsettled.mp hidle)
  simp [Worker.enqueueForeign, hidle]

theorem untouched_step (h : ShutdownOk r) (hstep : PoolSteps r m r') (hthread : m.thread ≠ some d) :
    Untouched r r' d := by
  have hsettled := h.pool.settled
  have hsame : Untouched r r d := untouched_of_same rfl rfl rfl
  have hown : ∀ {w : Fin (n + 1)} {a : Worker T n}, PoolThread.worker w ≠ d →
      Untouched r (r.setWorker w a) d := fun hne =>
    untouched_setWorker hsame fun hd => absurd hd.symm hne
  cases hstep.moves with
  | enqueue | enqueueSpan | enterLocal | enter | found | foundNone | roundRobin | rejectLocal
  | rejectForeign =>
    refine untouched_setCall ?_ fun hd => hthread (congrArg some hd.symm)
    exact untouched_of_same rfl rfl rfl
  | enqueueLocal =>
    have hne := fun hd => hthread (congrArg some hd)
    exact untouched_setCall (hown hne) (Ne.symm hne)
  | enqueueForeign =>
    have hne := fun hd => hthread (congrArg some (Eq.symm hd))
    exact untouched_setRelease (untouched_setCall
      (untouched_setWorker hsame fun _ => foreign_same (hsettled _)) hne) hne
  | release =>
    exact untouched_setRelease (untouched_setWorker hsame fun _ _ => ⟨rfl, rfl⟩)
      fun hd => hthread (congrArg some hd.symm)
  | work _ hmove =>
    refine hown fun hd => hthread ?_
    subst hd
    cases hmove <;> rfl
  | @donate w v k more =>
    have hne := fun hd => hthread (congrArg some hd)
    refine untouched_setRelease (untouched_setWorker (hown hne) fun hd => foreign_same ?_)
      (Ne.symm hne)
    rw [ThreadPool.setWorker_workers_of_ne r w _ fun heq => hne (by rw [hd, heq])]
    exact hsettled v
  | donateRejected => exact hown fun hd => hthread (congrArg some hd)
  | @finish w =>
    have hne := fun hd => hthread (congrArg some hd)
    have hkept := hown (a := { r.workers w with phase := .loop }) hne
    exact ⟨hkept.call, hkept.release, hkept.worker⟩
  | @raise w =>
    have hne := fun hd => hthread (congrArg some hd)
    have hkept := hown (a := { r.workers w with phase := .aborting }) hne
    exact ⟨hkept.call, hkept.release, hkept.worker⟩
  | shutdownAgain => exact hsame
  | shutdown => exact ⟨rfl, rfl, fun _ _ _ => ⟨rfl, rfl⟩⟩
  | @stop w stage a ts shutdown hshutdown hmove =>
    have hkept : Untouched r (r.setWorker w a) d := by
      refine untouched_setWorker hsame fun _ hgone => ?_
      cases hmove with
      | setAtomicAbort | setAbort | notify | releaseSemaphore | join => exact ⟨rfl, rfl⟩
      | clear =>
        have hstop := h.shut w
        rw [hshutdown] at hstop
        exact absurd (hstop.2 rfl).2 hgone
    exact ⟨hkept.call, hkept.release, hkept.worker⟩

/-! ### Where a thread is in a call of the set -/

omit [DecidableEq X] [DecidableEq T] in
theorem callAt_untouched {k : IdleCall n} (h : CallAt r d k) (hd : Untouched r r' d) :
    CallAt r' d k := by
  have hphase : ∀ {w : Fin (n + 1)} {p : WorkerPhase T n}, d = .worker w → (r.workers w).phase = p →
      p ≠ .gone → (r'.workers w).phase = p := fun hw hp hgone =>
    ((hd.worker _ hw (hp ▸ hgone)).1).trans hp
  have hsearch : ∀ {f : Scan n}, SearchAt r d f → SearchAt r' d f := by
    rintro f (⟨t, rest, hcall, hrelease, hf⟩ | ⟨w, hw, hcall, hrelease, hloop, hcaller, hcount, hne⟩)
    · exact .inl ⟨t, rest, hd.call.trans hcall, hd.release.trans hrelease, hf⟩
    · obtain ⟨hphase, hqueue⟩ := hd.worker w hw (by rw [hloop]; simp)
      exact .inr ⟨w, hw, hd.call.trans hcall, hd.release.trans hrelease, hphase.trans hloop, hcaller,
        by rw [hqueue, hcount], hne⟩
  cases k with
  | none => trivial
  | setIdle w | setActive w => exact ⟨h.1, hphase h.1 h.2 (by simp)⟩
  | increment | decrement =>
    obtain ⟨w, hw, hp⟩ := h
    exact ⟨w, hw, hphase hw hp (by simp)⟩
  | load | scan | acquire | subtract | returned => exact hsearch h

omit [DecidableEq X] in
/-- A search begins where the pool asks for it. -/
theorem callAt_search {op : IdleOp n} {hashedId : Nat} (h : r.searchOp c hashedId = some op) :
    CallAt r c op.enter := by
  unfold ThreadPool.searchOp at h
  split at h
  · next t rest hcall hrelease =>
    cases h
    cases c with
    | external | worker => exact .inl ⟨t, rest, hcall, hrelease, rfl, rfl⟩
  · next hcall hrelease =>
    cases c with
    | external => cases h
    | worker w =>
      dsimp only at h
      split at h
      · next hcond =>
        cases h
        exact .inr ⟨w, rfl, hcall, hrelease, hcond.1, rfl, rfl, hcond.2⟩
      · cases h
  · cases h

omit [DecidableEq T] in
/-- A thread stays where it is in the pool while it goes on in its call. -/
theorem callAt_next {t t' : IdleWorkerSet (PoolThread X n) n} (h : ∀ d, CallAt r d (t.call d))
    (hm : IdleMoves t (.next c) t') (d : PoolThread X n) : CallAt r d (t'.call d) := by
  have hset : ∀ {u : IdleWorkerSet (PoolThread X n) n} {k : IdleCall n}, u.call = t.call →
      CallAt r c k → CallAt r d ((u.setCall c k).call d) := fun hu hk =>
    setCall_all hk (fun e _ => hu ▸ h e) d
  have hc := h c
  cases hm with
  | unchanged | increment | decrement | leave => exact hset rfl trivial
  | setIdle hcall | setActive hcall =>
    rw [hcall] at hc
    exact hset rfl ⟨_, hc⟩
  | loadNone hcall | load hcall | skip hcall | found hcall | ended hcall | late hcall | acquire hcall
  | subtract hcall =>
    rw [hcall] at hc
    exact hset rfl hc

omit [DecidableEq X] in
theorem workerStep_eq {w : Fin (n + 1)} {p : WorkerPhase T n} {f : Worker T n → Option (Worker T n)}
    [DecidableEq X] (h : r.workerStep w (ThreadPool.atPhase p f) = some r') :
    ∃ a, f (r.workers w) = some a ∧ r' = r.setWorker w a := by
  unfold ThreadPool.workerStep ThreadPool.atPhase at h
  split at h
  · obtain ⟨a, ha, rfl⟩ := Option.map_eq_some_iff.mp h
    split at ha
    · exact ⟨a, ha, rfl⟩
    · cases ha
  · cases h

/-- A worker marks itself when it has fallen asleep or has taken its tasks. -/
theorem callAt_marks (hthread : m.thread = some c) (hstep : PoolSteps r m r') :
    CallAt r' c (r.marks m) := by
  unfold ThreadPool.marks
  split
  · next w =>
    cases hthread
    split
    · next hphase =>
      obtain ⟨a, ha, rfl⟩ := workerStep_eq hstep
      cases ha
      exact ⟨rfl, by rw [ThreadPool.setWorker_workers_self]; exact hphase⟩
    · trivial
  · next w =>
    cases hthread
    split
    · next hphase =>
      obtain ⟨a, ha, rfl⟩ := workerStep_eq hstep
      cases ha
      exact ⟨rfl, by rw [ThreadPool.setWorker_workers_self]; exact hphase⟩
    · trivial
  · trivial

/-! ### Runs -/

/-- The invariant of the pool with its set. -/
structure AnnouncedOk (s : AnnouncedPool X T n) : Prop where
  pool : ShutdownOk s.pool
  calls : ∀ c, CallAt s.pool c (s.idleWorkers.call c)
  searches : ∀ c, Searching (s.idleWorkers.call c)

omit [DecidableEq X] [DecidableEq T] in
theorem announcedOk_init : AnnouncedOk (.init : AnnouncedPool X T n) where
  pool := shutdownOk_init
  calls _ := trivial
  searches _ := trivial

omit [DecidableEq X] in
theorem marks_cases (r : ThreadPool X T n) (m : PoolLabel X T n) :
    r.marks m = .none ∨ (∃ w, m = .drain w ∧ r.marks m = .setIdle w) ∨
      ∃ w, m = .relock w ∧ r.marks m = .setActive w := by
  cases m with
  | drain w =>
    simp only [ThreadPool.marks]
    split
    · exact .inr (.inl ⟨w, rfl, rfl⟩)
    · exact .inl rfl
  | relock w =>
    simp only [ThreadPool.marks]
    split
    · exact .inr (.inr ⟨w, rfl, rfl⟩)
    · exact .inl rfl
  | _ => exact .inl rfl

omit [DecidableEq X] in
theorem searching_marks (r : ThreadPool X T n) (m : PoolLabel X T n) : Searching (r.marks m) := by
  rcases marks_cases r m with hm | ⟨w, -, hm⟩ | ⟨w, -, hm⟩
  all_goals
    rw [hm]
    trivial

theorem announcedOk_step (h : AnnouncedOk s) (hstep : AnnouncedSteps s l s') : AnnouncedOk s' := by
  cases moves_of_steps hstep with
  | search hop hnone =>
    refine ⟨h.pool, setCall_all (callAt_search hop) fun d _ => h.calls d, ?_⟩
    exact searching_moves h.searches (.enter hnone)
  | next _ hnext =>
    have hmove := IdleWorkerLemmas.moves_of_steps hnext
    exact ⟨h.pool, callAt_next h.calls hmove, searching_moves h.searches hmove⟩
  | @own m c r hthread _ hpool =>
    refine ⟨shutdownOk_step h.pool hpool, ?_, ?_⟩
    · refine setCall_all (callAt_marks hthread hpool) fun d hne => ?_
      refine callAt_untouched (h.calls d) (untouched_step h.pool hpool ?_)
      rw [hthread]
      exact fun heq => hne (Option.some.inj heq).symm
    · exact setCall_all (I := fun _ k => Searching k) (searching_marks _ _) fun d _ => h.searches d
  | shutdown hthread hpool =>
    refine ⟨shutdownOk_step h.pool hpool, fun d => ?_, h.searches⟩
    exact callAt_untouched (h.calls d) (untouched_step h.pool hpool (by rw [hthread]; simp))

/-! ### The two levels -/

omit [DecidableEq X] in
theorem agrees_cases {k : IdleCall n} (h : r.agrees m k = true) :
    k = .none ∨ (∃ f, k = .returned f) ∧ r.marks m = .none := by
  cases m with
  | find =>
    cases k with
    | returned f => exact .inr ⟨⟨f, rfl⟩, rfl⟩
    | _ => cases h
  | balance =>
    cases k with
    | none => exact .inl rfl
    | returned f => exact .inr ⟨⟨f, rfl⟩, rfl⟩
    | _ => cases h
  | _ => exact .inl (of_decide_eq_true h)

/-- What the set sees of a step is a step of the set, or nothing. -/
theorem set_step (hstep : AnnouncedSteps s l s') :
    (s.setLabel l = none ∧ s'.idleWorkers = s.idleWorkers) ∨
      ∃ k, s.setLabel l = some k ∧ s.idleWorkers.Steps k s'.idleWorkers := by
  cases moves_of_steps hstep with
  | @search c _ op hop hnone =>
    exact .inr ⟨.enter c op, by simp only [AnnouncedPool.setLabel, hop, Option.map_some],
      if_pos hnone⟩
  | next _ hnext => exact .inr ⟨_, rfl, hnext⟩
  | shutdown hthread =>
    exact .inl ⟨by simp only [AnnouncedPool.setLabel, hthread, Option.bind_none], rfl⟩
  | @own m c _ hthread hagrees =>
    simp only [AnnouncedPool.setLabel, hthread, Option.bind_some]
    rcases agrees_cases hagrees with hnone | ⟨⟨f, hreturned⟩, hmarks⟩
    · rw [hnone]
      rcases marks_cases s.pool m with hmarks | ⟨w, -, hmarks⟩ | ⟨w, -, hmarks⟩
      · have hsame : Function.update s.idleWorkers.call c .none = s.idleWorkers.call := by
          rw [← hnone, Function.update_eq_self]
        rw [hmarks]
        exact .inl ⟨rfl, by simp only [IdleWorkerSet.setCall, hsame]⟩
      · rw [hmarks]
        exact .inr ⟨_, rfl, if_pos hnone⟩
      · rw [hmarks]
        exact .inr ⟨_, rfl, if_pos hnone⟩
    · rw [hreturned, hmarks]
      refine .inr ⟨_, rfl, ?_⟩
      simp [IdleWorkerSet.Steps, IdleWorkerSet.step, IdleWorkerSet.next, hreturned]

theorem set_run {tr : List (AnnouncedPool X T n × AnnouncedLabel X T n × AnnouncedPool X T n)}
    (hrun : Run AnnouncedSteps .init tr s) :
    Run IdleWorkerSet.Steps (AnnouncedPool.init : AnnouncedPool X T n).idleWorkers
      (image AnnouncedPool.idleWorkers AnnouncedPool.setLabel tr) s.idleWorkers := by
  refine hrun.simulate (I := fun _ => True) (f := AnnouncedPool.idleWorkers)
    (g := AnnouncedPool.setLabel) trivial (fun _ _ => trivial) ?_ ?_
  · intro s l s' _ hstep hl
    rcases set_step hstep with ⟨-, hkept⟩ | ⟨k, hk, -⟩
    · exact hkept
    · rw [hl] at hk
      cases hk
  · intro s l s' k _ hstep hl
    rcases set_step hstep with ⟨hnone, -⟩ | ⟨k', hk, hset⟩
    · rw [hl] at hnone
      cases hnone
    · rw [hl] at hk
      cases hk
      exact hset

theorem pool_run {tr : List (AnnouncedPool X T n × AnnouncedLabel X T n × AnnouncedPool X T n)}
    (hrun : Run AnnouncedSteps .init tr s) :
    Run PoolSteps .init (image AnnouncedPool.pool AnnouncedPool.poolLabel tr) s.pool := by
  refine hrun.simulate (I := fun _ => True) (f := AnnouncedPool.pool)
    (g := AnnouncedPool.poolLabel) trivial (fun _ _ => trivial) ?_ ?_
  · intro s l s' _ hstep hl
    cases moves_of_steps hstep with
    | search | next => rfl
    | own | shutdown => cases hl
  · intro s l s' m _ hstep hl
    cases moves_of_steps hstep with
    | search | next => cases hl
    | own _ _ hpool | shutdown _ hpool =>
      cases hl
      exact hpool

/-- The loop of the constructor has announced the first `k` workers. -/
def announcedUpTo (k : Nat) : IdleWorkerSet (PoolThread X n) n :=
  { flags := fun w => if w.val < k then .idle else .active
    approxSize := k
    call := fun _ => .none }

theorem flags_next {k : Nat} (hk : k < n + 1) :
    Function.update (fun w : Fin (n + 1) => if w.val < k then IdleStatus.idle else .active)
      ⟨k, hk⟩ .idle = fun w => if w.val < k + 1 then IdleStatus.idle else .active := by
  funext w
  rcases eq_or_ne w ⟨k, hk⟩ with rfl | hne
  · rw [Function.update_self, if_pos (Nat.lt_succ_self k)]
  · have hw : w.val ≠ k := fun heq => hne (Fin.ext heq)
    rw [Function.update_of_ne hne]
    simp only [Nat.lt_succ_iff_lt_or_eq, hw, or_false]

omit [DecidableEq X] [DecidableEq T] in
theorem announcedUpTo_all : (announcedUpTo (n + 1) : IdleWorkerSet (PoolThread X n) n) =
    (AnnouncedPool.init : AnnouncedPool X T n).idleWorkers := by
  have hflags : (fun w : Fin (n + 1) => if w.val < n + 1 then IdleStatus.idle else .active) =
      fun _ => .idle := funext fun w => if_pos w.isLt
  simp only [announcedUpTo, AnnouncedPool.init, hflags]
  rfl

omit [DecidableEq T] in
theorem announce_next {k : Nat} (hk : k < n + 1) (c : PoolThread X n) :
    ∃ tr, Run IdleWorkerSet.Steps (announcedUpTo k : IdleWorkerSet (PoolThread X n) n) tr
      (announcedUpTo (k + 1)) := by
  obtain ⟨tr, t, hrun, -, ht⟩ := exists_run IdleWorkerSet.step (R := IdleWorkerSet.Steps) id
    (announcedUpTo k) [.enter c (.setIdle ⟨k, hk⟩), .next c, .next c] (fun r => r.2)
    (v := announcedUpTo (k + 1)) (by
      simp [exec, IdleWorkerSet.step, IdleWorkerSet.next, announcedUpTo, IdleWorkerSet.setCall,
        IdleWorkerSet.setFlag, IdleOp.enter, flags_next hk])
  exact ⟨tr, ht ▸ hrun⟩

omit [DecidableEq T] in
/-- The constructor of the pool, run by the thread `c`. -/
theorem announce_all (c : PoolThread X n) : ∀ k ≤ n + 1,
    ∃ tr, Run IdleWorkerSet.Steps (.create : IdleWorkerSet (PoolThread X n) n) tr (announcedUpTo k)
  | 0, _ => by
    have hstart : (announcedUpTo 0 : IdleWorkerSet (PoolThread X n) n) = .create := by
      simp [announcedUpTo, IdleWorkerSet.create]
    exact ⟨[], hstart ▸ .nil⟩
  | k + 1, hk => by
    obtain ⟨tr, hrun⟩ := announce_all c k (Nat.le_of_succ_le hk)
    obtain ⟨tr', hnext⟩ := announce_next (Nat.lt_of_succ_le hk) c
    exact ⟨tr ++ tr', hrun.append hnext⟩

/-! ### Answers -/

omit [DecidableEq X] [DecidableEq T] in
theorem toList_head {found : List (Fin (n + 1))} (h : found.length ≤ 1) :
    found.head?.toList = found := by
  match found with
  | [] => rfl
  | [_] => rfl
  | _ :: _ :: _ => simp at h

theorem own_step (hthread : m.thread = some c) (hagrees : s.pool.agrees m (s.idleWorkers.call c) = true)
    (hpool : PoolSteps s.pool m r) : ∃ s', AnnouncedSteps s (.pool m) s' := by
  simp only [AnnouncedSteps, AnnouncedPool.step, AnnouncedPool.poolStep, hthread, if_pos hagrees]
  exact ⟨_, Option.map_eq_some_iff.mpr ⟨r, hpool, rfl⟩⟩

theorem find_answer {t : T} {rest : List T} {found : Option (Fin (n + 1))}
    (hcall : r.call c = .find t rest) (hrelease : r.release c = none)
    (hanswer : IdleAnswer c.index 1 found.toList) : ∃ r', PoolSteps r (.find c found) r' := by
  simp only [PoolSteps, ThreadPool.step, ThreadPool.find, hcall, hrelease, if_pos hanswer]
  cases found with
  | some w => exact ⟨_, rfl⟩
  | none => cases c <;> exact ⟨_, rfl⟩

theorem balance_answer {w : Fin (n + 1)} {found : List (Fin (n + 1))}
    (hquiet : r.quiet (.worker w) = true) (hphase : (r.workers w).phase = .loop)
    (htasks : (r.workers w).privateQueue ≠ [])
    (hanswer : IdleAnswer (some w) (maxIdleWorkerCount n (r.workers w).privateQueue.length) found) :
    ∃ r', PoolSteps r (.balance w found) r' := by
  simp [PoolSteps, ThreadPool.step, ThreadPool.balance, ThreadPool.workerStep, ThreadPool.atPhase,
    hquiet, hphase, htasks, hanswer]

/-- The pool takes the answer of a search where the search is. -/
theorem answered (h : AnnouncedOk s) {f : Scan n} (hcall : s.idleWorkers.call c = .returned f) :
    ∃ m s', m.thread = some c ∧
      (m = .find c f.found.head? ∨ ∃ w, c = .worker w ∧ m = .balance w f.found) ∧
      AnnouncedSteps s (.pool m) s' := by
  have hscan := h.searches c
  have hat := h.calls c
  rw [hcall] at hscan hat
  have hanswer : IdleAnswer f.caller f.maxCount f.found := Scanned.answer hscan
  rcases hat with ⟨t, rest, hfind, hrelease, hcaller, hone⟩ |
    ⟨w, rfl, hnone, hrelease, hloop, hcaller, hcount, hpos⟩
  · have hlist := toList_head (hone ▸ hanswer.length_le)
    rw [hcaller, hone, ← hlist] at hanswer
    obtain ⟨r, hr⟩ := find_answer hfind hrelease hanswer
    obtain ⟨s', hs'⟩ := own_step (m := .find c f.found.head?) rfl
      (by rw [hcall]; exact decide_eq_true rfl) hr
    exact ⟨_, s', rfl, .inl rfl, hs'⟩
  · rw [hcaller, hcount] at hanswer
    have htasks : (s.pool.workers w).privateQueue ≠ [] := fun hempty => hpos (by
      rw [hcount, hempty]
      rfl)
    obtain ⟨r, hr⟩ := balance_answer (quiet_iff.mpr ⟨hnone, hrelease⟩) hloop htasks hanswer
    obtain ⟨s', hs'⟩ := own_step (m := .balance w f.found) rfl
      (by rw [hcall]; exact decide_eq_true rfl) hr
    exact ⟨_, s', rfl, .inr ⟨w, rfl, rfl⟩, hs'⟩

omit [DecidableEq X] [DecidableEq T] in
theorem no_idle {caller : Option (Fin (n + 1))} {idle : List (Fin (n + 1))}
    (h : IdleAnswer caller 0 idle) : idle = [] :=
  List.length_eq_zero_iff.mp (Nat.le_zero.mp h.length_le)

omit [DecidableEq X] in
theorem searchOp_find {t : T} {rest : List T} (hcall : r.call c = .find t rest)
    (hrelease : r.release c = none) : r.searchOp c 0 = some (.findIdleWorker c.index 0) := by
  simp only [ThreadPool.searchOp, hcall, hrelease]

theorem balance_guard {w : Fin (n + 1)} {idle : List (Fin (n + 1))}
    (h : PoolSteps r (.balance w idle) r') :
    r.quiet (.worker w) = true ∧ (r.workers w).phase = .loop ∧
      IdleAnswer (some w) (maxIdleWorkerCount n (r.workers w).privateQueue.length) idle := by
  simp only [PoolSteps, ThreadPool.step, ThreadPool.balance, ThreadPool.workerStep,
    ThreadPool.atPhase] at h
  split at h
  · next hquiet =>
    split at h
    · next hphase =>
      split at h
      · next hcond => exact ⟨hquiet, hphase, hcond.2⟩
      · cases h
    · cases h
  · cases h

/-- A thread that can go on in the pool can go on, if need be with its search. -/
theorem goesOn_free (hnone : s.idleWorkers.call c = .none) (hthread : m.thread = some c)
    (hpool : PoolSteps s.pool m r) (hserves : m.serves = true) :
    ∃ l s', AnnouncedSteps s l s' ∧ l.serves = true := by
  have hsearch : ∀ {op : IdleOp n}, s.pool.searchOp c 0 = some op →
      ∃ l s', AnnouncedSteps s l s' ∧ l.serves = true := by
    intro op hop
    have henter : AnnouncedSteps s (.search c 0)
        { s with idleWorkers := s.idleWorkers.setCall c op.enter } := by
      simp only [AnnouncedSteps, AnnouncedPool.step, AnnouncedPool.search, hop, Option.bind_some,
        IdleWorkerSet.step, if_pos hnone, Option.map_some]
    exact ⟨_, _, henter, rfl⟩
  have hown : s.pool.agrees m .none = true → ∃ l s', AnnouncedSteps s l s' ∧ l.serves = true := by
    intro hagrees
    obtain ⟨s', hs'⟩ := own_step hthread (hnone ▸ hagrees) hpool
    exact ⟨_, s', hs', hserves⟩
  cases m with
  | find c' found =>
    cases hthread
    cases hpool.moves with
    | found hcall hrelease | foundNone hcall hrelease | roundRobin hcall hrelease =>
      exact hsearch (searchOp_find hcall hrelease)
    | work _ hmove => cases hmove
  | balance w idle =>
    cases hthread
    obtain ⟨hquiet, hphase, hanswer⟩ := balance_guard hpool
    obtain ⟨hcall, hrelease⟩ := quiet_iff.mp hquiet
    by_cases hzero : maxIdleWorkerCount n (s.pool.workers w).privateQueue.length = 0
    · rw [hzero] at hanswer
      exact hown (by simp [ThreadPool.agrees, no_idle hanswer, hzero])
    · have hop : s.pool.searchOp (.worker w) 0 = some (.findIdleWorkers w
          (maxIdleWorkerCount n (s.pool.workers w).privateQueue.length)) := by
        simp only [ThreadPool.searchOp, hcall, hrelease]
        exact if_pos ⟨hphase, hzero⟩
      exact hsearch hop
  | _ => exact hown (by simp [ThreadPool.agrees])

theorem goesOn_announced (h : AnnouncedOk s) (hpool : PoolSteps s.pool m r)
    (hserves : m.serves = true) : ∃ l s', AnnouncedSteps s l s' ∧ l.serves = true := by
  obtain ⟨c, hthread⟩ : ∃ c, m.thread = some c := by
    cases m with
    | shutdown | stop => cases hserves
    | _ => exact ⟨_, rfl⟩
  by_cases hnone : s.idleWorkers.call c = .none
  · exact goesOn_free hnone hthread hpool hserves
  by_cases hreturned : ∃ f, s.idleWorkers.call c = .returned f
  · obtain ⟨f, hcall⟩ := hreturned
    obtain ⟨m', s', -, hm', hs'⟩ := answered h hcall
    rcases hm' with rfl | ⟨w, -, rfl⟩
    · exact ⟨_, s', hs', rfl⟩
    · exact ⟨_, s', hs', rfl⟩
  · obtain ⟨t, ht⟩ := next_possible hnone
    have hnext : AnnouncedSteps s (.next c) { s with idleWorkers := t } := by
      simp only [AnnouncedSteps, AnnouncedPool.step, AnnouncedPool.next]
      split
      · next f hcall => exact absurd ⟨f, hcall⟩ hreturned
      · exact Option.map_eq_some_iff.mpr ⟨t, ht, rfl⟩
    exact ⟨_, _, hnext, rfl⟩

/-! ### Busy workers -/

variable {w : Fin (n + 1)}

/-- A worker wakes up to tasks, or a push gives it a thread. -/
theorem awake_step (h : ShutdownOk r) (hstep : PoolSteps r m r')
    (hawake : (r'.workers w).phase.awake = true) :
    (r.workers w).phase.awake = true ∨ (m = .relock w ∧ r.marks m = .setActive w) ∨
      pushTarget r m = some w ∧ (r.workers w).phase = .gone ∧ (r.workers w).abort = false := by
  -- a step that changes the worker `v` only
  have hone : ∀ {q : ThreadPool X T n} {v : Fin (n + 1)} {a : Worker T n},
      ((q.setWorker v a).workers w).phase.awake = true →
      (w = v ∧ a.phase.awake = true) ∨ w ≠ v ∧ (q.workers w).phase.awake = true := by
    intro q v a ha
    rcases eq_or_ne w v with rfl | hne
    · rw [ThreadPool.setWorker_workers_self] at ha
      exact .inl ⟨rfl, ha⟩
    · rw [ThreadPool.setWorker_workers_of_ne q v a hne] at ha
      exact .inr ⟨hne, ha⟩
  -- a push gives a thread to a worker that has none
  have hpush : ∀ {a : Worker T n} {ts : List T}, Settled a →
      (a.enqueueForeign ts).2.phase.awake = true → a.phase.awake = true ∨ a.phase = .gone := by
    intro a ts ha hpushed
    by_cases hgone : a.phase = .gone
    · exact .inr hgone
    · rw [(foreign_same ha hgone).1] at hpushed
      exact .inl hpushed
  have hsettled := h.pool.settled
  cases hstep.moves with
  | enqueue | enqueueSpan | enterLocal | enter | found | foundNone | roundRobin | rejectLocal
  | rejectForeign | shutdownAgain | shutdown => exact .inl hawake
  | enqueueLocal | release =>
    rcases hone hawake with ⟨rfl, ha⟩ | ⟨-, ha⟩
    · exact .inl ha
    · exact .inl ha
  | @enqueueForeign c v p ts parts rest hcall _ habort =>
    rcases hone hawake with ⟨rfl, ha⟩ | ⟨-, ha⟩
    · rcases hpush (hsettled w) ha with ha | hgone
      · exact .inl ha
      · exact .inr (.inr ⟨pushTarget_foreign hcall, hgone, habort⟩)
    · exact .inl ha
  | work _ hmove =>
    rcases hone hawake with ⟨rfl, ha⟩ | ⟨-, ha⟩
    swap
    · exact .inl ha
    cases hmove with
    | acquire | timeOut | readFlag | readNothing | sleepAgain | wakeAborted | giveUp => cases ha
    | sleep hphase | drainAborted hphase | drain hphase | endLoop hphase | keep hphase
    | balance hphase | abort hphase | start hphase | block hphase | resume hphase
    | leave hphase =>
      exact .inl (by rw [hphase]; rfl)
    | wake _ hne hno =>
      have hloop : (r.workers w).wakeUp.phase = .loop := by
        simp [Worker.wakeUp, Worker.takeQueue, hne, hno]
      exact .inr (.inl ⟨rfl, if_pos hloop⟩)
  | @donate u v k more hphase _ habort =>
    rcases hone hawake with ⟨rfl, ha⟩ | ⟨-, ha⟩
    · rcases eq_or_ne w u with rfl | hne
      · exact .inl (by rw [hphase]; rfl)
      · rw [ThreadPool.setWorker_workers_of_ne r u _ hne] at ha
        rcases hpush (hsettled w) ha with ha | hgone
        · exact .inl ha
        · exact .inr (.inr ⟨pushTarget_donate hphase, hgone, habort⟩)
    · rcases hone ha with ⟨rfl, -⟩ | ⟨-, ha⟩
      · exact .inl (by rw [hphase]; rfl)
      · exact .inl ha
  | donateRejected hphase | finish hphase | raise hphase =>
    rcases hone hawake with ⟨rfl, -⟩ | ⟨-, ha⟩
    · exact .inl (by rw [hphase]; rfl)
    · exact .inl ha
  | stop _ hmove =>
    rcases hone hawake with ⟨rfl, ha⟩ | ⟨-, ha⟩
    · cases hmove <;> exact .inl ha
    · exact .inl ha

omit [DecidableEq T] in
/-- A call of the set makes the flag of a worker that is awake active, or leaves it. -/
theorem flag_next {t t' : IdleWorkerSet (PoolThread X n) n} (h : ∀ d, CallAt r d (t.call d))
    (hm : IdleMoves t (.next c) t') (hawake : (r.workers w).phase.awake = true) :
    t'.flags w = .active ∨ t'.flags w = t.flags w ∧
      (t.call (.worker w) = .setActive w → t'.call (.worker w) = .setActive w) := by
  have hc := h c
  -- the call of the thread `c` was another one
  have hother : ∀ {u : IdleWorkerSet (PoolThread X n) n} {k : IdleCall n}, u.call = t.call →
      t.call c ≠ .setActive w → t.call (.worker w) = .setActive w →
      (u.setCall c k).call (.worker w) = .setActive w := by
    intro u k hu hne hactive
    refine setCall_all (I := fun d k => d = .worker w → k = .setActive w) ?_ ?_ _ rfl
    · rintro rfl
      exact absurd hactive hne
    · rintro d - rfl
      rw [hu, hactive]
  have hflag : ∀ {v : Fin (n + 1)} {st : IdleStatus}, w ≠ v → (t.setFlag v st).flags w = t.flags w :=
    fun hne => Function.update_of_ne hne ..
  cases hm with
  | @unchanged _ v hcall =>
    rcases hcall with ⟨hcall, -⟩ | ⟨hcall, hactive⟩
    · exact .inr ⟨rfl, hother rfl (by rw [hcall]; simp)⟩
    · rcases eq_or_ne w v with rfl | hne
      · exact .inl hactive
      · exact .inr ⟨rfl, hother rfl (by rw [hcall]; simpa using hne.symm)⟩
  | @setIdle _ v hcall =>
    rw [hcall] at hc
    rcases eq_or_ne w v with rfl | hne
    · rw [hc.2] at hawake
      cases hawake
    · exact .inr ⟨hflag hne, hother rfl (by rw [hcall]; simp)⟩
  | @setActive _ v hcall =>
    rcases eq_or_ne w v with rfl | hne
    · exact .inl (Function.update_self ..)
    · exact .inr ⟨hflag hne, hother rfl (by rw [hcall]; simpa using hne.symm)⟩
  | @acquire _ f hcall =>
    rcases eq_or_ne w f.index with rfl | hne
    · exact .inl (Function.update_self ..)
    · exact .inr ⟨hflag hne, hother rfl (by rw [hcall]; simp)⟩
  | increment hcall | decrement hcall | loadNone hcall | load hcall | skip hcall | found hcall
  | ended hcall | late hcall | subtract hcall | leave hcall =>
    exact .inr ⟨rfl, hother rfl (by rw [hcall]; simp)⟩

theorem busy_step (h : AnnouncedOk s) (hbusy : ∀ w, Busy s w → s.idleWorkers.flags w = .active)
    (hstart : StartsActive s l) (hstep : AnnouncedSteps s l s') (w : Fin (n + 1))
    (hw : Busy s' w) : s'.idleWorkers.flags w = .active := by
  obtain ⟨hawake, hactive⟩ := hw
  cases moves_of_steps hstep with
  | @search c _ op _ hnone =>
    refine hbusy w ⟨hawake, fun hcall => hactive ?_⟩
    have hne : PoolThread.worker w ≠ c := fun heq => by
      rw [heq, hnone] at hcall
      cases hcall
    exact (Function.update_of_ne hne ..).trans hcall
  | next _ hnext =>
    rcases flag_next h.calls (IdleWorkerLemmas.moves_of_steps hnext) hawake with hset | ⟨hflag, hcall⟩
    · exact hset
    · exact hflag.trans (hbusy w ⟨hawake, fun hc => hactive (hcall hc)⟩)
  | @own m c r hthread hagrees hpool =>
    have hcall : s.idleWorkers.call (.worker w) ≠ .setActive w := fun hc => by
      rcases eq_or_ne (.worker w) c with rfl | hne
      · rcases agrees_cases hagrees with hno | ⟨⟨f, hno⟩, -⟩
        · rw [hno] at hc
          cases hc
        · rw [hno] at hc
          cases hc
      · exact hactive ((Function.update_of_ne hne ..).trans hc)
    rcases awake_step h.pool hpool hawake with hbefore | ⟨rfl, hmarks⟩ | ⟨htarget, hgone, habort⟩
    · exact hbusy w ⟨hbefore, hcall⟩
    · cases hthread
      exact absurd ((Function.update_self _ _ s.idleWorkers.call).trans hmarks) hactive
    · exact hstart w htarget hgone habort
  | @shutdown m r hthread hpool =>
    rcases awake_step h.pool hpool hawake with hbefore | ⟨rfl, -⟩ | ⟨htarget, hgone, habort⟩
    · exact hbusy w ⟨hbefore, hactive⟩
    · cases hthread
    · exact hstart w htarget hgone habort

omit [DecidableEq T] in
/-- A push to a worker without a thread gives it one. -/
theorem started {ts : List T} {a : Worker T n} (h : Settled a) (hgone : a.phase = .gone) :
    (a.enqueueForeign ts).2.phase.awake = true := by
  simp [Worker.enqueueForeign, h.mpr hgone, WorkerPhase.awake]

theorem push_step (h : ShutdownOk r) (hstep : PoolSteps r m r') (htarget : pushTarget r m = some w)
    (hgone : (r.workers w).phase = .gone) (habort : (r.workers w).abort = false) :
    (r'.workers w).phase.awake = true := by
  cases m with
  | enqueueForeign c =>
    cases hstep.moves with
    | @enqueueForeign _ v p ts parts rest hcall =>
      obtain rfl : v = w := Option.some.inj ((pushTarget_foreign hcall).symm.trans htarget)
      have hpushed : ((r.setWorker v ((r.workers v).enqueueForeign ts).2).workers v).phase.awake =
          true := by
        rw [ThreadPool.setWorker_workers_self]
        exact started (h.pool.settled v) hgone
      exact hpushed
    | @rejectForeign _ v _ _ _ _ hcall _ hno =>
      obtain rfl : v = w := Option.some.inj ((pushTarget_foreign hcall).symm.trans htarget)
      rw [habort] at hno
      cases hno
    | work _ hmove => cases hmove
  | donate u =>
    cases hstep.moves with
    | @donate _ v k more hphase =>
      obtain rfl : v = w := Option.some.inj ((pushTarget_donate hphase).symm.trans htarget)
      have hne : v ≠ u := fun heq => by
        rw [← heq, hgone] at hphase
        cases hphase
      have hsame := ThreadPool.setWorker_workers_of_ne r u ((r.workers u).give k more) hne
      have hpushed : ((r.donateTo u v k more).workers v).phase.awake = true := by
        unfold ThreadPool.donateTo
        dsimp only
        rw [ThreadPool.setRelease_workers, ThreadPool.setWorker_workers_self, hsame]
        exact started (h.pool.settled v) hgone
      exact hpushed
    | @donateRejected _ v _ _ hphase _ hno =>
      obtain rfl : v = w := Option.some.inj ((pushTarget_donate hphase).symm.trans htarget)
      rw [habort] at hno
      cases hno
    | work _ hmove => cases hmove
  | _ => cases htarget

theorem announced_step (h : AnnouncedOk s) (hstart : ¬ StartsActive s l)
    (hstep : AnnouncedSteps s l s') : ¬ ∀ w, Busy s' w → s'.idleWorkers.flags w = .active := by
  intro hbusy
  cases l with
  | search | next => exact hstart trivial
  | pool m =>
    refine hstart fun w htarget hgone habort => ?_
    -- a worker without a thread takes no announcement back
    have hcall : s.idleWorkers.call (.worker w) ≠ .setActive w := fun hc => by
      have hat := h.calls (.worker w)
      rw [hc] at hat
      obtain ⟨-, hloop⟩ : _ ∧ (s.pool.workers w).phase = .loop := hat
      rw [hgone] at hloop
      cases hloop
    cases moves_of_steps hstep with
    | @own _ c _ hthread hagrees hpool =>
      refine hbusy w ⟨push_step h.pool hpool htarget hgone habort, ?_⟩
      refine setCall_all (I := fun d k => d = .worker w → k ≠ .setActive w) ?_ ?_ _ rfl
      · intro _
        cases m with
        | enqueueForeign | donate => simp [ThreadPool.marks]
        | _ => cases htarget
      · rintro d - rfl
        exact hcall
    | shutdown _ hpool =>
      exact hbusy w ⟨push_step h.pool hpool htarget hgone habort, hcall⟩

end AnnouncedLemmas

open PoolTaskLemmas PoolWakeupLemmas AnnouncedLemmas

variable {X T : Type} {n : Nat} [DecidableEq X] [DecidableEq T] {s : AnnouncedPool X T n}
variable {tr : List (AnnouncedPool X T n × AnnouncedLabel X T n × AnnouncedPool X T n)}

/-- Every run is one of the pool and, behind the constructor that any thread may have run, one of
the set; and when a search has returned, the pool can take the step that uses its answer. -/
theorem answers_met (hrun : Run AnnouncedSteps .init tr s) :
    Run PoolSteps .init (image AnnouncedPool.pool AnnouncedPool.poolLabel tr) s.pool ∧
      (∀ _ : PoolThread X n, ∃ tr₀, Run IdleWorkerSet.Steps .create
        (tr₀ ++ image AnnouncedPool.idleWorkers AnnouncedPool.setLabel tr) s.idleWorkers) ∧
      ∀ c f, s.idleWorkers.call c = .returned f → ∃ m s', m.thread = some c ∧
        (m = .find c f.found.head? ∨ ∃ w, c = .worker w ∧ m = .balance w f.found) ∧
        AnnouncedSteps s (.pool m) s' := by
  refine ⟨pool_run hrun, fun c => ?_, fun c f hcall => ?_⟩
  · obtain ⟨tr₀, hcreate⟩ := announce_all c (n + 1) le_rfl
    exact ⟨tr₀, (announcedUpTo_all (X := X) (T := T) ▸ hcreate).append (set_run hrun)⟩
  · exact answered (hrun.inv_all announcedOk_init announcedOk_step) hcall

/-- A task is enqueued, and the search for an idle worker has returned. -/
def foundSchedule (c : PoolThread Unit 1) (t : Nat) : List (AnnouncedLabel Unit Nat 1) :=
  [.pool (.enqueue c t), .pool (.enter c), .search c 0, .next c, .next c, .next c, .next c, .next c]

theorem answers_met_found :
    ∃ tr s, ∃ f : Scan 1, Run AnnouncedSteps (.init : AnnouncedPool Unit Nat 1) tr s ∧
      s.idleWorkers.call (.external ()) = .returned f ∧ f.found = [0] ∧
      ∃ m s', m.thread = some (.external ()) ∧
        (m = .find (.external ()) f.found.head? ∨
          ∃ w, .external () = PoolThread.worker w ∧ m = .balance w f.found) ∧
        AnnouncedSteps s (.pool m) s' := by
  obtain ⟨tr, s, hrun, -, hview⟩ := exists_run AnnouncedPool.step (R := AnnouncedSteps) id
    (.init : AnnouncedPool Unit Nat 1) (foundSchedule (.external ()) 1)
    (fun r => r.2.idleWorkers.call (.external ())) (v := .returned
      { caller := none, maxCount := 1, start := 0, limit := 1, i := 1, found := [0] }) (by decide)
  exact ⟨tr, s, _, hrun, hview, rfl, (answers_met hrun).2.2 _ _ hview⟩

/-- As long as a task is not executed, and the worker that has it runs none that is blocked, some
thread can take a step that serves the tasks, its search included, in the runs of which the pool's
part is in time. -/
theorem announced_not_stuck (hrun : Run AnnouncedSteps .init tr s)
    (hintime : Meets InTime (image AnnouncedPool.pool AnnouncedPool.poolLabel tr))
    (habort : s.pool.abort = false) {t : T} (ht : t ∈ s.pool.submitted)
    (hleft : t ∉ s.pool.executed) (hfree : NotHeldUp s.pool t) :
    ∃ l s', AnnouncedSteps s l s' ∧ l.serves = true := by
  have hpool := pool_run hrun
  obtain ⟨m, r, hstep, hserves⟩ := served_left
    (hpool.inv heardOk_init heardOk_step hintime) (placed_run hpool) habort ht hleft hfree
  exact goesOn_announced (hrun.inv_all announcedOk_init announcedOk_step) hstep hserves

/-- The only thread with something to do is in the midst of its search. -/
theorem announced_not_stuck_searching :
    ∃ tr s, Run AnnouncedSteps (.init : AnnouncedPool Unit Nat 1) tr s ∧
      (∀ w, (s.pool.workers w).phase = .gone) ∧
      ∃ l s', AnnouncedSteps s l s' ∧ l.serves = true := by
  obtain ⟨tr, s, hrun, -, hview⟩ := exists_run AnnouncedPool.step (R := AnnouncedSteps) id
    (.init : AnnouncedPool Unit Nat 1) ((foundSchedule (.external ()) 1).take 5)
    (fun r => (decide (∀ w, (r.2.pool.workers w).phase = .gone), r.2.pool.abort,
      (image AnnouncedPool.pool AnnouncedPool.poolLabel r.1).all fun t =>
        decide (InTime t.1 t.2.1),
      decide (1 ∈ r.2.pool.submitted ∧ 1 ∉ r.2.pool.executed),
      decide (∀ w, (r.2.pool.workers w).blocked = false)))
    (v := (true, false, true, true, true)) (by decide)
  obtain ⟨hgone, hrest⟩ := Prod.mk.inj hview
  obtain ⟨habort, hrest⟩ := Prod.mk.inj hrest
  obtain ⟨hall, hrest⟩ := Prod.mk.inj hrest
  obtain ⟨htask, hfree⟩ := Prod.mk.inj hrest
  have htask' := of_decide_eq_true htask
  exact ⟨tr, s, hrun, of_decide_eq_true hgone, announced_not_stuck hrun (meets_of_all hall) habort
    htask'.1 htask'.2 fun w _ => of_decide_eq_true hfree w⟩

/-- A worker that is awake and not about to take its announcement back is never announced idle,
in the runs in which no step gives a thread to a worker that is still announced. -/
theorem announced_iff (hrun : Run AnnouncedSteps .init tr s) :
    (∀ t ∈ tr, ∀ w, Busy t.2.2 w → t.2.2.idleWorkers.flags w = .active) ↔
      Meets StartsActive tr := by
  refine hrun.forall_iff (P := fun _ _ s' => ∀ w, Busy s' w → s'.idleWorkers.flags w = .active)
    (I := fun s => AnnouncedOk s ∧ ∀ w, Busy s w → s.idleWorkers.flags w = .active)
    ⟨announcedOk_init, ?_⟩ ?_ ?_
  · intro w hbusy
    cases hbusy.1
  · intro s l s' h hstart hstep
    have hbusy := busy_step h.1 h.2 hstart hstep
    exact ⟨⟨announcedOk_step h.1 hstep, hbusy⟩, hbusy⟩
  · intro s l s' h hstart hstep
    exact announced_step h.1 hstart hstep

/-- A span gives both workers a task, and the first runs its task when another is enqueued. -/
def spanSchedule (c : PoolThread Unit 1) (w : Fin 2) : List (AnnouncedLabel Unit Nat 1) :=
  [.pool (.enqueueSpan c [1, 2]), .pool (.enqueueForeign c), .pool (.enqueueForeign c),
    .pool (.drain w), .pool (.balance w []), .pool (.start w)] ++ foundSchedule c 3

/-- The search finds the worker that runs a task. -/
theorem announced_iff_running :
    ∃ tr s, ∃ f : Scan 1, Run AnnouncedSteps (.init : AnnouncedPool Unit Nat 1) tr s ∧
      (s.pool.workers 0).phase = .running 1 ∧
      s.idleWorkers.call (.external ()) = .returned f ∧ f.found = [0] ∧
      ¬ ∀ t ∈ tr, ∀ w, Busy t.2.2 w → t.2.2.idleWorkers.flags w = .active := by
  obtain ⟨tr, s, hrun, -, hview⟩ := exists_run AnnouncedPool.step (R := AnnouncedSteps) id
    (.init : AnnouncedPool Unit Nat 1) (spanSchedule (.external ()) 0)
    (fun r => ((r.2.pool.workers 0).phase, r.2.idleWorkers.call (.external ()),
      r.1.all fun t => decide (StartsActive t.1 t.2.1)))
    (v := (.running 1, .returned
      { caller := none, maxCount := 1, start := 0, limit := 1, i := 1, found := [0] }, false))
    (by decide)
  obtain ⟨hphase, hrest⟩ := Prod.mk.inj hview
  obtain ⟨hcall, hall⟩ := Prod.mk.inj hrest
  refine ⟨tr, s, _, hrun, hphase, hcall, rfl, fun hactive => ?_⟩
  have hmeets := (announced_iff hrun).mp hactive
  rw [List.all_eq_true.mpr fun t ht => decide_eq_true (hmeets t ht)] at hall
  cases hall

end FlavoEngine.Engine

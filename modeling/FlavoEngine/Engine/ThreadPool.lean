import FlavoEngine.Lib.Shares
import FlavoEngine.Engine.IdleWorkers

/-!
# The thread pool

`parallel::ThreadPoolExecutor` is `concurrencpp::thread_pool_executor`
(`concurrencpp/executors/thread_pool_executor.cpp`). Each worker has a private queue, which only its
own thread touches, and a public one behind a lock, to which other threads push. A worker with
nothing to do sleeps on its semaphore, and after a while its thread ends; the next push starts a new
thread. A worker with many tasks donates some to idle workers.

* A critical section of `m_lock` is one step, and so is an atomic access outside of it. A thread
  that is to release a semaphore after a critical section does so in a step of its own.
* The pool has `n + 1` workers. The threads that call `enqueue` are the workers, from within their
  tasks, and others, which are no workers of another `thread_pool_executor`. Each call of `enqueue`
  passes tasks that were not passed before, also those that a call has left with its caller.
* A task ends, or leaves by `errors::runtime_shutdown`, which `work_loop` catches. Any other
  exception ends the process. A task may be blocked, on another task or for good; it then does
  nothing until it goes on. What a task does with an exception of `enqueue` is free.
* `shutdown` may be called at any time, by a thread that is no worker.
* `find_idle_worker` and `find_idle_workers` answer as `IdleAnswer` says, which is proved of them in
  `IdleWorkers`. Which workers they name is free. The flags are not part of the state.
* A sleeping worker may time out at any time. `release` of a semaphore that is free leaves it free.
* A thread that has left `work_loop` only runs its end callback, so the join of a replaced thread is
  no step.

Results:
1. `PoolSteps.moves`: a step of the pool is one of the moves of `PoolMoves`, each with its guards
   and its effect. Every invariant of the pool is proved over them.
2. `PoolSteps.workers`: what is kept by all that a step may do to a worker is kept for every worker.
-/

namespace FlavoEngine.Engine

open FlavoEngine.Lib

/-! ## Workers -/

/-- Where the thread of a worker is in `work_loop`. -/
inductive WorkerPhase (T : Type) (n : Nat) where
  /-- There is no thread, or it has left `work_loop`. -/
  | gone
  /-- Before `drain_queue` takes the lock. -/
  | drain
  /-- In `try_acquire_until`; past it with the semaphore; past the test of
  `m_task_found_or_abort`; past it with a time-out. -/
  | waiting
  | woken
  | relock
  | timedOut
  /-- At the head of the loop of `drain_queue_impl`. -/
  | loop
  /-- In `balance_work`, with the donations to come. -/
  | donating (shares : List (Fin (n + 1) × Nat))
  /-- Past `balance_work`. -/
  | balanced
  | running (t : T)
  /-- Before it sets `m_idle` on account of an abort or of `runtime_shutdown`. -/
  | aborting
deriving DecidableEq

/-- `thread_pool_worker`. -/
structure Worker (T : Type) (n : Nat) where
  privateQueue : List T := []
  idleWorkerList : List (Fin (n + 1)) := []
  atomicAbort : Bool := false
  publicQueue : List T := []
  semaphore : Bool := false
  idle : Bool := true
  abort : Bool := false
  taskFoundOrAbort : Bool := false
  phase : WorkerPhase T n := .gone
  /-- The task that runs waits for something, or does not come to its end. -/
  blocked : Bool := false

namespace Worker

variable {T : Type} {n : Nat}

def appearsEmpty (a : Worker T n) : Bool :=
  a.privateQueue.isEmpty && !a.taskFoundOrAbort

/-- The thread leaves `work_loop`. -/
def leave (a : Worker T n) : Worker T n :=
  { a with idle := true, phase := .gone }

/-- `enqueue_foreign` past the test of `m_abort`, with `ensure_worker_active`: whether the semaphore
is to be released, and the worker. -/
def enqueueForeign (a : Worker T n) (ts : List T) : Bool × Worker T n :=
  let a' := { a with taskFoundOrAbort := true, publicQueue := a.publicQueue ++ ts }
  if a.idle then (false, { a' with idle := false, phase := .drain })
  else (a.publicQueue.isEmpty, a')

/-- The end of `drain_queue`, with the lock. -/
def takeQueue (a : Worker T n) : Worker T n :=
  { a with
    taskFoundOrAbort := false
    privateQueue := a.publicQueue
    publicQueue := a.privateQueue
    phase := .loop }

/-- `drain_queue` up to the sleep of `wait_for_task`, or to its end. -/
def drainQueue (a : Worker T n) : Worker T n :=
  if a.publicQueue = [] ∧ a.abort = false then { a with phase := .waiting }
  else if a.abort = true then { a with taskFoundOrAbort := false }.leave
  else a.takeQueue

/-- `wait_for_task` after a wake-up, and the end of `drain_queue`. -/
def wakeUp (a : Worker T n) : Worker T n :=
  if a.publicQueue = [] ∧ a.abort = false then { a with phase := .waiting }
  else if a.abort = true then a.leave
  else a.takeQueue

end Worker

/-- The sizes of the first `k` of `total` donations of `taskCount` tasks. -/
def donationSizes (taskCount total k : Nat) : List Nat :=
  let donationCount := taskCount / total
  shares donationCount (taskCount - donationCount * total) k

/-- `max_idle_worker_count` of `balance_work`; 0 where it returns at once. -/
def maxIdleWorkerCount (n taskCount : Nat) : Nat :=
  if taskCount < 2 then 0 else min n (taskCount - 1)

/-- `balance_work` with the answer of `find_idle_workers`, up to the first donation. -/
def Worker.balanceWork {T : Type} {n : Nat} (a : Worker T n) (idle : List (Fin (n + 1))) :
    Worker T n :=
  if maxIdleWorkerCount n a.privateQueue.length = 0 then { a with phase := .balanced }
  else
    match a.idleWorkerList ++ idle with
    | [] => { a with phase := .balanced }
    | v :: vs => { a with
        idleWorkerList := v :: vs
        phase := .donating ((v :: vs).zip
          (donationSizes a.privateQueue.length (vs.length + 2) (vs.length + 1))) }

/-- The worker has given its first `k` tasks away, and goes on with the donations `more`. -/
def Worker.give {T : Type} {n : Nat} (a : Worker T n) (k : Nat) (more : List (Fin (n + 1) × Nat)) :
    Worker T n :=
  { a with
    privateQueue := a.privateQueue.drop k
    idleWorkerList := if more = [] then [] else a.idleWorkerList
    phase := if more = [] then .balanced else .donating more }

/-! ## Calls -/

/-- A thread that enqueues. -/
inductive PoolThread (X : Type) (n : Nat) where
  | external (x : X)
  | worker (w : Fin (n + 1))
deriving DecidableEq

/-- `this_thread_index`. -/
def PoolThread.index {X : Type} {n : Nat} : PoolThread X n → Option (Fin (n + 1))
  | .external _ => none
  | .worker w => some w

/-- Whose the tasks are that are pushed next: `enqueue(task)` has moved its task into its parameter,
while those of a span stay the caller's. -/
inductive Passing where
  | task
  | span
deriving DecidableEq

/-- Where a thread is in a call of `enqueue`. In a span, the tasks of `rest` are enqueued after. -/
inductive PoolCall (T : Type) (n : Nat) where
  | none
  /-- `enqueue` of one task, at its begin. -/
  | enter (t : T) (rest : List T)
  /-- Before `find_idle_worker`. -/
  | find (t : T) (rest : List T)
  /-- Before `enqueue_local`. -/
  | enqueueLocal (p : Passing) (ts rest : List T)
  /-- Before the calls of `enqueue_foreign`. -/
  | enqueueForeign (p : Passing) (parts : List (Fin (n + 1) × List T)) (rest : List T)
deriving DecidableEq

namespace PoolCall

variable {T : Type} {n : Nat}

/-- The tasks that the call has not yet given away. -/
def tasks : PoolCall T n → List T
  | none => []
  | enter t rest | find t rest => t :: rest
  | enqueueLocal _ ts rest => ts ++ rest
  | enqueueForeign _ parts rest => (parts.map (·.2)).flatten ++ rest

@[simp] theorem tasks_none : (none : PoolCall T n).tasks = [] := rfl
@[simp] theorem tasks_enqueueLocal (p : Passing) (ts rest : List T) :
    (enqueueLocal p ts rest : PoolCall T n).tasks = ts ++ rest := rfl

/-- The tasks that an exception of the next push destroys, and those that it leaves with the
caller. -/
def destroyed : PoolCall T n → List T
  | enqueueLocal .task ts _ => ts
  | enqueueForeign .task parts _ => (parts.map (·.2)).flatten
  | _ => []

def spared : PoolCall T n → List T
  | enqueueLocal .task _ rest | enqueueForeign .task _ rest => rest
  | k => k.tasks

/-- The loop over a small span. -/
def ofSpan : List T → PoolCall T n
  | [] => none
  | t :: rest => enter t rest

/-- Past one `enqueue_foreign`. -/
def afterPart (p : Passing) (parts : List (Fin (n + 1) × List T)) (rest : List T) : PoolCall T n :=
  if parts = [] then ofSpan rest else enqueueForeign p parts rest

end PoolCall

/-! ## The pool -/

/-- Where `thread_pool_worker::shutdown` is. -/
inductive ShutdownStage where
  | setAtomicAbort
  | setAbort
  | notify
  | releaseSemaphore
  | join
  | clear
deriving DecidableEq

/-- `shutdown` of the pool: not called, at a worker, or over. -/
inductive Shutdown (n : Nat) where
  | notCalled
  | stopping (w : Fin (n + 1)) (stage : ShutdownStage)
  | finished
deriving DecidableEq

structure ThreadPool (X T : Type) (n : Nat) where
  workers : Fin (n + 1) → Worker T n := fun _ => {}
  roundRobinCursor : UInt64 := 0
  abort : Bool := false
  call : PoolThread X n → PoolCall T n := fun _ => .none
  /-- The semaphore that a thread is about to release. -/
  release : PoolThread X n → Option (Fin (n + 1)) := fun _ => none
  shutdown : Shutdown n := .notCalled
  /-- The tasks passed to `enqueue`, those executed, those destroyed without, and those of spans
  that an exception has left with the caller. -/
  submitted : List T := []
  executed : List T := []
  dropped : List T := []
  returned : List T := []

inductive PoolLabel (X T : Type) (n : Nat) where
  /-- A thread calls `enqueue`, with one task or with a span. -/
  | enqueue (c : PoolThread X n) (t : T)
  | enqueueSpan (c : PoolThread X n) (ts : List T)
  /-- It goes on in the call. -/
  | enter (c : PoolThread X n)
  | find (c : PoolThread X n) (found : Option (Fin (n + 1)))
  | enqueueLocal (c : PoolThread X n)
  | enqueueForeign (c : PoolThread X n)
  | release (c : PoolThread X n)
  /-- The thread of a worker goes on. -/
  | drain (w : Fin (n + 1))
  | acquire (w : Fin (n + 1))
  | timeOut (w : Fin (n + 1))
  | readFlag (w : Fin (n + 1))
  | relock (w : Fin (n + 1))
  | giveUp (w : Fin (n + 1))
  | endLoop (w : Fin (n + 1))
  | balance (w : Fin (n + 1)) (idle : List (Fin (n + 1)))
  | donate (w : Fin (n + 1))
  | start (w : Fin (n + 1))
  /-- The task that runs waits, goes on, ends, or leaves by `runtime_shutdown`. -/
  | block (w : Fin (n + 1))
  | resume (w : Fin (n + 1))
  | finish (w : Fin (n + 1))
  | raise (w : Fin (n + 1))
  | leave (w : Fin (n + 1))
  /-- `shutdown` is called, and goes on. -/
  | shutdown
  | stop
deriving DecidableEq

namespace ThreadPool

variable {X T : Type} {n : Nat} [DecidableEq X] [DecidableEq T]

def init : ThreadPool X T n := {}

def setWorker (s : ThreadPool X T n) (w : Fin (n + 1)) (a : Worker T n) : ThreadPool X T n :=
  { s with workers := Function.update s.workers w a }

def setCall (s : ThreadPool X T n) (c : PoolThread X n) (k : PoolCall T n) : ThreadPool X T n :=
  { s with call := Function.update s.call c k }

def setRelease (s : ThreadPool X T n) (c : PoolThread X n) (w : Option (Fin (n + 1))) :
    ThreadPool X T n :=
  { s with release := Function.update s.release c w }

section Frames

variable (s : ThreadPool X T n) (w : Fin (n + 1)) (a : Worker T n) (c : PoolThread X n)
variable (k : PoolCall T n) (r : Option (Fin (n + 1)))

omit [DecidableEq X] [DecidableEq T]

@[simp] theorem setWorker_workers_self : (s.setWorker w a).workers w = a :=
  Function.update_self ..

theorem setWorker_workers_of_ne {v : Fin (n + 1)} (h : v ≠ w) :
    (s.setWorker w a).workers v = s.workers v :=
  Function.update_of_ne h ..

@[simp] theorem setWorker_call : (s.setWorker w a).call = s.call := rfl
@[simp] theorem setWorker_release : (s.setWorker w a).release = s.release := rfl
@[simp] theorem setWorker_shutdown : (s.setWorker w a).shutdown = s.shutdown := rfl
@[simp] theorem setWorker_submitted : (s.setWorker w a).submitted = s.submitted := rfl
@[simp] theorem setWorker_executed : (s.setWorker w a).executed = s.executed := rfl
@[simp] theorem setWorker_dropped : (s.setWorker w a).dropped = s.dropped := rfl
@[simp] theorem setWorker_returned : (s.setWorker w a).returned = s.returned := rfl

variable [DecidableEq X]

@[simp] theorem setCall_call_self : (s.setCall c k).call c = k :=
  Function.update_self ..

theorem setCall_call_of_ne {d : PoolThread X n} (h : d ≠ c) : (s.setCall c k).call d = s.call d :=
  Function.update_of_ne h ..

@[simp] theorem setCall_workers : (s.setCall c k).workers = s.workers := rfl
@[simp] theorem setCall_release : (s.setCall c k).release = s.release := rfl
@[simp] theorem setCall_shutdown : (s.setCall c k).shutdown = s.shutdown := rfl
@[simp] theorem setCall_submitted : (s.setCall c k).submitted = s.submitted := rfl
@[simp] theorem setCall_executed : (s.setCall c k).executed = s.executed := rfl
@[simp] theorem setCall_dropped : (s.setCall c k).dropped = s.dropped := rfl
@[simp] theorem setCall_returned : (s.setCall c k).returned = s.returned := rfl

@[simp] theorem setRelease_release_self : (s.setRelease c r).release c = r :=
  Function.update_self ..

theorem setRelease_release_of_ne {d : PoolThread X n} (h : d ≠ c) :
    (s.setRelease c r).release d = s.release d :=
  Function.update_of_ne h ..

@[simp] theorem setRelease_workers : (s.setRelease c r).workers = s.workers := rfl
@[simp] theorem setRelease_call : (s.setRelease c r).call = s.call := rfl
@[simp] theorem setRelease_shutdown : (s.setRelease c r).shutdown = s.shutdown := rfl
@[simp] theorem setRelease_submitted : (s.setRelease c r).submitted = s.submitted := rfl
@[simp] theorem setRelease_executed : (s.setRelease c r).executed = s.executed := rfl
@[simp] theorem setRelease_dropped : (s.setRelease c r).dropped = s.dropped := rfl
@[simp] theorem setRelease_returned : (s.setRelease c r).returned = s.returned := rfl

end Frames

/-! ### Calls of `enqueue` -/

/-- The thread runs code that may enqueue: a worker does so in a task. -/
def mayEnqueue (s : ThreadPool X T n) (c : PoolThread X n) : Bool :=
  match c with
  | .external _ => true
  | .worker w =>
    match (s.workers w).phase with
    | .running _ => !(s.workers w).blocked
    | _ => false

/-- The thread is in no call. -/
def quiet (s : ThreadPool X T n) (c : PoolThread X n) : Bool :=
  s.call c = .none ∧ s.release c = none

def enqueue (s : ThreadPool X T n) (c : PoolThread X n) (t : T) : Option (ThreadPool X T n) :=
  if s.quiet c ∧ s.mayEnqueue c ∧ t ∉ s.submitted then
    some ({ s with submitted := s.submitted ++ [t] }.setCall c (.enter t []))
  else none

/-- The span is enqueued locally, task by task, or in a part for each worker. -/
def spanCall (c : PoolThread X n) (ts : List T) : PoolCall T n :=
  match c with
  | .worker _ => .enqueueLocal .span ts []
  | .external _ =>
    if ts.length < n + 1 then .ofSpan ts
    else .enqueueForeign .span ((List.finRange (n + 1)).zip
      (cut (donationSizes ts.length (n + 1) (n + 1)) ts)) []

def enqueueSpan (s : ThreadPool X T n) (c : PoolThread X n) (ts : List T) :
    Option (ThreadPool X T n) :=
  if s.quiet c ∧ s.mayEnqueue c ∧ ts.Nodup ∧ ∀ t ∈ ts, t ∉ s.submitted then
    some ({ s with submitted := s.submitted ++ ts }.setCall c (spanCall c ts))
  else none

/-- `appears_empty` of the worker that calls. -/
def enter (s : ThreadPool X T n) (c : PoolThread X n) : Option (ThreadPool X T n) :=
  match s.call c, s.release c with
  | .enter t rest, none =>
    match c with
    | .worker w =>
      if (s.workers w).appearsEmpty then some (s.setCall c (.enqueueLocal .task [t] rest))
      else some (s.setCall c (.find t rest))
    | .external _ => some (s.setCall c (.find t rest))
  | _, _ => none

/-- The answer of `find_idle_worker`. -/
def find (s : ThreadPool X T n) (c : PoolThread X n) (found : Option (Fin (n + 1))) :
    Option (ThreadPool X T n) :=
  match s.call c, s.release c with
  | .find t rest, none =>
    if IdleAnswer c.index 1 found.toList then
      match found, c with
      | some w, _ => some (s.setCall c (.enqueueForeign .task [(w, [t])] rest))
      | none, .worker _ => some (s.setCall c (.enqueueLocal .task [t] rest))
      | none, .external _ =>
        let w := ⟨s.roundRobinCursor.toNat % (n + 1), Nat.mod_lt _ (Nat.succ_pos n)⟩
        some ({ s with roundRobinCursor := s.roundRobinCursor + 1 }.setCall c
          (.enqueueForeign .task [(w, [t])] rest))
    else none
  | _, _ => none

/-- A push throws `runtime_shutdown`, and the call is over. -/
def reject (s : ThreadPool X T n) (c : PoolThread X n) : ThreadPool X T n :=
  { s with
    dropped := s.dropped ++ (s.call c).destroyed
    returned := s.returned ++ (s.call c).spared }.setCall c .none

def enqueueLocal (s : ThreadPool X T n) (c : PoolThread X n) : Option (ThreadPool X T n) :=
  match c, s.call c, s.release c with
  | .worker w, .enqueueLocal _ ts rest, none =>
    let a := s.workers w
    if a.atomicAbort then some (s.reject c)
    else some ((s.setWorker w { a with privateQueue := a.privateQueue ++ ts }).setCall c
      (.ofSpan rest))
  | _, _, _ => none

def enqueueForeign (s : ThreadPool X T n) (c : PoolThread X n) : Option (ThreadPool X T n) :=
  match s.call c, s.release c with
  | .enqueueForeign p ((w, ts) :: parts) rest, none =>
    if (s.workers w).abort then some (s.reject c)
    else
      let (first, a) := (s.workers w).enqueueForeign ts
      some (((s.setWorker w a).setCall c (.afterPart p parts rest)).setRelease c
        (if first then some w else none))
  | _, _ => none

def releaseSemaphore (s : ThreadPool X T n) (c : PoolThread X n) : Option (ThreadPool X T n) :=
  match s.release c with
  | some w => some ((s.setWorker w { s.workers w with semaphore := true }).setRelease c none)
  | none => none

/-! ### Steps of the workers -/

/-- The thread of `w` takes a step of its own: it is at the phase and in no call. -/
def workerStep (s : ThreadPool X T n) (w : Fin (n + 1)) (f : Worker T n → Option (Worker T n)) :
    Option (ThreadPool X T n) :=
  if s.quiet (.worker w) then (f (s.workers w)).map (s.setWorker w) else none

/-- A worker at the phase `p` goes on. -/
def atPhase (p : WorkerPhase T n) (f : Worker T n → Option (Worker T n)) (a : Worker T n) :
    Option (Worker T n) :=
  if a.phase = p then f a else none

def drain (s : ThreadPool X T n) (w : Fin (n + 1)) : Option (ThreadPool X T n) :=
  s.workerStep w (atPhase .drain fun a => some a.drainQueue)

def acquire (s : ThreadPool X T n) (w : Fin (n + 1)) : Option (ThreadPool X T n) :=
  s.workerStep w (atPhase .waiting fun a =>
    if a.semaphore then some { a with semaphore := false, phase := .woken } else none)

def timeOut (s : ThreadPool X T n) (w : Fin (n + 1)) : Option (ThreadPool X T n) :=
  s.workerStep w (atPhase .waiting fun a => some { a with phase := .timedOut })

def readFlag (s : ThreadPool X T n) (w : Fin (n + 1)) : Option (ThreadPool X T n) :=
  s.workerStep w (atPhase .woken fun a =>
    some { a with phase := if a.taskFoundOrAbort then .relock else .waiting })

def relock (s : ThreadPool X T n) (w : Fin (n + 1)) : Option (ThreadPool X T n) :=
  s.workerStep w (atPhase .relock fun a => some a.wakeUp)

/-- After a time-out the queue is not looked at again. -/
def giveUp (s : ThreadPool X T n) (w : Fin (n + 1)) : Option (ThreadPool X T n) :=
  s.workerStep w (atPhase .timedOut fun a => some a.leave)

def endLoop (s : ThreadPool X T n) (w : Fin (n + 1)) : Option (ThreadPool X T n) :=
  s.workerStep w (atPhase .loop fun a =>
    if a.privateQueue = [] then some { a with phase := .drain } else none)

def balance (s : ThreadPool X T n) (w : Fin (n + 1)) (idle : List (Fin (n + 1))) :
    Option (ThreadPool X T n) :=
  s.workerStep w (atPhase .loop fun a =>
    if a.privateQueue ≠ [] ∧
        IdleAnswer (some w) (maxIdleWorkerCount n a.privateQueue.length) idle then
      some (a.balanceWork idle)
    else none)

/-- `w` gives `k` tasks to `v`. -/
def donateTo (s : ThreadPool X T n) (w v : Fin (n + 1)) (k : Nat) (more : List (Fin (n + 1) × Nat)) :
    ThreadPool X T n :=
  let s' := s.setWorker w ((s.workers w).give k more)
  let (first, b) := (s'.workers v).enqueueForeign ((s.workers w).privateQueue.take k)
  (s'.setWorker v b).setRelease (.worker w) (if first then some v else none)

/-- The next donation of `balance_work`. -/
def donate (s : ThreadPool X T n) (w : Fin (n + 1)) : Option (ThreadPool X T n) :=
  match (s.workers w).phase, s.quiet (.worker w) with
  | .donating ((v, k) :: more), true =>
    -- the exception ends `work_loop`
    if (s.workers v).abort then some (s.setWorker w { s.workers w with phase := .aborting })
    else some (s.donateTo w v k more)
  | _, _ => none

/-- The abort is tested, or the last task of the private queue is started. -/
def start (s : ThreadPool X T n) (w : Fin (n + 1)) : Option (ThreadPool X T n) :=
  s.workerStep w (atPhase .balanced fun a =>
    if a.atomicAbort then some { a with phase := .aborting }
    else a.privateQueue.getLast?.map fun t =>
      { a with privateQueue := a.privateQueue.dropLast, phase := .running t })

/-- The task that runs waits, or goes on. -/
def setBlocked (s : ThreadPool X T n) (w : Fin (n + 1)) (blocked : Bool) :
    Option (ThreadPool X T n) :=
  s.workerStep w fun a =>
    match a.phase with
    | .running _ => if a.blocked = blocked then none else some { a with blocked }
    | _ => none

/-- The task that runs is over, and the thread goes on at the phase. -/
def endTask (s : ThreadPool X T n) (w : Fin (n + 1)) (p : WorkerPhase T n) :
    Option (ThreadPool X T n) :=
  match (s.workers w).phase, s.quiet (.worker w), (s.workers w).blocked with
  | .running t, true, false =>
    some { s.setWorker w { s.workers w with phase := p } with executed := s.executed ++ [t] }
  | _, _, _ => none

def finish (s : ThreadPool X T n) (w : Fin (n + 1)) : Option (ThreadPool X T n) :=
  s.endTask w .loop

/-- The exception leaves `drain_queue`, with the private queue as it is. -/
def raise (s : ThreadPool X T n) (w : Fin (n + 1)) : Option (ThreadPool X T n) :=
  s.endTask w .aborting

def leave (s : ThreadPool X T n) (w : Fin (n + 1)) : Option (ThreadPool X T n) :=
  s.workerStep w (atPhase .aborting fun a => some a.leave)

/-! ### Shutdown -/

/-- A call of `shutdown`; after the first one it returns at once. -/
def beginShutdown (s : ThreadPool X T n) : Option (ThreadPool X T n) :=
  if s.abort then some s
  else some { s with abort := true, shutdown := .stopping ⟨0, Nat.succ_pos n⟩ .setAtomicAbort }

/-- Past the worker `w`. -/
def nextWorker (w : Fin (n + 1)) : Shutdown n :=
  if h : w.val + 1 < n + 1 then .stopping ⟨w.val + 1, h⟩ .setAtomicAbort else .finished

/-- `shutdown` of the worker at which it is. -/
def stop (s : ThreadPool X T n) : Option (ThreadPool X T n) :=
  match s.shutdown with
  | .notCalled | .finished => none
  | .stopping w stage =>
    let a := s.workers w
    match stage with
    | .setAtomicAbort =>
      some { s.setWorker w { a with atomicAbort := true } with shutdown := .stopping w .setAbort }
    | .setAbort =>
      some { s.setWorker w { a with abort := true } with shutdown := .stopping w .notify }
    | .notify =>
      some { s.setWorker w { a with taskFoundOrAbort := true } with
        shutdown := .stopping w .releaseSemaphore }
    | .releaseSemaphore =>
      some { s.setWorker w { a with semaphore := true } with shutdown := .stopping w .join }
    | .join => if a.phase = .gone then some { s with shutdown := .stopping w .clear } else none
    | .clear =>
      some { s.setWorker w { a with publicQueue := [], privateQueue := [] } with
        dropped := s.dropped ++ (a.publicQueue ++ a.privateQueue)
        shutdown := nextWorker w }

def step (s : ThreadPool X T n) : PoolLabel X T n → Option (ThreadPool X T n)
  | .enqueue c t => s.enqueue c t
  | .enqueueSpan c ts => s.enqueueSpan c ts
  | .enter c => s.enter c
  | .find c found => s.find c found
  | .enqueueLocal c => s.enqueueLocal c
  | .enqueueForeign c => s.enqueueForeign c
  | .release c => s.releaseSemaphore c
  | .drain w => s.drain w
  | .acquire w => s.acquire w
  | .timeOut w => s.timeOut w
  | .readFlag w => s.readFlag w
  | .relock w => s.relock w
  | .giveUp w => s.giveUp w
  | .endLoop w => s.endLoop w
  | .balance w idle => s.balance w idle
  | .donate w => s.donate w
  | .start w => s.start w
  | .block w => s.setBlocked w true
  | .resume w => s.setBlocked w false
  | .finish w => s.finish w
  | .raise w => s.raise w
  | .leave w => s.leave w
  | .shutdown => s.beginShutdown
  | .stop => s.stop

end ThreadPool

/-- The threads take steps in any order. -/
def PoolSteps {X T : Type} {n : Nat} [DecidableEq X] [DecidableEq T] (s : ThreadPool X T n)
    (l : PoolLabel X T n) (s' : ThreadPool X T n) : Prop :=
  s.step l = some s'

/-! ## What a step can do -/

/-- The steps of the thread of the worker `w` that concern no other worker, with their guards and
effects. -/
inductive WorkerMoves {X T : Type} {n : Nat} (w : Fin (n + 1)) (a : Worker T n) :
    PoolLabel X T n → Worker T n → Prop
  | sleep : a.phase = .drain → a.publicQueue = [] → a.abort = false →
      WorkerMoves w a (.drain w) { a with phase := .waiting }
  | drainAborted : a.phase = .drain → a.abort = true →
      WorkerMoves w a (.drain w) { a with taskFoundOrAbort := false }.leave
  | drain : a.phase = .drain → a.publicQueue ≠ [] → a.abort = false →
      WorkerMoves w a (.drain w) a.takeQueue
  | acquire : a.phase = .waiting → a.semaphore = true →
      WorkerMoves w a (.acquire w) { a with semaphore := false, phase := .woken }
  | timeOut : a.phase = .waiting → WorkerMoves w a (.timeOut w) { a with phase := .timedOut }
  | readFlag : a.phase = .woken → a.taskFoundOrAbort = true →
      WorkerMoves w a (.readFlag w) { a with phase := .relock }
  /-- The semaphore was released on account of tasks taken before. -/
  | readNothing : a.phase = .woken → a.taskFoundOrAbort = false →
      WorkerMoves w a (.readFlag w) { a with phase := .waiting }
  | sleepAgain : a.phase = .relock → a.publicQueue = [] → a.abort = false →
      WorkerMoves w a (.relock w) { a with phase := .waiting }
  | wakeAborted : a.phase = .relock → a.abort = true → WorkerMoves w a (.relock w) a.leave
  | wake : a.phase = .relock → a.publicQueue ≠ [] → a.abort = false →
      WorkerMoves w a (.relock w) a.takeQueue
  | giveUp : a.phase = .timedOut → WorkerMoves w a (.giveUp w) a.leave
  | endLoop : a.phase = .loop → a.privateQueue = [] →
      WorkerMoves w a (.endLoop w) { a with phase := .drain }
  /-- Nothing is donated. -/
  | keep {idle : List (Fin (n + 1))} : a.phase = .loop → a.privateQueue ≠ [] →
      WorkerMoves w a (.balance w idle) { a with phase := .balanced }
  | balance {idle : List (Fin (n + 1))} {v : Fin (n + 1)} {vs : List (Fin (n + 1))} :
      a.phase = .loop → 2 ≤ a.privateQueue.length →
      IdleAnswer (some w) (maxIdleWorkerCount n a.privateQueue.length) idle →
      a.idleWorkerList ++ idle = v :: vs →
      WorkerMoves w a (.balance w idle) { a with
        idleWorkerList := v :: vs
        phase := .donating ((v :: vs).zip
          (donationSizes a.privateQueue.length (vs.length + 2) (vs.length + 1))) }
  | abort : a.phase = .balanced → a.atomicAbort = true →
      WorkerMoves w a (.start w) { a with phase := .aborting }
  | start {ts : List T} {t : T} : a.phase = .balanced → a.atomicAbort = false →
      a.privateQueue = ts ++ [t] →
      WorkerMoves w a (.start w) { a with privateQueue := ts, phase := .running t }
  | block {t : T} : a.phase = .running t → a.blocked = false →
      WorkerMoves w a (.block w) { a with blocked := true }
  | resume {t : T} : a.phase = .running t → a.blocked = true →
      WorkerMoves w a (.resume w) { a with blocked := false }
  | leave : a.phase = .aborting → WorkerMoves w a (.leave w) a.leave

/-- `shutdown` of the worker `w` goes on from a stage to the next. -/
inductive StopMoves {T : Type} {n : Nat} (w : Fin (n + 1)) (a : Worker T n) :
    ShutdownStage → Worker T n → List T → Shutdown n → Prop
  | setAtomicAbort : StopMoves w a .setAtomicAbort { a with atomicAbort := true } []
      (.stopping w .setAbort)
  | setAbort : StopMoves w a .setAbort { a with abort := true } [] (.stopping w .notify)
  | notify : StopMoves w a .notify { a with taskFoundOrAbort := true } []
      (.stopping w .releaseSemaphore)
  | releaseSemaphore : StopMoves w a .releaseSemaphore { a with semaphore := true } []
      (.stopping w .join)
  | join : a.phase = .gone → StopMoves w a .join a [] (.stopping w .clear)
  | clear : StopMoves w a .clear { a with publicQueue := [], privateQueue := [] }
      (a.publicQueue ++ a.privateQueue) (ThreadPool.nextWorker w)

section Moves

variable {X T : Type} {n : Nat} [DecidableEq X] [DecidableEq T]

/-- The steps with their guards and effects. -/
inductive PoolMoves (s : ThreadPool X T n) : PoolLabel X T n → ThreadPool X T n → Prop
  | enqueue {c : PoolThread X n} {t : T} : s.quiet c = true → s.mayEnqueue c = true →
      t ∉ s.submitted → PoolMoves s (.enqueue c t)
        ({ s with submitted := s.submitted ++ [t] }.setCall c (.enter t []))
  | enqueueSpan {c : PoolThread X n} {ts : List T} : s.quiet c = true → s.mayEnqueue c = true →
      ts.Nodup → (∀ t ∈ ts, t ∉ s.submitted) → PoolMoves s (.enqueueSpan c ts)
        ({ s with submitted := s.submitted ++ ts }.setCall c (ThreadPool.spanCall c ts))
  | enterLocal {w : Fin (n + 1)} {t : T} {rest : List T} :
      s.call (.worker w) = .enter t rest → s.release (.worker w) = none →
      PoolMoves s (.enter (.worker w)) (s.setCall (.worker w) (.enqueueLocal .task [t] rest))
  | enter {c : PoolThread X n} {t : T} {rest : List T} :
      s.call c = .enter t rest → s.release c = none →
      PoolMoves s (.enter c) (s.setCall c (.find t rest))
  | found {c : PoolThread X n} {t : T} {rest : List T} {w : Fin (n + 1)} :
      s.call c = .find t rest → s.release c = none → some w ≠ c.index →
      PoolMoves s (.find c (some w)) (s.setCall c (.enqueueForeign .task [(w, [t])] rest))
  | foundNone {w : Fin (n + 1)} {t : T} {rest : List T} :
      s.call (.worker w) = .find t rest → s.release (.worker w) = none →
      PoolMoves s (.find (.worker w) none) (s.setCall (.worker w) (.enqueueLocal .task [t] rest))
  | roundRobin {x : X} {t : T} {rest : List T} :
      s.call (.external x) = .find t rest → s.release (.external x) = none →
      PoolMoves s (.find (.external x) none)
        ({ s with roundRobinCursor := s.roundRobinCursor + 1 }.setCall (.external x)
          (.enqueueForeign .task [(Fin.ofNat (n + 1) s.roundRobinCursor.toNat, [t])] rest))
  | enqueueLocal {w : Fin (n + 1)} {p : Passing} {ts rest : List T} :
      s.call (.worker w) = .enqueueLocal p ts rest → s.release (.worker w) = none →
      (s.workers w).atomicAbort = false → PoolMoves s (.enqueueLocal (.worker w))
        ((s.setWorker w
          { s.workers w with privateQueue := (s.workers w).privateQueue ++ ts }).setCall
            (.worker w) (.ofSpan rest))
  | rejectLocal {w : Fin (n + 1)} {p : Passing} {ts rest : List T} :
      s.call (.worker w) = .enqueueLocal p ts rest → s.release (.worker w) = none →
      (s.workers w).atomicAbort = true →
      PoolMoves s (.enqueueLocal (.worker w)) (s.reject (.worker w))
  | enqueueForeign {c : PoolThread X n} {w : Fin (n + 1)} {p : Passing} {ts : List T}
      {parts : List (Fin (n + 1) × List T)} {rest : List T} :
      s.call c = .enqueueForeign p ((w, ts) :: parts) rest → s.release c = none →
      (s.workers w).abort = false → PoolMoves s (.enqueueForeign c)
        (((s.setWorker w ((s.workers w).enqueueForeign ts).2).setCall c
          (.afterPart p parts rest)).setRelease c
            (if ((s.workers w).enqueueForeign ts).1 then some w else none))
  | rejectForeign {c : PoolThread X n} {w : Fin (n + 1)} {p : Passing} {ts : List T}
      {parts : List (Fin (n + 1) × List T)} {rest : List T} :
      s.call c = .enqueueForeign p ((w, ts) :: parts) rest → s.release c = none →
      (s.workers w).abort = true → PoolMoves s (.enqueueForeign c) (s.reject c)
  | release {c : PoolThread X n} {w : Fin (n + 1)} : s.release c = some w →
      PoolMoves s (.release c)
        ((s.setWorker w { s.workers w with semaphore := true }).setRelease c none)
  | work {w : Fin (n + 1)} {l : PoolLabel X T n} {a : Worker T n} :
      s.quiet (.worker w) = true → WorkerMoves w (s.workers w) l a →
      PoolMoves s l (s.setWorker w a)
  | donate {w v : Fin (n + 1)} {k : Nat} {more : List (Fin (n + 1) × Nat)} :
      (s.workers w).phase = .donating ((v, k) :: more) → s.quiet (.worker w) = true →
      (s.workers v).abort = false → PoolMoves s (.donate w) (s.donateTo w v k more)
  | donateRejected {w v : Fin (n + 1)} {k : Nat} {more : List (Fin (n + 1) × Nat)} :
      (s.workers w).phase = .donating ((v, k) :: more) → s.quiet (.worker w) = true →
      (s.workers v).abort = true →
      PoolMoves s (.donate w) (s.setWorker w { s.workers w with phase := .aborting })
  | finish {w : Fin (n + 1)} {t : T} :
      (s.workers w).phase = .running t → s.quiet (.worker w) = true →
      (s.workers w).blocked = false → PoolMoves s (.finish w)
        { s.setWorker w { s.workers w with phase := .loop } with executed := s.executed ++ [t] }
  | raise {w : Fin (n + 1)} {t : T} :
      (s.workers w).phase = .running t → s.quiet (.worker w) = true →
      (s.workers w).blocked = false → PoolMoves s (.raise w)
        { s.setWorker w { s.workers w with phase := .aborting } with executed := s.executed ++ [t] }
  | shutdownAgain : s.abort = true → PoolMoves s .shutdown s
  | shutdown : s.abort = false → PoolMoves s .shutdown
      { s with abort := true, shutdown := .stopping 0 .setAtomicAbort }
  | stop {w : Fin (n + 1)} {stage : ShutdownStage} {a : Worker T n} {ts : List T}
      {shutdown : Shutdown n} : s.shutdown = .stopping w stage →
      StopMoves w (s.workers w) stage a ts shutdown →
      PoolMoves s .stop { s.setWorker w a with dropped := s.dropped ++ ts, shutdown }

/-- What the step `l` may do to the worker `w`. -/
inductive WorkerUpdates (s : ThreadPool X T n) (l : PoolLabel X T n) (w : Fin (n + 1))
    (a : Worker T n) : Worker T n → Prop
  | work {a' : Worker T n} : s.quiet (.worker w) = true →
      WorkerMoves w a l a' → WorkerUpdates s l w a a'
  /-- The worker pushes to its own queue. -/
  | push {p : Passing} {ts rest : List T} : a = s.workers w →
      s.call (.worker w) = .enqueueLocal p ts rest → a.atomicAbort = false →
      WorkerUpdates s l w a { a with privateQueue := a.privateQueue ++ ts }
  /-- Another thread pushes. -/
  | foreign {ts : List T} : a.abort = false → WorkerUpdates s l w a (a.enqueueForeign ts).2
  | release {c : PoolThread X n} : s.release c = some w →
      WorkerUpdates s l w a { a with semaphore := true }
  | give {v : Fin (n + 1)} {k : Nat} {more : List (Fin (n + 1) × Nat)} :
      s.quiet (.worker w) = true → a.phase = .donating ((v, k) :: more) →
      WorkerUpdates s l w a (a.give k more)
  | giveRejected {v : Fin (n + 1)} {k : Nat} {more : List (Fin (n + 1) × Nat)} :
      s.quiet (.worker w) = true → a.phase = .donating ((v, k) :: more) →
      (s.workers v).abort = true → WorkerUpdates s l w a { a with phase := .aborting }
  | finish {t : T} : s.quiet (.worker w) = true → a.phase = .running t →
      WorkerUpdates s l w a { a with phase := .loop }
  | raise {t : T} : l = .raise w → a = s.workers w → s.quiet (.worker w) = true →
      a.phase = .running t → WorkerUpdates s l w a { a with phase := .aborting }
  | stop {stage : ShutdownStage} {a' : Worker T n} {ts : List T} {shutdown : Shutdown n} :
      s.shutdown = .stopping w stage → StopMoves w a stage a' ts shutdown →
      WorkerUpdates s l w a a'

namespace PoolMovesLemmas

variable {s s' : ThreadPool X T n} {c : PoolThread X n} {w : Fin (n + 1)}

omit [DecidableEq X] [DecidableEq T] in
theorem setWorker_self : s.setWorker w (s.workers w) = s := by
  unfold ThreadPool.setWorker
  rw [Function.update_eq_self]

/-! ### Calls -/

theorem moves_enqueue {t : T} (h : s.enqueue c t = some s') : PoolMoves s (.enqueue c t) s' := by
  unfold ThreadPool.enqueue at h
  split at h
  · next hcond =>
    cases h
    exact .enqueue hcond.1 hcond.2.1 hcond.2.2
  · cases h

theorem moves_enqueueSpan {ts : List T} (h : s.enqueueSpan c ts = some s') :
    PoolMoves s (.enqueueSpan c ts) s' := by
  unfold ThreadPool.enqueueSpan at h
  split at h
  · next hcond =>
    cases h
    exact .enqueueSpan hcond.1 hcond.2.1 hcond.2.2.1 hcond.2.2.2
  · cases h

theorem moves_enter (h : s.enter c = some s') : PoolMoves s (.enter c) s' := by
  unfold ThreadPool.enter at h
  split at h
  · next hcall hrelease =>
    split at h
    · split at h
      · cases h
        exact .enterLocal hcall hrelease
      · cases h
        exact .enter hcall hrelease
    · cases h
      exact .enter hcall hrelease
  · cases h

theorem moves_find {found : Option (Fin (n + 1))} (h : s.find c found = some s') :
    PoolMoves s (.find c found) s' := by
  unfold ThreadPool.find at h
  split at h
  · next hcall hrelease =>
    split at h
    · next hanswer =>
      split at h
      · next w =>
        cases h
        exact .found hcall hrelease (hanswer.notCaller w (List.mem_singleton_self w))
      · cases h
        exact .foundNone hcall hrelease
      · cases h
        exact .roundRobin hcall hrelease
    · cases h
  · cases h

theorem moves_enqueueLocal (h : s.enqueueLocal c = some s') : PoolMoves s (.enqueueLocal c) s' := by
  unfold ThreadPool.enqueueLocal at h
  split at h
  · next hcall hrelease =>
    dsimp only at h
    split at h
    · next habort =>
      cases h
      exact .rejectLocal hcall hrelease habort
    · next habort =>
      cases h
      exact .enqueueLocal hcall hrelease (Bool.eq_false_iff.mpr habort)
  · cases h

theorem moves_enqueueForeign (h : s.enqueueForeign c = some s') :
    PoolMoves s (.enqueueForeign c) s' := by
  unfold ThreadPool.enqueueForeign at h
  split at h
  · next hcall hrelease =>
    split at h
    · next habort =>
      cases h
      exact .rejectForeign hcall hrelease habort
    · next habort =>
      cases h
      exact .enqueueForeign hcall hrelease (Bool.eq_false_iff.mpr habort)
  · cases h

theorem moves_release (h : s.releaseSemaphore c = some s') : PoolMoves s (.release c) s' := by
  unfold ThreadPool.releaseSemaphore at h
  split at h
  · next hrelease =>
    cases h
    exact .release hrelease
  · cases h

/-! ### Workers -/

/-- A worker that goes on at a phase takes a step of its own. -/
theorem moves_work {p : WorkerPhase T n} {f : Worker T n → Option (Worker T n)}
    {l : PoolLabel X T n} (h : s.workerStep w (ThreadPool.atPhase p f) = some s')
    (hmove : ∀ a : Worker T n, a.phase = p → ∀ a', f a = some a' → WorkerMoves w a l a') :
    PoolMoves s l s' := by
  unfold ThreadPool.workerStep at h
  split at h
  · next hquiet =>
    obtain ⟨a', ha', rfl⟩ := Option.map_eq_some_iff.mp h
    unfold ThreadPool.atPhase at ha'
    split at ha'
    · next hphase => exact .work hquiet (hmove _ hphase a' ha')
    · cases ha'
  · cases h

theorem moves_drain (h : s.drain w = some s') : PoolMoves s (.drain w) s' := by
  refine moves_work h fun a hphase a' ha => ?_
  cases ha
  unfold Worker.drainQueue
  split
  · next hcond => exact .sleep hphase hcond.1 hcond.2
  · next hcond =>
    split
    · next habort => exact .drainAborted hphase habort
    · next habort =>
      have habort' : a.abort = false := Bool.eq_false_iff.mpr habort
      exact .drain hphase (fun hempty => hcond ⟨hempty, habort'⟩) habort'

theorem moves_acquire (h : s.acquire w = some s') : PoolMoves s (.acquire w) s' := by
  refine moves_work h fun a hphase a' ha => ?_
  split at ha
  · next hsem =>
    cases ha
    exact .acquire hphase hsem
  · cases ha

theorem moves_timeOut (h : s.timeOut w = some s') : PoolMoves s (.timeOut w) s' := by
  refine moves_work h fun a hphase a' ha => ?_
  cases ha
  exact .timeOut hphase

theorem moves_readFlag (h : s.readFlag w = some s') : PoolMoves s (.readFlag w) s' := by
  refine moves_work h fun a hphase a' ha => ?_
  cases ha
  split
  · next hflag => exact .readFlag hphase hflag
  · next hflag => exact .readNothing hphase (Bool.eq_false_iff.mpr hflag)

theorem moves_relock (h : s.relock w = some s') : PoolMoves s (.relock w) s' := by
  refine moves_work h fun a hphase a' ha => ?_
  cases ha
  unfold Worker.wakeUp
  split
  · next hcond => exact .sleepAgain hphase hcond.1 hcond.2
  · next hcond =>
    split
    · next habort => exact .wakeAborted hphase habort
    · next habort =>
      have habort' : a.abort = false := Bool.eq_false_iff.mpr habort
      exact .wake hphase (fun hempty => hcond ⟨hempty, habort'⟩) habort'

theorem moves_giveUp (h : s.giveUp w = some s') : PoolMoves s (.giveUp w) s' := by
  refine moves_work h fun a hphase a' ha => ?_
  cases ha
  exact .giveUp hphase

theorem moves_endLoop (h : s.endLoop w = some s') : PoolMoves s (.endLoop w) s' := by
  refine moves_work h fun a hphase a' ha => ?_
  split at ha
  · next hempty =>
    cases ha
    exact .endLoop hphase hempty
  · cases ha

theorem two_le_of_maxIdleWorkerCount {taskCount : Nat} (h : maxIdleWorkerCount n taskCount ≠ 0) :
    2 ≤ taskCount := by
  unfold maxIdleWorkerCount at h
  split at h
  · exact absurd rfl h
  · omega

theorem moves_balance {idle : List (Fin (n + 1))} (h : s.balance w idle = some s') :
    PoolMoves s (.balance w idle) s' := by
  refine moves_work h fun a hphase a' ha => ?_
  split at ha
  · next hcond =>
    cases ha
    unfold Worker.balanceWork
    split
    · exact .keep hphase hcond.1
    · next hmax =>
      split
      · exact .keep hphase hcond.1
      · next hlist => exact .balance hphase (two_le_of_maxIdleWorkerCount hmax) hcond.2 hlist
  · cases ha

theorem moves_start (h : s.start w = some s') : PoolMoves s (.start w) s' := by
  refine moves_work h fun a hphase a' ha => ?_
  split at ha
  · next habort =>
    cases ha
    exact .abort hphase habort
  · next habort =>
    obtain ⟨t, hlast, rfl⟩ := Option.map_eq_some_iff.mp ha
    have hsplit : a.privateQueue = a.privateQueue.dropLast ++ [t] :=
      (List.dropLast_append_getLast? t hlast).symm
    exact .start hphase (Bool.eq_false_iff.mpr habort) hsplit

theorem moves_leave (h : s.leave w = some s') : PoolMoves s (.leave w) s' := by
  refine moves_work h fun a hphase a' ha => ?_
  cases ha
  exact .leave hphase

theorem moves_donate (h : s.donate w = some s') : PoolMoves s (.donate w) s' := by
  unfold ThreadPool.donate at h
  split at h
  · next hphase hquiet =>
    split at h
    · next habort =>
      cases h
      exact .donateRejected hphase hquiet habort
    · next habort =>
      cases h
      exact .donate hphase hquiet (Bool.eq_false_iff.mpr habort)
  · cases h

/-- A task is blocked or goes on. -/
theorem moves_setBlocked {b : Bool} {l : PoolLabel X T n} (h : s.setBlocked w b = some s')
    (hmove : ∀ {t : T}, (s.workers w).phase = .running t → (s.workers w).blocked ≠ b →
      WorkerMoves w (s.workers w) l { s.workers w with blocked := b }) : PoolMoves s l s' := by
  unfold ThreadPool.setBlocked ThreadPool.workerStep at h
  split at h
  · next hquiet =>
    obtain ⟨a', ha', rfl⟩ := Option.map_eq_some_iff.mp h
    dsimp only at ha'
    split at ha'
    · next hphase =>
      split at ha'
      · cases ha'
      · next hblocked =>
        cases ha'
        exact .work hquiet (hmove hphase hblocked)
    · cases ha'
  · cases h

theorem moves_block (h : s.setBlocked w true = some s') : PoolMoves s (.block w) s' :=
  moves_setBlocked h fun hphase hblocked => .block hphase (Bool.eq_false_iff.mpr hblocked)

theorem moves_resume (h : s.setBlocked w false = some s') : PoolMoves s (.resume w) s' :=
  moves_setBlocked h fun hphase hblocked => .resume hphase (Bool.ne_false_iff.mp hblocked)

/-- A task ends in one of the two ways. -/
theorem moves_endTask {p : WorkerPhase T n} {l : PoolLabel X T n} (h : s.endTask w p = some s')
    (hmove : ∀ {t : T}, (s.workers w).phase = .running t → s.quiet (.worker w) = true →
      (s.workers w).blocked = false → PoolMoves s l
        { s.setWorker w { s.workers w with phase := p } with executed := s.executed ++ [t] }) :
    PoolMoves s l s' := by
  unfold ThreadPool.endTask at h
  split at h
  · next hphase hquiet hblocked =>
    cases h
    exact hmove hphase hquiet hblocked
  · cases h

theorem moves_finish (h : s.finish w = some s') : PoolMoves s (.finish w) s' :=
  moves_endTask h .finish

theorem moves_raise (h : s.raise w = some s') : PoolMoves s (.raise w) s' :=
  moves_endTask h .raise

/-! ### Shutdown -/

theorem moves_shutdown (h : s.beginShutdown = some s') : PoolMoves s .shutdown s' := by
  unfold ThreadPool.beginShutdown at h
  split at h
  · next habort =>
    cases h
    exact .shutdownAgain habort
  · next habort =>
    cases h
    exact .shutdown (Bool.eq_false_iff.mpr habort)

theorem moves_stop (h : s.stop = some s') : PoolMoves s .stop s' := by
  unfold ThreadPool.stop at h
  split at h
  · cases h
  · cases h
  · next w stage hshutdown =>
    -- before the last stage nothing is dropped
    have hmove : ∀ {a : Worker T n} {sd : Shutdown n}, StopMoves w (s.workers w) stage a [] sd →
        PoolMoves s .stop { s.setWorker w a with shutdown := sd } := by
      intro a sd hm
      have hstop : PoolMoves s .stop _ := .stop hshutdown hm
      rwa [List.append_nil] at hstop
    cases stage with
    | setAtomicAbort =>
      cases h
      exact hmove .setAtomicAbort
    | setAbort =>
      cases h
      exact hmove .setAbort
    | notify =>
      cases h
      exact hmove .notify
    | releaseSemaphore =>
      cases h
      exact hmove .releaseSemaphore
    | join =>
      dsimp only at h
      split at h
      · next hgone =>
        cases h
        have hjoin := hmove (.join hgone)
        rwa [setWorker_self] at hjoin
      · cases h
    | clear =>
      cases h
      exact .stop hshutdown .clear

end PoolMovesLemmas

open PoolMovesLemmas

/-- A step is one of the moves. -/
theorem PoolSteps.moves {s s' : ThreadPool X T n} {l : PoolLabel X T n} (h : PoolSteps s l s') :
    PoolMoves s l s' := by
  unfold PoolSteps ThreadPool.step at h
  cases l with
  | enqueue => exact moves_enqueue h
  | enqueueSpan => exact moves_enqueueSpan h
  | enter => exact moves_enter h
  | find => exact moves_find h
  | enqueueLocal => exact moves_enqueueLocal h
  | enqueueForeign => exact moves_enqueueForeign h
  | release => exact moves_release h
  | drain => exact moves_drain h
  | acquire => exact moves_acquire h
  | timeOut => exact moves_timeOut h
  | readFlag => exact moves_readFlag h
  | relock => exact moves_relock h
  | giveUp => exact moves_giveUp h
  | endLoop => exact moves_endLoop h
  | balance => exact moves_balance h
  | donate => exact moves_donate h
  | start => exact moves_start h
  | block => exact moves_block h
  | resume => exact moves_resume h
  | finish => exact moves_finish h
  | raise => exact moves_raise h
  | leave => exact moves_leave h
  | shutdown => exact moves_shutdown h
  | stop => exact moves_stop h

/-- A property of each worker is kept by a step when it is kept by all that a step may do to the
worker. -/
theorem PoolSteps.workers {s s' : ThreadPool X T n} {l : PoolLabel X T n}
    {I : Fin (n + 1) → Worker T n → Prop} (h : PoolSteps s l s')
    (hkeep : ∀ {w a a'}, I w a → WorkerUpdates s l w a a' → I w a')
    (hI : ∀ w, I w (s.workers w)) (w : Fin (n + 1)) : I w (s'.workers w) := by
  have hset : ∀ {r : ThreadPool X T n} {v : Fin (n + 1)} {a : Worker T n},
      (∀ w, I w (r.workers w)) → I v a → ∀ w, I w ((r.setWorker v a).workers w) := by
    intro r v a hr ha w
    rcases eq_or_ne w v with rfl | hne
    · rwa [ThreadPool.setWorker_workers_self]
    · rw [ThreadPool.setWorker_workers_of_ne r v a hne]
      exact hr w
  cases h.moves with
  | enqueue | enqueueSpan | enterLocal | enter | found | foundNone | roundRobin | rejectLocal
  | rejectForeign | shutdownAgain | shutdown => exact hI w
  | enqueueLocal hcall _ habort => exact hset hI (hkeep (hI _) (.push rfl hcall habort)) w
  | enqueueForeign _ _ habort => exact hset hI (hkeep (hI _) (.foreign habort)) w
  | release hrelease => exact hset hI (hkeep (hI _) (.release hrelease)) w
  | work hquiet hmove => exact hset hI (hkeep (hI _) (.work hquiet hmove)) w
  | @donate u v k more hphase hquiet habort =>
    have hgive := hset hI (hkeep (hI u) (.give hquiet hphase))
    have habort' : ((s.setWorker u ((s.workers u).give k more)).workers v).abort = false := by
      rcases eq_or_ne v u with rfl | hne
      · rwa [ThreadPool.setWorker_workers_self]
      · rwa [ThreadPool.setWorker_workers_of_ne s u _ hne]
    exact hset hgive (hkeep (hgive v) (.foreign habort')) w
  | donateRejected hphase hquiet habort =>
    exact hset hI (hkeep (hI _) (.giveRejected hquiet hphase habort)) w
  | finish hphase hquiet => exact hset hI (hkeep (hI _) (.finish hquiet hphase)) w
  | raise hphase hquiet => exact hset hI (hkeep (hI _) (.raise rfl rfl hquiet hphase)) w
  | stop hshutdown hmove => exact hset hI (hkeep (hI _) (.stop hshutdown hmove)) w

end Moves

end FlavoEngine.Engine

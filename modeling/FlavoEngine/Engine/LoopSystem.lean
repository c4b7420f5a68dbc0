import FlavoEngine.Engine.Progress
import FlavoEngine.Engine.PoolTasks

/-!
# The game loop over the thread pool

`GameLoop` leaves it free which worker takes a task and when, and `ThreadPool` runs tasks that it
knows by name only. Here the tasks of `Loop` are run by the pool. The name of a task is its place in
the list of the tasks that `Loop` submitted.

* `Loop` is the only one to submit tasks to the pool, from the thread that carries it: the main
  thread, or a worker in the midst of a task.
* A worker that runs a task starts its bridge, calls its callable, completes its result, and carries
  `Loop` on if `Loop` awaited the task. The task is over for the pool when `Loop` is suspended
  again.
* The callables end: the step of the call is always possible, and no task is blocked. An exception
  of a callable goes into its result, so no task leaves by one.
* An exception that `submit` or `enqueue` throws leaves the pool as it was.
* The runtime, and with it the pool, is destroyed after `WinMain` has left `Loop`. That is not part
  of the system.

Results:
1. `SystemSteps.moves`: a step of the system is one of the moves of `SystemMoves`, each with its
   guards and its effect.
-/

namespace FlavoEngine.Engine

open FlavoEngine.Lib

/-! ## The system -/

/-- The thread, as the pool knows it. -/
def Thread.inPool (n : Nat) : Thread → Option (PoolThread Unit n)
  | .main => some (.external ())
  | .worker w => if h : w < n + 1 then some (.worker ⟨w, h⟩) else none

/-- The steps of the loop in which the pool has a part. -/
def Label.poolPart : Label → Bool
  | .submit .enqueued | .start _ _ | .call _ _ _ | .complete _ _ => true
  | _ => false

/-- The steps of the pool that give no task to it or to a worker and take none. -/
def PoolLabel.within {X T : Type} {n : Nat} : PoolLabel X T n → Bool
  | .enter _ | .find _ _ | .release _ | .drain _ | .acquire _ | .timeOut _ | .readFlag _ | .relock _
  | .giveUp _ | .endLoop _ | .balance _ _ | .donate _ => true
  | _ => false

structure LoopSystem (n : Nat) where
  loop : State := {}
  pool : ThreadPool Unit Nat n := {}

inductive SystemLabel (n : Nat) where
  /-- A step of the process without the pool. -/
  | own (l : Label)
  /-- `submit` calls `enqueue`. -/
  | enqueue
  /-- `enqueue` puts the task into a queue. -/
  | push
  | pool (l : PoolLabel Unit Nat n)
  /-- A worker takes a task out of its queue, and goes on with it. -/
  | start (w : Fin (n + 1))
  | call (w : Fin (n + 1)) (o : Outcome)
  | complete (w : Fin (n + 1))
  | finish (w : Fin (n + 1))
deriving DecidableEq

namespace LoopSystem

variable {n : Nat}

def init : LoopSystem n := {}

def carrier (s : LoopSystem n) : Option (PoolThread Unit n) :=
  s.loop.carrier.bind (Thread.inPool n)

/-- The thread that carries `Loop` is in no call of `enqueue`. -/
def carrierQuiet (s : LoopSystem n) : Bool :=
  match s.carrier with
  | some c => s.pool.quiet c
  | none => true

def own (s : LoopSystem n) (l : Label) : Option (LoopSystem n) :=
  if l.poolPart = false ∧ (l.inside = true → s.carrierQuiet = true) then
    (Engine.step s.loop l).map fun loop => { s with loop }
  else none

def enqueue (s : LoopSystem n) : Option (LoopSystem n) :=
  match s.loop.point, s.carrier with
  | .submit _, some c =>
    (s.pool.enqueue c s.loop.tasks.length).map fun pool => { s with pool }
  | _, _ => none

/-- The step of `enqueue` that puts the task into a queue. -/
def pushCall (s : ThreadPool Unit Nat n) (c : PoolThread Unit n) :
    Option (ThreadPool Unit Nat n) :=
  match s.call c with
  | .enqueueLocal _ _ _ => s.enqueueLocal c
  | .enqueueForeign _ _ _ => s.enqueueForeign c
  | _ => none

def push (s : LoopSystem n) : Option (LoopSystem n) :=
  match s.loop.point, s.carrier with
  | .submit k, some c =>
    (pushCall s.pool c).map fun pool => { loop := s.loop.push k { kind := k }, pool }
  | _, _ => none

def within (s : LoopSystem n) (l : PoolLabel Unit Nat n) : Option (LoopSystem n) :=
  if l.within = true then (s.pool.step l).map fun pool => { s with pool } else none

/-- The task that the worker runs. -/
def runningTask (s : LoopSystem n) (w : Fin (n + 1)) : Option Nat :=
  match (s.pool.workers w).phase with
  | .running i => some i
  | _ => none

/-- The worker takes a task, whatever the task and the worker are at. -/
def start (s : LoopSystem n) (w : Fin (n + 1)) : Option (LoopSystem n) :=
  match s.pool.start w with
  | none => none
  | some pool =>
    let s' : LoopSystem n := { s with pool }
    match s'.runningTask w with
    | none => some s'
    | some i => s.loop.tasks[i]?.map fun t =>
      { s' with loop := s.loop.setTask i { t with phase := .started w } }

def call (s : LoopSystem n) (w : Fin (n + 1)) (o : Outcome) : Option (LoopSystem n) :=
  match s.runningTask w with
  | some i => (s.loop.callTask w i o).map fun loop => { s with loop }
  | none => none

def complete (s : LoopSystem n) (w : Fin (n + 1)) : Option (LoopSystem n) :=
  match s.runningTask w with
  | some i => (s.loop.completeTask w i).map fun loop => { s with loop }
  | none => none

/-- The task is over for the pool when its bridge is and the worker does not carry `Loop`. -/
def finish (s : LoopSystem n) (w : Fin (n + 1)) : Option (LoopSystem n) :=
  match s.runningTask w with
  | some i =>
    if s.loop.tasks[i]?.map Task.phase = some .finished ∧ s.loop.carrier ≠ some (.worker w) then
      (s.pool.finish w).map fun pool => { s with pool }
    else none
  | none => none

/-- A step of the process, until it is aborted. -/
def step (s : LoopSystem n) (l : SystemLabel n) : Option (LoopSystem n) :=
  if s.loop.point = .aborted then none
  else
    match l with
    | .own l => s.own l
    | .enqueue => s.enqueue
    | .push => s.push
    | .pool l => s.within l
    | .start w => s.start w
    | .call w o => s.call w o
    | .complete w => s.complete w
    | .finish w => s.finish w

/-- What the loop sees of a step. -/
def loopLabel (s : LoopSystem n) : SystemLabel n → Option Label
  | .own l => some l
  | .push => some (.submit .enqueued)
  | .start w => (s.pool.workers w).privateQueue.getLast?.map (.start w)
  | .call w o => (s.runningTask w).map fun i => .call w i o
  | .complete w => (s.runningTask w).map fun i => .complete w i
  | .enqueue | .pool _ | .finish _ => none

/-- What the pool sees of a step. -/
def poolLabel (s : LoopSystem n) : SystemLabel n → Option (PoolLabel Unit Nat n)
  | .enqueue => s.carrier.map fun c => .enqueue c s.loop.tasks.length
  | .push => s.carrier.map fun c =>
    match s.pool.call c with
    | .enqueueLocal _ _ _ => .enqueueLocal c
    | _ => .enqueueForeign c
  | .pool l => some l
  | .start w => some (.start w)
  | .finish w => some (.finish w)
  | .own _ | .call _ _ | .complete _ => none

end LoopSystem

def SystemSteps {n : Nat} (s : LoopSystem n) (l : SystemLabel n) (s' : LoopSystem n) : Prop :=
  s.step l = some s'

/-! ## What a step can do -/

section Moves

variable {n : Nat}

/-- The steps with their guards and effects. -/
inductive SystemMoves (s : LoopSystem n) : SystemLabel n → LoopSystem n → Prop
  | own {l : Label} {loop : State} : l.poolPart = false →
      (l.inside = true → s.carrierQuiet = true) → Step s.loop l loop →
      SystemMoves s (.own l) { s with loop }
  | enqueue {k : TaskKind} {c : PoolThread Unit n} {pool : ThreadPool Unit Nat n} :
      s.loop.point = .submit k → s.carrier = some c →
      PoolSteps s.pool (.enqueue c s.loop.tasks.length) pool →
      SystemMoves s .enqueue { s with pool }
  | pushLocal {k : TaskKind} {c : PoolThread Unit n} {p : Passing} {ts rest : List Nat}
      {pool : ThreadPool Unit Nat n} : s.loop.point = .submit k → s.carrier = some c →
      s.pool.call c = .enqueueLocal p ts rest → PoolSteps s.pool (.enqueueLocal c) pool →
      SystemMoves s .push { loop := s.loop.push k { kind := k }, pool }
  | pushForeign {k : TaskKind} {c : PoolThread Unit n} {p : Passing}
      {parts : List (Fin (n + 1) × List Nat)} {rest : List Nat} {pool : ThreadPool Unit Nat n} :
      s.loop.point = .submit k → s.carrier = some c →
      s.pool.call c = .enqueueForeign p parts rest → PoolSteps s.pool (.enqueueForeign c) pool →
      SystemMoves s .push { loop := s.loop.push k { kind := k }, pool }
  | pool {l : PoolLabel Unit Nat n} {pool : ThreadPool Unit Nat n} : l.within = true →
      PoolSteps s.pool l pool → SystemMoves s (.pool l) { s with pool }
  | start {w : Fin (n + 1)} {pool : ThreadPool Unit Nat n} {i : Nat} {t : Task} :
      PoolSteps s.pool (.start w) pool → (pool.workers w).phase = .running i →
      s.loop.tasks[i]? = some t →
      SystemMoves s (.start w) { loop := s.loop.setTask i { t with phase := .started w }, pool }
  | startAborted {w : Fin (n + 1)} {pool : ThreadPool Unit Nat n} :
      PoolSteps s.pool (.start w) pool → (∀ i, (pool.workers w).phase ≠ .running i) →
      SystemMoves s (.start w) { s with pool }
  | call {w : Fin (n + 1)} {i : Nat} {o : Outcome} {loop : State} :
      (s.pool.workers w).phase = .running i → Step s.loop (.call w i o) loop →
      SystemMoves s (.call w o) { s with loop }
  | complete {w : Fin (n + 1)} {i : Nat} {loop : State} :
      (s.pool.workers w).phase = .running i → Step s.loop (.complete w i) loop →
      SystemMoves s (.complete w) { s with loop }
  | finish {w : Fin (n + 1)} {i : Nat} {pool : ThreadPool Unit Nat n} :
      (s.pool.workers w).phase = .running i →
      s.loop.tasks[i]?.map Task.phase = some .finished → s.loop.carrier ≠ some (.worker w) →
      PoolSteps s.pool (.finish w) pool → SystemMoves s (.finish w) { s with pool }

namespace SystemMovesLemmas

variable {s s' : LoopSystem n} {w : Fin (n + 1)} {i : Nat}

theorem runningTask_eq : s.runningTask w = some i ↔ (s.pool.workers w).phase = .running i := by
  unfold LoopSystem.runningTask
  split
  · next hphase => simp [hphase]
  · next hphase => exact iff_of_false (by simp) (hphase i)

/-- A step of the loop, as long as the process is not aborted. -/
theorem step_of_act {loop loop' : State} {l : Label} (hpoint : loop.point ≠ .aborted)
    (h : act loop l = some loop') : Step loop l loop' := by
  unfold Step Engine.step
  rwa [if_neg hpoint]

theorem moves_own {l : Label} (h : s.own l = some s') : SystemMoves s (.own l) s' := by
  unfold LoopSystem.own at h
  split at h
  · next hcond =>
    obtain ⟨loop, hloop, rfl⟩ := Option.map_eq_some_iff.mp h
    exact .own hcond.1 hcond.2 hloop
  · cases h

theorem moves_enqueue (h : s.enqueue = some s') : SystemMoves s .enqueue s' := by
  unfold LoopSystem.enqueue at h
  split at h
  · next hpoint hcarrier =>
    obtain ⟨pool, hpool, rfl⟩ := Option.map_eq_some_iff.mp h
    exact .enqueue hpoint hcarrier hpool
  · cases h

theorem moves_push (h : s.push = some s') : SystemMoves s .push s' := by
  unfold LoopSystem.push at h
  split at h
  · next hpoint hcarrier =>
    obtain ⟨pool, hpool, rfl⟩ := Option.map_eq_some_iff.mp h
    unfold LoopSystem.pushCall at hpool
    split at hpool
    · next hcall => exact .pushLocal hpoint hcarrier hcall hpool
    · next hcall => exact .pushForeign hpoint hcarrier hcall hpool
    · cases hpool
  · cases h

theorem moves_within {l : PoolLabel Unit Nat n} (h : s.within l = some s') :
    SystemMoves s (.pool l) s' := by
  unfold LoopSystem.within at h
  split at h
  · next hl =>
    obtain ⟨pool, hpool, rfl⟩ := Option.map_eq_some_iff.mp h
    exact .pool hl hpool
  · cases h

theorem moves_begin (h : s.start w = some s') : SystemMoves s (.start w) s' := by
  unfold LoopSystem.start at h
  split at h
  · cases h
  · next pool hpool =>
    dsimp only at h
    split at h
    · next hnone =>
      cases h
      refine .startAborted hpool fun i hphase => ?_
      rw [runningTask_eq.mpr hphase] at hnone
      cases hnone
    · next i hsome =>
      obtain ⟨t, ht, rfl⟩ := Option.map_eq_some_iff.mp h
      exact .start hpool (runningTask_eq.mp hsome) ht

theorem moves_call {o : Outcome} (hpoint : s.loop.point ≠ .aborted) (h : s.call w o = some s') :
    SystemMoves s (.call w o) s' := by
  unfold LoopSystem.call at h
  split at h
  · next hrunning =>
    obtain ⟨loop, hloop, rfl⟩ := Option.map_eq_some_iff.mp h
    exact .call (runningTask_eq.mp hrunning) (step_of_act hpoint hloop)
  · cases h

theorem moves_complete (hpoint : s.loop.point ≠ .aborted) (h : s.complete w = some s') :
    SystemMoves s (.complete w) s' := by
  unfold LoopSystem.complete at h
  split at h
  · next hrunning =>
    obtain ⟨loop, hloop, rfl⟩ := Option.map_eq_some_iff.mp h
    exact .complete (runningTask_eq.mp hrunning) (step_of_act hpoint hloop)
  · cases h

theorem moves_end (h : s.finish w = some s') : SystemMoves s (.finish w) s' := by
  unfold LoopSystem.finish at h
  split at h
  · next hrunning =>
    split at h
    · next hcond =>
      obtain ⟨pool, hpool, rfl⟩ := Option.map_eq_some_iff.mp h
      exact .finish (runningTask_eq.mp hrunning) hcond.1 hcond.2 hpool
    · cases h
  · cases h

end SystemMovesLemmas

open SystemMovesLemmas

/-- A step is one of the moves. -/
theorem SystemSteps.moves {s s' : LoopSystem n} {l : SystemLabel n} (h : SystemSteps s l s') :
    SystemMoves s l s' := by
  unfold SystemSteps LoopSystem.step at h
  split at h
  · cases h
  · next hpoint =>
    cases l with
    | own => exact moves_own h
    | enqueue => exact moves_enqueue h
    | push => exact moves_push h
    | pool => exact moves_within h
    | start => exact moves_begin h
    | call => exact moves_call hpoint h
    | complete => exact moves_complete hpoint h
    | finish => exact moves_end h

end Moves

end FlavoEngine.Engine

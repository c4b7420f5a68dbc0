import FlavoEngine.Lib.Run
import FlavoEngine.Engine.Future

/-!
# The game loop

`WinMain` (`wh/source/main.cpp`) constructs a `FlavoGame`, which creates the window, and waits for
`FlavoGame::Loop` (`engine/source/game_core/flavo_game.cpp`). `Loop` is a coroutine: it pumps the
window messages of the thread that carries it, and in a frame without a message it submits
`UpdateGame` and `RenderManager::UpdateRender` to the thread pool, awaits both and runs
`SyncGameRender`.

* The state lists every task that `Loop` submitted, in order. The futures of the current frame are
  places in this list.
* `Loop` is carried by the thread that runs it and by none while it is suspended. A coroutine that
  `complete_producer` resumes runs on the thread that completes the result.
* A worker runs one task at a time, and none while it carries `Loop`. Which worker takes a task, and
  when, is free, as is the arrival of messages at any thread.
* `PeekMessage` with no window takes a message of the calling thread's queue, in an order of the
  system's choice.
* An assertion ends the process unless it is ignored.

Results:
1. `Step.moves`: a step of the process is one of the moves of `Moves`, each with its guards and its
   effect. Every invariant of the loop is proved over them.
-/

namespace FlavoEngine.Engine

open FlavoEngine.Lib

/-! ## Threads and messages -/

inductive Thread where
  | main
  | worker (w : Nat)
deriving DecidableEq

/-- `WM_QUIT`, `WM_DESTROY`, `WM_CLOSE`, `WM_KEYDOWN`, and the messages that post nothing. -/
inductive Message where
  | quit
  | destroy
  | close
  | keydown
  | other
deriving DecidableEq

/-- `WndProc`: what it posts to the queue of the thread that runs it. -/
def wndProc : Message → List Message
  | .keydown => []
  | .destroy => [.quit]
  -- `DefWindowProcA` destroys the window, and `WndProc` is sent `WM_DESTROY`.
  | .close => [.quit]
  | .quit | .other => []

/-! ## States -/

/-- The points of `Loop` between two of its steps. `resume` is past an await, before the result is
read; `leaving` is before the final suspension. -/
inductive Point where
  | peek
  | dispatch (m : Message)
  | submit (k : TaskKind)
  | await (k : TaskKind) (l : Level)
  | suspended (k : TaskKind) (l : Level)
  | resume (k : TaskKind) (l : Level)
  | check (isOk : Bool)
  | sync
  | inSync
  | leaving
  | done
  | aborted
deriving DecidableEq

namespace Point

/-- The future of the frame that an exception thrown at this point leaves unawaited. -/
def unawaited : Point → Option TaskKind
  | .submit .render => some .game
  | .resume .game _ => some .render
  | _ => none

end Point

/-- `WinMain`: in the constructor of `FlavoGame`, in the call of `Loop`, in `get()`, or past it,
with `game_instance` destroyed. -/
inductive WinMain where
  | constructing
  | inLoop
  | inGet
  | left
deriving DecidableEq

/-- How `submit` ends: the task is in the pool, enqueueing it threw and the future holds the
exception, or `submit` itself throws. -/
inductive Submission where
  | enqueued
  | broken
  | throws
deriving DecidableEq

/-- The answer to the dialog of a failed assertion. -/
inductive Answer where
  | abort
  | ignore
deriving DecidableEq

structure State where
  winMain : WinMain := .constructing
  /-- The thread that created the window. -/
  window : Option Thread := none
  /-- The thread that runs `Loop`. -/
  carrier : Option Thread := none
  point : Point := .peek
  tasks : List Task := []
  updateGameFuture : Option Nat := none
  updateRenderFuture : Option Nat := none
  /-- The result of `Loop`. -/
  result : ResultState Int := {}
  queues : Thread → List Message := fun _ => []
  /-- How often `SyncGameRender` was started, and how often it is over. -/
  syncsRun : Nat := 0
  syncsDone : Nat := 0
  /-- `no_frame` of `UpdateGame`. -/
  noFrame : Nat := 0

namespace State

/-- Before `WinMain` constructs the game. -/
def init : State := {}

def future (s : State) : TaskKind → Option Nat
  | .game => s.updateGameFuture
  | .render => s.updateRenderFuture

def setFuture (s : State) (k : TaskKind) (i : Nat) : State :=
  match k with
  | .game => { s with updateGameFuture := some i }
  | .render => { s with updateRenderFuture := some i }

/-- The task behind a future of the frame, with its place. -/
def awaited (s : State) (k : TaskKind) : Option (Nat × Task) :=
  (s.future k).bind fun i => s.tasks[i]?.map fun t => (i, t)

def setTask (s : State) (i : Nat) (t : Task) : State :=
  { s with tasks := s.tasks.set i t }

/-- The messages of the thread `t`. -/
def setQueue (s : State) (t : Thread) (q : List Message) : State :=
  { s with queues := fun u => if u = t then q else s.queues u }

/-! ## The steps of `Loop` -/

/-- `PeekMessage`: the queue of the carrier is empty, or the message at the place `i` is taken. -/
def peekMessage (s : State) (found : Option Nat) : Option State :=
  match s.carrier, s.point with
  | some t, .peek =>
    match found with
    | none => if s.queues t = [] then some { s with point := .submit .game } else none
    | some i =>
      match (s.queues t)[i]? with
      | none => none
      | some .quit =>
        -- `break`, and `co_return 0`.
        some { s.setQueue t ((s.queues t).eraseIdx i) with
          point := .leaving
          result := s.result.setResult 0 }
      | some m => some { s.setQueue t ((s.queues t).eraseIdx i) with point := .dispatch m }
  | _, _ => none

/-- `DispatchMessage`. -/
def dispatchMessage (s : State) : Option State :=
  match s.carrier, s.point with
  | some t, .dispatch m => some { s.setQueue t (s.queues t ++ wndProc m) with point := .peek }
  | _, _ => none

/-- `submit` returned a future: it becomes the local variable of the frame. -/
def push (s : State) (k : TaskKind) (t : Task) : State :=
  { s.setFuture k s.tasks.length with
    tasks := s.tasks ++ [t]
    point := match k with
      | .game => .submit .render
      | .render => .await .game .outer }

/-- The future of kind `k` is destroyed without being awaited. -/
def dropFuture (s : State) (k : TaskKind) : State :=
  match s.awaited k with
  | none => s
  | some (i, t) => s.setTask i t.drop

/-- An exception leaves `Loop`: the locals are destroyed and the promise stores it. -/
def unwind (s : State) : State :=
  -- A future that was awaited has given its state to the awaitable and is empty.
  let s' := match s.point.unawaited with
    | none => s
    | some k => s.dropFuture k
  { s' with point := .leaving, result := s.result.setException }

/-- `submit`. -/
def submitTask (s : State) (o : Submission) : Option State :=
  match s.carrier, s.point with
  | some _, .submit k =>
    match o with
    | .enqueued => some (s.push k { kind := k })
    | .broken => some (s.push k (.broken k))
    | .throws => some s.unwind
  | _, _ => none

/-- `await_suspend` of a result. -/
def awaitResult (s : State) : Option State :=
  match s.carrier, s.point with
  | some _, .await k l =>
    match s.awaited k with
    | none => none
    | some (i, t) =>
      if (t.await l).1 then
        some { s.setTask i (t.await l).2 with point := .suspended k l, carrier := none }
      else some { s.setTask i (t.await l).2 with point := .resume k l }
  | _, _ => none

/-- Where `Loop` goes with the value of an inner result. -/
def afterReply : TaskKind → Reply → Option Point
  | .game, .void => some (.await .render .outer)
  | .render, .updated isOk => some (.check isOk)
  | _, _ => none

/-- `await_resume`: the value of the result, or its exception. -/
def readResult (s : State) : Option State :=
  match s.carrier, s.point with
  | some _, .resume k .outer =>
    match s.awaited k with
    | none => none
    | some (_, t) =>
      match t.outer.producer with
      | .idle => none
      -- The value is the inner result, and the second `co_await` awaits it.
      | .value () => some { s with point := .await k .inner }
      | .exception => some s.unwind
  | some _, .resume k .inner =>
    match s.awaited k with
    | none => none
    | some (_, t) =>
      match t.inner.producer with
      | .idle => none
      | .value reply => (afterReply k reply).map fun p => { s with point := p }
      | .exception => some s.unwind
  | _, _ => none

/-- `FLAVO_ASSERT` on the result of the renderer. -/
def checkRender (s : State) (a : Answer) : Option State :=
  match s.carrier, s.point with
  | some _, .check isOk =>
    -- Without the answer to ignore it, `HandleAssert` ends in `abort()` or a breakpoint.
    if isOk = true ∨ a = .ignore then some { s with point := .sync }
    else some { s with point := .aborted }
  | _, _ => none

/-- `co_await` on the lazy result of `SyncGameRender` starts it on the carrier. -/
def startSync (s : State) : Option State :=
  match s.carrier, s.point with
  | some _, .sync => some { s with point := .inSync, syncsRun := s.syncsRun + 1 }
  | _, _ => none

/-- `SyncGameRender` is over, and with it the frame. -/
def endSync (s : State) : Option State :=
  match s.carrier, s.point with
  | some _, .inSync => some { s with
      point := .peek
      syncsDone := s.syncsDone + 1
      updateGameFuture := none
      updateRenderFuture := none }
  | _, _ => none

/-- The final suspension of `Loop`. -/
def publishResult (s : State) : Option State :=
  match s.carrier, s.point with
  | some _, .leaving => some { s with
      point := .done
      carrier := none
      result := s.result.completeProducer.2 }
  | _, _ => none

/-! ## The steps of the other parties -/

/-- The constructor of `FlavoGame` creates the window, and `WinMain` calls `Loop`. -/
def construct (s : State) : Option State :=
  if s.winMain = .constructing then
    some { s with winMain := .inLoop, window := some .main, carrier := some .main }
  else none

/-- `Loop` returned its future to `WinMain`, which calls `get()`. -/
def enterGet (s : State) : Option State :=
  if s.winMain = .inLoop ∧ s.carrier ≠ some .main then
    some { s with winMain := .inGet, result := s.result.wait }
  else none

/-- `get()` returns or rethrows, and the game is destroyed. -/
def leaveGet (s : State) : Option State :=
  if s.winMain = .inGet ∧ s.result.pcState = .producerDone then some { s with winMain := .left }
  else none

/-- A message arrives at the thread `t`. -/
def postMessage (s : State) (t : Thread) (m : Message) : State :=
  s.setQueue t (s.queues t ++ [m])

/-- The worker runs no task and does not carry `Loop`. -/
def free (s : State) (w : Nat) : Bool :=
  decide (s.carrier ≠ some (.worker w)) && s.tasks.all fun t => decide (t.worker? ≠ some w)

/-- The worker `w` takes the task `i`. -/
def startTask (s : State) (w i : Nat) : Option State :=
  if s.free w then
    match s.tasks[i]? with
    | none => none
    | some t => (t.start w).map (s.setTask i)
  else none

/-- The worker calls the callable of its task. -/
def callTask (s : State) (w i : Nat) (o : Outcome) : Option State :=
  match s.tasks[i]? with
  | none => none
  | some t => (t.call w o).map fun t' => { s.setTask i t' with
      noFrame := s.noFrame + if o = .returned .void then 1 else 0 }

/-- The consumer of a result is resumed by the worker that completed it. -/
def resumeLoop (s : State) (w : Nat) : Option State :=
  match s.point with
  | .suspended k l => some { s with point := .resume k l, carrier := some (.worker w) }
  | _ => none

/-- The worker completes the outer result of its task. -/
def completeTask (s : State) (w i : Nat) : Option State :=
  match s.tasks[i]? with
  | none => none
  | some t =>
    match t.publish w with
    | none => none
    -- The consumer runs inside `complete_producer`, before the worker looks for another task.
    | some (.consumerSet, t') => (s.setTask i t').resumeLoop w
    | some (_, t') => some (s.setTask i t')

end State

inductive Label where
  | construct
  | post (t : Thread) (m : Message)
  | peek (found : Option Nat)
  | dispatch
  | submit (o : Submission)
  | await
  | resume
  | check (a : Answer)
  | startSync
  | endSync
  | publish
  | enterGet
  | leaveGet
  | start (w i : Nat)
  | call (w i : Nat) (o : Outcome)
  | complete (w i : Nat)
deriving DecidableEq

/-- The party of the label acts. -/
def act (s : State) : Label → Option State
  | .construct => s.construct
  | .post t m => some (s.postMessage t m)
  | .peek found => s.peekMessage found
  | .dispatch => s.dispatchMessage
  | .submit o => s.submitTask o
  | .await => s.awaitResult
  | .resume => s.readResult
  | .check a => s.checkRender a
  | .startSync => s.startSync
  | .endSync => s.endSync
  | .publish => s.publishResult
  | .enterGet => s.enterGet
  | .leaveGet => s.leaveGet
  | .start w i => s.startTask w i
  | .call w i o => s.callTask w i o
  | .complete w i => s.completeTask w i

/-- A step of the process, until it is aborted. -/
def step (s : State) (l : Label) : Option State :=
  if s.point = .aborted then none else act s l

def Step (s : State) (l : Label) (s' : State) : Prop :=
  step s l = some s'

/-- One frame, in which both tasks are complete before `Loop` awaits them, and a `WM_QUIT`. -/
def oneFrame : List Label :=
  [.construct, .peek none, .submit .enqueued, .submit .enqueued, .start 0 0, .start 1 1,
   .call 0 0 (.returned .void), .complete 0 0, .call 1 1 (.returned (.updated true)),
   .complete 1 1, .await, .resume, .await, .resume, .await, .resume, .await, .resume,
   .check .abort, .startSync, .endSync, .post .main .quit, .peek (some 0), .publish]

/-! ## What a step can do -/

/-- The result at level `l` holds an exception. -/
def Task.throws (t : Task) : Level → Prop
  | .outer => t.outer.producer = .exception
  | .inner => t.inner.producer = .exception

/-- The steps with their guards and effects. -/
inductive Moves (s : State) : Label → State → Prop
  | construct : s.winMain = .constructing → Moves s .construct
      { s with winMain := .inLoop, window := some .main, carrier := some .main }
  | post {t : Thread} {m : Message} : Moves s (.post t m) (s.setQueue t (s.queues t ++ [m]))
  | peekNone {t : Thread} : s.carrier = some t → s.point = .peek →
      Moves s (.peek none) { s with point := .submit .game }
  | peekQuit {t : Thread} {i : Nat} : s.carrier = some t → s.point = .peek →
      (s.queues t)[i]? = some .quit → Moves s (.peek (some i))
        { s.setQueue t ((s.queues t).eraseIdx i) with
          point := .leaving
          result := s.result.setResult 0 }
  | peekSome {t : Thread} {i : Nat} {m : Message} : s.carrier = some t → s.point = .peek →
      (s.queues t)[i]? = some m → m ≠ .quit → Moves s (.peek (some i))
        { s.setQueue t ((s.queues t).eraseIdx i) with point := .dispatch m }
  | dispatch {t : Thread} {m : Message} : s.carrier = some t → s.point = .dispatch m →
      Moves s .dispatch { s.setQueue t (s.queues t ++ wndProc m) with point := .peek }
  | enqueued {t : Thread} {k : TaskKind} : s.carrier = some t → s.point = .submit k →
      Moves s (.submit .enqueued) (s.push k { kind := k })
  | broken {t : Thread} {k : TaskKind} : s.carrier = some t → s.point = .submit k →
      Moves s (.submit .broken) (s.push k (.broken k))
  | throws {t : Thread} {k : TaskKind} : s.carrier = some t → s.point = .submit k →
      Moves s (.submit .throws) s.unwind
  | suspend {t : Thread} {k : TaskKind} {l : Level} {i : Nat} {u : Task} : s.carrier = some t →
      s.point = .await k l → s.awaited k = some (i, u) → u.pcState l = .idle → Moves s .await
        { s.setTask i (u.await l).2 with point := .suspended k l, carrier := none }
  | ready {t : Thread} {k : TaskKind} {l : Level} {i : Nat} {u : Task} : s.carrier = some t →
      s.point = .await k l → s.awaited k = some (i, u) → u.pcState l ≠ .idle →
      Moves s .await { s with point := .resume k l }
  | unwrap {t : Thread} {k : TaskKind} {i : Nat} {u : Task} : s.carrier = some t →
      s.point = .resume k .outer → s.awaited k = some (i, u) → u.outer.producer = .value () →
      Moves s .resume { s with point := .await k .inner }
  | reply {t : Thread} {k : TaskKind} {i : Nat} {u : Task} {r : Reply} {p : Point} :
      s.carrier = some t → s.point = .resume k .inner → s.awaited k = some (i, u) →
      u.inner.producer = .value r → State.afterReply k r = some p →
      Moves s .resume { s with point := p }
  | rethrow {t : Thread} {k : TaskKind} {l : Level} {i : Nat} {u : Task} : s.carrier = some t →
      s.point = .resume k l → s.awaited k = some (i, u) → u.throws l → Moves s .resume s.unwind
  | checked {t : Thread} {isOk : Bool} {a : Answer} : s.carrier = some t →
      s.point = .check isOk → isOk = true ∨ a = .ignore →
      Moves s (.check a) { s with point := .sync }
  | abort {t : Thread} : s.carrier = some t → s.point = .check false →
      Moves s (.check .abort) { s with point := .aborted }
  | startSync {t : Thread} : s.carrier = some t → s.point = .sync →
      Moves s .startSync { s with point := .inSync, syncsRun := s.syncsRun + 1 }
  | endSync {t : Thread} : s.carrier = some t → s.point = .inSync → Moves s .endSync
      { s with
        point := .peek
        syncsDone := s.syncsDone + 1
        updateGameFuture := none
        updateRenderFuture := none }
  | publish {t : Thread} : s.carrier = some t → s.point = .leaving → Moves s .publish
      { s with point := .done, carrier := none, result := s.result.completeProducer.2 }
  | enterGet : s.winMain = .inLoop → s.carrier ≠ some .main → Moves s .enterGet
      { s with winMain := .inGet, result := s.result.wait }
  | leaveGet : s.winMain = .inGet → s.result.pcState = .producerDone →
      Moves s .leaveGet { s with winMain := .left }
  | start {w i : Nat} {t t' : Task} : s.free w = true → s.tasks[i]? = some t →
      t.start w = some t' → Moves s (.start w i) (s.setTask i t')
  | call {w i : Nat} {o : Outcome} {t t' : Task} : s.tasks[i]? = some t →
      t.call w o = some t' → Moves s (.call w i o)
        { s.setTask i t' with noFrame := s.noFrame + if o = .returned .void then 1 else 0 }
  | wake {w i : Nat} {t t' : Task} {k : TaskKind} {l : Level} : s.tasks[i]? = some t →
      t.publish w = some (.consumerSet, t') → s.point = .suspended k l → Moves s (.complete w i)
        { s.setTask i t' with point := .resume k l, carrier := some (.worker w) }
  | complete {w i : Nat} {t t' : Task} {p : PcState} : s.tasks[i]? = some t →
      t.publish w = some (p, t') → p ≠ .consumerSet → Moves s (.complete w i) (s.setTask i t')

namespace MovesLemmas

variable {s s' : State}

theorem awaited_eq_some {k : TaskKind} {i : Nat} {t : Task} :
    s.awaited k = some (i, t) ↔ s.future k = some i ∧ s.tasks[i]? = some t := by
  unfold State.awaited
  cases s.future k with
  | none => simp
  | some j =>
    simp only [Option.bind_some, Option.map_eq_some_iff, Prod.mk.injEq, Option.some.injEq]
    constructor
    · rintro ⟨u, hu, rfl, rfl⟩
      exact ⟨rfl, hu⟩
    · rintro ⟨rfl, ht⟩
      exact ⟨t, ht, rfl, rfl⟩

theorem setTask_self {i : Nat} {t : Task} (h : s.tasks[i]? = some t) : s.setTask i t = s := by
  obtain ⟨hi, rfl⟩ := List.getElem?_eq_some_iff.mp h
  unfold State.setTask
  rw [List.set_getElem_self]

theorem await_suspends (t : Task) (l : Level) : (t.await l).1 = true ↔ t.pcState l = .idle := by
  cases l <;> simp only [Task.await, Task.pcState, ResultState.await] <;> split <;> simp_all

theorem await_ready {t : Task} {l : Level} (h : t.pcState l ≠ .idle) : (t.await l).2 = t := by
  cases l <;> simp_all [Task.await, Task.pcState, ResultState.await]

theorem afterReply_eq {k : TaskKind} {r : Reply} {p : Point}
    (h : State.afterReply k r = some p) :
    (k = .game ∧ p = .await .render .outer) ∨ (k = .render ∧ ∃ isOk, p = .check isOk) := by
  unfold State.afterReply at h
  split at h
  · cases h
    exact .inl ⟨rfl, rfl⟩
  · cases h
    exact .inr ⟨rfl, _, rfl⟩
  · cases h

theorem moves_peek {found : Option Nat} (h : s.peekMessage found = some s') :
    Moves s (.peek found) s' := by
  unfold State.peekMessage at h
  split at h
  · next t hcarrier hpoint =>
    split at h
    · split at h
      · cases h
        exact .peekNone hcarrier hpoint
      · cases h
    · split at h
      · cases h
      · next hquit =>
        cases h
        exact .peekQuit hcarrier hpoint hquit
      · next m hne hm =>
        cases h
        exact .peekSome hcarrier hpoint hm hne
  · cases h

theorem moves_dispatch (h : s.dispatchMessage = some s') : Moves s .dispatch s' := by
  unfold State.dispatchMessage at h
  split at h
  · next hcarrier hpoint =>
    cases h
    exact .dispatch hcarrier hpoint
  · cases h

theorem moves_submit {o : Submission} (h : s.submitTask o = some s') :
    Moves s (.submit o) s' := by
  unfold State.submitTask at h
  split at h
  · next hcarrier hpoint =>
    cases o with
    | enqueued =>
      cases h
      exact .enqueued hcarrier hpoint
    | broken =>
      cases h
      exact .broken hcarrier hpoint
    | throws =>
      cases h
      exact .throws hcarrier hpoint
  · cases h

theorem moves_await (h : s.awaitResult = some s') : Moves s .await s' := by
  unfold State.awaitResult at h
  split at h
  · next t k l hcarrier hpoint =>
    split at h
    · cases h
    · next i u hawaited =>
      split at h
      · next hidle =>
        cases h
        exact .suspend hcarrier hpoint hawaited ((await_suspends u l).mp hidle)
      · next hready =>
        have hne : u.pcState l ≠ .idle := fun h => hready ((await_suspends u l).mpr h)
        rw [await_ready hne, setTask_self (awaited_eq_some.mp hawaited).2] at h
        cases h
        exact .ready hcarrier hpoint hawaited hne
  · cases h

theorem moves_resume (h : s.readResult = some s') : Moves s .resume s' := by
  unfold State.readResult at h
  split at h
  · next hcarrier hpoint =>
    split at h
    · cases h
    · next hawaited =>
      split at h
      · cases h
      · next hvalue =>
        cases h
        exact .unwrap hcarrier hpoint hawaited hvalue
      · next hexception =>
        cases h
        exact .rethrow hcarrier hpoint hawaited hexception
  · next hcarrier hpoint =>
    split at h
    · cases h
    · next hawaited =>
      split at h
      · cases h
      · next hvalue =>
        obtain ⟨p, hp, rfl⟩ := Option.map_eq_some_iff.mp h
        exact .reply hcarrier hpoint hawaited hvalue hp
      · next hexception =>
        cases h
        exact .rethrow hcarrier hpoint hawaited hexception
  · cases h

theorem moves_check {a : Answer} (h : s.checkRender a = some s') : Moves s (.check a) s' := by
  unfold State.checkRender at h
  split at h
  · next isOk hcarrier hpoint =>
    split at h
    · next hcond =>
      cases h
      exact .checked hcarrier hpoint hcond
    · next hcond =>
      cases h
      cases isOk with
      | true => exact absurd (Or.inl rfl) hcond
      | false =>
        cases a with
        | ignore => exact absurd (Or.inr rfl) hcond
        | abort => exact .abort hcarrier hpoint
  · cases h

theorem moves_startSync (h : s.startSync = some s') : Moves s .startSync s' := by
  unfold State.startSync at h
  split at h
  · next hcarrier hpoint =>
    cases h
    exact .startSync hcarrier hpoint
  · cases h

theorem moves_endSync (h : s.endSync = some s') : Moves s .endSync s' := by
  unfold State.endSync at h
  split at h
  · next hcarrier hpoint =>
    cases h
    exact .endSync hcarrier hpoint
  · cases h

theorem moves_publish (h : s.publishResult = some s') : Moves s .publish s' := by
  unfold State.publishResult at h
  split at h
  · next hcarrier hpoint =>
    cases h
    exact .publish hcarrier hpoint
  · cases h

theorem moves_construct (h : s.construct = some s') : Moves s .construct s' := by
  unfold State.construct at h
  split at h
  · next hwin =>
    cases h
    exact .construct hwin
  · cases h

theorem moves_enterGet (h : s.enterGet = some s') : Moves s .enterGet s' := by
  unfold State.enterGet at h
  split at h
  · next hcond =>
    cases h
    exact .enterGet hcond.1 hcond.2
  · cases h

theorem moves_leaveGet (h : s.leaveGet = some s') : Moves s .leaveGet s' := by
  unfold State.leaveGet at h
  split at h
  · next hcond =>
    cases h
    exact .leaveGet hcond.1 hcond.2
  · cases h

theorem moves_start {w i : Nat} (h : s.startTask w i = some s') : Moves s (.start w i) s' := by
  unfold State.startTask at h
  split at h
  · next hfree =>
    split at h
    · cases h
    · next ht =>
      obtain ⟨t', ht', rfl⟩ := Option.map_eq_some_iff.mp h
      exact .start hfree ht ht'
  · cases h

theorem moves_call {w i : Nat} {o : Outcome} (h : s.callTask w i o = some s') :
    Moves s (.call w i o) s' := by
  unfold State.callTask at h
  split at h
  · cases h
  · next ht =>
    obtain ⟨t', ht', rfl⟩ := Option.map_eq_some_iff.mp h
    exact .call ht ht'

theorem moves_complete {w i : Nat} (h : s.completeTask w i = some s') :
    Moves s (.complete w i) s' := by
  unfold State.completeTask at h
  split at h
  · cases h
  · next ht =>
    split at h
    · cases h
    · next hpublish =>
      unfold State.resumeLoop at h
      split at h
      · next hpoint =>
        cases h
        exact .wake ht hpublish hpoint
      · cases h
    · next hne hpublish =>
      cases h
      exact .complete ht hpublish hne

end MovesLemmas

open MovesLemmas

/-- A step is one of the moves. -/
theorem Step.moves {s s' : State} {l : Label} (h : Step s l s') : Moves s l s' := by
  unfold Step step at h
  split at h
  · cases h
  · unfold act at h
    cases l with
    | construct => exact moves_construct h
    | post =>
      cases h
      exact .post
    | peek => exact moves_peek h
    | dispatch => exact moves_dispatch h
    | submit => exact moves_submit h
    | await => exact moves_await h
    | resume => exact moves_resume h
    | check => exact moves_check h
    | startSync => exact moves_startSync h
    | endSync => exact moves_endSync h
    | publish => exact moves_publish h
    | enterGet => exact moves_enterGet h
    | leaveGet => exact moves_leaveGet h
    | start => exact moves_start h
    | call => exact moves_call h
    | complete => exact moves_complete h

end FlavoEngine.Engine

import FlavoEngine.Lib.Places
import FlavoEngine.Engine.PoolWorkers

/-!
# Where the tasks of the pool are

A task that was passed to `enqueue` is in the hand of a thread, in a queue, run by a worker,
executed, destroyed, or left with its caller by an exception.

Result: `tasks_placed`. In every run each task is in exactly one of these places and there once, so
none is lost and none is executed twice, however the threads interleave, donate, leave and shut
down. Until `shutdown` is called no push is rejected: none is destroyed unexecuted and none is left
with its caller.
-/

namespace FlavoEngine.Engine

open FlavoEngine.Lib

/-! ## Places -/

inductive TaskPlace (X : Type) (n : Nat) where
  /-- The thread has it to give away, in a call of `enqueue`. -/
  | hand (c : PoolThread X n)
  | publicQueue (w : Fin (n + 1))
  | privateQueue (w : Fin (n + 1))
  | running (w : Fin (n + 1))
  | executed
  | dropped
  /-- A task of a span, or of the rest of one, that is the caller's again. -/
  | returned

def WorkerPhase.tasks {T : Type} {n : Nat} : WorkerPhase T n → List T
  | .running t => [t]
  | _ => []

@[simp] theorem WorkerPhase.tasks_running {T : Type} {n : Nat} (t : T) :
    (running t : WorkerPhase T n).tasks = [t] := rfl

def ThreadPool.tasksAt {X T : Type} {n : Nat} (s : ThreadPool X T n) : TaskPlace X n → List T
  | .hand c => (s.call c).tasks
  | .publicQueue w => (s.workers w).publicQueue
  | .privateQueue w => (s.workers w).privateQueue
  | .running w => (s.workers w).phase.tasks
  | .executed => s.executed
  | .dropped => s.dropped
  | .returned => s.returned

namespace PoolTaskLemmas

open PoolWorkerLemmas

variable {X T : Type} {n : Nat} {s s' : ThreadPool X T n} {l : PoolLabel X T n}
variable {c : PoolThread X n} {w : Fin (n + 1)} {a a' : Worker T n} {r : TaskPlace X n}

/-! ### What an update leaves where it was -/

theorem tasksAt_setWorker
    (hpublic : r = .publicQueue w → a.publicQueue = (s.workers w).publicQueue)
    (hprivate : r = .privateQueue w → a.privateQueue = (s.workers w).privateQueue)
    (hrunning : r = .running w → a.phase.tasks = (s.workers w).phase.tasks) :
    (s.setWorker w a).tasksAt r = s.tasksAt r := by
  cases r with
  | publicQueue v | privateQueue v | running v =>
    simp only [ThreadPool.tasksAt]
    rcases eq_or_ne v w with rfl | hne
    · simp_all
    · rw [ThreadPool.setWorker_workers_of_ne s w a hne]
  | _ => rfl

theorem tasksAt_executed {ts : List T} (h : r ≠ .executed) :
    { s with executed := ts }.tasksAt r = s.tasksAt r := by
  cases r with
  | executed => exact absurd rfl h
  | _ => rfl

theorem tasksAt_dropped {ts : List T} {shutdown : Shutdown n} (h : r = .dropped → ts = s.dropped) :
    { s with dropped := ts, shutdown }.tasksAt r = s.tasksAt r := by
  cases r with
  | dropped => exact h rfl
  | _ => rfl

theorem tasksAt_returned {ts : List T} (h : r ≠ .returned) :
    { s with returned := ts }.tasksAt r = s.tasksAt r := by
  cases r with
  | returned => exact absurd rfl h
  | _ => rfl

theorem tasksAt_setCall [DecidableEq X] {k : PoolCall T n}
    (h : r = .hand c → k.tasks = (s.call c).tasks) : (s.setCall c k).tasksAt r = s.tasksAt r := by
  cases r with
  | hand d =>
    simp only [ThreadPool.tasksAt]
    rcases eq_or_ne d c with rfl | hne
    · rw [ThreadPool.setCall_call_self, h rfl]
    · rw [ThreadPool.setCall_call_of_ne s c k hne]
  | _ => rfl

/-! ### Calls -/

theorem tasks_ofSpan (ts : List T) : (PoolCall.ofSpan ts : PoolCall T n).tasks = ts := by
  cases ts with
  | nil => rfl
  | cons => rfl

theorem tasks_afterPart (p : Passing) (parts : List (Fin (n + 1) × List T)) (rest : List T) :
    (PoolCall.afterPart p parts rest).tasks = (parts.map (·.2)).flatten ++ rest := by
  unfold PoolCall.afterPart
  split
  · next hnil =>
    rw [tasks_ofSpan, hnil]
    rfl
  · rfl

/-- Each task of the span goes to some worker. -/
theorem tasks_spanCall (c : PoolThread X n) (ts : List T) :
    (ThreadPool.spanCall c ts).tasks = ts := by
  unfold ThreadPool.spanCall
  split
  · exact List.append_nil ts
  · split
    · exact tasks_ofSpan ts
    · have hsum : (donationSizes ts.length (n + 1) (n + 1)).sum = ts.length :=
        sum_shares_all (Nat.succ_pos n)
      have hlength : (cut (donationSizes ts.length (n + 1) (n + 1)) ts).length =
          (List.finRange (n + 1)).length := by
        rw [length_cut, List.length_finRange]
        exact length_shares ..
      simp only [PoolCall.tasks]
      rw [List.map_snd_zip hlength.le, flatten_cut, hsum, List.take_length, List.append_nil]

/-- An exception destroys some tasks of a call and spares the others. -/
theorem tasks_destroyed_spared (k : PoolCall T n) : k.destroyed ++ k.spared = k.tasks := by
  cases k with
  | enqueueLocal p => cases p <;> rfl
  | enqueueForeign p => cases p <;> rfl
  | _ => rfl

/-! ### Moves -/

/-- A worker on its own swaps its queues, starts a task, or leaves the tasks where they are. -/
theorem work_tasks (hm : WorkerMoves w a l a') :
    (a'.publicQueue = a.publicQueue ∧ a'.privateQueue = a.privateQueue ∧
        a'.phase.tasks = a.phase.tasks) ∨
      (a'.publicQueue = a.privateQueue ∧ a'.privateQueue = a.publicQueue ∧
        a'.phase.tasks = a.phase.tasks) ∨
      ∃ t, a'.publicQueue = a.publicQueue ∧ a.privateQueue = a'.privateQueue ++ [t] ∧
        a.phase.tasks = [] ∧ a'.phase.tasks = [t] := by
  cases hm with
  | drain hphase | wake hphase =>
    refine .inr (.inl ⟨rfl, rfl, ?_⟩)
    rw [hphase]
    rfl
  | @start ts t hphase _ hqueue =>
    refine .inr (.inr ⟨t, rfl, hqueue, ?_, rfl⟩)
    rw [hphase]
    rfl
  | sleep hphase | drainAborted hphase | acquire hphase | timeOut hphase | readFlag hphase
  | readNothing hphase | sleepAgain hphase | wakeAborted hphase | giveUp hphase | endLoop hphase
  | keep hphase | balance hphase | abort hphase | leave hphase =>
    refine .inl ⟨rfl, rfl, ?_⟩
    rw [hphase]
    rfl
  | block | resume => exact .inl ⟨rfl, rfl, rfl⟩

theorem foreign_tasks (ts : List T) (h : Settled a) :
    (a.enqueueForeign ts).2.publicQueue = a.publicQueue ++ ts ∧
      (a.enqueueForeign ts).2.privateQueue = a.privateQueue ∧
      (a.enqueueForeign ts).2.phase.tasks = a.phase.tasks := by
  unfold Worker.enqueueForeign
  split
  · next hidle =>
    refine ⟨rfl, rfl, ?_⟩
    rw [h.mp hidle]
    rfl
  · exact ⟨rfl, rfl, rfl⟩

theorem placed_work {all : Set T} (h : Placed s.tasksAt all)
    (hm : WorkerMoves w (s.workers w) l a) : Placed (s.setWorker w a).tasksAt all := by
  rcases work_tasks hm with ⟨hpublic, hprivate, hrunning⟩ | ⟨hpublic, hprivate, hrunning⟩ |
    ⟨t, hpublic, hprivate, hbefore, hafter⟩
  · refine h.rearrange fun r => ?_
    rw [tasksAt_setWorker (fun _ => hpublic) (fun _ => hprivate) fun _ => hrunning]
  · refine h.move (p := .publicQueue w) (q := .privateQueue w) (by simp) ?_ fun r hp hq => ?_
    · simp only [ThreadPool.tasksAt, ThreadPool.setWorker_workers_self, hpublic, hprivate]
      exact List.perm_append_comm
    · exact tasksAt_setWorker (fun heq => absurd heq hp) (fun heq => absurd heq hq) fun _ => hrunning
  · refine h.move (p := .privateQueue w) (q := .running w) (by simp) ?_ fun r hp hq => ?_
    · simp only [ThreadPool.tasksAt, ThreadPool.setWorker_workers_self, hprivate, hbefore, hafter,
        List.append_nil]
      exact List.Perm.refl _
    · exact tasksAt_setWorker (fun _ => hpublic) (fun heq => absurd heq hp) fun heq => absurd heq hq

/-- Another thread has tasks of the place `p` and pushes them. -/
theorem placed_foreign {all : Set T} {things : TaskPlace X n → List T} {p : TaskPlace X n}
    {ts : List T} (left : List T) (h : Placed things all) (hp : p ≠ .publicQueue w)
    (hsettled : Settled (s.workers w)) (hthings : (things p).Perm (ts ++ left))
    (hleft : s.tasksAt p = left) (hsame : ∀ r, r ≠ p → s.tasksAt r = things r) :
    Placed (s.setWorker w ((s.workers w).enqueueForeign ts).2).tasksAt all := by
  obtain ⟨hpublic, hprivate, hrunning⟩ := foreign_tasks ts hsettled
  have hother : ∀ r, r ≠ .publicQueue w →
      (s.setWorker w ((s.workers w).enqueueForeign ts).2).tasksAt r = s.tasksAt r := fun r hr =>
    tasksAt_setWorker (fun heq => absurd heq hr) (fun _ => hprivate) fun _ => hrunning
  refine h.move hp ?_ fun r hrp hrq => (hother r hrq).trans (hsame r hrp)
  have hqueue : (s.setWorker w ((s.workers w).enqueueForeign ts).2).tasksAt (.publicQueue w) =
      things (.publicQueue w) ++ ts := by
    rw [← hsame _ hp.symm]
    simp only [ThreadPool.tasksAt, ThreadPool.setWorker_workers_self, hpublic]
  rw [hother p hp, hleft, hqueue]
  calc List.Perm (left ++ (things (.publicQueue w) ++ ts)) (things (.publicQueue w) ++ ts ++ left) :=
        List.perm_append_comm
    List.Perm _ (things (.publicQueue w) ++ (ts ++ left)) := by rw [List.append_assoc]
    List.Perm _ (things (.publicQueue w) ++ things p) := List.Perm.append_left _ hthings.symm
    List.Perm _ (things p ++ things (.publicQueue w)) := List.perm_append_comm

/-- Tasks that were passed to no `enqueue` before are. -/
theorem placed_submit [DecidableEq X] {ts : List T} {k : PoolCall T n}
    (h : Placed s.tasksAt {t | t ∈ s.submitted}) (hnone : s.call c = .none) (hnodup : ts.Nodup)
    (hnew : ∀ t ∈ ts, t ∉ s.submitted) (hk : k.tasks = ts) :
    Placed ({ s with submitted := s.submitted ++ ts }.setCall c k).tasksAt
      {t | t ∈ s.submitted ++ ts} := by
  have hall : {t | t ∈ s.submitted ++ ts} = {t | t ∈ s.submitted} ∪ {t | t ∈ ts} :=
    Set.ext fun _ => List.mem_append
  rw [hall]
  refine h.arrive (p := .hand c) hnodup hnew ?_ fun r hr => ?_
  · simp only [ThreadPool.tasksAt, ThreadPool.setCall_call_self, hnone, hk, PoolCall.tasks_none,
      List.nil_append]
    exact List.Perm.refl _
  · exact tasksAt_setCall fun heq => absurd heq hr

/-- A call goes on with the tasks it has. -/
theorem placed_call [DecidableEq X] {all : Set T} {k : PoolCall T n} (h : Placed s.tasksAt all)
    (hk : k.tasks = (s.call c).tasks) : Placed (s.setCall c k).tasksAt all :=
  h.rearrange fun r => by rw [tasksAt_setCall fun _ => hk]

variable [DecidableEq X]

/-- An exception destroys tasks that the call has, or leaves them with the caller. -/
theorem placed_reject {all : Set T} (h : Placed s.tasksAt all) :
    Placed (s.reject c).tasksAt all := by
  -- first those that are destroyed, then the others
  let mid : ThreadPool X T n := { s with dropped := s.dropped ++ (s.call c).destroyed }.setCall c
    (.enqueueLocal .span (s.call c).spared [])
  have hmid : Placed mid.tasksAt all := by
    refine h.move (p := .hand c) (q := .dropped) (by simp) ?_ fun r hp hq => ?_
    · simp only [mid, ThreadPool.tasksAt, ThreadPool.setCall_call_self, ThreadPool.setCall_dropped,
        PoolCall.tasks_enqueueLocal, List.append_nil]
      rw [← tasks_destroyed_spared (s.call c)]
      calc List.Perm ((s.call c).spared ++ (s.dropped ++ (s.call c).destroyed))
            (s.dropped ++ (s.call c).destroyed ++ (s.call c).spared) := List.perm_append_comm
        List.Perm _ (s.dropped ++ ((s.call c).destroyed ++ (s.call c).spared)) := by
            rw [List.append_assoc]
        List.Perm _ ((s.call c).destroyed ++ (s.call c).spared ++ s.dropped) :=
            List.perm_append_comm
    · rw [tasksAt_setCall fun heq => absurd heq hp]
      exact tasksAt_dropped fun heq => absurd heq hq
  refine hmid.move (p := .hand c) (q := .returned) (by simp) ?_ fun r hp hq => ?_
  · simp only [mid, ThreadPool.reject, ThreadPool.tasksAt, ThreadPool.setCall_call_self,
      ThreadPool.setCall_returned, PoolCall.tasks_none, PoolCall.tasks_enqueueLocal,
      List.append_nil, List.nil_append]
    exact List.perm_append_comm
  · rw [tasksAt_setCall fun heq => absurd heq hp, ThreadPool.reject,
      tasksAt_setCall fun heq => absurd heq hp]
    exact tasksAt_returned (s := { s with dropped := s.dropped ++ (s.call c).destroyed }) hq

theorem placed_enqueueLocal {all : Set T} {p : Passing} {ts rest : List T}
    (h : Placed s.tasksAt all) (hcall : s.call (.worker w) = .enqueueLocal p ts rest) :
    Placed ((s.setWorker w
      { s.workers w with privateQueue := (s.workers w).privateQueue ++ ts }).setCall
        (.worker w) (.ofSpan rest)).tasksAt all := by
  refine h.move (p := .hand (.worker w)) (q := .privateQueue w) (by simp) ?_ fun r hp hq => ?_
  · simp only [ThreadPool.tasksAt, ThreadPool.setCall_call_self, ThreadPool.setCall_workers,
      ThreadPool.setWorker_workers_self, hcall, PoolCall.tasks_enqueueLocal, tasks_ofSpan]
    calc List.Perm (rest ++ ((s.workers w).privateQueue ++ ts))
          ((s.workers w).privateQueue ++ ts ++ rest) := List.perm_append_comm
      List.Perm _ ((s.workers w).privateQueue ++ (ts ++ rest)) := by rw [List.append_assoc]
      List.Perm _ (ts ++ rest ++ (s.workers w).privateQueue) := List.perm_append_comm
  · rw [tasksAt_setCall fun heq => absurd heq hp]
    exact tasksAt_setWorker (fun _ => rfl) (fun heq => absurd heq hq) fun _ => rfl

omit [DecidableEq X] in
/-- A task is over, and its worker goes on at a phase without one. -/
theorem placed_endTask {all : Set T} {t : T} {p : WorkerPhase T n} (h : Placed s.tasksAt all)
    (hrun : (s.workers w).phase = .running t) (hp : p.tasks = []) :
    Placed { s.setWorker w { s.workers w with phase := p } with
      executed := s.executed ++ [t] }.tasksAt all := by
  refine h.move (p := .running w) (q := .executed) (by simp) ?_ fun r hp hq => ?_
  · simp only [ThreadPool.tasksAt, ThreadPool.setWorker_workers_self, hrun, hp,
      WorkerPhase.tasks_running, List.nil_append]
    exact List.perm_append_comm
  · rw [tasksAt_executed hq]
    exact tasksAt_setWorker (fun _ => rfl) (fun _ => rfl) fun heq => absurd heq hp

omit [DecidableEq X] in
theorem give_tasks {v : Fin (n + 1)} {k : Nat} {more : List (Fin (n + 1) × Nat)}
    (hphase : a.phase = .donating ((v, k) :: more)) :
    (a.give k more).phase.tasks = a.phase.tasks := by
  rw [hphase]
  unfold Worker.give
  dsimp only
  split <;> rfl

omit [DecidableEq X] in
theorem settled_giving {v : Fin (n + 1)} {k : Nat} {more : List (Fin (n + 1) × Nat)}
    (hsettled : ∀ w, Settled (s.workers w))
    (hphase : (s.workers w).phase = .donating ((v, k) :: more)) (u : Fin (n + 1)) :
    Settled ((s.setWorker w ((s.workers w).give k more)).workers u) := by
  rcases eq_or_ne u w with rfl | hne
  · rw [ThreadPool.setWorker_workers_self]
    exact settled_give (hsettled u) hphase
  · rw [ThreadPool.setWorker_workers_of_ne s w _ hne]
    exact hsettled u

/-- A worker gives tasks of its private queue to another. -/
theorem placed_donate {all : Set T} {v : Fin (n + 1)} {k : Nat} {more : List (Fin (n + 1) × Nat)}
    (h : Placed s.tasksAt all) (hsettled : ∀ w, Settled (s.workers w))
    (hphase : (s.workers w).phase = .donating ((v, k) :: more)) :
    Placed (s.donateTo w v k more).tasksAt all := by
  refine placed_foreign (s := s.setWorker w ((s.workers w).give k more)) (p := .privateQueue w)
    ((s.workers w).privateQueue.drop k) h (by simp)
    (settled_giving hsettled hphase v) ?_ ?_ fun r hr => ?_
  · show List.Perm (s.workers w).privateQueue _
    rw [List.take_append_drop]
  · simp only [ThreadPool.tasksAt, ThreadPool.setWorker_workers_self, Worker.give]
  · exact tasksAt_setWorker (fun _ => rfl) (fun heq => absurd heq hr) fun _ => give_tasks hphase

omit [DecidableEq X] in
/-- The queue of a stopped worker is cleared. -/
theorem placed_clear {all : Set T} {p : TaskPlace X n} {ts : List T} {d : Shutdown n}
    (h : Placed s.tasksAt all) (hp : p = .publicQueue w ∨ p = .privateQueue w)
    (hts : s.tasksAt p = ts) (hcleared : (s.setWorker w a).tasksAt p = [])
    (hsame : ∀ r, r ≠ p → (s.setWorker w a).tasksAt r = s.tasksAt r) :
    Placed { s.setWorker w a with dropped := s.dropped ++ ts, shutdown := d }.tasksAt all := by
  have hne : p ≠ .dropped := by rcases hp with rfl | rfl <;> simp
  have hother : ∀ {r}, r ≠ .dropped → { s.setWorker w a with
      dropped := s.dropped ++ ts, shutdown := d }.tasksAt r = (s.setWorker w a).tasksAt r := fun hr =>
    tasksAt_dropped (s := s.setWorker w a) fun heq => absurd heq hr
  refine h.move hne ?_ fun r hr hdropped => (hother hdropped).trans (hsame r hr)
  rw [hother hne, hcleared, hts, List.nil_append]
  show List.Perm (s.dropped ++ ts) (ts ++ s.dropped)
  exact List.perm_append_comm

omit [DecidableEq X] in
theorem placed_stop {all : Set T} {stage : ShutdownStage} {ts : List T} {shutdown : Shutdown n}
    (h : Placed s.tasksAt all) (hm : StopMoves w (s.workers w) stage a ts shutdown) :
    Placed { s.setWorker w a with dropped := s.dropped ++ ts, shutdown }.tasksAt all := by
  cases hm with
  | clear =>
    -- first the public queue, then the private one
    have hpublic := placed_clear (w := w) (a := { s.workers w with publicQueue := [] })
      (d := s.shutdown) h (.inl rfl)
      (show s.tasksAt (.publicQueue w) = (s.workers w).publicQueue from rfl)
      (by simp [ThreadPool.tasksAt]) fun r hr =>
        tasksAt_setWorker (fun heq => absurd heq hr) (fun _ => rfl) fun _ => rfl
    have hprivate := placed_clear (w := w)
      (a := { s.workers w with publicQueue := [], privateQueue := [] })
      (d := ThreadPool.nextWorker w) hpublic (.inr rfl)
      (by simp [ThreadPool.tasksAt]; rfl) (by simp [ThreadPool.tasksAt]) fun r hr =>
        tasksAt_setWorker (fun _ => by simp) (fun heq => absurd heq hr) fun _ => by simp
    simpa [ThreadPool.setWorker, List.append_assoc] using hprivate
  | _ =>
    rw [List.append_nil]
    exact h.rearrange fun r => List.Perm.of_eq ((tasksAt_dropped fun _ => rfl).trans
      (tasksAt_setWorker (s := s) (w := w) (fun _ => rfl) (fun _ => rfl) fun _ => rfl))

variable [DecidableEq T]

theorem placed_step (hsettled : ∀ w, Settled (s.workers w))
    (h : Placed s.tasksAt {t | t ∈ s.submitted}) (hm : PoolMoves s l s') :
    Placed s'.tasksAt {t | t ∈ s'.submitted} := by
  cases hm with
  | enqueue hquiet _ hnew =>
    exact placed_submit h (quiet_iff.mp hquiet).1 (List.nodup_singleton _)
      (fun _ ht => List.mem_singleton.mp ht ▸ hnew) rfl
  | enqueueSpan hquiet _ hnodup hnew =>
    exact placed_submit h (quiet_iff.mp hquiet).1 hnodup hnew (tasks_spanCall _ _)
  | enterLocal hcall | enter hcall | found hcall | foundNone hcall | roundRobin hcall =>
    exact placed_call h (by rw [hcall]; rfl)
  | enqueueLocal hcall => exact placed_enqueueLocal h hcall
  | rejectLocal | rejectForeign => exact placed_reject h
  | @enqueueForeign c w p ts parts rest hcall =>
    -- the call goes on with what is left, and the worker has the part
    refine placed_foreign (s := s.setCall c (.afterPart p parts rest)) (p := .hand c)
      ((parts.map (·.2)).flatten ++ rest) h (by simp) (hsettled w) ?_ ?_
      fun r hr => tasksAt_setCall fun heq => absurd heq hr
    · simp only [ThreadPool.tasksAt, hcall, PoolCall.tasks, List.map_cons, List.flatten_cons,
        List.append_assoc]
      exact List.Perm.refl _
    · simp only [ThreadPool.tasksAt, ThreadPool.setCall_call_self, tasks_afterPart]
  | @release c w =>
    exact h.rearrange fun r => List.Perm.of_eq (tasksAt_setWorker (s := s) (w := w)
      (a := { s.workers w with semaphore := true }) (fun _ => rfl) (fun _ => rfl) fun _ => rfl)
  | work _ hmove => exact placed_work h hmove
  | donate hphase => exact placed_donate h hsettled hphase
  | donateRejected hphase =>
    exact h.rearrange fun r => List.Perm.of_eq (tasksAt_setWorker (fun _ => rfl) (fun _ => rfl)
      fun _ => by rw [hphase]; rfl)
  | finish hphase | raise hphase => exact placed_endTask h hphase rfl
  | shutdownAgain => exact h
  | shutdown => exact h.rearrange fun r => List.Perm.of_eq (by cases r <;> rfl)
  | stop _ hmove => exact placed_stop h hmove

/-- The placement in every run. -/
theorem placed_run {tr : List (ThreadPool X T n × PoolLabel X T n × ThreadPool X T n)}
    (hrun : Run PoolSteps .init tr s) : Placed s.tasksAt {t | t ∈ s.submitted} := by
  have hboth : PoolOk s ∧ Placed s.tasksAt {t | t ∈ s.submitted} := by
    refine hrun.inv_all (I := fun s => PoolOk s ∧ Placed s.tasksAt {t | t ∈ s.submitted}) ?_
      fun h hstep => ⟨poolOk_step h.1 hstep, placed_step h.1.settled h.2 hstep.moves⟩
    refine ⟨poolOk_init, ?_⟩
    have hempty : ({t | t ∈ (.init : ThreadPool X T n).submitted} : Set T) = ∅ :=
      Set.eq_empty_of_forall_notMem fun _ => List.not_mem_nil
    rw [hempty]
    exact Placed.empty.rearrange fun r => List.Perm.of_eq (by cases r <;> rfl)
  exact hboth.2

end PoolTaskLemmas

open PoolWorkerLemmas PoolTaskLemmas

variable {X T : Type} {n : Nat} [DecidableEq X] [DecidableEq T] {s : ThreadPool X T n}
variable {tr : List (ThreadPool X T n × PoolLabel X T n × ThreadPool X T n)}

/-- Each task that was passed to `enqueue` is in one place and there once. Until `shutdown` is
called none is destroyed without having been executed, and none is left with its caller. -/
theorem tasks_placed (hrun : Run PoolSteps .init tr s) :
    Placed s.tasksAt {t | t ∈ s.submitted} ∧
      (s.abort = false → s.dropped = [] ∧ s.returned = []) :=
  ⟨placed_run hrun, fun habort =>
    ⟨(poolOk_run hrun).dropped habort, (poolOk_run hrun).returned habort⟩⟩

/-- The worker has donated and executed a task. -/
theorem tasks_placed_donated :
    ∃ tr s, Run PoolSteps (.init : ThreadPool Unit Nat 1) tr s ∧
      (s.workers 0).privateQueue = [] ∧ (s.workers 1).publicQueue = [1, 2] ∧ s.executed = [3] ∧
      (Placed s.tasksAt {t | t ∈ s.submitted} ∧
        (s.abort = false → s.dropped = [] ∧ s.returned = [])) := by
  obtain ⟨tr, s, hrun, -, hview⟩ := exists_run ThreadPool.step (R := PoolSteps) id
    (.init : ThreadPool Unit Nat 1) (donationSchedule 0 1 ++ [.donate 0, .start 0, .finish 0])
    (fun r => ((r.2.workers 0).privateQueue, (r.2.workers 1).publicQueue, r.2.executed))
    (v := ([], [1, 2], [3])) (by decide)
  obtain ⟨hprivate, hrest⟩ := Prod.mk.inj hview
  obtain ⟨hpublic, hexecuted⟩ := Prod.mk.inj hrest
  exact ⟨tr, s, hrun, hprivate, hpublic, hexecuted, tasks_placed hrun⟩

end FlavoEngine.Engine

import FlavoEngine.Engine.LoopSystem

/-!
# The pool does what the loop takes for granted

Results:
1. `loop_over_pool`: every run of the system is a run of `GameLoop`, and one of `ThreadPool`. So a
   worker takes a task only if it is free and the task is queued, and all that holds of the runs of
   `GameLoop` holds over the real pool.
-/

namespace FlavoEngine.Engine

open FlavoEngine.Lib

/-! ## The tasks of the loop and of the pool -/

def State.phases (s : State) : List Phase :=
  s.tasks.map Task.phase

/-- The place is a queue of a worker. -/
def TaskPlace.isQueue {X : Type} {n : Nat} : TaskPlace X n → Bool
  | .publicQueue _ | .privateQueue _ => true
  | _ => false

/-- The call of `enqueue` has the one task `i`. -/
def HasTask {n : Nat} (i : Nat) : PoolCall Nat n → Prop
  | .none => True
  | .enter t rest | .find t rest => t = i ∧ rest = []
  | .enqueueLocal _ ts rest => ts = [i] ∧ rest = []
  | .enqueueForeign _ parts rest => (∃ w, parts = [(w, [i])]) ∧ rest = []

/-- How the tasks of the loop and those of the pool belong together. -/
structure Joined {n : Nat} (s : LoopSystem n) : Prop where
  framed : Framed s.loop
  carried : Carried s.loop
  poolOk : PoolWorkerLemmas.PoolOk s.pool
  /-- No task of `Loop` is blocked. -/
  free : ∀ w, (s.pool.workers w).blocked = false
  placed : Placed s.pool.tasksAt {i | i ∈ s.pool.submitted}
  abort : s.pool.abort = false
  /-- A task in a queue is queued. -/
  queued : ∀ p i, p.isQueue = true → i ∈ s.pool.tasksAt p → s.loop.phases[i]? = some .queued
  /-- A worker of the pool runs the task that the loop takes it to run. -/
  running : ∀ w i, i ∈ s.pool.tasksAt (.running w) →
    s.loop.phases[i]? = some (.started w) ∨ s.loop.phases[i]? = some (.called w) ∨
      s.loop.phases[i]? = some .finished
  started : ∀ v i, s.loop.phases[i]? = some (.started v) ∨ s.loop.phases[i]? = some (.called v) →
    ∃ w : Fin (n + 1), w.val = v ∧ i ∈ s.pool.tasksAt (.running w)
  /-- A worker carries `Loop` in the midst of a task. -/
  carrying : ∀ v, s.loop.carrier = some (.worker v) →
    ∃ w : Fin (n + 1), w.val = v ∧ ∃ i, i ∈ s.pool.tasksAt (.running w)
  executed : ∀ i ∈ s.pool.executed, s.loop.phases[i]? = some .finished
  submitted : ∀ i, s.loop.phases[i]? = some .queued → i ∈ s.pool.submitted
  /-- Only the thread that carries `Loop` is in a call of `enqueue`, with the next task. -/
  calls : ∀ c, HasTask s.loop.phases.length (s.pool.call c) ∧ (s.pool.call c ≠ .none →
    s.carrier = some c ∧ ∃ k, s.loop.point = .submit k)
  next : ∀ i ∈ s.pool.submitted,
    i < s.loop.phases.length ∨ i = s.loop.phases.length ∧ ∃ c, s.pool.call c ≠ .none

namespace JoinedLemmas

open MovesLemmas FramedLemmas ProgressLemmas PoolWorkerLemmas PoolTaskLemmas SystemMovesLemmas

variable {n : Nat} {s s' : LoopSystem n} {l : SystemLabel n}

/-! ### The loop -/

section Loop

variable {r r' : State} {i : Nat} {t t' : Task}

theorem phases_setTask (t : Task) : (r.setTask i t).phases = r.phases.set i t.phase :=
  List.map_set

theorem phases_of_task (h : r.tasks[i]? = some t) : r.phases[i]? = some t.phase := by
  rw [State.phases, List.getElem?_map, h]
  rfl

theorem phases_setTask_same (h : r.tasks[i]? = some t) (hphase : t'.phase = t.phase) :
    (r.setTask i t').phases = r.phases := by
  obtain ⟨hi, hget⟩ := List.getElem?_eq_some_iff.mp (phases_of_task h)
  rw [phases_setTask, hphase, ← hget, List.set_getElem_self]

theorem phases_push (k : TaskKind) (t : Task) : (r.push k t).phases = r.phases ++ [t.phase] := by
  cases k <;> simp [State.phases, State.push, State.setFuture]

theorem phases_unwind : r.unwind.phases = r.phases := by
  unfold State.unwind
  dsimp only
  split
  · rfl
  · unfold State.dropFuture
    split
    · rfl
    · next hawaited => exact phases_setTask_same (awaited_eq_some.mp hawaited).2 rfl

/-- A step in which the pool has no part leaves the tasks where they are; a task that it adds is
over.
-/
theorem own_phases {l : Label} (hm : Moves r l r') (hl : l.poolPart = false) :
    r'.phases = r.phases ∨ r'.phases = r.phases ++ [.finished] := by
  cases hm with
  | enqueued | start | call | wake | complete => cases hl
  | broken => exact .inr (phases_push _ _)
  | throws | rethrow => exact .inl phases_unwind
  | @suspend _ k l i u _ _ ht =>
    refine .inl (phases_setTask_same (awaited_eq_some.mp ht).2 ?_)
    cases l <;> rfl
  | _ => exact .inl rfl

/-- It hands `Loop` to no worker. -/
theorem own_carrier {l : Label} (hm : Moves r l r') (hl : l.poolPart = false) :
    r'.carrier = r.carrier ∨ r'.carrier = none ∨ r'.carrier = some .main := by
  cases hm with
  | enqueued | start | call | wake | complete => cases hl
  | construct => exact .inr (.inr rfl)
  | suspend | publish => exact .inr (.inl rfl)
  | broken => exact .inl (sameThreads_push _ _).2.2.1
  | throws | rethrow => exact .inl sameThreads_unwind.2.2.1
  | _ => exact .inl rfl

/-- Beside `Loop` only its first call changes where `Loop` is. -/
theorem outside_point {l : Label} (hm : Moves r l r') (hl : l.inside = false) :
    r'.phases = r.phases ∧ r'.point = r.point ∧
      (r'.carrier = r.carrier ∨ r.winMain = .constructing) := by
  cases hm with
  | construct hwin => exact ⟨rfl, rfl, .inr hwin⟩
  | post | enterGet | leaveGet => exact ⟨rfl, rfl, .inl rfl⟩
  | _ => cases hl

end Loop

/-! ### The pool -/

section Pool

variable {r r' : ThreadPool Unit Nat n} {l : PoolLabel Unit Nat n} {p : TaskPlace Unit n} {i : Nat}

theorem mem_running {w : Fin (n + 1)} :
    i ∈ r.tasksAt (.running w) ↔ (r.workers w).phase = .running i := by
  simp only [ThreadPool.tasksAt]
  cases (r.workers w).phase with
  | running t =>
    simp only [WorkerPhase.tasks, List.mem_singleton, WorkerPhase.running.injEq]
    exact eq_comm
  | _ => simp [WorkerPhase.tasks]

/-- Only a task that waits is blocked. -/
theorem free_step (h : ∀ w, (r.workers w).blocked = false) (hl : ∀ w, l ≠ .block w)
    (hstep : PoolSteps r l r') : ∀ w, (r'.workers w).blocked = false := by
  refine hstep.workers (I := fun _ a => a.blocked = false) (fun {w _ _} ha hu => ?_) h
  cases hu with
  | work _ hmove =>
    cases hmove with
    | block => exact absurd rfl (hl w)
    | resume => rfl
    | _ => exact ha
  | foreign =>
    unfold Worker.enqueueForeign
    split
    · exact ha
    · exact ha
  | stop _ hmove =>
    cases hmove with
    | _ => exact ha
  | push | release | give | giveRejected | finish | raise => exact ha

theorem work_within {w : Fin (n + 1)} {a a' : Worker Nat n} (hm : WorkerMoves w a l a')
    (hl : l.within = true) : a'.phase.tasks = a.phase.tasks := by
  cases hm with
  | start | abort | block | resume | leave => cases hl
  | sleep hphase | drainAborted hphase | drain hphase | acquire hphase | timeOut hphase
  | readFlag hphase | readNothing hphase | sleepAgain hphase | wakeAborted hphase | wake hphase
  | giveUp hphase | endLoop hphase | keep hphase | balance hphase =>
    rw [hphase]
    rfl

/-- A step within the pool moves tasks between the queues only. -/
theorem within_places (hsettled : ∀ w, Settled (r.workers w)) (hm : PoolMoves r l r')
    (hl : l.within = true) (hp : p.isQueue = false) : r'.tasksAt p = r.tasksAt p := by
  have hpublic : ∀ w, p ≠ .publicQueue w := by
    rintro w rfl
    cases hp
  have hprivate : ∀ w, p ≠ .privateQueue w := by
    rintro w rfl
    cases hp
  cases hm with
  | enqueue | enqueueSpan | enqueueLocal | rejectLocal | enqueueForeign | rejectForeign | finish
  | raise | shutdownAgain | shutdown | stop => cases hl
  | enterLocal hcall | enter hcall | found hcall | foundNone hcall | roundRobin hcall =>
    exact tasksAt_setCall fun _ => by rw [hcall]; rfl
  | @release c w =>
    exact tasksAt_setWorker (s := r) (w := w) (a := { r.workers w with semaphore := true })
      (fun _ => rfl) (fun _ => rfl) fun _ => rfl
  | @work w _ _ _ hmove =>
    exact tasksAt_setWorker (fun heq => absurd heq (hpublic w))
      (fun heq => absurd heq (hprivate w)) fun _ => work_within hmove hl
  | donateRejected hphase =>
    exact tasksAt_setWorker (fun _ => rfl) (fun _ => rfl) fun _ => by rw [hphase]; rfl
  | @donate w v k more hphase =>
    have hgiven := tasksAt_setWorker (s := r) (w := w) (a := (r.workers w).give k more) (r := p)
      (fun _ => rfl) (fun heq => absurd heq (hprivate w)) fun _ => give_tasks hphase
    obtain ⟨-, hsame, hrunning⟩ :=
      foreign_tasks ((r.workers w).privateQueue.take k) (settled_giving hsettled hphase v)
    exact (tasksAt_setWorker (fun heq => absurd heq (hpublic v)) (fun _ => hsame)
      fun _ => hrunning).trans hgiven

theorem within_same (hm : PoolMoves r l r') (hl : l.within = true) :
    r'.submitted = r.submitted ∧ r'.abort = r.abort := by
  cases hm with
  | work | release | donate | donateRejected | enterLocal | enter | found | foundNone
  | roundRobin => exact ⟨rfl, rfl⟩
  | _ => cases hl

/-- A call of `enqueue` goes on with its task. -/
theorem within_calls (hm : PoolMoves r l r') (hl : l.within = true) (h : ∀ c, HasTask i (r.call c))
    (c : PoolThread Unit n) : HasTask i (r'.call c) ∧ (r'.call c ≠ .none ↔ r.call c ≠ .none) := by
  have hset : ∀ {q : ThreadPool Unit Nat n} {d : PoolThread Unit n} {k k' : PoolCall Nat n},
      q.call = r.call → r.call d = k → k ≠ .none → k' ≠ .none → (HasTask i k → HasTask i k') →
      HasTask i ((q.setCall d k').call c) ∧
        ((q.setCall d k').call c ≠ .none ↔ r.call c ≠ .none) := by
    intro q d k k' hq hcall hk hk' hgo
    rcases eq_or_ne c d with rfl | hne
    · rw [ThreadPool.setCall_call_self, hcall]
      exact ⟨hgo (hcall ▸ h c), iff_of_true hk' hk⟩
    · rw [ThreadPool.setCall_call_of_ne q d k' hne, hq]
      exact ⟨h c, Iff.rfl⟩
  cases hm with
  | enterLocal hcall | enter hcall | found hcall | foundNone hcall | roundRobin hcall =>
    refine hset rfl hcall (by simp) (by simp) ?_
    rintro ⟨rfl, rfl⟩
    simp [HasTask]
  | work | release | donate | donateRejected => exact ⟨h c, Iff.rfl⟩
  | _ => cases hl

theorem queue_setWorker {w : Fin (n + 1)} {a : Worker Nat n} {j : Nat}
    (hpublic : i ∈ a.publicQueue → i ∈ (r.workers w).publicQueue ∨ i = j)
    (hprivate : i ∈ a.privateQueue → i ∈ (r.workers w).privateQueue ∨ i = j)
    (hp : p.isQueue = true) (hi : i ∈ (r.setWorker w a).tasksAt p) : i ∈ r.tasksAt p ∨ i = j := by
  cases p with
  | publicQueue v =>
    simp only [ThreadPool.tasksAt] at hi ⊢
    rcases eq_or_ne v w with rfl | hne
    · exact hpublic (by rwa [ThreadPool.setWorker_workers_self] at hi)
    · exact .inl (by rwa [ThreadPool.setWorker_workers_of_ne r w a hne] at hi)
  | privateQueue v =>
    simp only [ThreadPool.tasksAt] at hi ⊢
    rcases eq_or_ne v w with rfl | hne
    · exact hprivate (by rwa [ThreadPool.setWorker_workers_self] at hi)
    · exact .inl (by rwa [ThreadPool.setWorker_workers_of_ne r w a hne] at hi)
  | _ => cases hp

/-- A task that is in a queue after a step was in one before, if it was in no other place. -/
theorem queue_before {all : Set Nat} (h : Placed r.tasksAt all) (h' : Placed r'.tasksAt all)
    (hsame : ∀ q : TaskPlace Unit n, q.isQueue = false → ∀ i ∈ r.tasksAt q, i ∈ r'.tasksAt q)
    (hp : p.isQueue = true) (hi : i ∈ r'.tasksAt p) : ∃ q, q.isQueue = true ∧ i ∈ r.tasksAt q := by
  obtain ⟨q, hq⟩ := (h.cover i).mp ((h'.cover i).mpr ⟨p, hi⟩)
  refine ⟨q, Classical.byContradiction fun hno => ?_, hq⟩
  have hno' : q.isQueue = false := Bool.eq_false_iff.mpr hno
  rw [h'.unique hi (hsame q hno' i hq)] at hp
  exact hno hp

end Pool

/-! ### Steps -/

theorem joined_within {l : PoolLabel Unit Nat n} {pool : ThreadPool Unit Nat n} (h : Joined s)
    (hl : l.within = true) (hstep : PoolSteps s.pool l pool) : Joined { s with pool } := by
  have hm := hstep.moves
  obtain ⟨hsubmitted, habort⟩ := within_same hm hl
  have hplaces := fun {p} => within_places (p := p) h.poolOk.settled hm hl
  have hcalls := within_calls hm hl fun c => (h.calls c).1
  have hplaced := placed_step h.poolOk.settled h.placed hm
  have hfree := free_step h.free (by rintro w rfl; cases hl) hstep
  refine ⟨h.framed, h.carried, poolOk_step h.poolOk hstep, hfree, hplaced, habort.trans h.abort, ?_,
    ?_, ?_, ?_, ?_, ?_, ?_, ?_⟩
  · intro p i hp hi
    have hplaced' : Placed pool.tasksAt {i | i ∈ s.pool.submitted} := hsubmitted ▸ hplaced
    obtain ⟨q, hq, hi⟩ := queue_before h.placed hplaced' (fun q hq i hi => by rwa [hplaces hq]) hp hi
    exact h.queued q i hq hi
  · intro w i hi
    exact h.running w i (by rwa [← hplaces rfl])
  · intro v i hi
    obtain ⟨w, hv, hw⟩ := h.started v i hi
    exact ⟨w, hv, by rwa [hplaces rfl]⟩
  · intro v hv
    obtain ⟨w, hw, i, hi⟩ := h.carrying v hv
    exact ⟨w, hw, i, by rwa [hplaces rfl]⟩
  · intro i hi
    have hexecuted : pool.executed = s.pool.executed := hplaces (p := .executed) rfl
    exact h.executed i (hexecuted ▸ hi)
  · intro i hi
    rw [hsubmitted]
    exact h.submitted i hi
  · intro c
    exact ⟨(hcalls c).1, fun hc => (h.calls c).2 ((hcalls c).2.mp hc)⟩
  · intro i hi
    rw [hsubmitted] at hi
    exact (h.next i hi).imp_right fun ⟨heq, c, hc⟩ => ⟨heq, c, (hcalls c).2.mpr hc⟩

/-- While the carrier of `Loop` is in no call of `enqueue`, no thread is. -/
theorem call_none (h : Joined s) (hquiet : s.carrierQuiet = true) (c : PoolThread Unit n) :
    s.pool.call c = .none := by
  refine Classical.byContradiction fun hc => hc ?_
  have hcarrier := ((h.calls c).2 hc).1
  unfold LoopSystem.carrierQuiet at hquiet
  rw [hcarrier] at hquiet
  exact (quiet_iff.mp hquiet).1

theorem joined_own {l : Label} {loop : State} (h : Joined s) (hl : l.poolPart = false)
    (hquiet : l.inside = true → s.carrierQuiet = true) (hstep : Step s.loop l loop) :
    Joined { s with loop } := by
  have hm := hstep.moves
  have hphases := own_phases hm hl
  have hkeep : ∀ {i : Nat} {p : Phase}, s.loop.phases[i]? = some p → loop.phases[i]? = some p := by
    intro i p hi
    rcases hphases with heq | heq
    · rwa [heq]
    · rw [heq, List.getElem?_append_left (List.getElem?_eq_some_iff.mp hi).1]
      exact hi
  have hback : ∀ {i : Nat} {p : Phase}, loop.phases[i]? = some p → p ≠ .finished →
      s.loop.phases[i]? = some p := by
    intro i p hi hp
    rcases hphases with heq | heq
    · rwa [heq] at hi
    · rw [heq, List.getElem?_append] at hi
      split at hi
      · exact hi
      · exact absurd (List.mem_singleton.mp (List.mem_of_getElem? hi)) hp
  -- a call of `enqueue` holds `Loop` up
  have hcall : ∀ c, s.pool.call c ≠ .none →
      loop.phases = s.loop.phases ∧ loop.point = s.loop.point ∧ loop.carrier = s.loop.carrier := by
    intro c hc
    have hinside : l.inside = false := Bool.eq_false_iff.mpr fun hinside =>
      hc (call_none h (hquiet hinside) c)
    obtain ⟨hsame, hpoint, hcarrier⟩ := outside_point hm hinside
    refine ⟨hsame, hpoint, hcarrier.resolve_right fun hwin => ?_⟩
    have hsome := ((h.calls c).2 hc).1
    simp [LoopSystem.carrier, (h.carried.before hwin).1] at hsome
  refine ⟨framed_moves h.framed hm, carried_moves h.carried h.framed hm, h.poolOk, h.free,
    h.placed, h.abort, ?_, ?_, ?_, ?_, ?_, ?_, ?_, ?_⟩
  · intro p i hp hi
    exact hkeep (h.queued p i hp hi)
  · intro w i hi
    exact (h.running w i hi).imp hkeep fun hi => hi.imp hkeep hkeep
  · intro v i hi
    exact h.started v i (hi.imp (fun hi => hback hi (by simp)) fun hi => hback hi (by simp))
  · intro v hv
    rcases own_carrier hm hl with heq | heq | heq
    · exact h.carrying v (heq ▸ hv)
    · rw [show loop.carrier = some (.worker v) from hv] at heq
      cases heq
    · rw [show loop.carrier = some (.worker v) from hv] at heq
      cases heq
  · exact fun i hi => hkeep (h.executed i hi)
  · exact fun i hi => h.submitted i (hback hi (by simp))
  · intro c
    by_cases hc : s.pool.call c = .none
    · rw [hc]
      exact ⟨trivial, fun hne => absurd rfl hne⟩
    · obtain ⟨hsame, hpoint, hcarrier⟩ := hcall c hc
      simp only [LoopSystem.carrier, hsame, hpoint, hcarrier]
      exact h.calls c
  · intro i hi
    rcases h.next i hi with hlt | ⟨heq, c, hc⟩
    · refine .inl (Nat.lt_of_lt_of_le hlt ?_)
      rcases hphases with hsame | hsame
      · exact (congrArg List.length hsame).ge
      · simp [hsame]
    · exact .inr ⟨heq.trans (congrArg List.length (hcall c hc).1.symm), c, hc⟩

theorem joined_enqueue {k : TaskKind} {c : PoolThread Unit n} {pool : ThreadPool Unit Nat n}
    (h : Joined s) (hpoint : s.loop.point = .submit k) (hcarrier : s.carrier = some c)
    (hstep : PoolSteps s.pool (.enqueue c s.loop.tasks.length) pool) : Joined { s with pool } := by
  have hplaced := placed_step h.poolOk.settled h.placed hstep.moves
  have hok := poolOk_step h.poolOk hstep
  have hlength : s.loop.phases.length = s.loop.tasks.length := List.length_map ..
  cases hstep.moves with
  | work _ hmove => cases hmove
  | enqueue hquiet _ hnew =>
    refine ⟨h.framed, h.carried, hok, h.free, hplaced, h.abort, ?_, h.running, h.started,
      h.carrying, h.executed, ?_, ?_, ?_⟩
    · intro p i hp hi
      refine h.queued p i hp ?_
      cases p with
      | publicQueue | privateQueue => exact hi
      | _ => cases hp
    · exact fun i hi => List.mem_append_left _ (h.submitted i hi)
    · intro d
      rcases eq_or_ne d c with rfl | hne
      · rw [ThreadPool.setCall_call_self]
        exact ⟨⟨hlength.symm, rfl⟩, fun _ => ⟨hcarrier, k, hpoint⟩⟩
      · rw [ThreadPool.setCall_call_of_ne _ c _ hne]
        exact h.calls d
    · intro i hi
      rcases List.mem_append.mp hi with hi | hi
      · rcases h.next i hi with hlt | ⟨-, d, hd⟩
        · exact .inl hlt
        · -- a call in progress would be this one
          have heq : some d = some c := ((h.calls d).2 hd).1.symm.trans hcarrier
          cases heq
          exact absurd (quiet_iff.mp hquiet).1 hd
      · rw [List.mem_singleton] at hi
        refine .inr ⟨hi.trans hlength.symm, c, ?_⟩
        rw [ThreadPool.setCall_call_self]
        simp

theorem exists_carrier {c : PoolThread Unit n} (h : s.carrier = some c) :
    ∃ t, s.loop.carrier = some t ∧ t.inPool n = some c :=
  Option.bind_eq_some_iff.mp h

/-- A task that enters a queue is a submitted one for the loop. -/
theorem push_step {k : TaskKind} {c : PoolThread Unit n} (hpoint : s.loop.point = .submit k)
    (hcarrier : s.carrier = some c) :
    Step s.loop (.submit .enqueued) (s.loop.push k { kind := k }) := by
  obtain ⟨t, ht, -⟩ := exists_carrier hcarrier
  refine step_of_act (by simp [hpoint]) ?_
  simp [act, State.submitTask, ht, hpoint]

theorem joined_push {k : TaskKind} {c : PoolThread Unit n} {pool : ThreadPool Unit Nat n}
    (h : Joined s) (hpoint : s.loop.point = .submit k) (hcarrier : s.carrier = some c)
    (hok : PoolOk pool) (hfree : ∀ w, (pool.workers w).blocked = false)
    (hplaced : Placed pool.tasksAt {i | i ∈ pool.submitted})
    (hsubmitted : pool.submitted = s.pool.submitted) (habort : pool.abort = s.pool.abort)
    (hhand : s.loop.phases.length ∈ s.pool.tasksAt (.hand c)) (hcalls : ∀ d, pool.call d = .none)
    (hqueues : ∀ p i, p.isQueue = true → i ∈ pool.tasksAt p →
      i ∈ s.pool.tasksAt p ∨ i = s.loop.phases.length)
    (hrunning : ∀ w, pool.tasksAt (.running w) = s.pool.tasksAt (.running w))
    (hexecuted : pool.executed = s.pool.executed) :
    Joined { loop := s.loop.push k { kind := k }, pool } := by
  have hm := (push_step hpoint hcarrier).moves
  have hphases : (s.loop.push k { kind := k }).phases = s.loop.phases ++ [.queued] :=
    phases_push k _
  have hsame : (s.loop.push k { kind := k }).carrier = s.loop.carrier :=
    (sameThreads_push k _).2.2.1
  have hkeep : ∀ {i : Nat} {p : Phase}, s.loop.phases[i]? = some p →
      (s.loop.push k { kind := k }).phases[i]? = some p := by
    intro i p hi
    rw [hphases, List.getElem?_append_left (List.getElem?_eq_some_iff.mp hi).1]
    exact hi
  have hback : ∀ {i : Nat} {p : Phase}, (s.loop.push k { kind := k }).phases[i]? = some p →
      s.loop.phases[i]? = some p ∨ i = s.loop.phases.length ∧ p = .queued := by
    intro i p hi
    rw [hphases, List.getElem?_append] at hi
    split at hi
    · exact .inl hi
    · next hge =>
      obtain ⟨hlt, hp⟩ := List.getElem?_eq_some_iff.mp hi
      rw [List.length_singleton] at hlt
      exact .inr ⟨by omega, hp.symm.trans (by simp)⟩
  refine ⟨framed_moves h.framed hm, carried_moves h.carried h.framed hm, hok, hfree, hplaced,
    habort.trans h.abort, ?_, ?_, ?_, ?_, ?_, ?_, ?_, ?_⟩
  · intro p i hp hi
    rcases hqueues p i hp hi with hi | rfl
    · exact hkeep (h.queued p i hp hi)
    · simp [hphases]
  · intro w i hi
    exact (h.running w i (hrunning w ▸ hi)).imp hkeep fun hi => hi.imp hkeep hkeep
  · intro v i hi
    have hi' : s.loop.phases[i]? = some (.started v) ∨ s.loop.phases[i]? = some (.called v) :=
      hi.imp (fun hi => (hback hi).resolve_right (by simp))
        fun hi => (hback hi).resolve_right (by simp)
    obtain ⟨w, hw, hi⟩ := h.started v i hi'
    exact ⟨w, hw, hrunning w ▸ hi⟩
  · intro v hv
    obtain ⟨w, hw, i, hi⟩ := h.carrying v (hsame ▸ hv)
    exact ⟨w, hw, i, hrunning w ▸ hi⟩
  · exact fun i hi => hkeep (h.executed i (hexecuted ▸ hi))
  · intro i hi
    rw [hsubmitted]
    rcases hback hi with hi | ⟨rfl, -⟩
    · exact h.submitted i hi
    · exact (h.placed.cover _).mpr ⟨.hand c, hhand⟩
  · intro d
    rw [hcalls d]
    exact ⟨trivial, fun hne => absurd rfl hne⟩
  · intro i hi
    rw [hphases, List.length_append, List.length_singleton]
    rcases h.next i (hsubmitted ▸ hi) with hlt | ⟨rfl, -⟩
    · exact .inl (Nat.lt_succ_of_lt hlt)
    · exact .inl (Nat.lt_succ_self _)

/-- The carrier of `Loop` leaves `enqueue`, and then no thread is in it. -/
theorem call_none_after {c : PoolThread Unit n} (h : Joined s) (hcarrier : s.carrier = some c)
    {r : ThreadPool Unit Nat n} (hr : r.call = s.pool.call) (d : PoolThread Unit n) :
    (r.setCall c .none).call d = .none := by
  rcases eq_or_ne d c with rfl | hne
  · exact ThreadPool.setCall_call_self ..
  · rw [ThreadPool.setCall_call_of_ne r c .none hne, hr]
    refine Classical.byContradiction fun hd => hne ?_
    have heq := ((h.calls d).2 hd).1
    rw [hcarrier, Option.some.injEq] at heq
    exact heq.symm

theorem joined_pushLocal {k : TaskKind} {c : PoolThread Unit n} {p : Passing} {ts rest : List Nat}
    {pool : ThreadPool Unit Nat n} (h : Joined s) (hpoint : s.loop.point = .submit k)
    (hcarrier : s.carrier = some c) (hcall : s.pool.call c = .enqueueLocal p ts rest)
    (hstep : PoolSteps s.pool (.enqueueLocal c) pool) :
    Joined { loop := s.loop.push k { kind := k }, pool } := by
  have hplaced := placed_step h.poolOk.settled h.placed hstep.moves
  have hok := poolOk_step h.poolOk hstep
  have hts := (h.calls c).1
  rw [hcall] at hts
  obtain ⟨rfl, rfl⟩ : ts = [s.loop.phases.length] ∧ rest = [] := hts
  have hfree := free_step h.free (fun _ => by simp) hstep
  have hhand : s.loop.phases.length ∈ s.pool.tasksAt (.hand c) := by
    rw [ThreadPool.tasksAt, hcall]
    exact List.mem_singleton_self _
  cases hstep.moves with
  | work _ hmove => cases hmove
  | rejectLocal _ _ habort =>
    rw [(h.poolOk.opened h.abort _).2] at habort
    cases habort
  | @enqueueLocal w _ ts rest hcall' =>
    obtain ⟨rfl, rfl⟩ : ts = [s.loop.phases.length] ∧ rest = [] := by
      rw [hcall] at hcall'
      cases hcall'
      exact ⟨rfl, rfl⟩
    refine joined_push h hpoint hcarrier hok hfree hplaced rfl rfl hhand
      (call_none_after h hcarrier rfl) ?_ ?_ rfl
    · intro p i hp hi
      rw [tasksAt_setCall fun heq => by rw [heq] at hp; cases hp] at hi
      refine queue_setWorker (a := { s.pool.workers w with
        privateQueue := (s.pool.workers w).privateQueue ++ [s.loop.phases.length] })
        (fun hi => .inl hi) (fun hi => ?_) hp hi
      exact (List.mem_append.mp hi).imp_right List.mem_singleton.mp
    · intro v
      rw [tasksAt_setCall fun heq => by cases heq]
      exact tasksAt_setWorker (fun _ => rfl) (fun heq => by cases heq) fun _ => rfl

theorem joined_pushForeign {k : TaskKind} {c : PoolThread Unit n} {p : Passing}
    {parts : List (Fin (n + 1) × List Nat)} {rest : List Nat} {pool : ThreadPool Unit Nat n}
    (h : Joined s) (hpoint : s.loop.point = .submit k) (hcarrier : s.carrier = some c)
    (hcall : s.pool.call c = .enqueueForeign p parts rest)
    (hstep : PoolSteps s.pool (.enqueueForeign c) pool) :
    Joined { loop := s.loop.push k { kind := k }, pool } := by
  have hplaced := placed_step h.poolOk.settled h.placed hstep.moves
  have hok := poolOk_step h.poolOk hstep
  have hparts := (h.calls c).1
  rw [hcall] at hparts
  obtain ⟨⟨w, rfl⟩, rfl⟩ := hparts
  have hfree := free_step h.free (fun _ => by simp) hstep
  have hhand : s.loop.phases.length ∈ s.pool.tasksAt (.hand c) := by
    rw [ThreadPool.tasksAt, hcall]
    exact List.mem_singleton_self _
  cases hstep.moves with
  | work _ hmove => cases hmove
  | rejectForeign _ _ habort =>
    rw [(h.poolOk.opened h.abort _).1] at habort
    cases habort
  | @enqueueForeign _ v _ ts more rest hcall' =>
    rw [hcall] at hcall'
    cases hcall'
    obtain ⟨hpublic, hprivate, hrunning⟩ :=
      foreign_tasks [s.loop.phases.length] (h.poolOk.settled w)
    refine joined_push h hpoint hcarrier hok hfree hplaced rfl rfl hhand
      (call_none_after h hcarrier rfl) ?_ ?_ rfl
    · intro p i hp hi
      have hi' : i ∈ (s.pool.setWorker w
          ((s.pool.workers w).enqueueForeign [s.loop.phases.length]).2).tasksAt p := by
        rwa [← tasksAt_setCall (c := c) (k := .none) fun heq => by rw [heq] at hp; cases hp]
      refine queue_setWorker (fun hi => ?_) (fun hi => ?_) hp hi'
      · rw [hpublic] at hi
        exact (List.mem_append.mp hi).imp_right List.mem_singleton.mp
      · rw [hprivate] at hi
        exact .inl hi
    · intro v
      have hsame : (s.pool.setWorker w
          ((s.pool.workers w).enqueueForeign [s.loop.phases.length]).2).tasksAt (.running v) =
            s.pool.tasksAt (.running v) :=
        tasksAt_setWorker (fun heq => by cases heq) (fun heq => by cases heq) fun _ => hrunning
      exact hsame

/-- A worker that is about to take a task runs none and does not carry `Loop`. -/
theorem free_of_balanced {w : Fin (n + 1)} (h : Joined s)
    (hphase : (s.pool.workers w).phase = .balanced) : s.loop.free w = true := by
  have hidle : ∀ i, i ∉ s.pool.tasksAt (.running w) := fun i hi => by
    rw [mem_running, hphase] at hi
    cases hi
  unfold State.free
  rw [Bool.and_eq_true, decide_eq_true_eq, List.all_eq_true]
  constructor
  · intro hcarrier
    obtain ⟨v, hv, i, hi⟩ := h.carrying w hcarrier
    exact hidle i (Fin.ext hv ▸ hi)
  · intro t ht
    rw [decide_eq_true_eq]
    intro hworker
    obtain ⟨i, hi⟩ := List.mem_iff_getElem?.mp ht
    have hphases := phases_of_task hi
    unfold Task.worker? at hworker
    split at hworker
    · next hstarted =>
      cases hworker
      obtain ⟨v, hv, hrun⟩ := h.started w i (.inl (hphases.trans (congrArg some hstarted)))
      exact hidle i (Fin.ext hv ▸ hrun)
    · next hcalled =>
      cases hworker
      obtain ⟨v, hv, hrun⟩ := h.started w i (.inr (hphases.trans (congrArg some hcalled)))
      exact hidle i (Fin.ext hv ▸ hrun)
    · cases hworker

/-- What the pool does when the worker `w` takes the task `i`. -/
structure Taken (r r' : ThreadPool Unit Nat n) (w : Fin (n + 1)) (i : Nat) : Prop where
  balanced : (r.workers w).phase = .balanced
  last : (r.workers w).privateQueue.getLast? = some i
  submitted : r'.submitted = r.submitted
  abort : r'.abort = r.abort
  call : r'.call = r.call
  executed : r'.executed = r.executed
  running : ∀ v, v ≠ w → r'.tasksAt (.running v) = r.tasksAt (.running v)
  left : ∀ p j, p.isQueue = true → j ∈ r'.tasksAt p → j ∈ r.tasksAt p

theorem taken_start {r r' : ThreadPool Unit Nat n} {w : Fin (n + 1)} {i : Nat}
    (hm : PoolMoves r (.start w) r') (hrun : (r'.workers w).phase = .running i) :
    Taken r r' w i := by
  cases hm with
  | work _ hmove =>
    cases hmove with
    | abort =>
      rw [ThreadPool.setWorker_workers_self] at hrun
      cases hrun
    | @start ts _ hphase _ hqueue =>
      rw [ThreadPool.setWorker_workers_self] at hrun
      cases hrun
      refine ⟨hphase, ?_, rfl, rfl, rfl, rfl, fun v hv => ?_, fun p j hp hj => ?_⟩
      · rw [hqueue, List.getLast?_concat]
      · exact tasksAt_setWorker (fun _ => rfl) (fun heq => by cases heq) fun heq =>
          absurd (TaskPlace.running.inj heq) hv
      · have hback := queue_setWorker (j := j + 1)
          (a := { r.workers w with privateQueue := ts, phase := .running i })
          (fun hj => .inl hj) (fun hj => .inl (hqueue ▸ List.mem_append_left _ hj)) hp hj
        exact hback.resolve_right (Nat.succ_ne_self j).symm

/-- The task that a worker of the pool takes is queued. -/
theorem queued_of_taken {pool : ThreadPool Unit Nat n} {w : Fin (n + 1)} {i : Nat} (h : Joined s)
    (htaken : Taken s.pool pool w i) : s.loop.phases[i]? = some .queued :=
  h.queued (.privateQueue w) i rfl (List.mem_of_getLast? htaken.last)

/-- The task is queued and the worker is free, so the loop takes the same step. -/
theorem start_step {w : Fin (n + 1)} {pool : ThreadPool Unit Nat n} {i : Nat} {t : Task}
    (h : Joined s) (htaken : Taken s.pool pool w i) (ht : s.loop.tasks[i]? = some t)
    (hpoint : s.loop.point ≠ .aborted) :
    Step s.loop (.start w i) (s.loop.setTask i { t with phase := .started w }) := by
  have hqueued := queued_of_taken h htaken
  rw [phases_of_task ht, Option.some.injEq] at hqueued
  refine step_of_act hpoint ?_
  simp [act, State.startTask, free_of_balanced h htaken.balanced, ht, Task.start, hqueued]

theorem joined_start {w : Fin (n + 1)} {pool : ThreadPool Unit Nat n} {i : Nat} {t : Task}
    (h : Joined s) (hstep : PoolSteps s.pool (.start w) pool)
    (hrun : (pool.workers w).phase = .running i) (ht : s.loop.tasks[i]? = some t)
    (hpoint : s.loop.point ≠ .aborted) :
    Joined { loop := s.loop.setTask i { t with phase := .started w }, pool } := by
  have htaken := taken_start hstep.moves hrun
  have hm := (start_step h htaken ht hpoint).moves
  have hplaced := placed_step h.poolOk.settled h.placed hstep.moves
  have hqueued := queued_of_taken h htaken
  have hself : (s.loop.setTask i { t with phase := .started w }).phases[i]? = some (.started w) := by
    rw [phases_setTask]
    exact List.getElem?_set_self (List.getElem?_eq_some_iff.mp hqueued).1
  have hother : ∀ {j : Nat}, j ≠ i →
      (s.loop.setTask i { t with phase := .started w }).phases[j]? = s.loop.phases[j]? := by
    intro j hj
    rw [phases_setTask]
    exact List.getElem?_set_ne hj.symm
  have hkeep : ∀ {j : Nat} {p : Phase}, s.loop.phases[j]? = some p → p ≠ .queued →
      (s.loop.setTask i { t with phase := .started w }).phases[j]? = some p := by
    intro j p hj hp
    rw [hother, hj]
    rintro rfl
    exact hp (Option.some.inj (hj.symm.trans hqueued))
  have hidle : ∀ {v j}, j ∈ s.pool.tasksAt (.running v) → v ≠ w := by
    rintro v j hj rfl
    rw [mem_running, htaken.balanced] at hj
    cases hj
  have hmem : i ∈ pool.tasksAt (.running w) := mem_running.mpr hrun
  refine ⟨framed_moves h.framed hm, carried_moves h.carried h.framed hm,
    poolOk_step h.poolOk hstep, free_step h.free (fun _ => by simp) hstep, hplaced,
    htaken.abort.trans h.abort, ?_, ?_, ?_, ?_, ?_, ?_, ?_, ?_⟩
  · intro p j hp hj
    have hne : j ≠ i := by
      rintro rfl
      rw [hplaced.unique hj hmem] at hp
      cases hp
    rw [hother hne]
    exact h.queued p j hp (htaken.left p j hp hj)
  · intro v j hj
    rcases eq_or_ne v w with rfl | hv
    · rw [mem_running, hrun] at hj
      cases hj
      exact .inl hself
    · rw [htaken.running v hv] at hj
      exact (h.running v j hj).imp (hkeep · (by simp)) (Or.imp (hkeep · (by simp)) (hkeep · (by simp)))
  · intro v j hj
    by_cases hne : j = i
    · subst hne
      rw [hself] at hj
      simp only [Option.some.injEq, Phase.started.injEq, reduceCtorEq, or_false] at hj
      exact ⟨w, hj, hmem⟩
    · rw [hother hne] at hj
      obtain ⟨u, hu, hj⟩ := h.started v j hj
      exact ⟨u, hu, htaken.running u (hidle hj) ▸ hj⟩
  · intro v hv
    obtain ⟨u, hu, j, hj⟩ := h.carrying v hv
    exact ⟨u, hu, j, htaken.running u (hidle hj) ▸ hj⟩
  · intro j hj
    rw [htaken.executed] at hj
    exact hkeep (h.executed j hj) (by simp)
  · intro j hj
    rw [htaken.submitted]
    refine h.submitted j ?_
    rwa [← hother]
    rintro rfl
    rw [hself] at hj
    cases hj
  · intro c
    rw [phases_setTask, List.length_set, htaken.call]
    exact h.calls c
  · intro j hj
    rw [phases_setTask, List.length_set, htaken.call]
    exact h.next j (htaken.submitted ▸ hj)

/-- The worker that runs the task `i` takes it from one phase to the next, and may carry `Loop`
then.
-/
theorem joined_task {w : Fin (n + 1)} {i : Nat} {l : Label} {loop : State} {p : Phase}
    (h : Joined s) (hm : Moves s.loop l loop) (hrun : i ∈ s.pool.tasksAt (.running w))
    (hbefore : s.loop.phases[i]? = some (.started w) ∨ s.loop.phases[i]? = some (.called w))
    (hphases : loop.phases = s.loop.phases.set i p) (hp : p = .called w ∨ p = .finished)
    (hcarrier : loop.carrier = s.loop.carrier ∨ loop.carrier = some (.worker w))
    (hsubmit : ∀ k, s.loop.point = .submit k →
      loop.point = s.loop.point ∧ loop.carrier = s.loop.carrier) : Joined { s with loop } := by
  have hlt : i < s.loop.phases.length :=
    hbefore.elim (fun hb => (List.getElem?_eq_some_iff.mp hb).1)
      fun hb => (List.getElem?_eq_some_iff.mp hb).1
  have hself : loop.phases[i]? = some p := by
    rw [hphases]
    exact List.getElem?_set_self hlt
  have hother : ∀ {j : Nat}, j ≠ i → loop.phases[j]? = s.loop.phases[j]? := by
    intro j hj
    rw [hphases]
    exact List.getElem?_set_ne hj.symm
  have hqueued : s.loop.phases[i]? ≠ some .queued := by
    rcases hbefore with hb | hb <;> simp [hb]
  have hfinished : s.loop.phases[i]? ≠ some .finished := by
    rcases hbefore with hb | hb <;> simp [hb]
  have hlength : loop.phases.length = s.loop.phases.length := by
    rw [hphases, List.length_set]
  refine ⟨framed_moves h.framed hm, carried_moves h.carried h.framed hm, h.poolOk, h.free,
    h.placed, h.abort, ?_, ?_, ?_, ?_, ?_, ?_, ?_, ?_⟩
  · intro q j hq hj
    have hold := h.queued q j hq hj
    rw [hother fun heq => hqueued (heq ▸ hold)]
    exact hold
  · intro v j hj
    by_cases hne : j = i
    · subst hne
      obtain rfl : v = w := TaskPlace.running.inj (h.placed.unique hj hrun)
      rcases hp with rfl | rfl
      · exact .inr (.inl hself)
      · exact .inr (.inr hself)
    · rw [hother hne]
      exact h.running v j hj
  · intro v j hj
    by_cases hne : j = i
    · subst hne
      rw [hself] at hj
      rcases hp with rfl | rfl
      · exact ⟨w, by simpa using hj, hrun⟩
      · simp at hj
    · rw [hother hne] at hj
      exact h.started v j hj
  · intro v hv
    rcases hcarrier with heq | heq
    · exact h.carrying v (heq ▸ hv)
    · rw [show loop.carrier = some (.worker v) from hv, Option.some.injEq, Thread.worker.injEq] at heq
      exact ⟨w, heq.symm, i, hrun⟩
  · intro j hj
    have hold := h.executed j hj
    rw [hother fun heq => hfinished (heq ▸ hold)]
    exact hold
  · intro j hj
    by_cases hne : j = i
    · rw [hne, hself] at hj
      rcases hp with rfl | rfl <;> simp at hj
    · rw [hother hne] at hj
      exact h.submitted j hj
  · intro c
    rw [hlength]
    refine ⟨(h.calls c).1, fun hc => ?_⟩
    obtain ⟨hsome, k, hpoint⟩ := (h.calls c).2 hc
    obtain ⟨hsame, hstay⟩ := hsubmit k hpoint
    exact ⟨by simpa only [LoopSystem.carrier, hstay] using hsome, k, hsame.trans hpoint⟩
  · intro j hj
    rw [hlength]
    exact h.next j hj

theorem joined_call {w : Fin (n + 1)} {i : Nat} {o : Outcome} {loop : State} (h : Joined s)
    (hrun : (s.pool.workers w).phase = .running i) (hstep : Step s.loop (.call w i o) loop) :
    Joined { s with loop } := by
  have hm := hstep.moves
  cases hm with
  | call ht hcall =>
    obtain ⟨hstarted, hcalled, -⟩ := Task.call_eq hcall
    refine joined_task h hstep.moves (mem_running.mpr hrun) (.inl ?_) ?_ (.inl rfl) (.inl rfl)
      fun k hk => ⟨rfl, rfl⟩
    · exact (phases_of_task ht).trans (congrArg some hstarted)
    · exact (phases_setTask _).trans (by rw [hcalled])

theorem joined_complete {w : Fin (n + 1)} {i : Nat} {loop : State} (h : Joined s)
    (hrun : (s.pool.workers w).phase = .running i) (hstep : Step s.loop (.complete w i) loop) :
    Joined { s with loop } := by
  have hm := hstep.moves
  cases hm with
  | wake ht hpublish hpoint =>
    obtain ⟨hcalled, -, rfl⟩ := Task.publish_eq hpublish
    refine joined_task h hstep.moves (mem_running.mpr hrun) (.inr ?_) (phases_setTask _) (.inr rfl)
      (.inr rfl) fun k hk => ?_
    · exact (phases_of_task ht).trans (congrArg some hcalled)
    · rw [hpoint] at hk
      cases hk
  | complete ht hpublish =>
    obtain ⟨hcalled, -, rfl⟩ := Task.publish_eq hpublish
    refine joined_task h hstep.moves (mem_running.mpr hrun) (.inr ?_) (phases_setTask _) (.inr rfl)
      (.inl rfl) fun k hk => ⟨rfl, rfl⟩
    exact (phases_of_task ht).trans (congrArg some hcalled)

theorem joined_finish {w : Fin (n + 1)} {i : Nat} {pool : ThreadPool Unit Nat n} (h : Joined s)
    (hrun : (s.pool.workers w).phase = .running i)
    (hfinished : s.loop.tasks[i]?.map Task.phase = some .finished)
    (hcarrier : s.loop.carrier ≠ some (.worker w)) (hstep : PoolSteps s.pool (.finish w) pool) :
    Joined { s with pool } := by
  have hplaced := placed_step h.poolOk.settled h.placed hstep.moves
  have hok := poolOk_step h.poolOk hstep
  have hfree := free_step h.free (fun _ => by simp) hstep
  have hphase : s.loop.phases[i]? = some .finished := by
    rwa [State.phases, List.getElem?_map]
  cases hstep.moves with
  | work _ hmove => cases hmove
  | @finish w t hrun' =>
    obtain rfl : t = i := by
      rw [hrun'] at hrun
      exact WorkerPhase.running.inj hrun
    -- the other workers run on
    have hother : ∀ v, v ≠ w → ({ s.pool.setWorker w { s.pool.workers w with phase := .loop } with
        executed := s.pool.executed ++ [t] } : ThreadPool Unit Nat n).tasksAt (.running v) =
          s.pool.tasksAt (.running v) := by
      intro v hv
      simp only [ThreadPool.tasksAt, ThreadPool.setWorker_workers_of_ne s.pool w _ hv]
    have hself : ∀ {v j}, j ∈ s.pool.tasksAt (.running v) → v = w → j = t := by
      rintro v j hj rfl
      rw [mem_running, hrun'] at hj
      exact (WorkerPhase.running.inj hj).symm
    refine ⟨h.framed, h.carried, hok, hfree, hplaced, h.abort, ?_, ?_, ?_, ?_, ?_, h.submitted,
      h.calls, h.next⟩
    · intro p j hp hj
      refine h.queued p j hp ?_
      have hback := queue_setWorker (r := s.pool) (w := w) (j := j + 1)
        (a := { s.pool.workers w with phase := .loop }) (fun hj => .inl hj) (fun hj => .inl hj) hp
        (by rwa [tasksAt_executed (by rintro rfl; cases hp)] at hj)
      exact hback.resolve_right (Nat.succ_ne_self j).symm
    · intro v j hj
      rcases eq_or_ne v w with rfl | hv
      · simp [ThreadPool.tasksAt, WorkerPhase.tasks] at hj
      · exact h.running v j (hother v hv ▸ hj)
    · intro v j hj
      obtain ⟨u, hu, hj'⟩ := h.started v j hj
      refine ⟨u, hu, ?_⟩
      rw [hother u fun heq => ?_]
      · exact hj'
      · rw [hself hj' heq] at hj
        simp [hphase] at hj
    · intro v hv
      obtain ⟨u, rfl, j, hj⟩ := h.carrying v hv
      refine ⟨u, rfl, j, ?_⟩
      rw [hother u fun heq => hcarrier (heq ▸ hv)]
      exact hj
    · intro j hj
      rcases List.mem_append.mp hj with hj | hj
      · exact h.executed j hj
      · rw [List.mem_singleton] at hj
        exact hj ▸ hphase

/-- Without an abort of the pool a worker does not leave before it takes a task. -/
theorem not_startAborted {w : Fin (n + 1)} {pool : ThreadPool Unit Nat n} (h : Joined s)
    (hstep : PoolSteps s.pool (.start w) pool) : ∃ i, (pool.workers w).phase = .running i := by
  cases hstep.moves with
  | work _ hmove =>
    cases hmove with
    | abort _ habort =>
      rw [(h.poolOk.opened h.abort _).2] at habort
      cases habort
    | @start ts i =>
      refine ⟨i, ?_⟩
      rw [ThreadPool.setWorker_workers_self]

theorem point_of_step (hstep : SystemSteps s l s') : s.loop.point ≠ .aborted := by
  unfold SystemSteps LoopSystem.step at hstep
  split at hstep
  · cases hstep
  · next hpoint => exact hpoint

theorem joined_init : Joined (.init : LoopSystem n) where
  framed := framed_init
  carried := carried_init
  poolOk := poolOk_init
  free _ := rfl
  placed := placed_run .nil
  abort := rfl
  queued p i hp hi := by
    cases p with
    | publicQueue | privateQueue => exact absurd hi List.not_mem_nil
    | _ => cases hp
  running w i hi := absurd hi List.not_mem_nil
  started v i hi := by simp [LoopSystem.init, State.phases] at hi
  carrying v hv := by cases hv
  executed i hi := absurd hi List.not_mem_nil
  submitted i hi := by simp [LoopSystem.init, State.phases] at hi
  calls c := ⟨trivial, fun hc => absurd rfl hc⟩
  next i hi := absurd hi List.not_mem_nil

theorem joined_step (h : Joined s) (hstep : SystemSteps s l s') : Joined s' := by
  have hpoint := point_of_step hstep
  cases hstep.moves with
  | own hl hquiet hown => exact joined_own h hl hquiet hown
  | enqueue hsubmit hcarrier hpool => exact joined_enqueue h hsubmit hcarrier hpool
  | pushLocal hsubmit hcarrier hcall hpool => exact joined_pushLocal h hsubmit hcarrier hcall hpool
  | pushForeign hsubmit hcarrier hcall hpool =>
    exact joined_pushForeign h hsubmit hcarrier hcall hpool
  | pool hl hpool => exact joined_within h hl hpool
  | start hpool hrun ht => exact joined_start h hpool hrun ht hpoint
  | startAborted hpool hno =>
    obtain ⟨i, hi⟩ := not_startAborted h hpool
    exact absurd hi (hno i)
  | call hrun hcall => exact joined_call h hrun hcall
  | complete hrun hcomplete => exact joined_complete h hrun hcomplete
  | finish hrun hfinished hcarrier hpool => exact joined_finish h hrun hfinished hcarrier hpool

/-- Where the loop sees a step of the system, it takes it. -/
theorem loop_step (h : Joined s) (hstep : SystemSteps s l s') :
    (s.loopLabel l = none → s'.loop = s.loop) ∧
      ∀ l', s.loopLabel l = some l' → Step s.loop l' s'.loop := by
  have hpoint := point_of_step hstep
  cases hstep.moves with
  | own hl hquiet hown =>
    refine ⟨fun hnone => (by cases hnone), fun l' hl' => ?_⟩
    cases hl'
    exact hown
  | enqueue | pool | finish => exact ⟨fun _ => rfl, fun l' hl' => by cases hl'⟩
  | pushLocal hsubmit hcarrier | pushForeign hsubmit hcarrier =>
    refine ⟨fun hnone => (by cases hnone), fun l' hl' => ?_⟩
    cases hl'
    exact push_step hsubmit hcarrier
  | start hpool hrun ht =>
    have htaken := taken_start hpool.moves hrun
    simp only [LoopSystem.loopLabel, htaken.last, Option.map_some]
    refine ⟨fun hnone => (by cases hnone), fun l' hl' => ?_⟩
    cases hl'
    exact start_step h htaken ht hpoint
  | startAborted hpool hno =>
    obtain ⟨i, hi⟩ := not_startAborted h hpool
    exact absurd hi (hno i)
  | call hrun hown | complete hrun hown =>
    simp only [LoopSystem.loopLabel, runningTask_eq.mpr hrun, Option.map_some]
    refine ⟨fun hnone => (by cases hnone), fun l' hl' => ?_⟩
    cases hl'
    exact hown

theorem pool_step (hstep : SystemSteps s l s') :
    (s.poolLabel l = none → s'.pool = s.pool) ∧
      ∀ l', s.poolLabel l = some l' → PoolSteps s.pool l' s'.pool := by
  cases hstep.moves with
  | own | call | complete => exact ⟨fun _ => rfl, fun l' hl' => by cases hl'⟩
  | enqueue _ hcarrier hpool =>
    simp only [LoopSystem.poolLabel, hcarrier, Option.map_some]
    refine ⟨fun hnone => (by cases hnone), fun l' hl' => ?_⟩
    cases hl'
    exact hpool
  | pushLocal _ hcarrier hcall hpool | pushForeign _ hcarrier hcall hpool =>
    simp only [LoopSystem.poolLabel, hcarrier, hcall, Option.map_some]
    refine ⟨fun hnone => (by cases hnone), fun l' hl' => ?_⟩
    cases hl'
    exact hpool
  | pool _ hpool | start hpool | startAborted hpool | finish _ _ _ hpool =>
    refine ⟨fun hnone => (by cases hnone), fun l' hl' => ?_⟩
    cases hl'
    exact hpool

variable {tr : List (LoopSystem n × SystemLabel n × LoopSystem n)}

theorem joined_run (h : Run SystemSteps .init tr s) : Joined s :=
  h.inv_all joined_init joined_step

theorem loop_run (h : Run SystemSteps .init tr s) :
    Run Step State.init (image LoopSystem.loop LoopSystem.loopLabel tr) s.loop :=
  h.simulate (I := Joined) (f := LoopSystem.loop) (g := LoopSystem.loopLabel) joined_init joined_step
    (fun hI hstep => (loop_step hI hstep).1) fun hI hstep hl => (loop_step hI hstep).2 _ hl

theorem pool_run (h : Run SystemSteps .init tr s) :
    Run PoolSteps .init (image LoopSystem.pool LoopSystem.poolLabel tr) s.pool :=
  h.simulate (I := fun _ => True) (f := LoopSystem.pool) (g := LoopSystem.poolLabel) trivial
    (fun _ _ => trivial) (fun _ hstep => (pool_step hstep).1)
    fun _ hstep hl => (pool_step hstep).2 _ hl

end JoinedLemmas

open JoinedLemmas

variable {n : Nat} {s : LoopSystem n} {tr : List (LoopSystem n × SystemLabel n × LoopSystem n)}

/-- A run of the system is a run of the loop, for which it is free which worker takes a task and
when, and one of the pool. -/
theorem loop_over_pool (h : Run SystemSteps .init tr s) :
    Run Step State.init (image LoopSystem.loop LoopSystem.loopLabel tr) s.loop ∧
      Run PoolSteps .init (image LoopSystem.pool LoopSystem.poolLabel tr) s.pool :=
  ⟨loop_run h, pool_run h⟩

/-- The first frame: the main thread submits both tasks, and the worker of each carries `Loop`
on. -/
def firstFrame (v w : Fin 2) : List (SystemLabel 1) :=
  [.own .construct, .own (.peek none),
   .enqueue, .pool (.enter (.external ())), .pool (.find (.external ()) (some v)), .push,
   .enqueue, .pool (.enter (.external ())), .pool (.find (.external ()) (some w)), .push,
   .pool (.drain v), .pool (.balance v []), .start v, .own .await, .call v (.returned .void),
   .complete v, .own .resume, .own .await, .own .resume, .own .await, .finish v,
   .pool (.drain w), .pool (.balance w []), .start w, .call w (.returned (.updated true)),
   .complete w, .own .resume, .own .await, .own .resume, .own (.check .abort), .own .startSync,
   .own .endSync]

theorem loop_over_pool_frame : ∃ tr s, Run SystemSteps (.init : LoopSystem 1) tr s ∧
    s.loop.syncsDone = 1 ∧ s.loop.carrier = some (.worker 1) ∧ s.pool.executed = [0] ∧
      (Run Step State.init (image LoopSystem.loop LoopSystem.loopLabel tr) s.loop ∧
        Run PoolSteps .init (image LoopSystem.pool LoopSystem.poolLabel tr) s.pool) := by
  obtain ⟨tr, s, hrun, -, hview⟩ := exists_run LoopSystem.step (R := SystemSteps) id
    (.init : LoopSystem 1) (firstFrame 0 1)
    (fun r => (r.2.loop.syncsDone, r.2.loop.carrier, r.2.pool.executed))
    (v := (1, some (.worker 1), [0])) (by decide)
  obtain ⟨hsyncs, hrest⟩ := Prod.mk.inj hview
  obtain ⟨hcarrier, hexecuted⟩ := Prod.mk.inj hrest
  exact ⟨tr, s, hrun, hsyncs, hcarrier, hexecuted, loop_over_pool hrun⟩

end FlavoEngine.Engine
